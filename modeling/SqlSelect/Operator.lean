import SqlSelect.Written
namespace SqlSelect

/-- An operator between two expressions. -/
inductive Operator where
  | eq | ne | ge | gt | le | lt
  | add | sub | mul | div
  | like | concat
  deriving DecidableEq

namespace Operator

def token : Operator → Token
  | .eq => .symbol .equal
  | .ne => .symbol .notEqual
  | .ge => .symbol .greaterEqual
  | .gt => .symbol .greater
  | .le => .symbol .lessEqual
  | .lt => .symbol .less
  | .add => .symbol .plus
  | .sub => .symbol .minus
  | .mul => .symbol .star
  | .div => .symbol .slash
  | .like => .keyword .LIKE
  | .concat => .symbol .bars

end Operator
end SqlSelect
