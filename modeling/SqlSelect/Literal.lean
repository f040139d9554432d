import SqlSelect.Written
namespace SqlSelect

/-- A literal value. -/
inductive Literal where
  | null
  | bool (value : Bool)
  | int (value : Int64)
  | double (value : Binary64)
  | string (contents : String)

namespace Literal

def isNull : Literal → Bool
  | .null => true
  | _ => false

/-- Literals are equal when they are of one kind and hold equal values; doubles
    are compared as numbers. -/
def eq : Literal → Literal → Bool
  | .null, .null => true
  | .bool a, .bool b => a == b
  | .int a, .int b => a == b
  | .double a, .double b => a.numericEq b
  | .string a, .string b => a == b
  | _, _ => false

instance : BEq Literal := ⟨eq⟩

def tokens : Literal → Tokens
  | .null => [.keyword .NULL]
  | .bool true => [.keyword .TRUE]
  | .bool false => [.keyword .FALSE]
  | .int value => [.int value]
  | .double value => [.double value]
  | .string contents => [.string contents]

instance : Written Literal := ⟨tokens⟩

end Literal
end SqlSelect
