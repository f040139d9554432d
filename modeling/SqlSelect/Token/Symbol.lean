namespace SqlSelect

/-- A mark that is not a word. -/
inductive Symbol where
  | openParen | closeParen | comma | dot | star
  | equal | notEqual | greaterEqual | greater | lessEqual | less
  | plus | minus | slash | bars
  | hintOpen | hintClose
  deriving DecidableEq

namespace Symbol

def text : Symbol → String
  | .openParen => "("
  | .closeParen => ")"
  | .comma => ","
  | .dot => "."
  | .star => "*"
  | .equal => "="
  | .notEqual => "<>"
  | .greaterEqual => ">="
  | .greater => ">"
  | .lessEqual => "<="
  | .less => "<"
  | .plus => "+"
  | .minus => "-"
  | .slash => "/"
  | .bars => "||"
  | .hintOpen => "/*+"
  | .hintClose => "*/"

def chars (s : Symbol) : List Char := s.text.toList

theorem chars_ne_nil (s : Symbol) : s.chars ≠ [] := by
  cases s <;> decide

end Symbol
end SqlSelect
