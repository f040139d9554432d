import SqlSelect.Tree.Basic
namespace SqlSelect.Expr

/-- The conjunction of two expressions, which takes up the operands of either one
    that is a conjunction already. -/
def and : Expr → Expr → Expr
  | .all operands, .all more => .all (operands ++ more)
  | .all operands, right => .all (operands ++ [right])
  | left, .all operands => .all (left :: operands)
  | left, right => .all [left, right]

/-- The disjunction of two expressions, which takes up the operands of either one
    that is a disjunction already. -/
def or : Expr → Expr → Expr
  | .any operands, .any more => .any (operands ++ more)
  | .any operands, right => .any (operands ++ [right])
  | left, .any operands => .any (left :: operands)
  | left, right => .any [left, right]

def null : Expr := .literal .null

def bool (value : Bool) : Expr := .literal (.bool value)

def int (value : Int64) : Expr := .literal (.int value)

def string (contents : String) : Expr := .literal (.string contents)

def isLiteral : Expr → Bool
  | .literal _ => true
  | _ => false

def isTrue : Expr → Bool
  | .literal (.bool true) => true
  | _ => false

def column? : Expr → Option Name
  | .column name => some name
  | _ => none

def operands? : Expr → Option (List Expr)
  | .all operands | .any operands => some operands
  | _ => none

/-- What has to hold for the expression to hold, as far as it is a conjunction. -/
def conjuncts : Expr → List Expr
  | .all operands => operands
  | e => [e]

/-- The alternatives of the expression, as far as it is a disjunction. -/
def disjuncts : Expr → List Expr
  | .any operands => operands
  | e => [e]

theorem and_eq (left right : Expr) : left.and right = .all (left.conjuncts ++ right.conjuncts) := by
  cases left <;> cases right <;> rfl

theorem or_eq (left right : Expr) : left.or right = .any (left.disjuncts ++ right.disjuncts) := by
  cases left <;> cases right <;> rfl

@[simp] theorem conjuncts_and (left right : Expr) :
    (left.and right).conjuncts = left.conjuncts ++ right.conjuncts := by
  rw [and_eq, conjuncts]

end SqlSelect.Expr
