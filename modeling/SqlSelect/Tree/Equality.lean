import SqlSelect.Tree.Interpretation
namespace SqlSelect

/-!
# Equality of trees

Trees are equal when they have the same shape and equal leaves.  Doubles are
compared as numbers, so a tree that holds a NaN is not equal to itself, and two
equal trees may differ in the sign of a zero.
-/

namespace Comparison

/-- A tree is interpreted as the test for trees equal to it. -/
def interpretation : Interpretation (Expr → Bool) (Body → Bool) (Query → Bool) where
  all tests
    | .all operands => agreeList (fun test => test) tests operands
    | _ => false
  any tests
    | .any operands => agreeList (fun test => test) tests operands
    | _ => false
  binary op left right
    | .binary op' left' right' => op == op' && left left' && right right'
    | _ => false
  column name
    | .column name' => name == name'
    | _ => false
  call c
    | .call c' => c.agree (fun test => test) c'
    | _ => false
  inList subject members negated
    | .inList subject' members' negated' =>
        subject subject' && agreeList (fun test => test) members members' && negated == negated'
    | _ => false
  isNull subject negated
    | .isNull subject' negated' => subject subject' && negated == negated'
    | _ => false
  nested inner
    | .nested inner' => inner inner'
    | _ => false
  not operand
    | .not operand' => operand operand'
    | _ => false
  raw text
    | .raw text' => text == text'
    | _ => false
  subquery query
    | .subquery query' => query query'
    | _ => false
  literal value
    | .literal value' => value == value'
    | _ => false
  select s
    | .select s' => s.agree (fun test => test) (fun test => test) s'
    | _ => false
  combined op all operands
    | .combined op' all' operands' =>
        op == op' && all == all' && agreeList (fun test => test) operands operands'
    | _ => false
  enclosed query
    | .enclosed query' => query query'
    | _ => false
  query envelope body other :=
    envelope.agree (fun test => test) (fun test => test) other.envelope && body other.body

end Comparison

def Expr.eq (a b : Expr) : Bool := Comparison.interpretation.ofExpr a b

def Body.eq (a b : Body) : Bool := Comparison.interpretation.ofBody a b

def Query.eq (a b : Query) : Bool := Comparison.interpretation.ofQuery a b

instance : BEq Expr := ⟨Expr.eq⟩

instance : BEq Body := ⟨Body.eq⟩

instance : BEq Query := ⟨Query.eq⟩

end SqlSelect
