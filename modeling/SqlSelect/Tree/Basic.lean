import SqlSelect.Clause.Envelope
import SqlSelect.Clause.Select
import SqlSelect.Literal
import SqlSelect.Operator
namespace SqlSelect

/-! Expressions, query bodies and queries contain one another.  The clauses between
them are the ones defined over arbitrary expressions and queries, taken here at
the trees themselves.
-/

inductive SetOperator where
  | union | intersect | except | minus
  deriving DecidableEq

def SetOperator.keyword : SetOperator → Keyword
  | .union => .UNION
  | .intersect => .INTERSECT
  | .except => .EXCEPT
  | .minus => .MINUS

mutual

inductive Expr where
  /-- All operands hold. -/
  | all (operands : List Expr)
  /-- Some operand holds. -/
  | any (operands : List Expr)
  | binary (op : Operator) (left right : Expr)
  | column (name : Name)
  | call (call : Call Expr)
  | inList (subject : Expr) (members : List Expr) (negated : Bool)
  | isNull (subject : Expr) (negated : Bool)
  /-- An expression in parentheses of its own. -/
  | nested (inner : Expr)
  | not (operand : Expr)
  /-- Text that the caller vouches for. -/
  | raw (text : String)
  | subquery (query : Query)
  | literal (value : Literal)

inductive Body where
  | select (select : Select Expr Query)
  | combined (op : SetOperator) (all : Bool) (operands : List Body)
  /-- A query in parentheses, with the clauses around its own body. -/
  | enclosed (query : Query)

structure Query where
  envelope : Envelope Expr Query
  body : Body

end

namespace Body

def select? : Body → Option (Select Expr Query)
  | .select s => some s
  | _ => none

def isSelect : Body → Bool
  | .select _ => true
  | _ => false

def isCombined : Body → Bool
  | .combined _ _ _ => true
  | _ => false

end Body

namespace Query

def of (body : Body) : Query := ⟨{}, body⟩

def ofSelect (s : Select Expr Query) : Query := of (.select s)

def isBare (q : Query) : Bool := q.envelope.isBare

end Query

/-- A query as an operand: its bare body, or the query in parentheses when
    there are clauses around the body. -/
def Body.ofQuery (q : Query) : Body := if q.isBare then q.body else .enclosed q

instance : Inhabited Expr := ⟨.literal .null⟩
instance : Inhabited Body := ⟨.select {}⟩
instance : Inhabited Query := ⟨.of default⟩

end SqlSelect
