import SqlSelect.Edit.Select
namespace SqlSelect

variable {ε κ : Type}

inductive EnvelopeEdit (ε κ : Type) where
  | withClause (clause : With κ)
  | orderBy (orderBy : OrderBy ε)
  | limit (limit : Limit ε)
  | offset (offset : Offset ε)
  | fetch (fetch : Fetch ε)
  | lock (lock : Lock)
  | locks (locks : List Lock)

namespace Envelope

def edit (e : Envelope ε κ) : EnvelopeEdit ε κ → Envelope ε κ
  | .withClause clause => { e with with? := some clause }
  | .orderBy orderBy => { e with orderBy? := some orderBy }
  | .limit limit => { e with limit? := some limit }
  | .offset offset => { e with offset? := some offset }
  | .fetch fetch => { e with fetch? := some fetch }
  | .lock lock => { e with locks := e.locks ++ [lock] }
  | .locks locks => { e with locks := locks }

end Envelope

/-- A body with one more operand of a set operation.  An operation of the same
    kind takes the operand in; any other body becomes the first operand. -/
def Body.combine (op : SetOperator) (all : Bool) (b operand : Body) : Body :=
  match b with
  | .combined op' all' operands =>
      if op' = op ∧ all' = all then .combined op all (operands ++ [operand])
      else .combined op all [b, operand]
  | _ => .combined op all [b, operand]

namespace Query

def edit (q : Query) (e : EnvelopeEdit Expr Query) : Query :=
  { q with envelope := q.envelope.edit e }

def run (q : Query) (edits : List (EnvelopeEdit Expr Query)) : Query := edits.foldl edit q

/-- Combine the body with another query, the clauses around the body staying as
    they are. -/
def combine (op : SetOperator) (all : Bool) (q other : Query) : Query :=
  { q with body := q.body.combine op all (.ofQuery other) }

def union (q other : Query) : Query := q.combine .union false other

def unionAll (q other : Query) : Query := q.combine .union true other

def filtered (source : Relation Expr Query) (condition : Expr) : Query :=
  ofSelect (.filtered source condition)

def mapSelect (q : Query) (f : Select Expr Query → Select Expr Query) : Query :=
  match q.body with
  | .select s => { q with body := .select (f s) }
  | _ => q

end Query
end SqlSelect
