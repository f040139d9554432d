import SqlSelect.Tree.Interpretation
namespace SqlSelect

/-- The tokens of a body: all but its last clauses, and those. -/
structure Parts where
  main : Tokens
  tail : Tokens := []

namespace Parts

/-- The tokens of a body that no query is around. -/
def whole (p : Parts) : Tokens := p.main ++ p.tail

end Parts

namespace Writing

open Phrase

/-- What stands between two operands of a set operation. -/
def separator (op : SetOperator) (all : Bool) : Tokens :=
  spaced (word op.keyword) ++ onlyIf all (spaced (word .ALL)) ++ [.space]

def interpretation : Interpretation Tokens Parts Tokens where
  all operands := joined (spaced (thenSpace (word .AND))) operands
  any operands := joined (spaced (thenSpace (word .OR))) operands
  binary op left right := left ++ spaced [op.token] ++ spaced right
  column name := name.tokens
  call c := c.tokens
  inList subject members negated :=
    subject ++ onlyIf negated (spaced (word .NOT)) ++ spaced (word .IN) ++
      spaced (parens (commas members))
  isNull subject negated :=
    subject ++ spaced (word .IS) ++ onlyIf negated (spaced (word .NOT)) ++ spaced (word .NULL)
  nested inner := parens inner
  not operand := word .NOT ++ spaced operand
  raw text := [.verbatim text]
  subquery query := parens query
  literal value := value.tokens
  select s := ⟨s.main, s.tail⟩
  combined op all operands := { main := joined (separator op all) (operands.map Parts.whole) }
  enclosed query := { main := parens query }
  query envelope body := envelope.leading ++ body.main ++ envelope.trailing ++ body.tail

end Writing

def Expr.tokens (e : Expr) : Tokens := Writing.interpretation.ofExpr e

def Query.tokens (q : Query) : Tokens := Writing.interpretation.ofQuery q

def Body.parts (b : Body) : Parts := Writing.interpretation.ofBody b

def Body.tokens (b : Body) : Tokens := b.parts.whole

instance : Written Expr := ⟨Expr.tokens⟩

instance : Written Query := ⟨Query.tokens⟩

instance : Written Body := ⟨Body.tokens⟩

instance : Written (Select Expr Query) := ⟨fun s => Select.tokens (s.map Expr.tokens Query.tokens)⟩

end SqlSelect
