import SqlSelect.Tree.Clauses
import SqlSelect.Tree.Tokens
namespace SqlSelect

open Writing

namespace Body

theorem parts_select (s : Select Expr Query) :
    (Body.select s).parts =
      ⟨(s.map Expr.tokens Query.tokens).main, (s.map Expr.tokens Query.tokens).tail⟩ := by
  rw [parts, Interpretation.ofBody, Interpretation.ofSelect_eq]
  rfl

theorem parts_combined (op : SetOperator) (all : Bool) (operands : List Body) :
    (Body.combined op all operands).parts =
      { main := Phrase.joined (separator op all) (operands.map Body.tokens) } := by
  have written : (Body.combined op all operands).parts =
      { main := Phrase.joined (separator op all) ((operands.map Body.parts).map Parts.whole) } := by
    rw [parts, Interpretation.ofBody, Interpretation.ofBodies_eq]
    rfl
  rw [written, List.map_map]
  rfl

theorem tokens_select (s : Select Expr Query) : (Body.select s).tokens = Written.tokens s := by
  rw [Body.tokens, parts_select]
  rfl

theorem tokens_combined (op : SetOperator) (all : Bool) (operands : List Body) :
    (Body.combined op all operands).tokens =
      Phrase.joined (separator op all) (operands.map Body.tokens) := by
  rw [Body.tokens, parts_combined]
  exact List.append_nil _

theorem tokens_enclosed (q : Query) : (Body.enclosed q).tokens = Phrase.parens q.tokens :=
  List.append_nil _

end Body

/-- The clauses of the envelope stand around a body, but before its last
    clauses. -/
theorem Query.tokens_mk (envelope : Envelope Expr Query) (body : Body) :
    Query.tokens ⟨envelope, body⟩ =
      (envelope.map Expr.tokens Query.tokens).leading ++ body.parts.main ++
        (envelope.map Expr.tokens Query.tokens).trailing ++ body.parts.tail := by
  rw [Query.tokens, Interpretation.ofQuery_eq]
  rfl

end SqlSelect
