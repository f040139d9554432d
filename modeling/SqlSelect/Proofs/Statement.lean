import SqlSelect.Proofs.Layout.Tree
import SqlSelect.Proofs.Outline.Tree
namespace SqlSelect

/-- A query, or a select without a query around it. -/
inductive Statement where
  | query (query : Query)
  | select (select : Select Expr Query)

namespace Select

def treeOutline (s : Select Expr Query) : Outline := (s.map Expr.outline Query.outline).outline

theorem content_written (s : Select Expr Query) : (Written.tokens s).content = s.treeOutline := by
  have parts : (s.map Expr.tokens Query.tokens).map Tokens.content Tokens.content =
      s.map Expr.outline Query.outline := by
    have parts := Writing.content_hom.ofSelect s
    rw [Interpretation.ofSelect_eq, Interpretation.ofSelect_eq] at parts
    exact parts
  rw [treeOutline, ← parts, outline, slotsOutline_append, ← content_main, ← content_tail,
    ← Tokens.content_append]
  rfl

end Select

namespace Statement

def tokens : Statement → Tokens
  | .query q => Written.tokens q
  | .select s => Written.tokens s

instance : Written Statement := ⟨tokens⟩

def outline : Statement → Outline
  | .query q => q.outline
  | .select s => s.treeOutline

def Filled : Statement → Prop
  | .query q => q.Filled
  | .select s => (s.map Expr.Filled Query.Filled).Filled

theorem content_tokens (s : Statement) : s.tokens.content = s.outline := by
  cases s with
  | query q => exact q.content_tokens
  | select s => exact s.content_written

/-- What silent tokens satisfy holds of all tokens when it does in the outline. -/
theorem forall_tokens {P : Token → Prop} (silent : ∀ t, t.isContent = false → P t)
    {s : Statement} (said : ∀ t ∈ s.outline, P t) : ∀ t ∈ s.tokens, P t := by
  intro t member
  cases spoken : t.isContent with
  | false => exact silent t spoken
  | true =>
      refine said t ?_
      rw [← s.content_tokens]
      exact List.mem_filter.mpr ⟨member, spoken⟩

theorem shaped {full : Prop} {s : Statement} (filled : full → s.Filled) :
    Shaped full true .piece s.tokens := by
  cases s with
  | query q => exact Query.shaped filled
  | select s =>
      have main := Select.shaped_main (fun _ => Expr.shaped) (fun _ => Query.shaped) filled
      exact (Shaped.trailed main (Select.shaped_tail _)).weaken

end Statement
end SqlSelect
