import SqlSelect.Clause.Item
namespace SqlSelect

variable {ε ε' α : Type}

/-- Which rows count as repeated. -/
structure Distinct (ε : Type) where
  /-- Written `UNIQUE` instead of `DISTINCT`. -/
  unique : Bool := false
  /-- The items that are compared, when not all are. -/
  on : List (Item ε) := []

namespace Distinct

open Phrase

def onItems (items : List (Item ε)) : Distinct ε := { on := items }

def map (f : ε → α) (d : Distinct ε) : Distinct α := ⟨d.unique, d.on.map (·.map f)⟩

def agree (expr : ε → ε' → Bool) (a : Distinct ε) (b : Distinct ε') : Bool :=
  a.unique == b.unique && agreeList (Item.agree expr) a.on b.on

instance [BEq ε] : BEq (Distinct ε) := ⟨agree (· == ·)⟩

def tokens (d : Distinct Tokens) : Tokens :=
  word (if d.unique then .UNIQUE else .DISTINCT) ++
    nonempty (fun items => spaced (word .ON) ++ spaced (parens (commas (items.map Item.tokens))))
      d.on

instance [Written ε] : Written (Distinct ε) := ⟨fun d => (d.map Written.tokens).tokens⟩

end Distinct
end SqlSelect
