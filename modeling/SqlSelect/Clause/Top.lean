import SqlSelect.Agree
import SqlSelect.Written
namespace SqlSelect

variable {ε ε' α : Type}

/-- How many of the first rows to keep. -/
structure Top (ε : Type) where
  quantity : ε
  parenthesized : Bool := false
  percent : Bool := false
  withTies : Bool := false

namespace Top

open Phrase

def of (quantity : ε) : Top ε := { quantity }

def inParens (t : Top ε) : Top ε := { t with parenthesized := true }

def asPercent (t : Top ε) : Top ε := { t with percent := true }

def includingTies (t : Top ε) : Top ε := { t with withTies := true }

def map (f : ε → α) (t : Top ε) : Top α := ⟨f t.quantity, t.parenthesized, t.percent, t.withTies⟩

def agree (expr : ε → ε' → Bool) (a : Top ε) (b : Top ε') : Bool :=
  expr a.quantity b.quantity && a.parenthesized == b.parenthesized && a.percent == b.percent &&
    a.withTies == b.withTies

instance [BEq ε] : BEq (Top ε) := ⟨agree (· == ·)⟩

def tokens (t : Top Tokens) : Tokens :=
  word .TOP ++ spaced (if t.parenthesized then parens t.quantity else t.quantity) ++
    onlyIf t.percent (spaced (word .PERCENT)) ++
    onlyIf t.withTies (spaced (words [.WITH, .TIES]))

instance [Written ε] : Written (Top ε) := ⟨fun t => (t.map Written.tokens).tokens⟩

end Top
end SqlSelect
