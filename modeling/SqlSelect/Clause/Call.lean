import SqlSelect.Agree
import SqlSelect.Name
namespace SqlSelect

/-! The clauses of a statement are written over the type `ε` of its expressions and
the type `κ` of the queries nested in it.  With `Tokens` in both places a clause
holds the text of its parts, and that is the form in which it is written.
-/

variable {ε ε' α : Type}

/-- A call such as `COUNT(DISTINCT id)`.  The name is written as it is, without
    quotes. -/
structure Call (ε : Type) where
  function : Name
  args : List ε
  distinct : Bool

namespace Call

open Phrase

def of (function : Name) (args : List ε) : Call ε := ⟨function, args, false⟩

/-- The call over distinct argument values. -/
def overDistinct (c : Call ε) : Call ε := { c with distinct := true }

def map (f : ε → α) (c : Call ε) : Call α := ⟨c.function, c.args.map f, c.distinct⟩

def agree (expr : ε → ε' → Bool) (a : Call ε) (b : Call ε') : Bool :=
  a.function == b.function && agreeList expr a.args b.args && a.distinct == b.distinct

instance [BEq ε] : BEq (Call ε) := ⟨agree (· == ·)⟩

def tokens (c : Call Tokens) : Tokens :=
  joined [.symbol .dot] (c.function.parts.map fun part => [.bare part]) ++
    parens (onlyIf c.distinct (thenSpace (word .DISTINCT)) ++ commas c.args)

instance [Written ε] : Written (Call ε) := ⟨fun c => (c.map Written.tokens).tokens⟩

end Call
end SqlSelect
