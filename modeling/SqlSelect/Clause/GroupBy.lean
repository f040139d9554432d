import SqlSelect.Agree
import SqlSelect.Written
namespace SqlSelect

variable {ε ε' α : Type}

/-- The expressions to group by, and the grouping sets. -/
structure GroupBy (ε : Type) where
  exprs : List ε := []
  sets : List (List ε) := []

namespace GroupBy

open Phrase

def of (exprs : List ε) : GroupBy ε := { exprs }

def push (g : GroupBy ε) (e : ε) : GroupBy ε := { g with exprs := g.exprs ++ [e] }

def pushSet (g : GroupBy ε) (set : List ε) : GroupBy ε := { g with sets := g.sets ++ [set] }

/-- Whether there is nothing to group by. -/
def isEmpty (g : GroupBy ε) : Bool := g.exprs.isEmpty && g.sets.isEmpty

def map (f : ε → α) (g : GroupBy ε) : GroupBy α := ⟨g.exprs.map f, g.sets.map (·.map f)⟩

def agree (expr : ε → ε' → Bool) (a : GroupBy ε) (b : GroupBy ε') : Bool :=
  agreeList expr a.exprs b.exprs && agreeList (agreeList expr) a.sets b.sets

instance [BEq ε] : BEq (GroupBy ε) := ⟨agree (· == ·)⟩

def tokens (g : GroupBy Tokens) : Tokens :=
  thenSpace (words [.GROUP, .BY]) ++ commas g.exprs ++
    nonempty (fun sets => onlyIf (!g.exprs.isEmpty) [.space] ++
      words [.GROUPING, .SETS] ++ spaced (parens (commas (sets.map (parens <| commas ·))))) g.sets

instance [Written ε] : Written (GroupBy ε) := ⟨fun g => (g.map Written.tokens).tokens⟩

end GroupBy
end SqlSelect
