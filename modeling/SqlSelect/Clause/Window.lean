import SqlSelect.Clause.OrderBy
namespace SqlSelect

variable {ε ε' α : Type}

/-- What a window is: another window made narrower, a partition of the rows, and
    their order. -/
structure WindowSpec (ε : Type) where
  base? : Option String := none
  partition : List ε := []
  order : List (SortKey ε) := []

namespace WindowSpec

open Phrase

def basedOn (s : WindowSpec ε) (name : String) : WindowSpec ε := { s with base? := some name }

def partitionBy (s : WindowSpec ε) (e : ε) : WindowSpec ε :=
  { s with partition := s.partition ++ [e] }

def orderBy (s : WindowSpec ε) (k : SortKey ε) : WindowSpec ε := { s with order := s.order ++ [k] }

def map (f : ε → α) (s : WindowSpec ε) : WindowSpec α :=
  ⟨s.base?, s.partition.map f, s.order.map (·.map f)⟩

def agree (expr : ε → ε' → Bool) (a : WindowSpec ε) (b : WindowSpec ε') : Bool :=
  a.base? == b.base? && agreeList expr a.partition b.partition &&
    agreeList (SortKey.agree expr) a.order b.order

instance [BEq ε] : BEq (WindowSpec ε) := ⟨agree (· == ·)⟩

/-- The parts that are present. -/
def pieces (s : WindowSpec Tokens) : List Tokens :=
  (s.base?.map fun name => [Token.ident name]).toList ++
    (if s.partition.isEmpty then []
      else [thenSpace (words [.PARTITION, .BY]) ++ commas s.partition]) ++
    (if s.order.isEmpty then []
      else [thenSpace (words [.ORDER, .BY]) ++ commas (s.order.map SortKey.tokens)])

def tokens (s : WindowSpec Tokens) : Tokens := joined [.space] s.pieces

end WindowSpec

structure NamedWindow (ε : Type) where
  name : String
  spec : WindowSpec ε

namespace NamedWindow

open Phrase

def map (f : ε → α) (w : NamedWindow ε) : NamedWindow α := ⟨w.name, w.spec.map f⟩

def agree (expr : ε → ε' → Bool) (a : NamedWindow ε) (b : NamedWindow ε') : Bool :=
  a.name == b.name && a.spec.agree expr b.spec

instance [BEq ε] : BEq (NamedWindow ε) := ⟨agree (· == ·)⟩

def tokens (w : NamedWindow Tokens) : Tokens :=
  [.ident w.name] ++ spaced (word .AS) ++ spaced (parens w.spec.tokens)

instance [Written ε] : Written (NamedWindow ε) := ⟨fun w => (w.map Written.tokens).tokens⟩

end NamedWindow
end SqlSelect
