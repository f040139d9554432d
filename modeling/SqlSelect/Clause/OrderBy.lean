import SqlSelect.Agree
import SqlSelect.Written
namespace SqlSelect

variable {ε ε' α : Type}

inductive SortOrder where
  | ascending | descending
  deriving DecidableEq

def SortOrder.keyword : SortOrder → Keyword
  | .ascending => .ASC
  | .descending => .DESC

/-- Where rows without a value go. -/
inductive NullsPlace where
  | first | last
  deriving DecidableEq

def NullsPlace.keyword : NullsPlace → Keyword
  | .first => .FIRST
  | .last => .LAST

/-- One key to order by. -/
structure SortKey (ε : Type) where
  expr : ε
  order? : Option SortOrder := none
  nulls? : Option NullsPlace := none

namespace SortKey

open Phrase

def of (expr : ε) : SortKey ε := { expr }

def ascending (expr : ε) : SortKey ε := { expr, order? := some .ascending }

def descending (expr : ε) : SortKey ε := { expr, order? := some .descending }

def placing (k : SortKey ε) (nulls : NullsPlace) : SortKey ε := { k with nulls? := some nulls }

def map (f : ε → α) (k : SortKey ε) : SortKey α := ⟨f k.expr, k.order?, k.nulls?⟩

def agree (expr : ε → ε' → Bool) (a : SortKey ε) (b : SortKey ε') : Bool :=
  expr a.expr b.expr && a.order? == b.order? && a.nulls? == b.nulls?

instance [BEq ε] : BEq (SortKey ε) := ⟨agree (· == ·)⟩

def tokens (k : SortKey Tokens) : Tokens :=
  k.expr ++ optional (fun order => spaced (word order.keyword)) k.order? ++
    optional (fun nulls => spaced (words [.NULLS, nulls.keyword])) k.nulls?

end SortKey

/-- The keys of a result's order, outermost first. -/
structure OrderBy (ε : Type) where
  keys : List (SortKey ε) := []
  /-- Order only the rows under one parent in a hierarchy. -/
  siblings : Bool := false

namespace OrderBy

open Phrase

def of (keys : List (SortKey ε)) : OrderBy ε := { keys }

def ofKey (key : SortKey ε) : OrderBy ε := of [key]

def amongSiblings (o : OrderBy ε) : OrderBy ε := { o with siblings := true }

def map (f : ε → α) (o : OrderBy ε) : OrderBy α := ⟨o.keys.map (·.map f), o.siblings⟩

def agree (expr : ε → ε' → Bool) (a : OrderBy ε) (b : OrderBy ε') : Bool :=
  agreeList (SortKey.agree expr) a.keys b.keys && a.siblings == b.siblings

instance [BEq ε] : BEq (OrderBy ε) := ⟨agree (· == ·)⟩

def tokens (o : OrderBy Tokens) : Tokens :=
  thenSpace (word .ORDER) ++ onlyIf o.siblings (thenSpace (word .SIBLINGS)) ++
    thenSpace (word .BY) ++ commas (o.keys.map SortKey.tokens)

instance [Written ε] : Written (OrderBy ε) := ⟨fun o => (o.map Written.tokens).tokens⟩

end OrderBy
end SqlSelect
