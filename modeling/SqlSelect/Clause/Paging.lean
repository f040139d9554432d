import SqlSelect.Agree
import SqlSelect.Written
namespace SqlSelect

variable {ε ε' α : Type}

open Phrase

inductive Limit (ε : Type) where
  | all
  | count (rows : ε)

namespace Limit

def map (f : ε → α) : Limit ε → Limit α
  | .all => .all
  | .count rows => .count (f rows)

def agree (expr : ε → ε' → Bool) : Limit ε → Limit ε' → Bool
  | .all, .all => true
  | .count e, .count e' => expr e e'
  | _, _ => false

instance [BEq ε] : BEq (Limit ε) := ⟨agree (· == ·)⟩

def tokens : Limit Tokens → Tokens
  | .all => words [.LIMIT, .ALL]
  | .count rows => word .LIMIT ++ spaced rows

instance [Written ε] : Written (Limit ε) := ⟨fun l => (l.map Written.tokens).tokens⟩

end Limit

/-- The word after the number of rows passed over. -/
inductive RowWord where
  | row | rows
  deriving DecidableEq

def RowWord.keyword : RowWord → Keyword
  | .row => .ROW
  | .rows => .ROWS

structure Offset (ε : Type) where
  rows : ε
  word? : Option RowWord := none

namespace Offset

def of (rows : ε) : Offset ε := { rows }

def followedBy (o : Offset ε) (w : RowWord) : Offset ε := { o with word? := some w }

def map (f : ε → α) (o : Offset ε) : Offset α := ⟨f o.rows, o.word?⟩

def agree (expr : ε → ε' → Bool) (a : Offset ε) (b : Offset ε') : Bool :=
  expr a.rows b.rows && a.word? == b.word?

instance [BEq ε] : BEq (Offset ε) := ⟨agree (· == ·)⟩

def tokens (o : Offset Tokens) : Tokens :=
  word .OFFSET ++ spaced o.rows ++ optional (fun w => spaced (word w.keyword)) o.word?

instance [Written ε] : Written (Offset ε) := ⟨fun o => (o.map Written.tokens).tokens⟩

end Offset

structure Fetch (ε : Type) where
  quantity? : Option ε := none
  percent : Bool := false
  /-- Also return the rows that rank with the last one. -/
  withTies : Bool := false

namespace Fetch

def first (quantity : ε) : Fetch ε := { quantity? := some quantity }

def asPercent (x : Fetch ε) : Fetch ε := { x with percent := true }

def includingTies (x : Fetch ε) : Fetch ε := { x with withTies := true }

def map (f : ε → α) (x : Fetch ε) : Fetch α := ⟨x.quantity?.map f, x.percent, x.withTies⟩

def agree (expr : ε → ε' → Bool) (a : Fetch ε) (b : Fetch ε') : Bool :=
  agreeOption expr a.quantity? b.quantity? && a.percent == b.percent && a.withTies == b.withTies

instance [BEq ε] : BEq (Fetch ε) := ⟨agree (· == ·)⟩

def tokens (x : Fetch Tokens) : Tokens :=
  words [.FETCH, .FIRST] ++ optional spaced x.quantity? ++
    onlyIf x.percent (spaced (word .PERCENT)) ++ spaced (word .ROWS) ++
    spaced (if x.withTies then words [.WITH, .TIES] else word .ONLY)

instance [Written ε] : Written (Fetch ε) := ⟨fun x => (x.map Written.tokens).tokens⟩

end Fetch
end SqlSelect
