import SqlSelect.Clause.Duration
import SqlSelect.Clause.JoinKind
import SqlSelect.Clause.Relation
namespace SqlSelect

variable {ε ε' α κ κ' β : Type}

/-- A relation joined onto the source of a select. -/
structure Join (ε κ : Type) where
  source : Relation ε κ
  kind : JoinKind := {}
  /-- Sent to every node of a cluster. -/
  global : Bool := false
  /-- Joined in the order in which the relations are written. -/
  straight : Bool := false
  /-- Applied to every row of what stands before it. -/
  apply : Bool := false
  /-- Listed after a comma, without a join keyword. -/
  simple : Bool := false
  hint? : Option JoinHint := none
  on : List ε := []
  usingColumns : List Name := []
  within? : Option Within := none

def JoinHint.keyword : JoinHint → Keyword
  | .loop => .LOOP
  | .hash => .HASH
  | .merge => .MERGE
  | .remote => .REMOTE

instance : Written JoinHint := ⟨fun h => [.keyword h.keyword]⟩

namespace Join

open Phrase

def of (source : Relation ε κ) : Join ε κ := { source }

def map (f : ε → α) (g : κ → β) (j : Join ε κ) : Join α β :=
  { j with source := j.source.map f g, on := j.on.map f }

def agree (expr : ε → ε' → Bool) (query : κ → κ' → Bool) (a : Join ε κ) (b : Join ε' κ') : Bool :=
  a.source.agree expr query b.source && a.kind == b.kind && a.global == b.global &&
    a.straight == b.straight && a.apply == b.apply && a.simple == b.simple &&
    a.hint? == b.hint? && agreeList expr a.on b.on && a.usingColumns == b.usingColumns &&
    a.within? == b.within?

instance [BEq ε] [BEq κ] : BEq (Join ε κ) := ⟨agree (· == ·) (· == ·)⟩

/-- The hint, when it has a place in the text: neither of the words that stand
    for `JOIN` leaves room for one. -/
def hintTokens (j : Join ε κ) : Tokens :=
  if j.straight || j.apply then
    optional (fun hint => [.omitted ⟨hint, j.straight, j.apply⟩]) j.hint?
  else optional (fun hint => thenSpace (word hint.keyword)) j.hint?

def keyword (j : Join ε κ) : Keyword :=
  if j.straight then .STRAIGHT_JOIN else if j.apply then .APPLY else .JOIN

def head (j : Join ε κ) : Tokens :=
  if j.simple then onlyIf j.kind.outer (thenSpace (word .OUTER))
  else
    onlyIf j.kind.natural (thenSpace (word .NATURAL)) ++
      optional (fun side => thenSpace (word side.keyword)) j.kind.side? ++
      optional (fun manner => thenSpace (word manner.keyword)) j.kind.manner? ++
      j.hintTokens ++ thenSpace (word j.keyword)

/-- The window of a join that is not a mere list entry. -/
def windowTokens (j : Join ε κ) : Tokens :=
  if j.simple then []
  else optional (fun w => spaced (word .WITHIN) ++ spaced w.tokens) j.within?

/-- The conditions, each after its own `ON`, and the shared columns. -/
def conditions (j : Join Tokens κ) : Tokens :=
  j.on.flatMap (fun e => spaced (word .ON) ++ spaced e) ++
    nonempty (fun columns => spaced (word .USING) ++
      spaced (parens (commas (columns.map Name.tokens)))) j.usingColumns

def tokens (j : Join Tokens Tokens) : Tokens :=
  onlyIf j.global (thenSpace (word .GLOBAL)) ++ j.head ++ j.source.tokens ++ j.windowTokens ++
    j.conditions

instance [Written ε] [Written κ] : Written (Join ε κ) :=
  ⟨fun j => (j.map Written.tokens Written.tokens).tokens⟩

/-- A join after what is already in the `FROM` list. -/
def listed (j : Join Tokens Tokens) : Tokens :=
  onlyIf j.simple (mark .comma) ++ spaced j.tokens

end Join
end SqlSelect
