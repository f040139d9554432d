import SqlSelect.Literal
import SqlSelect.Operator
import SqlSelect.Proofs.Parallel.Select
namespace SqlSelect

/-- Whether only a join writes the token.  `STRAIGHT_JOIN` also stands behind
    `SELECT`. -/
@[simp] def Token.isJoinMark : Token → Bool
  | .keyword .JOIN | .keyword .APPLY | .omitted _ => true
  | _ => false

def Tokens.Unmarked (ts : Tokens) : Prop := ∀ t ∈ ts, t.isJoinMark = false

open Phrase Tokens

section

variable {x y separator : Tokens} {pieces : List Tokens} {α : Type}

@[simp] theorem unmarked_nil : Unmarked [] := List.forall_mem_nil _

@[simp] theorem unmarked_cons {t : Token} :
    Unmarked (t :: x) ↔ t.isJoinMark = false ∧ x.Unmarked := List.forall_mem_cons

@[simp] theorem unmarked_append : Unmarked (x ++ y) ↔ x.Unmarked ∧ y.Unmarked :=
  List.forall_mem_append

@[simp] theorem unmarked_word {k : Keyword} :
    (word k).Unmarked ↔ (Token.keyword k).isJoinMark = false := List.forall_mem_singleton

@[simp] theorem unmarked_mark (s : Symbol) : (mark s).Unmarked := by simp [mark]

@[simp] theorem unmarked_words {ks : List Keyword} :
    (words ks).Unmarked ↔ ∀ k ∈ ks, (Token.keyword k).isJoinMark = false := by
  induction ks with
  | nil => simp [words]
  | cons k rest ih =>
      cases rest with
      | nil => simp [words]
      | cons k' rest => simp [words, ih]

@[simp] theorem unmarked_spaced : (spaced x).Unmarked ↔ x.Unmarked := by
  simp [spaced]

@[simp] theorem unmarked_thenSpace : (thenSpace x).Unmarked ↔ x.Unmarked := by
  simp [thenSpace]

@[simp] theorem unmarked_parens : (parens x).Unmarked ↔ x.Unmarked := by
  simp [parens]

@[simp] theorem unmarked_onlyIf {flag : Bool} :
    (onlyIf flag x).Unmarked ↔ (flag = true → x.Unmarked) := by
  cases flag <;> simp [onlyIf]

@[simp] theorem unmarked_optional {f : α → Tokens} {a? : Option α} :
    (Phrase.optional f a?).Unmarked ↔ ∀ a ∈ a?, (f a).Unmarked := by
  cases a? <;> simp [Phrase.optional]

@[simp] theorem unmarked_nonempty {f : List α → Tokens} {xs : List α} :
    (nonempty f xs).Unmarked ↔ (xs ≠ [] → (f xs).Unmarked) := by
  cases xs <;> simp [nonempty]

@[simp] theorem unmarked_flatMap {f : α → Tokens} {xs : List α} :
    Unmarked (xs.flatMap f) ↔ ∀ x ∈ xs, (f x).Unmarked := by
  induction xs with
  | nil => simp
  | cons x rest ih => simp [ih]

theorem unmarked_joined (own : separator.Unmarked) :
    (joined separator pieces).Unmarked ↔ ∀ piece ∈ pieces, piece.Unmarked := by
  cases pieces <;> simp [joined, own]

@[simp] theorem unmarked_commas :
    (commas pieces).Unmarked ↔ ∀ piece ∈ pieces, piece.Unmarked :=
  unmarked_joined (by simp)

end

@[simp] theorem Name.unmarked (n : Name) : n.tokens.Unmarked :=
  (unmarked_joined (by simp)).mpr (by simp)

@[simp] theorem Literal.unmarked (v : Literal) : v.tokens.Unmarked := by
  rcases v with _ | (_ | _) | _ | _ | _ <;> simp [tokens]

theorem Operator.unmarked (op : Operator) : Unmarked [op.token] := by
  cases op <;> simp [token]

@[simp] theorem Alias.unmarked (a : Alias) : a.tokens.Unmarked := by
  simp [tokens]

@[simp] theorem Alias.unmarked_suffix (a? : Option Alias) : (Alias.suffix a?).Unmarked := by
  simp [suffix]

@[simp] theorem Table.unmarked (t : Table) : t.tokens.Unmarked := by
  simp [tokens]

@[simp] theorem Duration.unmarked (d : Duration) : d.tokens.Unmarked := by
  obtain ⟨count, unit⟩ := d
  cases unit <;> cases one : count == 1 <;>
    simp [tokens, keyword, TimeUnit.keyword, one]

@[simp] theorem Within.unmarked (w : Within) : w.tokens.Unmarked := by
  simp [tokens]

@[simp] theorem StreamWindow.unmarked (w : StreamWindow) : w.tokens.Unmarked := by
  cases w <;> simp [tokens]

theorem JoinHint.unmarked (h : JoinHint) : (Written.tokens h).Unmarked := by
  cases h <;> simp [Written.tokens, keyword]

@[simp] theorem OptimizerHint.unmarked (h : OptimizerHint) : (Written.tokens h).Unmarked := by
  simp [Written.tokens]

@[simp] theorem CacheUse.unmarked (c : CacheUse) : (Written.tokens c).Unmarked := by
  cases c <;> simp [Written.tokens, keyword]

@[simp] theorem OptimizeFor.unmarked (o : OptimizeFor) : o.tokens.Unmarked := by
  simp [tokens]

@[simp] theorem Lock.unmarked (l : Lock) : l.tokens.Unmarked := by
  obtain ⟨strength, tables, patience?⟩ := l
  cases strength <;> cases patience? with
  | none => simp [tokens, LockStrength.keyword]
  | some patience =>
      cases patience <;>
        simp [tokens, LockStrength.keyword, LockPatience.keywords]

/-- The text of a part of which only the clause around it counts. -/
def Phrase.silent {α : Type} (_ : α) : Tokens := []

@[simp] theorem unmarked_silent {α : Type} (a : α) : (silent a).Unmarked := unmarked_nil

section

variable {ε κ : Type}

@[simp] theorem Call.unmarked (c : Call ε) : (c.map silent).tokens.Unmarked := by
  simp [tokens, map, unmarked_joined]

@[simp] theorem Item.unmarked (i : Item ε) : (i.map silent).tokens.Unmarked := by
  cases i <;> simp [tokens, map]

@[simp] theorem Relation.unmarked (r : Relation ε κ) :
    (r.map silent silent).tokens.Unmarked := by
  cases r <;> simp [tokens, map]

theorem Join.unmarked_window (j : Join ε κ) : j.windowTokens.Unmarked := by
  cases simple : j.simple <;> simp [windowTokens, simple]

theorem Join.unmarked_conditions (j : Join ε κ) : (j.map silent silent).conditions.Unmarked := by
  simp [conditions, map]

@[simp] theorem LateralView.unmarked (v : LateralView ε) :
    (v.map silent).tokens.Unmarked := by
  simp [tokens, map]

@[simp] theorem GroupBy.unmarked (b : GroupBy ε) : (b.map silent).tokens.Unmarked := by
  simp [tokens, map]

@[simp] theorem SortKey.unmarked (k : SortKey ε) : (k.map silent).tokens.Unmarked := by
  obtain ⟨e, _ | _ | _, _ | _ | _⟩ := k <;>
    simp [tokens, map, SortOrder.keyword, NullsPlace.keyword]

@[simp] theorem Distinct.unmarked (d : Distinct ε) : (d.map silent).tokens.Unmarked := by
  cases unique : d.unique <;> simp [tokens, map, unique]

@[simp] theorem Top.unmarked (t : Top ε) : (t.map silent).tokens.Unmarked := by
  cases parenthesized : t.parenthesized <;> simp [tokens, map, parenthesized]

@[simp] theorem Preference.unmarked (p : Preference ε) :
    (p.map silent).tokens.Unmarked := by
  induction p <;> simp_all [tokens, map]

@[simp] theorem Preferring.unmarked (p : Preferring ε) :
    (p.map silent).tokens.Unmarked := by
  simp [tokens, map]

@[simp] theorem WindowSpec.unmarked (s : WindowSpec ε) :
    (s.map silent).tokens.Unmarked := by
  obtain ⟨base?, partition, order⟩ := s
  refine (unmarked_joined (by simp)).mpr ?_
  cases base? <;> cases partition <;> cases order <;>
    simp [pieces, map]

@[simp] theorem NamedWindow.unmarked (w : NamedWindow ε) :
    (w.map silent).tokens.Unmarked := by
  simp [tokens, map]

@[simp] theorem Hierarchy.unmarked (h : Hierarchy ε) : (h.map silent).tokens.Unmarked := by
  cases first : h.connectFirst <;>
    simp [tokens, startTokens, connectTokens, map, first]

@[simp] theorem Skip.unmarked (s : Skip ε) : (s.map silent).tokens.Unmarked := by
  simp [tokens, map]

@[simp] theorem First.unmarked (x : First ε) : (x.map silent).tokens.Unmarked := by
  cases limit : x.limit <;> simp [tokens, map, limit]

@[simp] theorem InformixClauses.unmarked_head (i : InformixClauses ε) :
    (i.map silent).headTokens.Unmarked := by
  simp [headTokens, map]

@[simp] theorem InformixClauses.unmarked_into (i : InformixClauses ε) :
    i.intoTokens.Unmarked := by
  simp [intoTokens]

@[simp] theorem OrderBy.unmarked (o : OrderBy ε) : (o.map silent).tokens.Unmarked := by
  simp [tokens, map]

@[simp] theorem Limit.unmarked (l : Limit ε) : (l.map silent).tokens.Unmarked := by
  cases l <;> simp [tokens, map]

@[simp] theorem Offset.unmarked (o : Offset ε) : (o.map silent).tokens.Unmarked := by
  obtain ⟨rows, _ | _ | _⟩ := o <;> simp [tokens, map, RowWord.keyword]

@[simp] theorem Fetch.unmarked (x : Fetch ε) : (x.map silent).tokens.Unmarked := by
  cases ties : x.withTies <;> simp [tokens, map, ties]

@[simp] theorem Cte.unmarked (c : Cte κ) : (c.map silent).tokens.Unmarked := by
  simp [tokens, map]

@[simp] theorem With.unmarked (w : With κ) : (w.map silent).tokens.Unmarked := by
  simp [tokens, map]

theorem Envelope.unmarked_leading (e : Envelope ε κ) :
    (e.map silent silent).leading.Unmarked := by
  simp [leading, map]

theorem Envelope.unmarked_trailing (e : Envelope ε κ) :
    (e.map silent silent).trailing.Unmarked := by
  simp [trailing, map]

theorem Select.unmarked_head (s : Select ε κ) : (s.map silent silent).head.Unmarked := by
  rcases shape : s.shape? with _ | _ | _ <;>
    simp [head, map, shape, RowShape.keyword]

theorem Select.unmarked_opening (s : Select ε κ) (source : Relation ε κ) :
    ((s.map silent silent).opening (source.map silent silent)).Unmarked := by
  simp [opening, map]

theorem Select.unmarked_closing (s : Select ε κ) : (s.map silent silent).closing.Unmarked := by
  simp [closing, clause, map, OracleClauses.map]

theorem Select.unmarked_tail (s : Select ε κ) : s.tail.Unmarked := by
  simp [tail]

end

end SqlSelect
