import SqlSelect.Edit.Join
namespace SqlSelect

/-! Each qualifier of a join is as the last edit left it that had a say in it: the
one that switches it, or one that switches on a qualifier that rules it out.
From a join without qualifiers this reaches every kind that is consistent, and
no other.
-/

variable {ε κ : Type}

/-- Whether switching on a qualifier switches off another. -/
def Qualifier.rulesOut : Qualifier → Qualifier → Bool
  | .inner, .left | .inner, .right | .inner, .outer | .inner, .cross | .inner, .natural
  | .outer, .inner
  | .left, .inner | .left, .right
  | .right, .inner | .right, .left => true
  | _, _ => false

theorem Qualifier.mem_excludes {q r : Qualifier} : r ∈ q.excludes ↔ q.rulesOut r = true := by
  cases q <;> cases r <;> decide

/-- What an edit has to say about a qualifier, if anything. -/
def JoinEdit.verdict? (r : Qualifier) : JoinEdit ε → Option Bool
  | .switch q on =>
      if q = r then some on else if on && q.rulesOut r then some false else none
  | _ => none

namespace JoinKind

/-- No row is kept without a partner from one side only and from the other side
    only, and none is kept when only pairs are. -/
def Consistent (k : JoinKind) : Prop :=
  ¬(k.left = true ∧ k.right = true) ∧
    ¬(k.inner = true ∧ (k.left = true ∨ k.right = true ∨ k.outer = true))

theorem has_clear (k : JoinKind) (qs : List Qualifier) (r : Qualifier) :
    (qs.foldl (fun k other => k.put false other) k).has r = (k.has r && decide (r ∉ qs)) := by
  induction qs generalizing k with
  | nil => simp
  | cons q rest ih =>
      rw [List.foldl_cons, ih, has_put]
      by_cases same : r = q <;> simp [same]

theorem has_set (k : JoinKind) (q r : Qualifier) (on : Bool) :
    (k.set q on).has r =
      if q = r then on else if on && q.rulesOut r then false else k.has r := by
  rw [set, has_put]
  by_cases same : r = q
  · rw [if_pos same, if_pos same.symm]
  · rw [if_neg same, if_neg (Ne.symm same), has_clear]
    cases on with
    | false => simp
    | true => cases ruled : q.rulesOut r <;> simp [Qualifier.mem_excludes, ruled]

theorem consistent_set {k : JoinKind} (consistent : k.Consistent) (q : Qualifier) (on : Bool) :
    (k.set q on).Consistent := by
  have field := k.has_set q
  obtain ⟨sides, pairs⟩ := consistent
  have left : (k.set q on).left = _ := field .left on
  have right : (k.set q on).right = _ := field .right on
  have outer : (k.set q on).outer = _ := field .outer on
  have inner : (k.set q on).inner = _ := field .inner on
  rw [Consistent, left, right, outer, inner]
  cases q <;> cases on <;> simp_all [Qualifier.rulesOut, has]

end JoinKind

namespace Join

theorem has_edit (j : Join ε κ) (e : JoinEdit ε) (r : Qualifier) :
    (j.edit e).kind.has r = (e.verdict? r).getD (j.kind.has r) := by
  cases e with
  | switch q on =>
      rw [edit, JoinKind.has_set, JoinEdit.verdict?]
      split
      · rfl
      · split <;> rfl
  | _ => rfl

/-- A qualifier is as the last verdict on it says. -/
theorem has_run (j : Join ε κ) (edits : List (JoinEdit ε)) (r : Qualifier) :
    (j.run edits).kind.has r =
      (edits.filterMap (·.verdict? r)).getLast?.getD (j.kind.has r) := by
  induction edits generalizing j with
  | nil => rfl
  | cons e rest ih =>
      have step : j.run (e :: rest) = (j.edit e).run rest := rfl
      rw [step, ih, has_edit, List.filterMap_cons]
      cases e.verdict? r with
      | none => rfl
      | some on => rw [List.getLast?_cons, Option.getD_some, Option.getD_some]

/-- The edits of a run that only switches qualifiers. -/
def switches (calls : List (Qualifier × Bool)) : List (JoinEdit ε) :=
  calls.map fun c => .switch c.1 c.2

theorem run_switches (j : Join ε κ) (calls : List (Qualifier × Bool)) :
    j.run (switches calls) = { j with kind := (j.run (switches calls)).kind } := by
  induction calls generalizing j with
  | nil => rfl
  | cons c rest ih => exact ih (j.edit (.switch c.1 c.2))

theorem consistent_run {j : Join ε κ} (consistent : j.kind.Consistent) (edits : List (JoinEdit ε)) :
    (j.run edits).kind.Consistent := by
  induction edits generalizing j with
  | nil => exact consistent
  | cons e rest ih =>
      refine ih ?_
      cases e with
      | switch q on => exact JoinKind.consistent_set consistent q on
      | _ => exact consistent

theorem consistent_of (source : Relation ε κ) : (of source).kind.Consistent := by
  simp [of, JoinKind.Consistent]

/-- When no qualifier rules out one that is switched on before it, all of them stay
    on. -/
theorem has_run_on (j : Join ε κ) {qs : List Qualifier}
    (ordered : qs.Pairwise fun first later => later.rulesOut first = false) (r : Qualifier) :
    (j.run (qs.map (.switch · true))).kind.has r =
      (decide (r ∈ qs) || (j.kind.has r && qs.all fun q => !q.rulesOut r)) := by
  induction qs generalizing j with
  | nil => simp [run]
  | cons q rest ih =>
      obtain ⟨kept, later⟩ := List.pairwise_cons.mp ordered
      have step : j.run ((q :: rest).map (.switch · true)) =
          (j.edit (.switch q true)).run (rest.map (.switch · true)) := rfl
      rw [step, ih _ later, edit, JoinKind.has_set]
      by_cases same : q = r
      · subst same
        have stays : (rest.all fun later => !later.rulesOut q) = true := by
          simpa using kept
        simp [stays]
      · cases ruled : q.rulesOut r <;> simp [same, Ne.symm same, ruled]

/-- An order in which no qualifier of a consistent kind rules out one before it. -/
def switchOrder : List Qualifier :=
  [.inner, .natural, .cross, .full, .semi, .outer, .left, .right]

theorem exists_run_of_consistent (source : Relation ε κ) {k : JoinKind}
    (consistent : k.Consistent) :
    ∃ qs : List Qualifier, ((of source).run (qs.map (.switch · true))).kind = k := by
  obtain ⟨sides, pairs⟩ := consistent
  have ordered : (switchOrder.filter k.has).Pairwise
      fun first later => later.rulesOut first = false := by
    have apart : ((k.inner = true → k.outer = false) ∧ (k.inner = true → k.left = false) ∧
        (k.inner = true → k.right = false)) ∧ (k.left = true → k.right = false) := by
      grind
    rw [List.pairwise_filter]
    simpa [switchOrder, Qualifier.rulesOut, JoinKind.has] using apart
  refine ⟨switchOrder.filter k.has, JoinKind.ext_has fun r => ?_⟩
  have off : (of source).kind.has r = false := by cases r <;> rfl
  have listed : r ∈ switchOrder := by cases r <;> decide
  simp [has_run_on _ ordered, off, List.mem_filter, listed]

end Join

/-- The word that is written for a qualifier. -/
def Qualifier.keyword : Qualifier → Keyword
  | .natural => .NATURAL
  | .left => .LEFT
  | .right => .RIGHT
  | .full => .FULL
  | .cross => .CROSS
  | .outer => .OUTER
  | .inner => .INNER
  | .semi => .SEMI

theorem JoinKind.has_of_side? {k : JoinKind} {side : Side} (written : k.side? = some side)
    {q : Qualifier} (same : q.keyword = side.keyword) : k.has q = true := by
  cases side <;> cases q <;> first | exact absurd same (by decide) | grind [side?, has]

theorem JoinKind.has_of_manner? {k : JoinKind} {manner : Manner} (written : k.manner? = some manner)
    {q : Qualifier} (same : q.keyword = manner.keyword) : k.has q = true := by
  cases manner <;> cases q <;> first | exact absurd same (by decide) | grind [manner?, has]

theorem Phrase.mem_onlyIf {flag : Bool} {t : Token} {ts : Tokens} :
    t ∈ onlyIf flag ts ↔ flag = true ∧ t ∈ ts := by
  cases flag <;> simp [onlyIf]

theorem Phrase.mem_optional {α : Type} {f : α → Tokens} {a : Option α} {t : Token} :
    t ∈ Phrase.optional f a ↔ ∃ x, a = some x ∧ t ∈ f x := by
  cases a <;> simp [Phrase.optional]

namespace Join

open Phrase

/-- Before the source of a join only those of its qualifiers are written that are
    on. -/
theorem has_of_mem_head {j : Join ε κ} {q : Qualifier} (written : .keyword q.keyword ∈ j.head) :
    j.kind.has q = true := by
  rw [head] at written
  split at written
  · obtain ⟨on, same⟩ : j.kind.outer = true ∧ q.keyword = .OUTER := by
      simpa [mem_onlyIf, thenSpace, word] using written
    cases q <;> first | exact absurd same (by decide) | exact on
  · simp only [List.mem_append, mem_onlyIf, mem_optional, thenSpace, word, List.mem_singleton,
      Token.keyword.injEq, reduceCtorEq, or_false] at written
    obtain (((⟨on, same⟩ | ⟨side, is, same⟩) | ⟨manner, is, same⟩) | hint) | last := written
    · cases q <;> first | exact absurd same (by decide) | exact on
    · exact JoinKind.has_of_side? is same
    · exact JoinKind.has_of_manner? is same
    · rw [hintTokens] at hint
      split at hint
      · simp [mem_optional] at hint
      · simp only [mem_optional, thenSpace, word] at hint
        obtain ⟨hint, -, same⟩ := hint
        cases q <;> cases hint <;> simp [JoinHint.keyword, Qualifier.keyword] at same
    · rw [keyword] at last
      cases q <;> grind [Qualifier.keyword]

theorem not_mem_head_of_consistent {j : Join ε κ} (consistent : j.kind.Consistent) :
    ¬(.keyword .INNER ∈ j.head ∧ (.keyword .LEFT ∈ j.head ∨ .keyword .RIGHT ∈ j.head)) := by
  rintro ⟨written, other | other⟩
  · have inner : j.kind.inner = true := has_of_mem_head (q := .inner) written
    have left : j.kind.left = true := has_of_mem_head (q := .left) other
    exact consistent.2 ⟨inner, .inl left⟩
  · have inner : j.kind.inner = true := has_of_mem_head (q := .inner) written
    have right : j.kind.right = true := has_of_mem_head (q := .right) other
    exact consistent.2 ⟨inner, .inr (.inl right)⟩

/-- In a run of switches each qualifier is as the last verdict on it says, and
    nothing else of the join changes.  From a join without qualifiers, edits of
    all kinds reach exactly the consistent kinds, and so do those that only switch
    qualifiers on.  Such a run never writes `INNER` together with `LEFT` or
    `RIGHT`. -/
theorem kind_of_run (j : Join ε κ) (calls : List (Qualifier × Bool)) (source : Relation ε κ) :
    (∀ q, (j.run (switches calls)).kind.has q =
      ((switches calls).filterMap (JoinEdit.verdict? (ε := ε) q)).getLast?.getD (j.kind.has q)) ∧
    j.run (switches calls) = { j with kind := (j.run (switches calls)).kind } ∧
    (∀ k : JoinKind, (∃ edits, ((of source).run edits).kind = k) ↔ k.Consistent) ∧
    (∀ k : JoinKind, (∃ qs : List Qualifier,
      ((of source).run (qs.map (.switch · true))).kind = k) ↔ k.Consistent) ∧
    ∀ edits, ¬(.keyword .INNER ∈ ((of source).run edits).head ∧
      (.keyword .LEFT ∈ ((of source).run edits).head ∨
        .keyword .RIGHT ∈ ((of source).run edits).head)) := by
  have sound (edits : List (JoinEdit ε)) : ((of source).run edits).kind.Consistent :=
    consistent_run (consistent_of source) edits
  refine ⟨j.has_run _, j.run_switches calls, fun k => ⟨?_, fun consistent => ?_⟩,
    fun k => ⟨?_, exists_run_of_consistent source⟩,
    fun edits => not_mem_head_of_consistent (sound edits)⟩
  · rintro ⟨edits, rfl⟩
    exact sound edits
  · obtain ⟨qs, reached⟩ := exists_run_of_consistent source consistent
    exact ⟨_, reached⟩
  · rintro ⟨qs, rfl⟩
    exact sound _

example (source : Relation ε κ) :
    ((of source).run [.switch .right true, .switch .left true]).kind = { left := true } := rfl

end Join
end SqlSelect
