import Mathlib.Data.List.Chain
import SqlSelect.Event
import SqlSelect.Proofs.Edit.Slots
namespace SqlSelect

variable {ε κ : Type}

/-- The entries lead from one kind to another without a gap, and each of them is a
    change. -/
structure KindChange.Chained (start finish : JoinKind) (log : List KindChange) : Prop where
  first : ∀ change ∈ log.head?, change.before = start
  linked : log.IsChain fun earlier later => later.before = earlier.after
  last : ∀ change ∈ log.getLast?, change.after = finish
  differs : ∀ change ∈ log, change.before ≠ change.after
  still : log = [] → start = finish

theorem KindChange.Chained.nil (k : JoinKind) : Chained k k [] := by
  refine ⟨?_, .nil, ?_, ?_, fun _ => rfl⟩ <;> simp

namespace Join

open KindChange

/-- The kind after so many of the edits. -/
def kindAfter (j : Join ε κ) (edits : List (JoinEdit ε)) (count : Nat) : JoinKind :=
  (j.run (edits.take count)).kind

/-- What the edit at a place of a run makes of the kind, when it changes it. -/
def changeAt? (j : Join ε κ) (edits : List (JoinEdit ε)) (place : Nat) : Option KindChange :=
  if j.kindAfter edits (place + 1) = j.kindAfter edits place then none
  else some ⟨j.kindAfter edits place, j.kindAfter edits (place + 1)⟩

theorem change?_of_same {j : Join ε κ} {e : JoinEdit ε} (same : (j.edit e).kind = j.kind) :
    j.change? e = none := if_pos same

theorem change?_of_differs {j : Join ε κ} {e : JoinEdit ε} (differs : (j.edit e).kind ≠ j.kind) :
    j.change? e = some ⟨j.kind, (j.edit e).kind⟩ := if_neg differs

/-- Only the edits that switch a qualifier touch the kind. -/
theorem kind_edit_of_slot (j : Join ε κ) {e : JoinEdit ε} (elsewhere : e.slot ≠ .kind) :
    (j.edit e).kind = j.kind := by
  cases e with
  | switch qualifier on => exact absurd rfl elsewhere
  | _ => rfl

/-- What one edit does to the log. -/
theorem chained_edit {j : Join ε κ} {e : JoinEdit ε} {finish : JoinKind} {log : List KindChange}
    (rest : Chained (j.edit e).kind finish log) :
    Chained j.kind finish ((j.change? e).toList ++ log) := by
  by_cases same : (j.edit e).kind = j.kind
  · rw [change?_of_same same, Option.toList_none, List.nil_append, ← same]
    exact rest
  · rw [change?_of_differs same, Option.toList_some, List.singleton_append]
    refine ⟨?first, ?linked, ?last, ?differs, nofun⟩
    case first =>
      intro change found
      obtain rfl := Option.some.inj found
      rfl
    case linked =>
      rw [List.isChain_cons]
      exact ⟨rest.first, rest.linked⟩
    case last =>
      intro change found
      cases log with
      | nil =>
          obtain rfl := Option.some.inj found
          exact rest.still rfl
      | cons next later => exact rest.last change (by rwa [List.getLast?_cons_cons] at found)
    case differs =>
      intro change member
      rcases List.mem_cons.mp member with rfl | member
      · exact Ne.symm same
      · exact rest.differs change member

theorem chained_changes (j : Join ε κ) (edits : List (JoinEdit ε)) :
    Chained j.kind (j.run edits).kind (j.changes edits) := by
  induction edits generalizing j with
  | nil => exact .nil j.kind
  | cons e rest ih => exact chained_edit (ih (j.edit e))

/-- The log has the entries of the edits one by one. -/
theorem changes_eq_filterMap (j : Join ε κ) (edits : List (JoinEdit ε)) :
    j.changes edits = (List.range edits.length).filterMap (j.changeAt? edits) := by
  induction edits generalizing j with
  | nil => rfl
  | cons e rest ih =>
      have first : j.changeAt? (e :: rest) 0 = j.change? e := rfl
      have later : j.changeAt? (e :: rest) ∘ Nat.succ = (j.edit e).changeAt? rest := rfl
      rw [List.length_cons, List.range_succ_eq_map, List.filterMap_cons, List.filterMap_map, later,
        ← ih, first, changes]
      cases j.change? e <;> rfl

theorem changes_eq_nil_iff (j : Join ε κ) (edits : List (JoinEdit ε)) :
    j.changes edits = [] ↔
      ∀ place < edits.length, j.kindAfter edits (place + 1) = j.kindAfter edits place := by
  rw [changes_eq_filterMap, List.filterMap_eq_nil_iff]
  refine forall_congr' fun place => ?_
  rw [List.mem_range, changeAt?]
  by_cases same : j.kindAfter edits (place + 1) = j.kindAfter edits place <;> simp [same]

/-- Edits that do not switch qualifiers leave no trace in the log, not even in what
    comes after them. -/
theorem changes_filter (j : Join ε κ) (edits : List (JoinEdit ε)) :
    j.changes (edits.filter (·.slot = .kind)) = j.changes edits := by
  have congr (edits : List (JoinEdit ε)) {j j' : Join ε κ} (same : j.kind = j'.kind) :
      j.changes edits = j'.changes edits := by
    induction edits generalizing j j' with
    | nil => rfl
    | cons e rest ih =>
        have next : (j.edit e).kind = (j'.edit e).kind := by
          cases e with
          | switch qualifier on => exact congrArg (·.set qualifier on) same
          | _ => exact same
        rw [changes, changes, ih next, change?, change?, next, same]
  induction edits generalizing j with
  | nil => rfl
  | cons e rest ih =>
      by_cases switches : e.slot = .kind
      · rw [List.filter_cons_of_pos (by simpa using switches), changes, changes, ih]
      · have same := j.kind_edit_of_slot switches
        rw [List.filter_cons_of_neg (by simpa using switches), changes, change?_of_same same,
          congr rest same, ih]
        rfl

/-- The events of a run of edits are a log that leads from the first kind to the
    last, with one entry for each edit that changed the kind and none when no edit
    did.  Edits that do not switch a qualifier are not reported. -/
theorem events_log_kind (j : Join ε κ) (edits : List (JoinEdit ε)) :
    (∃ log : List KindChange, j.events edits = log.map .kindUpdated ∧
      Chained j.kind (j.run edits).kind log ∧
      log = (List.range edits.length).filterMap (j.changeAt? edits)) ∧
    (j.events edits = [] ↔
      ∀ place < edits.length, j.kindAfter edits (place + 1) = j.kindAfter edits place) ∧
    (∀ e : JoinEdit ε, e.slot ≠ .kind → (j.run edits).events [e] = []) ∧
    j.events (edits.filter (·.slot = .kind)) = j.events edits := by
  refine ⟨⟨j.changes edits, rfl, j.chained_changes edits, j.changes_eq_filterMap edits⟩, ?_,
    fun e elsewhere => ?_, ?_⟩
  · rw [events, List.map_eq_nil_iff]
    exact j.changes_eq_nil_iff edits
  · have same := (j.run edits).kind_edit_of_slot elsewhere
    simp only [events, changes, change?_of_same same, Option.toList_none, List.append_nil,
      List.map_nil]
  · rw [events, events, j.changes_filter]

end Join
end SqlSelect
