import SqlSelect.Proofs.Condition.Reader
namespace SqlSelect.Condition

/-! A condition in parentheses is read as it is by itself.  A condition without an
`OR` outside its parentheses can also be joined to others by `AND`: wherever it
stands, it is read as one more conjunct.
-/

variable {v : String → Bool}

theorem length_outer_of_step {s s' : State} {m : Mark} (stepped : step v s m = some s') :
    s'.outer.length = m.depth s.outer.length := by
  unfold step at stepped
  split at stepped <;> cases stepped <;> rfl

def State.under (frames : List (Level × Bool)) (s : State) : State :=
  { s with outer := s.outer ++ frames }

theorem step_under {s s' : State} {m : Mark} (stepped : step v s m = some s')
    (frames : List (Level × Bool)) : step v (s.under frames) m = some (s'.under frames) := by
  unfold step at stepped
  split at stepped <;> cases stepped <;> rfl

theorem run_under {s s' : State} {marks : List Mark} (ran : run v s marks = some s')
    (frames : List (Level × Bool)) : run v (s.under frames) marks = some (s'.under frames) := by
  induction marks generalizing s with
  | nil =>
      obtain rfl : s = s' := Option.some.inj ran
      rfl
  | cons m rest ih =>
      rw [run_cons, Option.bind_eq_some_iff] at ran
      obtain ⟨next, stepped, ran⟩ := ran
      rw [run_cons, step_under stepped frames, Option.bind_some]
      exact ih ran

/-- Nothing of a condition in parentheses stands outside of them. -/
theorem outside_append {s s' : State} {marks : List Mark} (ran : run v s marks = some s')
    (rest : List Mark) :
    Mark.outside (s.outer.length + 1) (marks ++ rest) =
      Mark.outside (s'.outer.length + 1) rest := by
  induction marks generalizing s with
  | nil =>
      obtain rfl : s = s' := Option.some.inj ran
      rfl
  | cons m marks ih =>
      rw [run_cons, Option.bind_eq_some_iff] at ran
      obtain ⟨next, stepped, ran⟩ := ran
      have depth : m.depth (s.outer.length + 1) = next.outer.length + 1 := by
        simpa [State.under] using (length_outer_of_step (step_under stepped [({}, false)])).symm
      rw [List.cons_append, Mark.outside, depth, ih ran]
      simp

/-- A level of a condition by itself, read after another one. -/
def Level.after (before l : Level) : Level := before.conjoin l.all

/-- What waits when a condition is read after a level. -/
def waiting (before : Level) : List (Level × Bool) → List (Level × Bool)
  | [] => []
  | [(l, negated)] => [(before.after l, negated)]
  | frame :: rest => frame :: waiting before rest

/-- A state of a condition by itself, read after a level. -/
def State.behind (before : Level) : State → State
  | ⟨[], level, stage⟩ => ⟨[], before.after level, stage⟩
  | ⟨frame :: rest, level, stage⟩ => ⟨waiting before (frame :: rest), level, stage⟩

theorem Level.after_conjoin (before l : Level) (holds : Bool) :
    before.after (l.conjoin holds) = (before.after l).conjoin holds := by
  simp [after, conjoin, Bool.and_assoc]

/-- Outside parentheses only an `OR` looks back at the level as a whole. -/
theorem step_behind {s s' : State} {m : Mark} (stepped : step v s m = some s')
    (plain : s.outer = [] → m ≠ .or) (before : Level) :
    step v (s.behind before) m = some (s'.behind before) := by
  unfold step at stepped
  split at stepped
  case h_1 frames level negated =>
      cases stepped
      cases frames <;> rfl
  case h_2 frames level negated word =>
      cases stepped
      cases frames with
      | nil =>
          simp only [State.behind, Level.after_conjoin]
          rfl
      | cons frame rest => rfl
  case h_3 frames level negated =>
      cases stepped
      cases frames <;> rfl
  case h_4 frames level =>
      cases stepped
      cases frames <;> rfl
  case h_5 frames level =>
      cases stepped
      cases frames with
      | nil => exact absurd rfl (plain rfl)
      | cons frame rest => rfl
  case h_6 opened negated frames level =>
      cases stepped
      cases frames with
      | nil =>
          simp only [State.behind, Level.after_conjoin]
          rfl
      | cons frame rest => rfl
  case h_7 => cases stepped

theorem run_behind {s s' : State} {marks : List Mark} (ran : run v s marks = some s')
    (plain : .or ∉ Mark.outside s.outer.length marks) (before : Level) :
    run v (s.behind before) marks = some (s'.behind before) := by
  induction marks generalizing s with
  | nil =>
      obtain rfl : s = s' := Option.some.inj ran
      rfl
  | cons m rest ih =>
      rw [run_cons, Option.bind_eq_some_iff] at ran
      obtain ⟨next, stepped, ran⟩ := ran
      rw [Mark.outside, List.mem_append, not_or] at plain
      have first : s.outer = [] → m ≠ .or := by
        rintro empty rfl
        exact plain.1 (by simp [empty])
      have further : .or ∉ Mark.outside next.outer.length rest := by
        rw [length_outer_of_step stepped]
        exact plain.2
      rw [run_cons, step_behind stepped first, Option.bind_some]
      exact ih ran further

theorem exists_run_of_value? {marks : List Mark} {b : Bool} (read : value? v marks = some b) :
    ∃ level, run v {} marks = some ⟨[], level, .operator⟩ ∧ level.value = b := by
  obtain ⟨⟨frames, level, stage⟩, ran, value⟩ := Option.bind_eq_some_iff.mp read
  cases frames with
  | cons frame rest => cases value
  | nil =>
      cases stage with
      | operand negated => cases value
      | operator => exact ⟨level, ran, Option.some.inj value⟩

theorem value?_enclosed {marks : List Mark} {b : Bool} (read : value? v marks = some b) :
    value? v (.opening :: (marks ++ [.closing])) = some b := by
  obtain ⟨level, ran, rfl⟩ := exists_run_of_value? read
  have inside := run_under ran [({}, false)]
  have opened : step v {} .opening = some (State.under [({}, false)] {}) := rfl
  rw [value?, run_cons, opened, Option.bind_some, run_append, inside]
  simp [run, step, State.under, State.value?, Level.conjoin, Level.value]

theorem outside_enclosed {marks : List Mark} {b : Bool} (read : value? v marks = some b) :
    Mark.outside 0 (.opening :: (marks ++ [.closing])) = [.opening] := by
  obtain ⟨level, ran, -⟩ := exists_run_of_value? read
  have inside := outside_append ran [.closing]
  have opened : Mark.outside 0 (.opening :: (marks ++ [.closing])) =
      .opening :: Mark.outside 1 (marks ++ [.closing]) := rfl
  rw [opened]
  exact congrArg _ inside

/-- Wherever an operand can stand, the marks are read as one with the value `b`. -/
def Conjunct (v : String → Bool) (marks : List Mark) (b : Bool) : Prop :=
  ∀ outer level, run v ⟨outer, level, .operand false⟩ marks =
    some ⟨outer, level.conjoin b, .operator⟩

namespace Conjunct

theorem of_value? {marks : List Mark} {b : Bool} (read : Condition.value? v marks = some b)
    (plain : .or ∉ Mark.outside 0 marks) : Conjunct v marks b := by
  obtain ⟨level, ran, value⟩ := exists_run_of_value? read
  have alone : level = Level.after {} level := by
    have same := ran.symm.trans (run_behind ran plain {})
    simpa [State.behind] using same
  have holds : level.all = b := by
    have last : level.any = false := congrArg Level.any alone
    simpa [Level.value, last] using value
  intro outer before
  have start : before.after {} = before := by simp [Level.after, Level.conjoin]
  have read := run_under (run_behind ran plain before) outer
  simp only [State.behind, State.under, start, List.nil_append] at read
  rw [read, Level.after, holds]

theorem value? {marks : List Mark} {b : Bool} (conjunct : Conjunct v marks b) :
    Condition.value? v marks = some b := by
  rw [Condition.value?, conjunct]
  cases b <;> rfl

theorem and {first rest : List Mark} {b c : Bool} (left : Conjunct v first b)
    (right : Conjunct v rest c) : Conjunct v (first ++ .and :: rest) (b && c) := by
  intro outer level
  have joined : step v ⟨outer, level.conjoin b, .operator⟩ .and =
      some ⟨outer, level.conjoin b, .operand false⟩ := rfl
  rw [run_append, left, Option.bind_some, run_cons, joined, Option.bind_some, right]
  simp [Level.conjoin, Bool.and_assoc]

end Conjunct
end SqlSelect.Condition
