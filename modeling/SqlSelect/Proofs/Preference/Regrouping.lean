import SqlSelect.Clause.Preference
namespace SqlSelect.Preference

/-!
# Grouping of preferences

Preferences are joined two at a time.  Two terms are regrouped when they differ
only in which of several neighbouring joins is made first.  Every term can be
regrouped to the left, so that the first join is made first.
-/

variable {ε : Type} {p q : Preference ε}

inductive Joint where
  | plus | priorTo

def join : Joint → Preference ε → Preference ε → Preference ε
  | .plus => .plus
  | .priorTo => .priorTo

/-- The join that is made last. -/
def root? : Preference ε → Option Joint
  | .plus _ _ => some .plus
  | .priorTo _ _ => some .priorTo
  | .high _ | .low _ | .inverse _ | .expr _ => none

@[simp] theorem root?_join (j : Joint) (left right : Preference ε) :
    (join j left right).root? = some j := by
  cases j <;> rfl

/-- Terms that differ in the grouping of neighbouring joins, where joins are
    neighbours only when they are `alike`. -/
inductive Regrouped (alike : Joint → Joint → Prop) : Preference ε → Preference ε → Prop where
  | refl (p : Preference ε) : Regrouped alike p p
  | symm {p q : Preference ε} (same : Regrouped alike p q) : Regrouped alike q p
  | trans {p q r : Preference ε} (first : Regrouped alike p q) (second : Regrouped alike q r) :
      Regrouped alike p r
  | assoc {i j : Joint} (neighbours : alike i j) (p q r : Preference ε) :
      Regrouped alike (join j (join i p q) r) (join i p (join j q r))
  | inverse {p q : Preference ε} (inside : Regrouped alike p q) :
      Regrouped alike (.inverse p) (.inverse q)
  | join (j : Joint) {p p' q q' : Preference ε} (left : Regrouped alike p p')
      (right : Regrouped alike q q') : Regrouped alike (join j p q) (join j p' q')

/-- Any two joins may be neighbours. -/
def AnyJoints (_ _ : Joint) : Prop := True

namespace Regrouped

theorem root?_eq (same : Regrouped (· = ·) p q) : p.root? = q.root? := by
  induction same with
  | refl p => rfl
  | symm _ ih => exact ih.symm
  | trans _ _ first second => exact first.trans second
  | assoc neighbours p q r => simp [neighbours]
  | inverse _ _ => rfl
  | join j _ _ _ _ => simp

end Regrouped

/-- Whether the term is no join of the other kind. -/
def Fits (j : Joint) (p : Preference ε) : Prop := ∀ i ∈ p.root?, i = j

theorem fits_join {i j : Joint} (left right : Preference ε) :
    (join i left right).Fits j ↔ i = j := by
  simp [Fits]

/-- Directly inside a join there are joins of the same kind only.  Inside `INVERSE`
    another kind may begin. -/
def Uniform : Preference ε → Prop
  | .high _ | .low _ | .expr _ => True
  | .inverse term => term.Uniform
  | .plus left right => (left.Fits .plus ∧ right.Fits .plus) ∧ left.Uniform ∧ right.Uniform
  | .priorTo left right =>
      (left.Fits .priorTo ∧ right.Fits .priorTo) ∧ left.Uniform ∧ right.Uniform

theorem uniform_join (j : Joint) (left right : Preference ε) :
    (join j left right).Uniform ↔
      (left.Fits j ∧ right.Fits j) ∧ left.Uniform ∧ right.Uniform := by
  cases j <;> exact Iff.rfl

/-- Where a join stands next to another inside a uniform term, they are alike. -/
theorem uniform_assoc (i j : Joint) (p q r : Preference ε) :
    (join j (join i p q) r).Uniform ↔ (join i p (join j q r)).Uniform := by
  simp only [uniform_join, fits_join]
  constructor
  · rintro ⟨⟨rfl, fits⟩, ⟨⟨left, right⟩, first, second⟩, third⟩
    exact ⟨⟨left, rfl⟩, first, ⟨right, fits⟩, second, third⟩
  · rintro ⟨⟨fits, rfl⟩, first, ⟨left, right⟩, second, third⟩
    exact ⟨⟨rfl, right⟩, ⟨⟨fits, left⟩, first, second⟩, third⟩

theorem uniform_join_congr (j : Joint) {p p' q q' : Preference ε} (left : p.Uniform ↔ p'.Uniform)
    (right : q.Uniform ↔ q'.Uniform) (leftRoot : p.root? = p'.root?)
    (rightRoot : q.root? = q'.root?) : (join j p q).Uniform ↔ (join j p' q').Uniform := by
  simp only [uniform_join, Fits, left, right, leftRoot, rightRoot]

/-- Regrouping keeps a term uniform, and in a uniform term only joins of one kind
    are neighbours. -/
theorem Regrouped.uniform {p q : Preference ε} (same : Regrouped AnyJoints p q) :
    (p.Uniform ↔ q.Uniform) ∧ (p.Uniform → Regrouped (· = ·) p q) := by
  induction same with
  | refl p => exact ⟨Iff.rfl, fun _ => .refl p⟩
  | symm _ ih => exact ⟨ih.1.symm, fun uniform => .symm (ih.2 (ih.1.mpr uniform))⟩
  | trans _ _ first second =>
      exact ⟨first.1.trans second.1, fun uniform =>
        .trans (first.2 uniform) (second.2 (first.1.mp uniform))⟩
  | @assoc i j _ p q r =>
      refine ⟨uniform_assoc i j p q r, fun uniform => ?_⟩
      obtain rfl : i = j := (fits_join p q).mp ((uniform_join j _ _).mp uniform).1.1
      exact .assoc rfl p q r
  | inverse _ ih => exact ⟨ih.1, fun uniform => .inverse (ih.2 uniform)⟩
  | @join j p p' q q' _ _ left right =>
      constructor
      · constructor
        · intro uniform
          obtain ⟨-, first, second⟩ := (uniform_join j p q).mp uniform
          exact (uniform_join_congr j left.1 right.1 (left.2 first).root?_eq
            (right.2 second).root?_eq).mp uniform
        · intro uniform
          obtain ⟨-, first, second⟩ := (uniform_join j p' q').mp uniform
          have first := (left.2 (left.1.mpr first)).root?_eq
          have second := (right.2 (right.1.mpr second)).root?_eq
          exact (uniform_join_congr j left.1 right.1 first second).mpr uniform
      · intro uniform
        obtain ⟨-, first, second⟩ := (uniform_join j p q).mp uniform
        exact .join j (left.2 first) (right.2 second)

/-- A term that something waits for, which may be to its left. -/
def after : Option (Joint × Preference ε) → Preference ε → Preference ε
  | none, p => p
  | some (j, left), p => join j left p

/-- The term with every join made as soon as it can be, after what may be to its
    left. -/
def leftward (before : Option (Joint × Preference ε)) : Preference ε → Preference ε
  | .plus left right => leftward (some (.plus, leftward before left)) right
  | .priorTo left right => leftward (some (.priorTo, leftward before left)) right
  | .inverse term => after before (.inverse (leftward none term))
  | .high value => after before (.high value)
  | .low value => after before (.low value)
  | .expr value => after before (.expr value)

theorem leftward_join (before : Option (Joint × Preference ε)) (j : Joint)
    (left right : Preference ε) :
    leftward before (join j left right) = leftward (some (j, leftward before left)) right := by
  cases j <;> rfl

theorem regrouped_after_join (before : Option (Joint × Preference ε)) (j : Joint)
    (left right : Preference ε) :
    Regrouped AnyJoints (after before (join j left right)) (join j (after before left) right) := by
  match before with
  | none => exact .refl _
  | some (i, first) => exact .symm (.assoc trivial first left right)

theorem regrouped_leftward (before : Option (Joint × Preference ε)) (p : Preference ε) :
    Regrouped AnyJoints (after before p) (leftward before p) := by
  have joined (j : Joint) {left right : Preference ε}
      (first : ∀ before, Regrouped AnyJoints (after before left) (leftward before left))
      (second : ∀ before, Regrouped AnyJoints (after before right) (leftward before right))
      (before : Option (Joint × Preference ε)) :
      Regrouped AnyJoints (after before (join j left right))
        (leftward before (join j left right)) := by
    rw [leftward_join]
    exact .trans (regrouped_after_join before j left right)
      (.trans (.join j (first before) (.refl right)) (second (some (j, leftward before left))))
  induction p generalizing before with
  | high value | low value | expr value => exact .refl _
  | inverse term ih =>
      have inside : Regrouped AnyJoints (.inverse term) (.inverse (leftward none term)) :=
        .inverse (ih none)
      match before with
      | none => exact inside
      | some (j, left) => exact .join j (.refl left) inside
  | plus left right first second => exact joined .plus first second before
  | priorTo left right first second => exact joined .priorTo first second before

end SqlSelect.Preference
