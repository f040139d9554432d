import SqlSelect.Proofs.Decimal.Shortest
import SqlSelect.Proofs.Decimal.Zero
import SqlSelect.Proofs.Text.Plain
namespace SqlSelect

/-!
# Whole numbers as doubles

A double is written like an integer exactly when it is a whole number, apart from
the zero with a sign.  Up to the size from which doubles are more than one apart
it is written as the integer it is; a greater one is written as the shortest
digits that stand for it, filled up with zeros.
-/

theorem natText_inj {m n : ℕ} (same : natText m = natText n) : m = n := by
  have read (n : ℕ) : Nat.ofDigitChars 10 (natText n) 0 = n :=
    Nat.ofDigitChars_toDigits (by decide) (by decide)
  rw [← read m, same, read n]

theorem not_mem_natText {n : ℕ} {c : Char} (other : c.isDigit = false) : c ∉ natText n := by
  intro member
  have digit := Nat.isDigit_of_mem_toDigits (by decide) (by decide) member
  exact Bool.false_ne_true (other.symm.trans digit)

theorem natText_ne_minus (n : ℕ) (rest : List Char) : natText n ≠ '-' :: rest := by
  intro text
  exact not_mem_natText (n := n) (c := '-') rfl (text ▸ List.mem_cons_self)

theorem intText_inj {m n : ℤ} (same : intText m = intText n) : m = n := by
  unfold intText at same
  split at same <;> split at same
  · have sizes := natText_inj (List.cons.inj same).2
    omega
  · exact absurd same.symm (natText_ne_minus _ _)
  · exact absurd same (natText_ne_minus _ _)
  · have sizes := natText_inj same
    omega

theorem not_mem_intText {n : ℤ} {c : Char} (other : c.isDigit = false) (unsigned : c ≠ '-') :
    c ∉ intText n := by
  unfold intText
  split
  · rw [List.mem_cons, not_or]
    exact ⟨unsigned, not_mem_natText other⟩
  · exact not_mem_natText other

/-- A positive number after its sign. -/
theorem intText_of_pos {size : ℕ} (positive : 0 < size) (negative : Bool) :
    intText (if negative then -size else size) =
      if negative then '-' :: natText size else natText size := by
  cases negative with
  | true =>
      have below : -(size : ℤ) < 0 := by omega
      simp [intText, positive]
  | false => simp [intText]

/-- Trailing zeros multiply by ten. -/
theorem natText_append_zeros {n : ℕ} (positive : 0 < n) (count : ℕ) :
    natText n ++ List.replicate count '0' = natText (n * 10 ^ count) := by
  induction count with
  | zero => simp
  | succ count ih =>
      have zero : Nat.toDigits 10 0 = ['0'] := rfl
      have step := Nat.toDigits_append_toDigits (b := 10) (n := n * 10 ^ count) (d := 0) (by decide)
        (by positivity) (by decide)
      rw [zero] at step
      rw [List.replicate_succ', ← List.append_assoc, ih, natText, step, Nat.pow_succ, natText]
      congr 1
      ring

namespace Decimal

theorem positional_of_nonneg {d : Decimal} (digits : 0 < d.digits) (whole : 0 ≤ d.exponent) :
    d.positional = natText (d.digits * 10 ^ d.exponent.toNat) := by
  have places : (-d.exponent).toNat = 0 := by omega
  simp only [positional, places, if_true]
  exact natText_append_zeros digits _

theorem mem_positional_of_neg {d : Decimal} (fraction : d.exponent < 0) : '.' ∈ d.positional := by
  have places : (-d.exponent).toNat ≠ 0 := by omega
  simp only [positional, places, if_false]
  split <;> simp

end Decimal

namespace Binary64

open Decimal

/-- The number that a finite double stands for. -/
def value? (x : Binary64) : Option ℚ :=
  match x.magnitude with
  | .finite significand exponent =>
      some (if x.isNegative then -(significand * 2 ^ exponent) else significand * 2 ^ exponent)
  | _ => none

/-- The number that the text of a finite double stands for. -/
def written? (x : Binary64) : Option ℚ :=
  match x.magnitude with
  | .finite 0 _ => some 0
  | .finite significand exponent =>
      some (if x.isNegative then -(shortest significand exponent).value
        else (shortest significand exponent).value)
  | _ => none

def isNegativeZero (x : Binary64) : Bool := x.isZero && x.isNegative

/-- The double is written as the integer is. -/
def WrittenAs (x : Binary64) (n : ℤ) : Prop := x.written? = some (n : ℚ) ∧ x.isNegativeZero = false

theorem isDouble_of_magnitude {x : Binary64} {significand : ℕ} {exponent : ℤ}
    (finite : x.magnitude = .finite significand exponent) (nonzero : significand ≠ 0) :
    IsDouble significand exponent := by
  have fraction : x.fraction < 2 ^ 52 := Nat.mod_lt _ (by decide)
  unfold magnitude at finite
  split at finite
  · split at finite <;> cases finite
  · split at finite
    · obtain ⟨rfl, rfl⟩ := Magnitude.finite.inj finite
      exact ⟨by omega, by omega, le_rfl, fun above => absurd above (lt_irrefl _)⟩
    · obtain ⟨rfl, rfl⟩ := Magnitude.finite.inj finite
      simp only [Nat.pow_eq]
      exact ⟨by omega, by omega, by omega, fun _ => by omega⟩

theorem isZero_of_magnitude {x : Binary64} {exponent : ℤ} (zero : x.magnitude = .finite 0 exponent) :
    x.isZero = true := by
  have least : exponent = -1074 := by
    unfold magnitude at zero
    split at zero
    · split at zero <;> cases zero
    · split at zero
      · exact (Magnitude.finite.inj zero).2.symm
      · have significand := (Magnitude.finite.inj zero).1
        simp only [Nat.pow_eq] at significand
        omega
  simp [isZero, zero, least]

theorem not_isZero_of_magnitude {x : Binary64} {significand : ℕ} {exponent : ℤ}
    (finite : x.magnitude = .finite significand exponent) (nonzero : significand ≠ 0) :
    x.isZero = false := by
  simp [isZero, finite, nonzero]

section

variable {x : Binary64} {significand : ℕ} {exponent : ℤ}
variable (finite : x.magnitude = .finite significand exponent) (nonzero : significand ≠ 0)
include finite nonzero

theorem text_of_nonzero : x.text =
    if x.isNegative then '-' :: (shortest significand exponent).positional
      else (shortest significand exponent).positional := by
  cases significand with
  | zero => contradiction
  | succ less => simp [text, isNaN, finite]

theorem written?_of_nonzero : x.written? =
    some (if x.isNegative then -(shortest significand exponent).value
      else (shortest significand exponent).value) := by
  cases significand with
  | zero => contradiction
  | succ less => simp [written?, finite]

theorem isNegativeZero_of_nonzero : x.isNegativeZero = false := by
  rw [isNegativeZero, not_isZero_of_magnitude finite nonzero, Bool.false_and]

/-- Without a fraction the digits and zeros are those of an integer. -/
theorem writtenAs_iff_of_exponent_nonneg
    (whole : 0 ≤ (shortest significand exponent).exponent) (n : ℤ) :
    x.text = intText n ↔ x.WrittenAs n := by
  have digits := digits_shortest_pos (isDouble_of_magnitude finite nonzero)
  rw [text_of_nonzero finite nonzero, WrittenAs, written?_of_nonzero finite nonzero,
    isNegativeZero_of_nonzero finite nonzero, positional_of_nonneg digits whole,
    value_of_nonneg whole]
  have positive : 0 < (shortest significand exponent).digits *
      10 ^ (shortest significand exponent).exponent.toNat := by positivity
  generalize (shortest significand exponent).digits *
    10 ^ (shortest significand exponent).exponent.toNat = size at *
  rw [← intText_of_pos positive]
  constructor
  · intro texts
    obtain rfl := intText_inj texts
    cases x.isNegative <;> simp
  · rintro ⟨written, _⟩
    have same : (if x.isNegative then -(size : ℤ) else size) = n := by
      have written := Option.some.inj written
      cases negative : x.isNegative <;> simp only [negative] at written ⊢ <;> exact_mod_cast written
    rw [same]

end

theorem abs_signed {size : ℚ} (nonneg : 0 ≤ size) (negative : Bool) :
    |(if negative then -size else size)| = size := by
  cases negative with
  | true => rw [if_pos rfl, abs_neg, abs_of_nonneg nonneg]
  | false => exact abs_of_nonneg nonneg

/-- A number and its negative are whole together. -/
theorem exists_int_iff {size : ℚ} (nonneg : 0 ≤ size) (negative : Bool) :
    (∃ n : ℤ, (if negative then -size else size) = n) ↔ ∃ n : ℕ, size = n := by
  constructor
  · rintro ⟨n, same⟩
    exact ⟨n.natAbs, by rw [← abs_signed nonneg negative, same, Nat.cast_natAbs, Int.cast_abs]⟩
  · rintro ⟨n, rfl⟩
    cases negative with
    | true => exact ⟨-n, by simp⟩
    | false => exact ⟨n, by simp⟩

theorem text_eq_intText_iff_of_zero {x : Binary64} {exponent : ℤ}
    (zero : x.magnitude = .finite 0 exponent) (n : ℤ) : x.text = intText n ↔ x.WrittenAs n := by
  have isZero := isZero_of_magnitude zero
  have written : x.written? = some 0 := by simp [written?, zero]
  rw [text_of_isZero isZero, WrittenAs, isNegativeZero, isZero, written, Bool.true_and]
  cases x.isNegative with
  | false =>
      have zero : ['0'] = intText 0 := rfl
      simp only [Bool.false_eq_true, if_false, and_true, zero]
      refine ⟨fun texts => ?_, fun same => ?_⟩
      · rw [← intText_inj texts, Int.cast_zero]
      · have same : n = 0 := by exact_mod_cast (Option.some.inj same).symm
        rw [same]
  | true =>
      have zero : ['0'] = natText 0 := rfl
      simp only [if_true, zero]
      refine ⟨fun texts => ?_, fun same => absurd same.2 Bool.true_eq_false.mp⟩
      unfold intText at texts
      split at texts
      · have size := natText_inj (List.cons.inj texts).2
        omega
      · exact absurd texts.symm (natText_ne_minus _ _)

theorem text_eq_intText_iff (x : Binary64) (n : ℤ) : x.text = intText n ↔ x.WrittenAs n := by
  cases magnitude : x.magnitude with
  | nan =>
      have letter : 'N' ∈ x.text := by simp [text, isNaN, magnitude]
      refine ⟨fun texts => ?_, fun written => ?_⟩
      · exact absurd (texts ▸ letter) (not_mem_intText rfl (by decide))
      · simp [WrittenAs, written?, magnitude] at written
  | infinite =>
      have letter : 'i' ∈ x.text := by
        cases negative : x.isNegative <;> simp [text, isNaN, magnitude, negative]
      refine ⟨fun texts => ?_, fun written => ?_⟩
      · exact absurd (texts ▸ letter) (not_mem_intText rfl (by decide))
      · simp [WrittenAs, written?, magnitude] at written
  | finite significand exponent =>
      rcases Nat.eq_zero_or_pos significand with rfl | positive
      · exact text_eq_intText_iff_of_zero magnitude n
      · have double := isDouble_of_magnitude magnitude positive.ne'
        rcases le_or_gt 0 (shortest significand exponent).exponent with whole | fraction
        · exact writtenAs_iff_of_exponent_nonneg magnitude positive.ne' whole n
        · have point : '.' ∈ x.text := by
            rw [text_of_nonzero magnitude positive.ne']
            split <;> simp [mem_positional_of_neg fraction]
          refine ⟨fun texts => ?_, fun written => ?_⟩
          · exact absurd (texts ▸ point) (not_mem_intText rfl (by decide))
          · rw [WrittenAs, written?_of_nonzero magnitude positive.ne'] at written
            obtain ⟨size, written⟩ := (exists_int_iff (value_nonneg _) _).mp
              ⟨n, Option.some.inj written.1⟩
            obtain ⟨m, whole⟩ := whole_of_value_shortest double written
            have := exponent_nonneg_of_whole double whole
            omega

/-- A double is written like some integer exactly when it is one and has no sign
    on a zero. -/
theorem exists_writtenAs_iff (x : Binary64) :
    (∃ n, x.WrittenAs n) ↔ (∃ n : ℤ, x.value? = some (n : ℚ)) ∧ x.isNegativeZero = false := by
  simp only [WrittenAs, exists_and_right]
  refine and_congr_left fun _ => ?_
  cases magnitude : x.magnitude with
  | nan | infinite => simp [written?, value?, magnitude]
  | finite significand exponent =>
      rcases Nat.eq_zero_or_pos significand with rfl | positive
      · simp only [written?, value?, magnitude, Nat.cast_zero, zero_mul, neg_zero, ite_self]
      · have double := isDouble_of_magnitude magnitude positive.ne'
        have size : (0 : ℚ) ≤ significand * 2 ^ exponent := by positivity
        simp only [written?_of_nonzero magnitude positive.ne', value?, magnitude,
          Option.some.injEq]
        rw [exists_int_iff (value_nonneg _), exists_int_iff size]
        constructor
        · rintro ⟨n, written⟩
          exact whole_of_value_shortest double written
        · rintro ⟨n, whole⟩
          exact ⟨_, value_of_nonneg (exponent_nonneg_of_whole double whole)⟩

/-- Below the size from which doubles are more than one apart the integer is the
    value itself. -/
theorem writtenAs_of_small {x : Binary64} {n : ℤ} (whole : x.value? = some (n : ℚ))
    (small : n.natAbs < 2 ^ 53) (signed : x.isNegativeZero = false) : x.WrittenAs n := by
  refine ⟨?_, signed⟩
  cases magnitude : x.magnitude with
  | nan | infinite => simp [value?, magnitude] at whole
  | finite significand exponent =>
      rcases Nat.eq_zero_or_pos significand with rfl | positive
      · simpa [written?, value?, magnitude] using whole
      · have double := isDouble_of_magnitude magnitude positive.ne'
        rw [written?_of_nonzero magnitude positive.ne']
        simp only [value?, magnitude, Option.some.injEq] at whole ⊢
        have size : (significand : ℚ) * 2 ^ exponent = n.natAbs := by
          have nonneg : (0 : ℚ) ≤ significand * 2 ^ exponent := by positivity
          rw [Nat.cast_natAbs, Int.cast_abs, ← whole, abs_signed nonneg]
        rw [value_shortest_of_small double size small, ← size]
        exact whole

end Binary64
end SqlSelect
