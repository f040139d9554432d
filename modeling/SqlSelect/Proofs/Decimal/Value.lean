import Mathlib.Algebra.Order.Field.Power
import Mathlib.Algebra.Order.Field.Rat
import Mathlib.Tactic.Linarith
import Mathlib.Tactic.Positivity
import Mathlib.Tactic.Ring
import SqlSelect.Decimal.Shortest
namespace SqlSelect.Decimal

/-- A ratio has the positive part of an exponent above the line and the negative
    part below it. -/
theorem zpow_eq_pow_div_pow {base : ℚ} (nonzero : base ≠ 0) (exponent : ℤ) :
    base ^ exponent = base ^ exponent.toNat / base ^ (-exponent).toNat := by
  rw [← zpow_natCast, ← zpow_natCast, ← zpow_sub₀ nonzero, Int.toNat_sub_toNat_neg]

namespace Ratio

def value (r : Ratio) : ℚ := r.num / r.den

theorem value_scaled {base : ℕ} (positive : 0 < base) (n : ℕ) (exponent : ℤ) :
    value ⟨n * Nat.pow base exponent.toNat, Nat.pow base (-exponent).toNat⟩ =
      n * (base : ℚ) ^ exponent := by
  have nonzero : (base : ℚ) ≠ 0 := by positivity
  simp only [value, Nat.pow_eq, Nat.cast_mul, Nat.cast_pow, zpow_eq_pow_div_pow nonzero,
    mul_div_assoc]

theorem value_ofBinary (significand : ℕ) (exponent : ℤ) :
    (ofBinary significand exponent).value = significand * 2 ^ exponent := by
  have scaled := value_scaled (by decide : 0 < 2) significand exponent
  rwa [Nat.cast_ofNat] at scaled

theorem den_ofBinary_pos (significand : ℕ) (exponent : ℤ) :
    0 < (ofBinary significand exponent).den := Nat.pow_pos (by decide)

theorem lt_iff {r r' : Ratio} (left : 0 < r.den) (right : 0 < r'.den) :
    r.lt r' = true ↔ r.value < r'.value := by
  have left : (0 : ℚ) < r.den := by exact_mod_cast left
  have right : (0 : ℚ) < r'.den := by exact_mod_cast right
  rw [lt, decide_eq_true_iff, value, value, div_lt_div_iff₀ left right]
  exact_mod_cast Iff.rfl

end Ratio

def value (d : Decimal) : ℚ := d.digits * 10 ^ d.exponent

theorem value_ratio (d : Decimal) : d.ratio.value = d.value := by
  have scaled := Ratio.value_scaled (by decide : 0 < 10) d.digits d.exponent
  rwa [Nat.cast_ofNat] at scaled

theorem den_ratio_pos (d : Decimal) : 0 < d.ratio.den := Nat.pow_pos (by decide)

theorem value_next (d : Decimal) : d.next.value = d.value + 10 ^ d.exponent := by
  simp [value, next, add_mul]

theorem value_nonneg (d : Decimal) : 0 ≤ d.value := by
  unfold value
  positivity

/-- With an exponent that is not negative the value is a natural number. -/
theorem value_of_nonneg {d : Decimal} (whole : 0 ≤ d.exponent) :
    d.value = (d.digits * 10 ^ d.exponent.toNat : ℕ) := by
  have exponent : (10 : ℚ) ^ d.exponent = 10 ^ d.exponent.toNat := by
    rw [← zpow_natCast, Int.toNat_of_nonneg whole]
  simp [value, exponent]

theorem lt_pow_digitCount (n : ℕ) : n < 10 ^ digitCount n := by
  have nonempty : 0 < digitCount n := List.length_pos_iff.mpr Nat.toDigits_ne_nil
  exact (Nat.length_toDigits_le_iff (by decide) nonempty).mp le_rfl

theorem pow_digitCount_le {n : ℕ} (positive : 0 < n) : 10 ^ (digitCount n - 1) ≤ n := by
  by_contra below
  rw [Nat.not_le] at below
  rcases Nat.eq_zero_or_pos (digitCount n - 1) with none | some
  · rw [none] at below
    omega
  · have shorter := (Nat.length_toDigits_le_iff (by decide) some).mpr below
    have : digitCount n ≤ digitCount n - 1 := shorter
    omega

/-- Rewriting a power of ten changes its digits and not its value. -/
theorem value_carry (d : Decimal) : (carry d).value = d.value := by
  unfold carry
  split
  · next power =>
      have digits : (d.digits : ℚ) = 10 ^ (digitCount d.digits - 1) := by
        exact_mod_cast power
      rw [value, value, digits, ← zpow_natCast, ← zpow_add₀ (by norm_num)]
      simp [add_comm]
  · rfl

theorem exponent_le_carry (d : Decimal) : d.exponent ≤ (carry d).exponent := by
  unfold carry
  split
  · exact Int.le_add_of_nonneg_right (Int.natCast_nonneg _)
  · exact le_rfl

namespace Ratio

variable {r : Ratio} (num : 0 < r.num) (den : 0 < r.den)
include num den

theorem value_pos : 0 < r.value := by
  have num : (0 : ℚ) < r.num := by exact_mod_cast num
  have den : (0 : ℚ) < r.den := by exact_mod_cast den
  exact div_pos num den

theorem decade_bounds : (10 : ℚ) ^ (r.decade - 1) ≤ r.value ∧ r.value < 10 ^ r.decade := by
  have den' : (0 : ℚ) < r.den := by exact_mod_cast den
  have num' : (0 : ℚ) < r.num := by exact_mod_cast num
  unfold decade
  split
  · next large =>
      have quotient : 0 < r.num / r.den := Nat.div_pos large den
      generalize counted : digitCount (r.num / r.den) = count
      have some : 1 ≤ count := by
        rw [← counted]
        exact List.length_pos_iff.mpr Nat.toDigits_ne_nil
      constructor
      · have low : 10 ^ (count - 1) * r.den ≤ r.num := by
          rw [← counted]
          exact (Nat.mul_le_mul_right _ (pow_digitCount_le quotient)).trans (Nat.div_mul_le_self ..)
        have exponent : ((count : ℤ) - 1) = ((count - 1 : ℕ) : ℤ) := by omega
        rw [exponent, zpow_natCast, value, le_div_iff₀ den']
        exact_mod_cast low
      · have high : r.num < 10 ^ count * r.den := by
          rw [← Nat.div_lt_iff_lt_mul den, ← counted]
          exact lt_pow_digitCount _
        rw [zpow_natCast, value, div_lt_iff₀ den']
        exact_mod_cast high
  · next small =>
      rw [Nat.not_le] at small
      have inverse : 0 < (r.den - 1) / r.num := Nat.div_pos (by omega) num
      generalize counted : digitCount ((r.den - 1) / r.num) = count
      have some : 1 ≤ count := by
        rw [← counted]
        exact List.length_pos_iff.mpr Nat.toDigits_ne_nil
      constructor
      · have low : r.den ≤ r.num * 10 ^ count := by
          have above := Nat.div_lt_iff_lt_mul num |>.mp (lt_pow_digitCount ((r.den - 1) / r.num))
          rw [counted, Nat.mul_comm] at above
          omega
        have exponent : (1 : ℤ) - count - 1 = -(count : ℤ) := by omega
        rw [exponent, zpow_neg, zpow_natCast, value, inv_eq_one_div,
          div_le_div_iff₀ (by positivity) den', one_mul]
        exact_mod_cast low
      · have high : r.num * 10 ^ (count - 1) < r.den := by
          have below := Nat.mul_le_mul_left r.num (pow_digitCount_le inverse)
          have whole := Nat.mul_div_le (r.den - 1) r.num
          rw [counted] at below
          omega
        have exponent : (1 : ℤ) - count = -((count - 1 : ℕ) : ℤ) := by omega
        rw [exponent, zpow_neg, zpow_natCast, value, inv_eq_one_div,
          div_lt_div_iff₀ den' (by positivity), one_mul]
        exact_mod_cast high

end Ratio

theorem floorAt_bounds {r : Ratio} (den : 0 < r.den) (exponent : ℤ) :
    (floorAt r exponent).value ≤ r.value ∧ r.value < (floorAt r exponent).next.value := by
  have scale : (0 : ℚ) < 10 ^ exponent := by positivity
  have den' : (0 : ℚ) < r.den := by exact_mod_cast den
  have split : (10 : ℚ) ^ exponent = 10 ^ exponent.toNat / 10 ^ (-exponent).toNat :=
    zpow_eq_pow_div_pow (by norm_num) exponent
  have divisor : 0 < r.den * 10 ^ exponent.toNat := by positivity
  generalize counted : r.num * 10 ^ (-exponent).toNat / (r.den * 10 ^ exponent.toNat) = count
  have floor : floorAt r exponent = ⟨count, exponent⟩ := by simp [floorAt, counted]
  rw [floor, value_next]
  simp only [value]
  constructor
  · have below : count * (r.den * 10 ^ exponent.toNat) ≤ r.num * 10 ^ (-exponent).toNat := by
      rw [← counted]
      exact Nat.div_mul_le_self ..
    have below : (count : ℚ) * (r.den * 10 ^ exponent.toNat) ≤ r.num * 10 ^ (-exponent).toNat := by
      exact_mod_cast below
    rw [split, Ratio.value, ← mul_div_assoc, div_le_div_iff₀ (by positivity) den']
    linarith
  · have above : r.num * 10 ^ (-exponent).toNat < (count + 1) * (r.den * 10 ^ exponent.toNat) := by
      rw [← Nat.div_lt_iff_lt_mul divisor, counted]
      exact Nat.lt_succ_self count
    have above : (r.num : ℚ) * 10 ^ (-exponent).toNat <
        (count + 1) * (r.den * 10 ^ exponent.toNat) := by
      exact_mod_cast above
    rw [← add_one_mul, split, Ratio.value, ← mul_div_assoc, div_lt_div_iff₀ den' (by positivity)]
    linarith

/-- A whole number lies on the grid of the whole numbers. -/
theorem value_floorAt_zero {r : Ratio} (den : 0 < r.den) {n : ℕ} (whole : r.value = n) :
    (floorAt r 0).value = n := by
  have ⟨floor, ceiling⟩ := floorAt_bounds den 0
  have digits : (floorAt r 0).value = (floorAt r 0).digits := mul_one _
  have spacing : (10 : ℚ) ^ (floorAt r 0).exponent = 1 := rfl
  rw [value_next, spacing, whole, digits] at ceiling
  rw [whole, digits] at floor
  have floor : (floorAt r 0).digits ≤ n := by exact_mod_cast floor
  have ceiling : n < (floorAt r 0).digits + 1 := by exact_mod_cast ceiling
  have same : (floorAt r 0).digits = n := by omega
  rw [digits, same]

end SqlSelect.Decimal
