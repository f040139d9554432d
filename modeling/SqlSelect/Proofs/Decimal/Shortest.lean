import SqlSelect.Proofs.Decimal.Value
namespace SqlSelect.Decimal

/-- The significands and exponents of positive doubles. -/
structure IsDouble (significand : ℕ) (exponent : ℤ) : Prop where
  positive : 0 < significand
  bounded : significand < 2 ^ 53
  least : -1074 ≤ exponent
  full : -1074 < exponent → 2 ^ 52 ≤ significand

namespace Interval

theorem value_high (significand : ℕ) (exponent : ℤ) :
    (ofBinary significand exponent).high.value =
      significand * 2 ^ exponent + 2 ^ exponent / 2 := by
  rw [ofBinary, Ratio.value_ofBinary, zpow_sub₀ (by norm_num)]
  push_cast
  ring

theorem value_low {significand : ℕ} (positive : 0 < significand) (exponent : ℤ) :
    (ofBinary significand exponent).low.value = significand * 2 ^ exponent -
      (if significand = 2 ^ 52 ∧ -1074 < exponent then 2 ^ exponent / 4 else 2 ^ exponent / 2) := by
  simp only [ofBinary, Nat.pow_eq]
  split
  · have cast : ((4 * significand - 1 : ℕ) : ℚ) = 4 * significand - 1 := by
      rw [Nat.cast_sub (by omega)]
      push_cast
      ring
    rw [Ratio.value_ofBinary, cast, zpow_sub₀ (by norm_num)]
    ring
  · have cast : ((2 * significand - 1 : ℕ) : ℚ) = 2 * significand - 1 := by
      rw [Nat.cast_sub (by omega)]
      push_cast
      ring
    rw [Ratio.value_ofBinary, cast, zpow_sub₀ (by norm_num)]
    ring

theorem den_low_pos (significand : ℕ) (exponent : ℤ) :
    0 < (ofBinary significand exponent).low.den := by
  unfold ofBinary
  dsimp only
  split <;> exact Ratio.den_ofBinary_pos ..

theorem den_high_pos (significand : ℕ) (exponent : ℤ) :
    0 < (ofBinary significand exponent).high.den := Ratio.den_ofBinary_pos ..

variable {significand : ℕ} {exponent : ℤ} {d : Decimal}

/-- Whether the ends belong to the interval makes no difference to these bounds. -/
theorem bounds_of_contains (inside : (ofBinary significand exponent).contains d.ratio = true) :
    (ofBinary significand exponent).low.value ≤ d.value ∧
      d.value ≤ (ofBinary significand exponent).high.value := by
  have lower := Ratio.lt_iff (den_ratio_pos d) (den_low_pos significand exponent)
  have lower' := Ratio.lt_iff (den_low_pos significand exponent) (den_ratio_pos d)
  have upper := Ratio.lt_iff (den_high_pos significand exponent) (den_ratio_pos d)
  have upper' := Ratio.lt_iff (den_ratio_pos d) (den_high_pos significand exponent)
  rw [value_ratio] at lower lower' upper upper'
  unfold contains at inside
  split at inside
  · simp only [Bool.and_eq_true, Bool.not_eq_true', ← Bool.not_eq_true, lower, upper,
      not_lt] at inside
    exact inside
  · simp only [Bool.and_eq_true, lower', upper'] at inside
    exact ⟨inside.1.le, inside.2.le⟩

theorem contains_of_between (below : (ofBinary significand exponent).low.value < d.value)
    (above : d.value < (ofBinary significand exponent).high.value) :
    (ofBinary significand exponent).contains d.ratio = true := by
  have lower := Ratio.lt_iff (den_ratio_pos d) (den_low_pos significand exponent)
  have lower' := Ratio.lt_iff (den_low_pos significand exponent) (den_ratio_pos d)
  have upper := Ratio.lt_iff (den_high_pos significand exponent) (den_ratio_pos d)
  have upper' := Ratio.lt_iff (den_ratio_pos d) (den_high_pos significand exponent)
  rw [value_ratio] at lower lower' upper upper'
  unfold contains
  split
  · simp only [Bool.and_eq_true, Bool.not_eq_true', ← Bool.not_eq_true, lower, upper, not_lt]
    exact ⟨below.le, above.le⟩
  · simp only [Bool.and_eq_true, lower', upper']
    exact ⟨below, above⟩

/-- A contained number is at most half a unit in the last place away. -/
theorem near_of_contains (positive : 0 < significand)
    (inside : (ofBinary significand exponent).contains d.ratio = true) :
    significand * 2 ^ exponent - 2 ^ exponent / 2 ≤ d.value ∧
      d.value ≤ significand * 2 ^ exponent + 2 ^ exponent / 2 := by
  have unit : (0 : ℚ) < 2 ^ exponent := by positivity
  have ⟨below, above⟩ := bounds_of_contains inside
  rw [value_low positive] at below
  rw [value_high] at above
  refine ⟨?_, above⟩
  split at below <;> linarith

end Interval

theorem pick?_some {i : Interval} {r : Ratio} {exponent : ℤ} {d : Decimal}
    (picked : pick? i r exponent = some d) : d.exponent = exponent ∧ i.contains d.ratio = true := by
  unfold pick? at picked
  dsimp only at picked
  split at picked
  · next low next =>
      obtain rfl := Option.some.inj picked
      split
      · exact ⟨rfl, low⟩
      · exact ⟨rfl, next⟩
  · next low _ =>
      obtain rfl := Option.some.inj picked
      exact ⟨rfl, low⟩
  · next _ next =>
      obtain rfl := Option.some.inj picked
      exact ⟨rfl, next⟩
  · cases picked

theorem pick?_none {i : Interval} {r : Ratio} {exponent : ℤ} (none : pick? i r exponent = none) :
    i.contains (floorAt r exponent).ratio = false ∧
      i.contains (floorAt r exponent).next.ratio = false := by
  unfold pick? at none
  dsimp only at none
  split at none
  case h_4 low next => exact ⟨low, next⟩
  all_goals cases none

section

variable {significand : ℕ} {exponent : ℤ}

/-- At a place where no decimal is found, the interval lies between two neighbours on
    the grid. -/
theorem between_of_pick?_none (positive : 0 < significand) {place : ℤ}
    (none : pick? (Interval.ofBinary significand exponent) (Ratio.ofBinary significand exponent)
      place = none) :
    (floorAt (Ratio.ofBinary significand exponent) place).value ≤
        (Interval.ofBinary significand exponent).low.value ∧
      (Interval.ofBinary significand exponent).high.value ≤
        (floorAt (Ratio.ofBinary significand exponent) place).value + 10 ^ place := by
  have ⟨low, next⟩ := pick?_none none
  have ⟨floor, ceiling⟩ := floorAt_bounds (Ratio.den_ofBinary_pos significand exponent) place
  have spacing : (floorAt (Ratio.ofBinary significand exponent) place).next.value =
      (floorAt (Ratio.ofBinary significand exponent) place).value + 10 ^ place :=
    value_next _
  rw [Ratio.value_ofBinary] at floor ceiling
  rw [← spacing]
  have unit : (0 : ℚ) < 2 ^ exponent := by positivity
  constructor
  · by_contra above
    rw [not_le] at above
    refine Bool.false_ne_true (low.symm.trans (Interval.contains_of_between above ?_))
    rw [Interval.value_high]
    linarith
  · by_contra below
    rw [not_le] at below
    refine Bool.false_ne_true (next.symm.trans (Interval.contains_of_between ?_ below))
    rw [Interval.value_low positive]
    split <;> linarith

/-- With seventeen digits the neighbours on the grid are close to one another. -/
theorem spacing_le (positive : 0 < significand) :
    (10 : ℚ) ^ ((Ratio.ofBinary significand exponent).decade - 17) * 10 ^ 16 ≤
      significand * 2 ^ exponent := by
  have num : 0 < (Ratio.ofBinary significand exponent).num :=
    Nat.mul_pos positive (Nat.pow_pos (by decide))
  have ⟨decade, _⟩ := Ratio.decade_bounds num (Ratio.den_ofBinary_pos significand exponent)
  rw [Ratio.value_ofBinary] at decade
  have sixteen : (10 : ℚ) ^ ((Ratio.ofBinary significand exponent).decade - 17) * 10 ^ 16 =
      10 ^ ((Ratio.ofBinary significand exponent).decade - 1) := by
    rw [← zpow_natCast, ← zpow_add₀ (by norm_num)]
    congr 1
    push_cast
    ring
  rwa [sixteen]

/-- The grid of the decimals with seventeen digits is finer than the interval is
    wide. -/
theorem exists_seventeen (double : IsDouble significand exponent) :
    ∃ d, pick? (Interval.ofBinary significand exponent) (Ratio.ofBinary significand exponent)
      ((Ratio.ofBinary significand exponent).decade - 17) = some d := by
  by_contra nothing
  have ⟨below, above⟩ := between_of_pick?_none double.positive
    (Option.eq_none_iff_forall_ne_some.mpr (not_exists.mp nothing))
  have spacing : (10 : ℚ) ^ ((Ratio.ofBinary significand exponent).decade - 17) * 10 ^ 16 ≤
      significand * 2 ^ exponent := spacing_le double.positive
  have unit : (0 : ℚ) < 2 ^ exponent := by positivity
  rw [Interval.value_high] at above
  rw [Interval.value_low double.positive] at below
  split at below
  · next power =>
      have digits : (significand : ℚ) = 2 ^ 52 := by exact_mod_cast power.1
      rw [digits] at spacing above below
      linarith
  · have digits : (significand : ℚ) * 2 ^ exponent ≤ 2 ^ 53 * 2 ^ exponent := by
      have bounded : (significand : ℚ) ≤ 2 ^ 53 := by exact_mod_cast double.bounded.le
      exact mul_le_mul_of_nonneg_right bounded unit.le
    linarith

/-- The first place of the search at which there is a decimal. -/
theorem exists_shortest (double : IsDouble significand exponent) :
    ∃ d count, shortest significand exponent = carry d ∧
      (Interval.ofBinary significand exponent).contains d.ratio = true ∧
      d.exponent = (Ratio.ofBinary significand exponent).decade - (count : ℕ) ∧ count ≤ 17 ∧
      ∀ fewer : ℕ, 1 ≤ fewer → fewer < count →
        pick? (Interval.ofBinary significand exponent) (Ratio.ofBinary significand exponent)
          ((Ratio.ofBinary significand exponent).decade - fewer) = none := by
  obtain ⟨last, seventeenth⟩ := exists_seventeen double
  unfold shortest
  dsimp only
  cases search : (List.range' 1 16).findSome? fun (count : ℕ) =>
      pick? (Interval.ofBinary significand exponent) (Ratio.ofBinary significand exponent)
        ((Ratio.ofBinary significand exponent).decade - count) with
  | none =>
      have missing := List.findSome?_eq_none_iff.mp search
      have ⟨place, inside⟩ := pick?_some seventeenth
      refine ⟨last, 17, ?_, inside, place, le_rfl, fun fewer positive less => ?_⟩
      · rw [seventeenth, Option.getD_none, Option.getD_some]
      · exact missing fewer (List.mem_range'_1.mpr ⟨positive, less⟩)
  | some d =>
      obtain ⟨before, count, after, counts, picked, missing⟩ := List.findSome?_eq_some_iff.mp search
      have ⟨place, inside⟩ := pick?_some picked
      have range : 1 ≤ count ∧ count < 1 + 16 := by
        rw [← List.mem_range'_1, counts]
        simp
      refine ⟨d, count, rfl, inside, place, by omega, fun fewer positive less => ?_⟩
      -- The counts are tried in order, so a smaller one is among those before.
      have tried : fewer ∈ before ++ count :: after := by
        rw [← counts, List.mem_range'_1]
        omega
      have ordered : (before ++ count :: after).Pairwise (· < ·) :=
        counts ▸ List.pairwise_lt_range'
      rcases List.mem_append.mp tried with earlier | later
      · exact missing fewer earlier
      · rcases List.mem_cons.mp later with rfl | later
        · exact absurd less (lt_irrefl _)
        · have more := (List.pairwise_cons.mp (List.pairwise_append.mp ordered).2.1).1 fewer later
          omega

theorem shortest_near (double : IsDouble significand exponent) :
    significand * 2 ^ exponent - 2 ^ exponent / 2 ≤ (shortest significand exponent).value ∧
      (shortest significand exponent).value ≤ significand * 2 ^ exponent + 2 ^ exponent / 2 := by
  obtain ⟨d, count, short, inside, _⟩ := exists_shortest double
  rw [short, value_carry]
  exact Interval.near_of_contains double.positive inside

theorem digits_shortest_pos (double : IsDouble significand exponent) :
    0 < (shortest significand exponent).digits := by
  have ⟨low, _⟩ := shortest_near double
  have unit : (0 : ℚ) < 2 ^ exponent := by positivity
  have one : (2 : ℚ) ^ exponent ≤ significand * 2 ^ exponent := by
    have positive : (1 : ℚ) ≤ significand := by exact_mod_cast double.positive
    exact le_mul_of_one_le_left unit.le positive
  rcases Nat.eq_zero_or_pos (shortest significand exponent).digits with none | some
  · have value : (shortest significand exponent).value = 0 := by simp [Decimal.value, none]
    rw [value] at low
    linarith
  · exact some

/-- Between whole numbers and doubles with a fraction there is more than half a
    unit in the last place. -/
theorem whole_of_value_shortest (double : IsDouble significand exponent) {n : ℕ}
    (written : (shortest significand exponent).value = n) :
    ∃ n : ℕ, (significand : ℚ) * 2 ^ exponent = n := by
  have ⟨low, high⟩ := shortest_near double
  rw [written] at low high
  rcases Int.le_total 0 exponent with whole | fraction
  · obtain ⟨k, rfl⟩ := Int.eq_ofNat_of_zero_le whole
    exact ⟨significand * 2 ^ k, by push_cast; rfl⟩
  · obtain ⟨k, rfl⟩ := Int.exists_eq_neg_ofNat fraction
    have scale : (0 : ℚ) < 2 ^ k := by positivity
    rw [zpow_neg, zpow_natCast, ← div_eq_mul_inv] at low high ⊢
    have half : ((2 : ℚ) ^ k)⁻¹ / 2 = 1 / 2 / 2 ^ k := by ring
    rw [half, ← sub_div, div_le_iff₀ scale] at low
    rw [half, ← add_div, le_div_iff₀ scale] at high
    refine ⟨n, (div_eq_iff scale.ne').mpr ?_⟩
    have below : significand < n * 2 ^ k + 1 := by
      have below : (significand : ℚ) < n * 2 ^ k + 1 := by linarith
      exact_mod_cast below
    have above : n * 2 ^ k < significand + 1 := by
      have above : (n : ℚ) * 2 ^ k < significand + 1 := by linarith
      exact_mod_cast above
    have same : significand = n * 2 ^ k := by omega
    exact_mod_cast same

/-- A whole number lies on the grid of the whole numbers, so no digit after the
    point is needed to find it. -/
theorem exponent_nonneg_of_whole (double : IsDouble significand exponent) {n : ℕ}
    (whole : (significand : ℚ) * 2 ^ exponent = n) :
    0 ≤ (shortest significand exponent).exponent := by
  obtain ⟨d, count, short, inside, place, few, none⟩ := exists_shortest double
  rw [short]
  refine le_trans ?_ (exponent_le_carry d)
  rw [place]
  have num : 0 < (Ratio.ofBinary significand exponent).num :=
    Nat.mul_pos double.positive (Nat.pow_pos (by decide))
  have den := Ratio.den_ofBinary_pos significand exponent
  have ⟨_, decade⟩ := Ratio.decade_bounds num den
  have positive := Ratio.value_pos num den
  rw [Ratio.value_ofBinary, whole] at decade positive
  generalize (Ratio.ofBinary significand exponent).decade = places at *
  by_contra negative
  have one : (1 : ℚ) ≤ n := by exact_mod_cast positive
  have some : 0 < places := by
    by_contra nonpositive
    have small : (10 : ℚ) ^ places ≤ 1 := zpow_le_one_of_nonpos₀ (by norm_num) (by omega)
    linarith
  have units := none places.toNat (by omega) (by omega)
  rw [Int.toNat_of_nonneg some.le, Int.sub_self] at units
  have ⟨missed, _⟩ := pick?_none units
  have exact : (floorAt (Ratio.ofBinary significand exponent) 0).value = n :=
    value_floorAt_zero den (by rw [Ratio.value_ofBinary, whole])
  have unit : (0 : ℚ) < 2 ^ exponent := by positivity
  refine Bool.false_ne_true (missed.symm.trans (Interval.contains_of_between ?_ ?_))
  · rw [Interval.value_low double.positive, whole, exact]
    split <;> linarith
  · rw [Interval.value_high, whole, exact]
    linarith

/-- Whole numbers with units in the last place of at most one are written as they
    are. -/
theorem value_shortest_of_small (double : IsDouble significand exponent) {n : ℕ}
    (whole : (significand : ℚ) * 2 ^ exponent = n) (small : n < 2 ^ 53) :
    (shortest significand exponent).value = n := by
  have ⟨low, high⟩ := shortest_near double
  rw [whole] at low high
  have unit : (2 : ℚ) ^ exponent ≤ 1 := by
    by_contra large
    have positive : 0 < exponent := by
      by_contra nonpositive
      exact large (zpow_le_one_of_nonpos₀ (by norm_num) (by omega))
    obtain ⟨k, rfl⟩ := Int.eq_ofNat_of_zero_le positive.le
    have full : 2 ^ 52 ≤ significand := double.full (by omega)
    have value : significand * 2 ^ k = n := by
      rw [zpow_natCast] at whole
      exact_mod_cast whole
    have two : 2 ^ 1 ≤ 2 ^ k := Nat.pow_le_pow_right (by decide) (by omega)
    have large : 2 ^ 52 * 2 ^ 1 ≤ significand * 2 ^ k := Nat.mul_le_mul full two
    omega
  have nonneg := exponent_nonneg_of_whole double whole
  rw [value_of_nonneg nonneg] at low high ⊢
  generalize (shortest significand exponent).digits *
    10 ^ (shortest significand exponent).exponent.toNat = written at low high ⊢
  have below : n < written + 1 := by
    have below : (n : ℚ) < written + 1 := by linarith
    exact_mod_cast below
  have above : written < n + 1 := by
    have above : (written : ℚ) < n + 1 := by linarith
    exact_mod_cast above
  have same : written = n := by omega
  rw [same]

end

end SqlSelect.Decimal
