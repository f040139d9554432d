import Mathlib.Algebra.Ring.Nat
import SqlSelect.Decimal.Positional
namespace SqlSelect

namespace Binary64

/-- The number with no sign on a zero. -/
def unsigned (x : Binary64) : Binary64 := if x.isZero then ⟨0⟩ else x

@[simp] theorem unsigned_unsigned (x : Binary64) : x.unsigned.unsigned = x.unsigned := by
  cases zero : x.isZero <;> simp [unsigned, zero]

theorem unsigned_eq_of_numericEq {x y : Binary64} (same : x.numericEq y = true) :
    x.unsigned = y.unsigned := by
  simp only [numericEq, Bool.and_eq_true, Bool.or_eq_true, beq_iff_eq] at same
  rcases same.2 with rfl | ⟨left, right⟩
  · rfl
  · simp [unsigned, left, right]

/-- A zero is its sign. -/
theorem bits_of_isZero {x : Binary64} (zero : x.isZero = true) :
    x.bits.toNat = if x.isNegative then 2 ^ 63 else 0 := by
  have bound : x.bits.toNat < 2 ^ 64 := x.bits.toNat_lt
  have fields : x.biasedExponent = 0 ∧ x.fraction = 0 := by
    simp only [isZero, magnitude, beq_iff_eq] at zero
    split at zero
    · split at zero <;> cases zero
    · split at zero
      · simp_all
      · simp at zero
  obtain ⟨exponent, fraction⟩ := fields
  simp only [biasedExponent, Binary64.fraction, isNegative, Nat.pow_eq] at exponent fraction ⊢
  grind

theorem eq_of_isZero {x y : Binary64} (left : x.isZero = true) (right : y.isZero = true)
    (signs : x.isNegative = y.isNegative) : x = y := by
  have bits : x.bits.toNat = y.bits.toNat := by
    rw [bits_of_isZero left, bits_of_isZero right, signs]
  obtain ⟨bits⟩ := x
  exact congrArg Binary64.mk (UInt64.toNat_inj.mp ‹_›)

theorem text_of_isZero {x : Binary64} (zero : x.isZero = true) :
    x.text = if x.isNegative then ['-', '0'] else ['0'] := by
  have magnitude : x.magnitude = .finite 0 (-1074) := by simpa [isZero] using zero
  cases negative : x.isNegative <;> simp [text, isNaN, magnitude, negative]

end Binary64

end SqlSelect
