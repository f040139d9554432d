namespace SqlSelect

/-!
# Double-precision numbers

A double is its 64 bits.  `magnitude` reads them as an exact number, so that
everything said about a double is said about natural numbers.
-/

/-- A double-precision number, held as its bit pattern. -/
structure Binary64 where
  bits : UInt64
  deriving DecidableEq

namespace Binary64

/-- What the bits below the sign say: `significand * 2 ^ exponent`, or no finite
    number. -/
inductive Magnitude where
  | finite (significand : Nat) (exponent : Int)
  | infinite
  | nan
  deriving DecidableEq

def isNegative (d : Binary64) : Bool := d.bits.toNat / Nat.pow 2 63 == 1

def biasedExponent (d : Binary64) : Nat := d.bits.toNat / Nat.pow 2 52 % Nat.pow 2 11

def fraction (d : Binary64) : Nat := d.bits.toNat % Nat.pow 2 52

def magnitude (d : Binary64) : Magnitude :=
  if d.biasedExponent = Nat.pow 2 11 - 1 then
    if d.fraction = 0 then .infinite else .nan
  else if d.biasedExponent = 0 then .finite d.fraction (-1074)
  else .finite (Nat.pow 2 52 + d.fraction) (d.biasedExponent - 1075)

def isNaN (d : Binary64) : Bool := d.magnitude == .nan

def isZero (d : Binary64) : Bool := d.magnitude == .finite 0 (-1074)

/-- Equality of numbers: a NaN equals nothing, and the two zeros are equal. -/
def numericEq (a b : Binary64) : Bool :=
  !a.isNaN && !b.isNaN && (a == b || (a.isZero && b.isZero))

theorem numericEq_self (d : Binary64) : d.numericEq d = !d.isNaN := by
  simp [numericEq]

end Binary64
end SqlSelect
