import SqlSelect.Decimal.Binary64
namespace SqlSelect

/-- The number `digits * 10 ^ exponent`. -/
structure Decimal where
  digits : Nat
  exponent : Int
  deriving DecidableEq

namespace Decimal

structure Ratio where
  num : Nat
  den : Nat

def Ratio.ofBinary (significand : Nat) (exponent : Int) : Ratio :=
  ⟨significand * Nat.pow 2 exponent.toNat, Nat.pow 2 (-exponent).toNat⟩

def ratio (d : Decimal) : Ratio :=
  ⟨d.digits * Nat.pow 10 d.exponent.toNat, Nat.pow 10 (-d.exponent).toNat⟩

def Ratio.lt (a b : Ratio) : Bool := a.num * b.den < b.num * a.den

/-- How many decimal digits the number has; zero has one. -/
def digitCount (n : Nat) : Nat := (Nat.toDigits 10 n).length

/-- The least `e` for which a positive ratio is below `10 ^ e`. -/
def Ratio.decade (r : Ratio) : Int :=
  if r.den ≤ r.num then digitCount (r.num / r.den)
  else 1 - digitCount ((r.den - 1) / r.num)

/-- The open interval of numbers that are nearer to one double than to its
    neighbours, and whether its ends are read as that double too. -/
structure Interval where
  low : Ratio
  high : Ratio
  closed : Bool

/-- The neighbour below a power of two is half as far away as the one above,
    except at the least exponent.  Halfway points go to the even significand. -/
def Interval.ofBinary (significand : Nat) (exponent : Int) : Interval where
  low :=
    if significand = Nat.pow 2 52 ∧ -1074 < exponent then
      .ofBinary (4 * significand - 1) (exponent - 2)
    else .ofBinary (2 * significand - 1) (exponent - 1)
  high := .ofBinary (2 * significand + 1) (exponent - 1)
  closed := significand % 2 == 0

def Interval.contains (i : Interval) (r : Ratio) : Bool :=
  if i.closed then !r.lt i.low && !i.high.lt r else i.low.lt r && r.lt i.high

/-- The greatest decimal with the given exponent that does not exceed the ratio. -/
def floorAt (r : Ratio) (exponent : Int) : Decimal :=
  ⟨r.num * Nat.pow 10 (-exponent).toNat / (r.den * Nat.pow 10 exponent.toNat), exponent⟩

def next (d : Decimal) : Decimal := { d with digits := d.digits + 1 }

/-- Whether the ratio is strictly nearer to `d` than to `d.next`. -/
def isNearest (r : Ratio) (d : Decimal) : Bool :=
  r.lt (ratio ⟨10 * d.digits + 5, d.exponent - 1⟩)

/-- The decimal with the given exponent that lies in the interval.  Of two the
    nearer is taken, and the greater one when both are equally near. -/
def pick? (i : Interval) (r : Ratio) (exponent : Int) : Option Decimal :=
  let low := floorAt r exponent
  match i.contains low.ratio, i.contains low.next.ratio with
  | true, true => some (if isNearest r low then low else low.next)
  | true, false => some low
  | false, true => some low.next
  | false, false => none

/-- A power of ten is written with the single digit one. -/
def carry (d : Decimal) : Decimal :=
  if d.digits = Nat.pow 10 (digitCount d.digits - 1) then
    ⟨1, d.exponent + (digitCount d.digits - 1 : Nat)⟩
  else d

/-- The shortest decimal of the positive double `significand * 2 ^ exponent`.
    Seventeen digits always tell two doubles apart. -/
def shortest (significand : Nat) (exponent : Int) : Decimal :=
  let value := Ratio.ofBinary significand exponent
  let interval := Interval.ofBinary significand exponent
  let decade := value.decade
  let found := (List.range' 1 16).findSome? fun (count : Nat) => pick? interval value (decade - count)
  carry (found.getD ((pick? interval value (decade - 17)).getD (floorAt value (decade - 17))))

end Decimal
end SqlSelect
