import SqlSelect.Decimal.Shortest
namespace SqlSelect

namespace Decimal

/-- The digits with the point in its place and no superfluous zero or point. -/
def positional (d : Decimal) : List Char :=
  let digits := Nat.toDigits 10 d.digits
  let places := (-d.exponent).toNat
  if places = 0 then digits ++ List.replicate d.exponent.toNat '0'
  else if places < digits.length then
    digits.take (digits.length - places) ++ '.' :: digits.drop (digits.length - places)
  else '0' :: '.' :: (List.replicate (places - digits.length) '0' ++ digits)

end Decimal

namespace Binary64

/-- The text of a double: shortest digits, positional, a sign also on zero. -/
def text (d : Binary64) : List Char :=
  let unsigned : List Char :=
    match d.magnitude with
    | .nan => ['N', 'a', 'N']
    | .infinite => ['i', 'n', 'f']
    | .finite 0 _ => ['0']
    | .finite significand exponent => (Decimal.shortest significand exponent).positional
  if d.isNegative && !d.isNaN then '-' :: unsigned else unsigned

end Binary64

def natText (n : Nat) : List Char := Nat.toDigits 10 n

def intText (i : Int) : List Char :=
  if i < 0 then '-' :: natText i.natAbs else natText i.natAbs

end SqlSelect
