/-!
# Binary64 numbers on a grid of units

Numbers are IEEE binary64.  Every finite one is an integer multiple of
`2 ^ -1074`, the smallest positive number, called a *unit* here.  Without the
sign bit the bit pattern of a number is its *magnitude*: a natural number that
grows with the value.  `unitsOfMagnitude` gives the value of a magnitude in
units, `nearestMagnitude` the magnitude nearest to a quotient of units, so
rounding, the integer part and the reading of decimals are arithmetic on
natural numbers.
-/

namespace ScopedLisp

/-- The numbers of the language. -/
abbrev Number := Float

namespace Number

/-- One is this many units. -/
def unitsPerOne : Nat := Nat.pow 2 1074

/-- Between a power of two and the next there are this many magnitudes. -/
def magnitudesPerBinade : Nat := Nat.pow 2 52

/-- The magnitude of the infinities; finite magnitudes lie below it. -/
def infiniteMagnitude : Nat := 2047 * magnitudesPerBinade

/-- What the sign of a negative number adds to its magnitude. -/
def signBit : Nat := Nat.pow 2 63

/-- The bit pattern without its sign. -/
def magnitude (number : Number) : Nat :=
  number.toBits.toNat % signBit

/-- The sign bit. -/
def isNegative (number : Number) : Bool :=
  signBit ≤ number.toBits.toNat

/-- The number with the given sign and magnitude. -/
def ofMagnitude (negative : Bool) (magnitude : Nat) : Number :=
  Float.ofBits (UInt64.ofNat (magnitude + if negative then signBit else 0))

/-- The number that is not a number. -/
def notANumber : Number :=
  Float.ofBits 0x7ff8000000000000

/-- The value of a finite magnitude, in units. -/
def unitsOfMagnitude (magnitude : Nat) : Nat :=
  let exponent := magnitude / magnitudesPerBinade - 1
  (magnitude - exponent * magnitudesPerBinade) * Nat.pow 2 exponent

/-- The integer nearest to a quotient; a tie goes to the even one. -/
def roundHalfEven (numerator denominator : Nat) : Nat :=
  let quotient := numerator / denominator
  let remainder := numerator % denominator
  if 2 * remainder < denominator then quotient
  else if denominator < 2 * remainder then quotient + 1
  else quotient + quotient % 2

/--
The magnitude whose value is nearest to a quotient of units.  A tie goes to
the even magnitude, and what exceeds every finite magnitude is infinite.
-/
def nearestMagnitude (numerator denominator : Nat) : Nat :=
  let exponent := Nat.log2 (numerator / denominator) - 52
  min infiniteMagnitude
    (exponent * magnitudesPerBinade +
      roundHalfEven numerator (denominator * Nat.pow 2 exponent))

/-- The number nearest to a natural number. -/
def ofNat (value : Nat) : Number :=
  ofMagnitude false (nearestMagnitude (value * unitsPerOne) 1)

/--
What a number has beyond its integer part, under its sign unless that is
nothing.  Of an infinity, and of what is no number, it is no number.
-/
def fract (number : Number) : Number :=
  let magnitude := number.magnitude
  let remainder := unitsOfMagnitude magnitude % unitsPerOne
  if infiniteMagnitude ≤ magnitude then notANumber
  else
    ofMagnitude (number.isNegative && remainder != 0)
      (nearestMagnitude remainder 1)

/--
The greatest integer not above a number.  A number that has no fractional
part, an infinity and the number that is not a number are their own floor.
-/
def floor (number : Number) : Number :=
  let magnitude := number.magnitude
  let units := unitsOfMagnitude magnitude
  if infiniteMagnitude ≤ magnitude then number
  else if units % unitsPerOne = 0 then number
  else if number.isNegative then
    ofMagnitude true
      (nearestMagnitude ((units / unitsPerOne + 1) * unitsPerOne) 1)
  else
    ofMagnitude false
      (nearestMagnitude (units / unitsPerOne * unitsPerOne) 1)

/-- The lesser of two numbers; one that is not a number yields to the other. -/
def least (left right : Number) : Number :=
  if left.isNaN then right
  else if right.isNaN then left
  else if right < left then right
  else left

/-- The greater of two numbers; one that is not a number yields to the other. -/
def greatest (left right : Number) : Number :=
  if left.isNaN then right
  else if right.isNaN then left
  else if left < right then right
  else left

/-- Numbers closer than this are alike. -/
def tolerance : Number := 1e-5

/--
Whether two numbers count as equal: they compare equal, they differ by less
than the tolerance, or neither is a number.
-/
def alike (left right : Number) : Bool :=
  left == right || (left - right).abs < tolerance ||
    (left.isNaN && right.isNaN)

end Number

end ScopedLisp
