import ScopedLisp.Number.Binary64

/-!
# Decimal texts of numbers

A decimal is a natural number times a power of ten.  `Decimal.magnitude` is
the nearest binary64 magnitude, computed exactly.  `Number.ofText?` reads a
decimal text with an optional sign and exponent, or the word for an infinity
or for the number that is not one.

`Number.render` goes the other way.  It writes the shortest decimal that reads
back, always positionally: on coarser grids of decimal places first, the
number's two neighbours are tried by reading them back, of two hits the nearer
one is taken, and the upper one on a tie.  The exact decimal expansion stands
behind the search, so whatever is written reads back.
-/

namespace ScopedLisp

/-- The number `significand * 10 ^ exponent`. -/
structure Decimal where
  significand : Nat
  exponent : Int
  deriving DecidableEq, Inhabited

namespace Decimal

/--
The magnitude nearest to a decimal.  Far beyond the largest finite magnitude
and far below the smallest the answer is known without computing the power.
-/
def magnitude (decimal : Decimal) : Nat :=
  if decimal.significand = 0 then 0
  else if 400 < decimal.exponent then Number.infiniteMagnitude
  else if decimal.exponent + (Nat.log2 decimal.significand / 3 : Nat) < -400 then 0
  else
    Number.nearestMagnitude
      (decimal.significand * Nat.pow 10 decimal.exponent.toNat *
        Number.unitsPerOne)
      (Nat.pow 10 (-decimal.exponent).toNat)

/-- The natural number that a list of digits denotes. -/
def valueOfDigits (digits : List Char) : Nat :=
  digits.foldl (fun value digit => 10 * value + (digit.toNat - '0'.toNat)) 0

/-- The digits of a natural number. -/
def digitsOf (value : Nat) : List Char :=
  Nat.toDigits 10 value

/-- Reads a non-empty run of digits that ends the text. -/
def readCount? (text : List Char) : Option Nat :=
  if !text.isEmpty && text.all Char.isDigit then some (valueOfDigits text)
  else none

/-- Reads what may follow the digits: nothing, or a power of ten. -/
def readExponent? : List Char → Option Int
  | [] => some 0
  | marker :: text =>
    if marker = 'e' || marker = 'E' then
      match text with
      | '-' :: digits => (readCount? digits).map fun count => -(count : Int)
      | '+' :: digits => (readCount? digits).map fun count => (count : Int)
      | digits => (readCount? digits).map fun count => (count : Int)
    else
      none

/-- Splits off the digits behind a point, if there is one. -/
def splitFraction : List Char → List Char × List Char
  | '.' :: text => (text.takeWhile Char.isDigit, text.dropWhile Char.isDigit)
  | text => ([], text)

/--
Reads digits with at most one point among them, at least one digit, and an
optional exponent.
-/
def ofText? (text : List Char) : Option Decimal :=
  let whole := text.takeWhile Char.isDigit
  let (fraction, rest) := splitFraction (text.dropWhile Char.isDigit)
  if whole.isEmpty && fraction.isEmpty then none
  else
    (readExponent? rest).map fun exponent =>
      ⟨valueOfDigits (whole ++ fraction), exponent - fraction.length⟩

/-- A list without the zeros at its end. -/
def dropTrailingZeros (digits : List Char) : List Char :=
  (digits.reverse.dropWhile (· == '0')).reverse

/--
The positional text of a decimal: no exponent, no zeros at the end of the
fraction, and no point without a fraction.
-/
def text (decimal : Decimal) : List Char :=
  let scale := Nat.pow 10 (-decimal.exponent).toNat
  let shifted := decimal.significand * Nat.pow 10 decimal.exponent.toNat
  let whole := digitsOf (shifted / scale)
  let fraction := digitsOf (shifted % scale)
  let padding := List.replicate ((-decimal.exponent).toNat - fraction.length) '0'
  match dropTrailingZeros (padding ++ fraction) with
  | [] => whole
  | places => whole ++ '.' :: places

/--
The neighbour of a finite magnitude on the grid of the given number of decimal
places that reads back as that magnitude.  Of two such neighbours it is the
nearer, and on a tie the upper one.
-/
def onGrid? (magnitude : Nat) (places : Int) : Option Decimal :=
  let numerator := Number.unitsOfMagnitude magnitude * Nat.pow 10 places.toNat
  let denominator := Number.unitsPerOne * Nat.pow 10 (-places).toNat
  let lower : Decimal := ⟨numerator / denominator, -places⟩
  let upper : Decimal := ⟨numerator / denominator + 1, -places⟩
  let lowerReadsBack := lower.magnitude == magnitude
  let upperReadsBack := upper.magnitude == magnitude
  let nearerBelow := 2 * (numerator % denominator) < denominator
  if lowerReadsBack && (nearerBelow || !upperReadsBack) then some lower
  else if upperReadsBack then some upper
  else none

/-- The exact value of a finite magnitude. -/
def exact (magnitude : Nat) : Decimal :=
  ⟨Number.unitsOfMagnitude magnitude * Nat.pow 5 1074, -1074⟩

/-- Decimal places of a grid on which a magnitude has at most one digit. -/
def coarsestPlaces (magnitude : Nat) : Int :=
  -1 - ((Nat.log2 (Number.unitsOfMagnitude magnitude) : Int) - 1074) *
    30103 / 100000

/-- The shortest decimal that reads back as a finite magnitude. -/
def shortest (magnitude : Nat) : Decimal :=
  let coarsest := coarsestPlaces magnitude
  ((List.range 19).findSome? fun step : Nat =>
    onGrid? magnitude (coarsest + step)).getD (exact magnitude)

end Decimal

namespace Number

/-- Reads a sign, if there is one: whether it is a minus, and the rest. -/
def splitSign : List Char → Bool × List Char
  | '-' :: text => (true, text)
  | '+' :: text => (false, text)
  | text => (false, text)

/--
Reads the text of a number: an optional sign and either a decimal or, in any
case of letters, one of the words `inf`, `infinity` and `nan`.
-/
def ofText? (text : String) : Option Number :=
  let (negative, body) := splitSign text.toList
  match Decimal.ofText? body with
  | some decimal => some (ofMagnitude negative decimal.magnitude)
  | none =>
    let word := String.ofList (body.map Char.toLower)
    if word = "inf" || word = "infinity" then
      some (ofMagnitude negative infiniteMagnitude)
    else if word = "nan" then some notANumber
    else none

/-- The text of a number: the shortest positional decimal that reads back. -/
def render (number : Number) : String :=
  let sign := if number.isNegative then "-" else ""
  if number.isNaN then "NaN"
  else if infiniteMagnitude ≤ number.magnitude then sign ++ "inf"
  else sign ++ String.ofList (Decimal.shortest number.magnitude).text

end Number

end ScopedLisp
