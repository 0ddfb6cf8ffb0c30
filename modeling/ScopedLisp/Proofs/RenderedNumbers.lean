import Mathlib
import ScopedLisp.Proofs.DecimalMagnitudes
import ScopedLisp.Proofs.LiteralConversion
import ScopedLisp.Proofs.NumberBoundaries

/-!
# Reading back the text of a number

The text of a finite number is a sign, digits, and possibly a point with more
digits behind it; it never has an exponent.  What is written of a decimal
leaves zeros out only at the end of a fraction, so it denotes a decimal of the
same magnitude (`Decimal.ofText?_text`).  For the shortest decimal of a number
that is the magnitude of the number, and the sign is written in front even of a
zero, so reading the text gives the number itself (`Number.ofText?_render`).

The reader of tokens knows nothing of this writer.  It takes digits and points
as far as they go, and the whole text is such a number.  So the text is a source
of one token, and evaluating it in any scope has the number as its value
(`rendered_numbers_read_back`).
-/

namespace ScopedLisp

namespace Decimal

/-! ## Digits and their values -/

theorem valueOfDigits_digitsOf (value : Nat) :
    valueOfDigits (digitsOf value) = value :=
  Nat.ofDigitChars_ten_toDigits

theorem valueOfDigits_append (leading trailing : List Char) :
    valueOfDigits (leading ++ trailing) =
      valueOfDigits leading * 10 ^ trailing.length +
        valueOfDigits trailing := by
  have split : valueOfDigits (leading ++ trailing) =
      Nat.ofDigitChars 10 trailing (valueOfDigits leading) :=
    List.foldl_append
  rw [split, Nat.ofDigitChars_eq_ofDigitChars_zero, Nat.mul_comm]
  rfl

theorem valueOfDigits_zeros (count : Nat) :
    valueOfDigits (List.replicate count '0') = 0 := by
  have zeros : valueOfDigits (List.replicate count '0') = 10 ^ count * 0 :=
    Nat.ofDigitChars_replicate_zero
  rw [zeros, Nat.mul_zero]

theorem digitsOf_ne_nil (value : Nat) : digitsOf value ≠ [] :=
  Nat.toDigits_ne_nil

theorem all_isDigit_digitsOf (value : Nat) :
    (digitsOf value).all Char.isDigit = true :=
  List.all_eq_true.mpr fun _ member =>
    Nat.isDigit_of_mem_toDigits (by decide) (by decide) member

/-- What is left out at the end of some digits is zeros. -/
theorem exists_append_zeros (digits : List Char) :
    ∃ count, digits =
      dropTrailingZeros digits ++ List.replicate count '0' := by
  have zeros : digits.reverse.takeWhile (· == '0') =
      List.replicate (digits.reverse.takeWhile (· == '0')).length '0' := by
    refine List.eq_replicate_iff.mpr ⟨rfl, fun digit member => ?_⟩
    exact beq_iff_eq.mp (List.all_eq_true.mp List.all_takeWhile digit member)
  refine ⟨(digits.reverse.takeWhile (· == '0')).length, ?_⟩
  rw [dropTrailingZeros, ← List.reverse_replicate, ← zeros,
    ← List.reverse_append, List.takeWhile_append_dropWhile,
    List.reverse_reverse]

/-- What is written of a fraction that has so many places and this value. -/
def placesOf (places value : Nat) : List Char :=
  dropTrailingZeros
    (List.replicate (places - (digitsOf value).length) '0' ++ digitsOf value)

theorem all_isDigit_placesOf (places value : Nat) :
    (placesOf places value).all Char.isDigit = true := by
  rcases exists_append_zeros (List.replicate
    (places - (digitsOf value).length) '0' ++ digitsOf value) with
    ⟨count, whole⟩
  have areDigits : (List.replicate (places - (digitsOf value).length) '0' ++
      digitsOf value).all Char.isDigit = true := by
    rw [List.all_append, all_isDigit_digitsOf, Bool.and_true,
      List.all_replicate]
    split <;> rfl
  rw [whole, List.all_append, Bool.and_eq_true] at areDigits
  exact areDigits.1

/-- The places that are not written are zeros and take the value up to its scale. -/
theorem exists_placesOf {places value : Nat} (below : value < 10 ^ places) :
    ∃ count, places = (placesOf places value).length + count ∧
      value = valueOfDigits (placesOf places value) * 10 ^ count := by
  by_cases positive : 0 < places
  · rcases exists_append_zeros (List.replicate
      (places - (digitsOf value).length) '0' ++ digitsOf value) with
      ⟨count, whole⟩
    rw [← placesOf] at whole
    have fits : (digitsOf value).length ≤ places :=
      (Nat.length_toDigits_le_iff (by decide) positive).mpr below
    refine ⟨count, ?_, ?_⟩
    · have lengths := congrArg List.length whole
      simp only [List.length_append, List.length_replicate] at lengths
      omega
    · have values := congrArg valueOfDigits whole
      rw [valueOfDigits_append, valueOfDigits_append, valueOfDigits_zeros,
        valueOfDigits_zeros, valueOfDigits_digitsOf, List.length_replicate]
        at values
      omega
  · obtain rfl : places = 0 := by omega
    obtain rfl : value = 0 := by simpa using below
    exact ⟨0, rfl, rfl⟩

/-! ## Positional texts -/

/-- What is written of a fraction: nothing, or a point and its places. -/
def fractionText : List Char → List Char
  | [] => []
  | places => '.' :: places

theorem fractionText_cases (places : List Char) :
    (places = [] ∧ fractionText places = []) ∨
      fractionText places = '.' :: places := by
  cases places with
  | nil => exact .inl ⟨rfl, rfl⟩
  | cons => exact .inr rfl

/-- Digits with a fraction behind them denote a decimal. -/
theorem ofText?_append_fractionText {whole places : List Char}
    (someDigits : whole ≠ []) (areDigits : whole.all Char.isDigit = true)
    (arePlaces : places.all Char.isDigit = true) :
    ofText? (whole ++ fractionText places) =
      some ⟨valueOfDigits (whole ++ places), -places.length⟩ := by
  have each := List.all_eq_true.mp areDigits
  have eachPlace := List.all_eq_true.mp arePlaces
  rcases fractionText_cases places with ⟨rfl, nothing⟩ | pointed
  · rw [nothing, List.append_nil]
    simp [ofText?, splitFraction, readExponent?,
      List.takeWhile_eq_self_iff.mpr each, List.dropWhile_eq_nil_iff.mpr each,
      someDigits]
  · rw [pointed]
    simp [ofText?, splitFraction, readExponent?,
      List.takeWhile_append_of_pos each, List.dropWhile_append_of_pos each,
      List.takeWhile_eq_self_iff.mpr eachPlace,
      List.dropWhile_eq_nil_iff.mpr eachPlace, someDigits]

/-- The magnitude of a decimal depends on its value alone, and not on its number of places. -/
theorem magnitude_eq_of_units {decimal : Decimal} {value places count : Nat}
    (significand : decimal.significand * 10 ^ decimal.exponent.toNat =
      value * 10 ^ count)
    (scale : (-decimal.exponent).toNat = places + count) :
    Decimal.magnitude ⟨value, -places⟩ = decimal.magnitude := by
  have noPower : (-(places : Int)).toNat = 0 := by omega
  have samePlaces : (- -(places : Int)).toNat = places := by omega
  have positive : 0 < 10 ^ count := Nat.pow_pos (by decide)
  rw [magnitude_eq, magnitude_eq, significand, scale]
  simp only [noPower, samePlaces]
  rw [Nat.pow_zero, Nat.mul_one, Nat.mul_right_comm, Nat.pow_add,
    Number.nearestMagnitude_mul_right _ _ positive]

/--
What is written of a decimal is its whole part and the places of its fraction,
and what these digits denote has the same magnitude.
-/
theorem exists_text_eq (decimal : Decimal) :
    ∃ whole places, decimal.text = whole ++ fractionText places ∧
      whole ≠ [] ∧ whole.all Char.isDigit = true ∧
      places.all Char.isDigit = true ∧
      Decimal.magnitude ⟨valueOfDigits (whole ++ places), -places.length⟩ =
        decimal.magnitude := by
  let shifted := decimal.significand * 10 ^ decimal.exponent.toNat
  let scale := 10 ^ (-decimal.exponent).toNat
  let whole := digitsOf (shifted / scale)
  let places := placesOf (-decimal.exponent).toNat (shifted % scale)
  have below : shifted % scale < scale :=
    Nat.mod_lt _ (Nat.pow_pos (by decide))
  have written : decimal.text = whole ++ fractionText places := by
    have unfolded : decimal.text = match places with
        | [] => whole
        | places => whole ++ '.' :: places := rfl
    rw [unfolded]
    cases places with
    | nil => rw [fractionText, List.append_nil]
    | cons => rfl
  refine ⟨whole, places, written, digitsOf_ne_nil _, all_isDigit_digitsOf _,
    all_isDigit_placesOf _ _, ?_⟩
  rcases exists_placesOf below with ⟨count, length, value⟩
  refine magnitude_eq_of_units ?_ length
  calc
    shifted = shifted / scale * scale + shifted % scale :=
      (Nat.div_add_mod' shifted scale).symm
    _ = (shifted / scale * 10 ^ places.length + valueOfDigits places) *
        10 ^ count := by
      rw [Nat.add_mul, ← value, Nat.mul_assoc, ← Nat.pow_add, ← length]
    _ = valueOfDigits (whole ++ places) * 10 ^ count := by
      rw [valueOfDigits_append, valueOfDigits_digitsOf]

/-- The text of a decimal reads as a decimal of the same magnitude. -/
theorem ofText?_text (decimal : Decimal) :
    ∃ read, ofText? decimal.text = some read ∧
      read.magnitude = decimal.magnitude := by
  rcases exists_text_eq decimal with
    ⟨whole, places, written, someDigits, areDigits, arePlaces, same⟩
  rw [written]
  exact ⟨_, ofText?_append_fractionText someDigits areDigits arePlaces, same⟩

/-- A sign and the text of a decimal are what the reader of tokens takes for a number. -/
theorem isNumberText_text {sign : List Char} (decimal : Decimal)
    (isSign : sign = [] ∨ sign = ['-']) :
    IsNumberText (sign ++ decimal.text) := by
  rcases exists_text_eq decimal with
    ⟨whole, places, written, someDigits, areDigits, arePlaces, -⟩
  rw [written, ← List.append_assoc, ← List.append_nil sign]
  refine .parts isSign (.inl rfl) someDigits areDigits ?_
  rcases fractionText_cases places with ⟨-, nothing⟩ | pointed
  · exact .inl nothing
  · exact .inr ⟨places, pointed, arePlaces⟩

theorem startsWith_isDigit_text (decimal : Decimal) :
    startsWith Char.isDigit decimal.text = true := by
  rcases exists_text_eq decimal with
    ⟨whole, places, written, someDigits, areDigits, -, -⟩
  rw [written]
  exact startsWith_append (startsWith_of_all someDigits areDigits)

end Decimal

namespace Number

/-! ## Signs and magnitudes -/

/-- A number is given by its sign and its magnitude. -/
theorem ofMagnitude_isNegative_magnitude (number : Number) :
    ofMagnitude number.isNegative number.magnitude = number := by
  have isSignBit : signBit = 2 ^ 63 := rfl
  have bound := number.toBits.toNat_lt
  have bits : number.magnitude + (if number.isNegative then signBit else 0) =
      number.toBits.toNat := by
    simp only [magnitude, isNegative, decide_eq_true_eq, isSignBit]
    split <;> omega
  rw [ofMagnitude, bits, UInt64.ofNat_toNat, Float.ofBits_toBits]

/-- The exponent bits of a number. -/
def exponentBits (number : Number) : BitVec 11 :=
  number.toBits.toBitVec.extractLsb' 52 11

/-- The bits of the exponent of a finite number are not all set. -/
theorem exponentBits_ne_of_isFinite {number : Number}
    (finite : number.isFinite = true) :
    number.exponentBits ≠ -1#11 := by
  intro allSet
  have unpacked : (Float.Model.UnpackedFloat.unpack .binary64
      number.toBits.toBitVec).isFinite = true := finite
  rw [Float.Model.UnpackedFloat.unpack, if_pos] at unpacked
  · split at unpacked <;> contradiction
  · rw [Float.Model.UnpackedFloat.unpackExponent_def]
    exact allSet

theorem magnitude_lt_of_isFinite {number : Number}
    (finite : number.isFinite = true) :
    number.magnitude < infiniteMagnitude := by
  by_contra notBelow
  refine exponentBits_ne_of_isFinite finite (BitVec.eq_of_toNat_eq ?_)
  have isSignBit : signBit = 2 ^ 63 := rfl
  have isInfinite : infiniteMagnitude = 2047 * 2 ^ 52 := rfl
  have allSet : (-1#11).toNat = 2047 := rfl
  rw [exponentBits, BitVec.extractLsb'_toNat, allSet, Nat.shiftRight_eq_div_pow,
    UInt64.toNat_toBitVec]
  rw [magnitude, isSignBit, isInfinite] at notBelow
  omega

theorem isNaN_of_isFinite {number : Number} (finite : number.isFinite = true) :
    number.isNaN = false := by
  have unpacked : number.toModel.unpack.isFinite = true := finite
  change number.toModel.unpack.isNaN = false
  cases form : number.toModel.unpack with
  | notANumber =>
      rw [form] at unpacked
      contradiction
  | infinity | zero | finite => rfl

/-! ## Texts of numbers -/

/-- A sign that is written in front of digits is split off. -/
theorem splitSign_writtenSign (isNegative : Bool) {text : List Char}
    (digitFirst : startsWith Char.isDigit text = true) :
    splitSign ((if isNegative then ['-'] else []) ++ text) =
      (isNegative, text) := by
  cases isNegative with
  | true => rfl
  | false =>
      rw [if_neg Bool.false_ne_true, List.nil_append]
      unfold splitSign
      split
      · contradiction
      · contradiction
      · rfl

/-- The text of a finite number is its sign and the text of its shortest decimal. -/
theorem toList_render {number : Number} (finite : number.isFinite = true) :
    number.render.toList =
      (if number.isNegative then ['-'] else []) ++
        (Decimal.shortest number.magnitude).text := by
  have notInfinite := Nat.not_le.mpr (magnitude_lt_of_isFinite finite)
  simp only [render, isNaN_of_isFinite finite, Bool.false_eq_true, if_false,
    notInfinite, String.toList_append, String.toList_ofList]
  split <;> rfl

theorem isNumberText_render {number : Number}
    (finite : number.isFinite = true) :
    IsNumberText number.render.toList := by
  rw [toList_render finite]
  refine Decimal.isNumberText_text _ ?_
  split
  · exact .inr rfl
  · exact .inl rfl

/-- The text of a finite number reads as that number. -/
theorem ofText?_render {number : Number} (finite : number.isFinite = true) :
    ofText? number.render = some number := by
  rcases Decimal.ofText?_text (Decimal.shortest number.magnitude) with
    ⟨decimal, read, same⟩
  have split : splitSign number.render.toList =
      (number.isNegative, (Decimal.shortest number.magnitude).text) := by
    rw [toList_render finite]
    exact splitSign_writtenSign _ (Decimal.startsWith_isDigit_text _)
  rw [ofText?_of_decimal split read, same,
    Decimal.magnitude_shortest (magnitude_lt_of_isFinite finite),
    ofMagnitude_isNegative_magnitude]

end Number

/-! ## Numbers as sources -/

/-- The text of a number is one token at the start of its source. -/
theorem tokenize_number {text : String}
    (isNumber : IsNumberText text.toList) :
    tokenize text = .ok [⟨⟨.number, text⟩, .start⟩] := by
  have isLongest : IsLongestNumber text.toList (text.toList ++ []) := by
    rw [List.append_nil]
    exact ⟨isNumber, List.prefix_refl _, fun _ _ => List.IsPrefix.length_le⟩
  rcases isLongest.exists_cutsOff rfl with ⟨first, rest, cuts⟩
  have lexed : Lexed .start 0 ([] ++ (text.toList ++ []))
      [⟨⟨.number, String.ofList text.toList⟩, .start⟩] :=
    .token .empty cuts rfl (.done .empty)
  rw [List.nil_append, List.append_nil, String.ofList_toList] at lexed
  exact lexed.tokenizeFrom_eq

/-- The value of a call of the primitive that writes numbers. -/
theorem call_numberToString (host : Host) (depth : Nat) (name : String)
    (site : CallSite) (scope : ScopeId) (number : Number) (world : World) :
    call host (depth + 1) (.native name (.primitive .numberToString)) site scope
      [.number number] world = .done (.string number.render) world :=
  rfl

/--
The text of a finite number is what printing it shows and what the primitive
that writes numbers returns.  As a source it is one number token, and evaluating
it in any scope of any world has that very number as its value: the sign of a
zero, the smallest numbers and the largest ones come back as they were.
Nothing changes but the log.
-/
theorem rendered_numbers_read_back (number : Number)
    (finite : number.isFinite = true) :
    ∃ text, (Value.number number).render = text ∧
      (∀ host depth name site scope world,
        call host (depth + 1) (.native name (.primitive .numberToString)) site
          scope [.number number] world = .done (.string text) world) ∧
      tokenize text = .ok [⟨⟨.number, text⟩, .start⟩] ∧
      ∀ host depth scope world,
        interpret host (depth + 1) scope text world =
          .done (.number number)
            { world with
              log := (world.log.push (.lexed 1)).push (.parsed .start) } := by
  have read := tokenize_number (Number.isNumberText_render finite)
  have converts : Token.literal ⟨⟨.number, number.render⟩, .start⟩ =
      .ok (.number number) := by
    refine Token.literal_eq_ok_iff.mpr ?_
    simp only [Lexeme.literal, Literal.readNumber,
      Number.ofText?_render finite]
    rfl
  exact ⟨number.render, rfl,
    fun host depth name site scope world =>
      call_numberToString host depth name site scope number world,
    read, interpret_literal read converts⟩

/-- The zero with a sign is written with its sign and comes back with it. -/
theorem rendered_numbers_read_back_negative_zero :
    let zero : Number := Float.ofBits 0x8000000000000000
    zero.isFinite = true ∧ (Value.number zero).render = "-0" ∧
      (∀ host depth name site scope world,
        call host (depth + 1) (.native name (.primitive .numberToString)) site
          scope [.number zero] world = .done (.string "-0") world) ∧
      tokenize "-0" = .ok [⟨⟨.number, "-0"⟩, .start⟩] ∧
      ∀ host depth scope world,
        interpret host (depth + 1) scope "-0" world =
          .done (.number zero)
            { world with
              log := (world.log.push (.lexed 1)).push (.parsed .start) } := by
  intro zero
  have finite : zero.isFinite = true := by decide
  have written : (Value.number zero).render = "-0" := by decide +kernel
  rcases rendered_numbers_read_back zero finite with ⟨text, rendered, readsBack⟩
  obtain rfl : text = "-0" := rendered.symm.trans written
  exact ⟨finite, written, readsBack⟩

end ScopedLisp
