import Mathlib
import ScopedLisp.Primitive
import ScopedLisp.Proofs.NumberValues

/-!
# Numbers as indices

A list is looked into at a number that is compared with zero, asked for its
fractional part and cast to a machine word.  Comparison, fractional part and cast
are read off the unpacked word here.  Together they let exactly those numbers
through whose value is a natural number (`Number.isNatural_iff`), and the cast
takes such a number to its value or, from the greatest word on, to that word
(`Number.toNat_toUSize`).  So the look into a list whose length is a machine word
finds the item at the value of the index and nothing else
(`Access.atIndex_eq_item_iff`).
-/

namespace ScopedLisp

namespace Number

open Float.Model
open Float.Model.UnpackedFloat (Sign)

/-! ## Comparisons with zero -/

section Comparison

variable {number : Number} {value : ℚ}

theorem lt_zero_iff (isValue : number.value? = some value) :
    number < 0 ↔ value < 0 := by
  have compared : number < 0 ↔
      (number.toModel.unpack.compare (.zero .positive) == some .lt) = true :=
    decide_eq_true_iff
  rw [compared]
  rw [value?] at isValue
  generalize number.toModel.unpack = word at isValue ⊢
  cases word with
  | notANumber => contradiction
  | infinity sign => contradiction
  | zero sign =>
      obtain rfl : 0 = value := Option.some.inj isValue
      exact iff_of_false Bool.false_ne_true (lt_irrefl 0)
  | finite sign mantissa exponent positive =>
      obtain rfl := Option.some.inj isValue
      have scaled : (0 : ℚ) < mantissa * 2 ^ exponent := by positivity
      cases sign with
      | negative =>
          refine iff_of_true rfl ?_
          rw [Sign.apply]
          push_cast
          linarith
      | positive => exact iff_of_false Bool.false_ne_true scaled.not_gt

theorem beq_zero_iff (isValue : number.value? = some value) :
    (number == 0) = true ↔ value = 0 := by
  change (number.toModel.unpack.compare (.zero .positive) == some .eq) = true ↔ _
  rw [value?] at isValue
  generalize number.toModel.unpack = word at isValue ⊢
  cases word with
  | notANumber => contradiction
  | infinity sign => contradiction
  | zero sign => exact iff_of_true rfl (Option.some.inj isValue).symm
  | finite sign mantissa exponent positive =>
      obtain rfl := Option.some.inj isValue
      have scaled : (mantissa : ℚ) * 2 ^ exponent ≠ 0 := by positivity
      cases sign with
      | negative =>
          refine iff_of_false Bool.false_ne_true ?_
          rw [Sign.apply]
          push_cast
          rw [neg_mul]
          exact neg_ne_zero.mpr scaled
      | positive => exact iff_of_false Bool.false_ne_true scaled

end Comparison

/-! ## Fractional parts -/

/-- What is not nothing does not round to nothing. -/
theorem nearestMagnitude_eq_zero_iff {units : Nat} :
    nearestMagnitude units 1 = 0 ↔ units = 0 := by
  have perBinade : 0 < magnitudesPerBinade := by decide
  have infinite : 0 < infiniteMagnitude := by decide
  constructor
  · intro nothing
    rw [nearestMagnitude, Nat.div_one] at nothing
    have noBinade : Nat.log2 units - 52 = 0 := by
      by_contra binade
      have := Nat.mul_pos (Nat.pos_of_ne_zero binade) perBinade
      omega
    have exact := roundHalfEven_mul_self units Nat.one_pos
    rw [Nat.mul_one] at exact
    rw [noBinade, Nat.zero_mul, Nat.zero_add, Nat.pow_eq, Nat.pow_zero,
      Nat.mul_one, exact] at nothing
    omega
  · rintro rfl
    decide +kernel

theorem roundHalfEven_le (numerator denominator : Nat) :
    roundHalfEven numerator denominator ≤ numerator / denominator + 1 := by
  simp only [roundHalfEven]
  split <;> [skip; split] <;> omega

theorem log2_lt_of_lt_unitsPerOne {units : Nat} (nonzero : units ≠ 0)
    (small : units < unitsPerOne) : units.log2 < 1074 := by
  rcases exists_unitsPerOne with ⟨bits, isBits, one⟩
  rw [one] at small
  rw [← isBits]
  exact (Nat.log2_lt nonzero).mpr small

/-- What is less than one does not round to an infinity. -/
theorem nearestMagnitude_lt_infinite {units : Nat} (small : units < unitsPerOne) :
    nearestMagnitude units 1 < infiniteMagnitude := by
  have perBinade : magnitudesPerBinade = 2 ^ 52 := rfl
  have infinite : infiniteMagnitude = 2047 * 2 ^ 52 := rfl
  by_cases nothing : units = 0
  · rw [nearestMagnitude_eq_zero_iff.mpr nothing]
    decide
  · have fits := log2_lt_of_lt_unitsPerOne nothing small
    have upper : units < 2 ^ (units.log2 + 1) := Nat.lt_log2_self
    have rounded := roundHalfEven_le units (2 ^ (units.log2 - 52))
    have quotient : units / 2 ^ (units.log2 - 52) < 2 ^ 53 := by
      rw [Nat.div_lt_iff_lt_mul (Nat.two_pow_pos _), ← Nat.pow_add]
      exact upper.trans_le (Nat.pow_le_pow_right (by decide) (by omega))
    rw [nearestMagnitude, Nat.div_one, Nat.one_mul, Nat.pow_eq, perBinade,
      infinite]
    omega

/-- The fractional part is nothing exactly for the finite numbers that are integers. -/
theorem fract_bne_zero_iff {number : Number} :
    (number.fract != 0) = false ↔
      number.magnitude < infiniteMagnitude ∧
        unitsOfMagnitude number.magnitude % unitsPerOne = 0 := by
  simp only [fract]
  split
  case isTrue infinite =>
    have noNumber : (notANumber != 0) = true := by decide +kernel
    rw [noNumber]
    exact iff_of_false nofun fun finite => absurd finite.1 infinite.not_gt
  case isFalse notInfinite =>
    have finite := Nat.lt_of_not_le notInfinite
    have small := Nat.mod_lt (unitsOfMagnitude number.magnitude) unitsPerOne_pos
    generalize unitsOfMagnitude number.magnitude % unitsPerOne = remainder
      at small ⊢
    have finitePart := nearestMagnitude_lt_infinite small
    have sameMagnitude :=
      magnitude_ofMagnitude (number.isNegative && remainder != 0) finitePart
    have isValue := value?_of_finite (sameMagnitude.trans_lt finitePart)
    have signed : ∀ number : Number, number.signum ≠ 0 := by
      intro number
      rw [signum]
      split <;> decide
    have someUnits : (unitsPerOne : ℚ) ≠ 0 :=
      Nat.cast_ne_zero.mpr unitsPerOne_pos.ne'
    rw [and_iff_right finite, bne, Bool.not_eq_false', beq_zero_iff isValue,
      sameMagnitude, div_eq_zero_iff, or_iff_left someUnits, mul_eq_zero,
      or_iff_right (signed _), Nat.cast_eq_zero, unitsOfMagnitude_eq_zero_iff,
      nearestMagnitude_eq_zero_iff]

/-! ## Casts to a word -/

theorem mantissa_shiftRight (extended : UnpackedFloat.ExtendedMantissa)
    (count : Nat) :
    (extended >>> count).mantissa = extended.mantissa / 2 ^ count := by
  induction count with
  | zero => exact (Nat.div_one _).symm
  | succ count ih =>
      change (extended >>> count).mantissa / 2 = _
      rw [ih, Nat.div_div_eq_div_mul, Nat.pow_succ]

/-- Digits are appended on the right for a positive exponent and cut off for a negative one. -/
theorem roundToInt_positive (mantissa : Nat) (exponent : Int) :
    UnpackedFloat.roundToInt .positive mantissa exponent =
      (mantissa * 2 ^ exponent.toNat / 2 ^ (-exponent).toNat : Nat) := by
  have target : (0 - (exponent - exponent.toNat)).toNat = (-exponent).toNat := by
    omega
  simp only [UnpackedFloat.roundToInt, UnpackedFloat.decreaseExponent,
    UnpackedFloat.shiftToExponent, mantissa_shiftRight, Int.sub_zero, target,
    Nat.shiftLeft_eq]
  rfl

theorem roundToInt_of_natural {mantissa natural : Nat} {exponent : Int}
    (isNatural : (mantissa : ℚ) * 2 ^ exponent = natural) :
    UnpackedFloat.roundToInt .positive mantissa exponent = natural := by
  rw [roundToInt_positive, Nat.cast_inj]
  have twoPow : (2 : ℚ) ^ exponent.toNat = 2 ^ exponent * 2 ^ (-exponent).toNat := by
    rw [← zpow_natCast, ← zpow_natCast, ← zpow_add₀ two_ne_zero]
    congr 1
    omega
  have product : mantissa * 2 ^ exponent.toNat =
      natural * 2 ^ (-exponent).toNat := by
    rw [← @Nat.cast_inj ℚ]
    push_cast
    rw [twoPow, ← mul_assoc, isNatural]
  rw [product, Nat.mul_div_cancel _ (Nat.two_pow_pos _)]

/-- The cast of a natural number is itself, up to the greatest word. -/
theorem toNat_toUSize {number : Number} {natural : Nat}
    (isValue : number.value? = some (natural : ℚ)) :
    number.toUSize.toNat = min natural (USize.size - 1) := by
  have isNatural (infinite : Int) :
      number.toModel.unpack.toInt 0 infinite = natural := by
    rw [value?] at isValue
    generalize number.toModel.unpack = word at isValue ⊢
    cases word with
    | notANumber => contradiction
    | infinity sign => contradiction
    | zero sign =>
        rw [Nat.cast_eq_zero.mp (Option.some.inj isValue).symm]
        rfl
    | finite sign mantissa exponent positive =>
        have same := Option.some.inj isValue
        cases sign with
        | positive => exact roundToInt_of_natural same
        | negative =>
            have scaled : (0 : ℚ) < mantissa * 2 ^ exponent := by positivity
            have natural_nonneg := natural.cast_nonneg (α := ℚ)
            rw [Sign.apply] at same
            push_cast at same
            linarith
  have clamped : number.toUSize = .ofNatClamp
      (number.toModel.unpack.toInt 0 (USize.size - 1 : Int)).toNat := rfl
  rw [clamped, isNatural, Int.toNat_natCast]
  by_cases word : natural < USize.size
  · rw [USize.toNat_ofNatClamp_of_lt word]
    omega
  · rw [USize.toNat_ofNatClamp_of_le (by omega)]
    omega

/--
Neither below zero nor with a fractional part, which holds of minus zero and of
no infinity, are exactly the numbers with natural values.
-/
theorem isNatural_iff {number : Number} :
    ¬ number < 0 ∧ (number.fract != 0) = false ↔
      ∃ natural : Nat, number.value? = some (natural : ℚ) := by
  simp only [fract_bne_zero_iff, value?_eq_natCast_iff]
  by_cases infinite : infiniteMagnitude ≤ number.magnitude
  · exact iff_of_false (fun tests => absurd tests.2.1 infinite.not_gt)
      fun ⟨_, finite, _⟩ => absurd finite infinite.not_gt
  · have finite := Nat.lt_of_not_le infinite
    have positive : (0 : ℚ) < unitsPerOne := Nat.cast_pos.mpr unitsPerOne_pos
    have compared := lt_zero_iff (value?_of_finite finite)
    simp only [and_iff_right finite, compared]
    rcases number.signum_mul_units_cases with
      ⟨negative, below⟩ | ⟨notNegative, same⟩
    · rw [negative]
      exact iff_of_false (fun tests => tests.1 (div_neg_of_neg_of_pos below positive))
        fun ⟨_, isPositive, _⟩ => Bool.noConfusion isPositive
    · have notBelow : ¬ number.signum * unitsOfMagnitude number.magnitude /
          unitsPerOne < 0 := by
        rw [same, not_lt]
        exact div_nonneg (Nat.cast_nonneg _) positive.le
      simp only [notNegative, true_and, notBelow, not_false_eq_true]
      constructor
      · exact fun multiple =>
          ⟨_, (Nat.div_mul_cancel (Nat.dvd_of_mod_eq_zero multiple)).symm⟩
      · rintro ⟨natural, units⟩
        rw [units, Nat.mul_mod_left]

end Number

namespace Access

variable {α : Type} {items : List α} {index : Number}

/-! ## Looks into a list -/

/--
An index passes the test of a length that is a machine word exactly if its value
is a natural number below the length, and then the cast takes it to its value.
-/
theorem not_isOutside_iff {length : Nat} (isWord : length < USize.size) :
    ¬ IsOutside length index ↔
      ∃ natural < length, index.value? = some (natural : ℚ) ∧
        index.toUSize.toNat = natural := by
  rw [IsOutside, not_or, not_or, ← and_assoc, Bool.not_eq_true, not_le,
    Number.isNatural_iff]
  constructor
  · rintro ⟨⟨natural, isValue⟩, below⟩
    have cast := Number.toNat_toUSize isValue
    exact ⟨natural, by omega, isValue, by omega⟩
  · rintro ⟨natural, below, isValue, cast⟩
    exact ⟨⟨natural, isValue⟩, cast ▸ below⟩

/--
A look into a list whose length is a machine word finds the item at the value
of the index, and nothing else.
-/
theorem atIndex_eq_item_iff (isWord : items.length < USize.size) {item : α} :
    atIndex items index = .item item ↔
      ∃ natural : Nat, index.value? = some (natural : ℚ) ∧
        items[natural]? = some item := by
  constructor
  · intro found
    by_cases outside : IsOutside items.length index
    · rw [atIndex, if_pos outside] at found
      contradiction
    · rcases atIndex_of_not_isOutside outside with ⟨below, foundCast⟩
      rcases (not_isOutside_iff isWord).mp outside with ⟨_, _, isValue, rfl⟩
      rw [foundCast] at found
      injection found with same
      exact ⟨_, isValue, List.getElem?_eq_some_iff.mpr ⟨below, same⟩⟩
  · rintro ⟨natural, isValue, found⟩
    obtain ⟨below, rfl⟩ := List.getElem?_eq_some_iff.mp found
    have cast := Number.toNat_toUSize isValue
    have same : index.toUSize.toNat = natural := by omega
    have inside : ¬ IsOutside items.length index :=
      (not_isOutside_iff isWord).mpr ⟨natural, below, isValue, same⟩
    rcases atIndex_of_not_isOutside inside with ⟨_, foundCast⟩
    rw [foundCast]
    simp only [same]

/-- A look that finds no item is refused. -/
theorem atIndex_eq_refused (noItem : ∀ item, atIndex items index ≠ .item item) :
    atIndex items index = .refused := by
  cases found : atIndex items index with
  | item item => exact absurd found (noItem item)
  | refused => rfl
  | outOfBounds => exact absurd found (atIndex_ne_outOfBounds items index)

end Access

end ScopedLisp
