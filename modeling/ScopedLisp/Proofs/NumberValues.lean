import Mathlib
import ScopedLisp.Proofs.RenderedNumbers

/-!
# The values of numbers

A number that is neither an infinity nor the number that is not one has a
rational value: its signed mantissa times a power of two, as its unpacked word
gives them.  In the grid of units the value of a number is the value of its
magnitude with its sign (`Number.value?_of_finite`), with one formula for the
binades, where the word leaves the leading bit out, and for what lies below them.

So a number has a natural number as its value exactly if its units are that many
ones and it is not below zero (`Number.value?_eq_natCast_iff`): negative zero is
zero, and fractions, negative numbers, infinities and what is no number are none.
The number nearest to a natural number has that number as its value if any has
(`Number.value?_ofNat_of_exact`), which up to fifty-three bits is always the case
(`Number.value?_ofNat_of_lt`).
-/

namespace ScopedLisp

namespace Number

open Float.Model
open Float.Model.UnpackedFloat (Sign)

/-! ## Values -/

/-- The value of an unpacked word. -/
def unpackedValue? : UnpackedFloat → Option ℚ
  | .finite sign mantissa exponent _ =>
    some (sign.apply mantissa * (2 : ℚ) ^ exponent)
  | .zero _ => some 0
  | .infinity _ | .notANumber => none

/-- The value of a number that is finite. -/
def value? (number : Number) : Option ℚ :=
  unpackedValue? number.toModel.unpack

/-- The sign of a number, as a factor. -/
def signum (number : Number) : ℚ :=
  if number.isNegative then -1 else 1

/-! ## The fields of a word -/

section Fields

variable (number : Number)

theorem toNat_unpackExponent (word : UInt64) :
    (@UnpackedFloat.unpackExponent .binary64 word.toBitVec).toNat =
      word.toNat % signBit / 2 ^ 52 := by
  have isSignBit : signBit = 2 ^ 63 := rfl
  change word.toNat >>> 52 % 2 ^ 11 = _
  rw [Nat.shiftRight_eq_div_pow, isSignBit]
  omega

theorem toNat_exponentField :
    (@UnpackedFloat.unpackExponent .binary64
      number.toBits.toBitVec).toNat = number.magnitude / 2 ^ 52 :=
  toNat_unpackExponent number.toBits

theorem toNat_mantissaField :
    (@UnpackedFloat.unpackMantissa .binary64
      number.toBits.toBitVec).toNat = number.magnitude % 2 ^ 52 := by
  have isSignBit : signBit = 2 ^ 63 := rfl
  change number.toBits.toNat >>> 0 % 2 ^ 52 = _
  rw [Nat.shiftRight_zero, magnitude, isSignBit]
  omega

theorem ofBitVec_signField :
    Sign.ofBitVec (@UnpackedFloat.unpackSign .binary64
      number.toBits.toBitVec) =
      if number.isNegative then .negative else .positive := by
  have isSignBit : signBit = 2 ^ 63 := rfl
  have bound := number.toBits.toNat_lt
  have bit : (@UnpackedFloat.unpackSign .binary64
      number.toBits.toBitVec).toNat = number.toBits.toNat / 2 ^ 63 := by
    change number.toBits.toNat >>> 63 % 2 ^ 1 = _
    rw [Nat.shiftRight_eq_div_pow]
    omega
  have isZero : @UnpackedFloat.unpackSign .binary64
      number.toBits.toBitVec = 0#1 ↔ ¬ number.isNegative = true := by
    rw [← BitVec.toNat_inj, bit, isNegative, isSignBit, decide_eq_true_eq]
    change number.toBits.toNat / 2 ^ 63 = 0 ↔ _
    omega
  simp only [Sign.ofBitVec, isZero]
  split <;> simp_all

theorem sign_apply (natural : Nat) :
    (((if number.isNegative then Sign.negative else .positive).apply
      (natural : Int) : Int) : ℚ) = number.signum * natural := by
  rw [signum]
  split <;> simp [Sign.apply]

end Fields

/-- Infinities and what is no number have no value. -/
theorem value?_of_infinite {number : Number}
    (infinite : infiniteMagnitude ≤ number.magnitude) :
    number.value? = none := by
  have isInfinite : infiniteMagnitude = 2047 * 2 ^ 52 := rfl
  have bound : number.magnitude < 2 ^ 63 := Nat.mod_lt _ (by decide)
  have allSet : @UnpackedFloat.unpackExponent .binary64
      number.toBits.toBitVec = -1#11 := by
    rw [← BitVec.toNat_inj, toNat_exponentField]
    change number.magnitude / 2 ^ 52 = 2047
    omega
  rw [value?]
  change unpackedValue? (UnpackedFloat.unpack .binary64 number.toBits.toBitVec) = _
  rw [UnpackedFloat.unpack, if_pos allSet]
  split <;> rfl

theorem zpow_of_units {exponent : Int} {power : Nat}
    (same : exponent + 1074 = power) :
    (2 : ℚ) ^ exponent = (2 ^ power : Nat) / (unitsPerOne : Nat) := by
  rcases exists_unitsPerOne with ⟨bits, isBits, units⟩
  have split : exponent = (power : Int) - (bits : Int) := by omega
  rw [split, units, zpow_sub₀ two_ne_zero]
  push_cast
  rfl

/-- The value of a signed fraction in a binade. -/
theorem unpackedValue?_finite (number : Number) {fraction power : Nat}
    {exponent : Int} (positive : 0 < fraction)
    (same : exponent + 1074 = power) :
    unpackedValue? (.finite
      (if number.isNegative then .negative else .positive) fraction exponent
      positive) =
      some (number.signum * (fraction * 2 ^ power : Nat) / unitsPerOne) := by
  rw [unpackedValue?, sign_apply, zpow_of_units same]
  push_cast
  ring_nf

/-- Below the first binade the fraction has no leading bit. -/
theorem value?_of_subnormal {number : Number}
    (subnormal : number.magnitude < 2 ^ 52) :
    number.value? =
      some (number.signum * (number.magnitude * 2 ^ 0 : Nat) / unitsPerOne) := by
  have exponent := number.toNat_exponentField
  have mantissa := number.toNat_mantissaField
  rw [Nat.mod_eq_of_lt subnormal] at mantissa
  have noneSet : @UnpackedFloat.unpackExponent .binary64
      number.toBits.toBitVec = 0#11 := by
    rw [← BitVec.toNat_inj, exponent]
    change number.magnitude / 2 ^ 52 = 0
    omega
  change unpackedValue? (UnpackedFloat.unpack .binary64 number.toBits.toBitVec) = _
  rw [UnpackedFloat.unpack, if_neg (by rw [noneSet]; decide), if_pos noneSet,
    ← mantissa]
  split
  case isTrue nothing =>
    rw [nothing, unpackedValue?]
    change _ = some (number.signum * (0 : Nat) / unitsPerOne)
    rw [Nat.cast_zero, mul_zero, zero_div]
  case isFalse =>
    rw [ofBitVec_signField]
    refine unpackedValue?_finite number _ ?_
    rw [noneSet]
    rfl

/-- In a binade the fraction has a leading bit, which the word leaves out. -/
theorem value?_of_normal {number : Number}
    (normal : 2 ^ 52 ≤ number.magnitude)
    (finite : number.magnitude < infiniteMagnitude) :
    number.value? = some (number.signum *
      ((2 ^ 52 + number.magnitude % 2 ^ 52) *
        2 ^ (number.magnitude / 2 ^ 52 - 1) : Nat) / unitsPerOne) := by
  have isInfinite : infiniteMagnitude = 2047 * 2 ^ 52 := rfl
  have exponent := number.toNat_exponentField
  have notAllSet : @UnpackedFloat.unpackExponent .binary64
      number.toBits.toBitVec ≠ -1#11 := by
    rw [Ne, ← BitVec.toNat_inj, exponent]
    change ¬ number.magnitude / 2 ^ 52 = 2047
    omega
  have notNoneSet : @UnpackedFloat.unpackExponent .binary64
      number.toBits.toBitVec ≠ 0#11 := by
    rw [Ne, ← BitVec.toNat_inj, exponent]
    change ¬ number.magnitude / 2 ^ 52 = 0
    omega
  have fraction : 2 ^ 52 + number.magnitude % 2 ^ 52 =
      (1#1 ++ @UnpackedFloat.unpackMantissa .binary64
        number.toBits.toBitVec).toNat := by
    have leading : (1#1).toNat <<< 52 = 2 ^ 52 := rfl
    rw [BitVec.toNat_append]
    change _ = (1#1).toNat <<< 52 ||| _
    rw [leading, toNat_mantissaField, Nat.or_comm,
      Nat.or_two_pow_eq_add_of_lt (Nat.mod_lt _ (by decide)), Nat.add_comm]
  change unpackedValue? (UnpackedFloat.unpack .binary64 number.toBits.toBitVec) = _
  rw [UnpackedFloat.unpack, if_neg notAllSet, if_neg notNoneSet, fraction,
    ofBitVec_signField]
  refine unpackedValue?_finite number _ ?_
  rw [exponent]
  change ((number.magnitude / 2 ^ 52 : Nat) : Int) - (1023 + 52) + 1074 = _
  omega

/-- The value of a finite number is its magnitude in units with its sign. -/
theorem value?_of_finite {number : Number}
    (finite : number.magnitude < infiniteMagnitude) :
    number.value? =
      some (number.signum * unitsOfMagnitude number.magnitude / unitsPerOne) := by
  have perBinade : magnitudesPerBinade = 2 ^ 52 := rfl
  rw [unitsOfMagnitude, perBinade, Nat.pow_eq]
  by_cases subnormal : number.magnitude < 2 ^ 52
  · have binade : number.magnitude / 2 ^ 52 - 1 = 0 := by omega
    rw [value?_of_subnormal subnormal, binade, Nat.zero_mul, Nat.sub_zero]
  · have fraction : number.magnitude -
        (number.magnitude / 2 ^ 52 - 1) * 2 ^ 52 =
        2 ^ 52 + number.magnitude % 2 ^ 52 := by omega
    rw [value?_of_normal (by omega) finite, fraction]

/-! ## Numbers that are natural -/

theorem unitsOfMagnitude_eq_zero_iff {magnitude : Nat} :
    unitsOfMagnitude magnitude = 0 ↔ magnitude = 0 := by
  rcases fraction_bounds magnitude with ⟨covers, -, normal⟩
  have positive := Nat.two_pow_pos (magnitude / magnitudesPerBinade - 1)
  rw [unitsOfMagnitude, Nat.pow_eq, Nat.mul_eq_zero]
  constructor
  · rintro (noFraction | noPower)
    · rcases normal with noBinade | leading
      · rw [noFraction, noBinade, Nat.zero_mul] at covers
        exact covers.symm
      · omega
    · omega
  · rintro rfl
    exact .inl rfl

/-- The sign of zero does not show in its value, and any other negative number is below zero. -/
theorem signum_mul_units_cases (number : Number) :
    (number.isNegative && number.magnitude != 0) = true ∧
        number.signum * unitsOfMagnitude number.magnitude < 0 ∨
      (number.isNegative && number.magnitude != 0) = false ∧
        number.signum * unitsOfMagnitude number.magnitude =
          unitsOfMagnitude number.magnitude := by
  rw [signum]
  cases number.isNegative with
  | false => exact .inr ⟨rfl, one_mul _⟩
  | true =>
      rw [Bool.true_and, if_pos rfl, neg_one_mul]
      by_cases nothing : number.magnitude = 0
      · have noUnits := unitsOfMagnitude_eq_zero_iff.mpr nothing
        exact .inr ⟨by simp [nothing], by rw [noUnits]; simp⟩
      · have someUnits : 0 < unitsOfMagnitude number.magnitude :=
          Nat.pos_of_ne_zero (unitsOfMagnitude_eq_zero_iff.not.mpr nothing)
        exact .inl ⟨bne_iff_ne.mpr nothing,
          neg_lt_zero.mpr (Nat.cast_pos.mpr someUnits)⟩

/--
The value of a number is a natural number exactly if it is finite, not negative
unless it is zero, and that many ones.
-/
theorem value?_eq_natCast_iff {number : Number} {natural : Nat} :
    number.value? = some (natural : ℚ) ↔
      number.magnitude < infiniteMagnitude ∧
        (number.isNegative && number.magnitude != 0) = false ∧
        unitsOfMagnitude number.magnitude = natural * unitsPerOne := by
  have positive : (0 : ℚ) < unitsPerOne := Nat.cast_pos.mpr unitsPerOne_pos
  by_cases infinite : infiniteMagnitude ≤ number.magnitude
  · rw [value?_of_infinite infinite]
    exact iff_of_false nofun fun finite => absurd finite.1 infinite.not_gt
  · have finite := Nat.lt_of_not_le infinite
    rw [value?_of_finite finite, Option.some_inj, and_iff_right finite]
    rcases number.signum_mul_units_cases with
      ⟨negative, below⟩ | ⟨notNegative, same⟩
    · have notNatural : number.signum * unitsOfMagnitude number.magnitude /
          unitsPerOne ≠ (natural : ℚ) :=
        ((div_neg_of_neg_of_pos below positive).trans_le
          natural.cast_nonneg).ne
      rw [negative]
      exact iff_of_false notNatural fun conditions => nomatch conditions.1
    · rw [and_iff_right notNegative, same, div_eq_iff positive.ne',
        ← Nat.cast_mul, Nat.cast_inj]

/-! ## Numbers of a magnitude -/

/-- A number of a finite magnitude has this magnitude and its sign. -/
theorem toNat_toBits_ofMagnitude {magnitude : Nat} (negative : Bool)
    (finite : magnitude < infiniteMagnitude) :
    (ofMagnitude negative magnitude).toBits.toNat =
      magnitude + if negative then signBit else 0 := by
  have isSignBit : signBit = 2 ^ 63 := rfl
  have isInfinite : infiniteMagnitude = 2047 * 2 ^ 52 := rfl
  let bits : UInt64 := .ofNat (magnitude + if negative then signBit else 0)
  have toNat_bits :
      bits.toNat = magnitude + if negative then signBit else 0 := by
    rw [UInt64.toNat_ofNat']
    split <;> omega
  have notAllSet : @UnpackedFloat.unpackExponent .binary64
      bits.toBitVec ≠ -1#11 := by
    rw [Ne, ← BitVec.toNat_inj, toNat_unpackExponent, toNat_bits, isSignBit]
    change ¬ _ = 2047
    split <;> omega
  have notNaN : ¬ @UnpackedFloat.isNaNBits .binary64 bits.toBitVec = true :=
    fun isNaN => notAllSet (of_decide_eq_true isNaN).1
  have packed := @UnpackedFloat.pack_unpack .binary64 bits.toBitVec (by decide)
  rw [if_neg notNaN] at packed
  have kept : (ofMagnitude negative magnitude).toBits.toBitVec = bits.toBitVec :=
    packed
  rw [UInt64.toBitVec_inj.mp kept, toNat_bits]

/-- A number of a finite magnitude has this magnitude. -/
theorem magnitude_ofMagnitude {pattern : Nat} (negative : Bool)
    (finite : pattern < infiniteMagnitude) :
    (ofMagnitude negative pattern).magnitude = pattern := by
  have isSignBit : signBit = 2 ^ 63 := rfl
  have isInfinite : infiniteMagnitude = 2047 * 2 ^ 52 := rfl
  rw [magnitude, toNat_toBits_ofMagnitude negative finite, isSignBit]
  split <;> omega

/-- The value of a number of a finite magnitude. -/
theorem value?_ofMagnitude {pattern : Nat}
    (finite : pattern < infiniteMagnitude) :
    (ofMagnitude false pattern).value? =
      some (unitsOfMagnitude pattern / unitsPerOne : ℚ) := by
  have isSignBit : signBit = 2 ^ 63 := rfl
  have isInfinite : infiniteMagnitude = 2047 * 2 ^ 52 := rfl
  have bits := toNat_toBits_ofMagnitude false finite
  have sameMagnitude := magnitude_ofMagnitude false finite
  have positive : (ofMagnitude false pattern).signum = 1 := by
    rw [signum, isNegative, bits, if_neg]
    rw [decide_eq_true_eq, if_neg Bool.false_ne_true]
    omega
  rw [value?_of_finite (by rw [sameMagnitude]; exact finite), sameMagnitude,
    positive, one_mul]

/-- A finite magnitude that is a natural number is the one nearest to it. -/
theorem value?_ofNat_of_units (magnitude : Nat) {natural : Nat}
    (finite : magnitude < infiniteMagnitude)
    (units : unitsOfMagnitude magnitude = natural * unitsPerOne) :
    (ofNat natural).value? = some (natural : ℚ) := by
  have nonzero : (unitsPerOne : ℚ) ≠ 0 :=
    Nat.cast_ne_zero.mpr unitsPerOne_pos.ne'
  rw [ofNat, ← units, nearestMagnitude_unitsOfMagnitude finite,
    value?_ofMagnitude finite, units, Nat.cast_mul,
    mul_div_cancel_right₀ _ nonzero]

/-- The number nearest to a natural number equals it if some number does. -/
theorem value?_ofNat_of_exact {number : Number} {natural : Nat}
    (exact : number.value? = some (natural : ℚ)) :
    (ofNat natural).value? = some (natural : ℚ) := by
  rcases value?_eq_natCast_iff.mp exact with ⟨finite, -, units⟩
  exact value?_ofNat_of_units number.magnitude finite units

/-- Every natural number of at most fifty-three bits is the value of a number. -/
theorem value?_ofNat_of_lt {natural : Nat} (small : natural < 2 ^ 53) :
    (ofNat natural).value? = some (natural : ℚ) := by
  have perBinade : magnitudesPerBinade = 2 ^ 52 := rfl
  have isInfinite : infiniteMagnitude = 2047 * 2 ^ 52 := rfl
  by_cases nothing : natural = 0
  · refine value?_ofNat_of_units 0 (by decide) ?_
    rw [nothing, Nat.zero_mul]
    rfl
  · obtain ⟨lower, upper⟩ := (Nat.log2_eq_iff nothing).mp rfl
    have fits : natural.log2 < 53 := (Nat.log2_lt nothing).mpr small
    generalize natural.log2 = leading at lower upper fits
    let fraction := natural * 2 ^ (52 - leading)
    have normal : 2 ^ 52 ≤ fraction := by
      calc
        2 ^ 52 = 2 ^ leading * 2 ^ (52 - leading) := by
          rw [← Nat.pow_add, Nat.add_sub_of_le (by omega)]
        _ ≤ fraction := Nat.mul_le_mul_right _ lower
    have bounded : fraction < 2 ^ 53 := by
      calc
        fraction < 2 ^ (leading + 1) * 2 ^ (52 - leading) :=
          Nat.mul_lt_mul_of_pos_right upper (Nat.two_pow_pos _)
        _ = 2 ^ 53 := by
          rw [← Nat.pow_add]
          congr 1
          omega
    refine value?_ofNat_of_units
      ((leading + 1022) * 2 ^ 52 + fraction) (by omega) ?_
    have binade : ((leading + 1022) * 2 ^ 52 + fraction) / 2 ^ 52 - 1 =
        leading + 1022 := by omega
    rcases exists_unitsPerOne with ⟨bits, isBits, isUnits⟩
    have exponent : 52 - leading + (leading + 1022) = bits := by omega
    rw [unitsOfMagnitude, perBinade, binade, Nat.add_sub_cancel_left,
      Nat.pow_eq, isUnits, Nat.mul_assoc, ← Nat.pow_add, exponent]

end Number

end ScopedLisp
