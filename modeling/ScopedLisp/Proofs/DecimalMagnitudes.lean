import Mathlib
import ScopedLisp.Number.Decimal

/-!
# The magnitude nearest to a decimal

A magnitude is rounded from a quotient of units, so it depends on the value of
the quotient and not on how the quotient is written
(`Number.nearestMagnitude_mul_right`), and an exact value is rounded to itself
(`Number.nearestMagnitude_unitsOfMagnitude`).  The shortcuts that
`Decimal.magnitude` takes for very large and very small decimals change nothing
(`Decimal.magnitude_eq`).

The shortest decimal of a finite magnitude was either tried by reading it back
or is exact, and so its magnitude is the one that it was made for
(`Decimal.magnitude_shortest`).
-/

namespace ScopedLisp

namespace Number

/-- One in units is a power of two, whose exponent is kept apart here: nothing computes it. -/
theorem exists_unitsPerOne : ∃ bits, bits = 1074 ∧ unitsPerOne = 2 ^ bits := by
  unfold unitsPerOne
  generalize 1074 = bits
  exact ⟨bits, rfl, Nat.pow_eq⟩

theorem unitsPerOne_pos : 0 < unitsPerOne := by
  rcases exists_unitsPerOne with ⟨bits, -, units⟩
  rw [units]
  exact Nat.two_pow_pos bits

/-! ## Rounding -/

theorem roundHalfEven_mul_right (numerator denominator : Nat) {factor : Nat}
    (positive : 0 < factor) :
    roundHalfEven (numerator * factor) (denominator * factor) =
      roundHalfEven numerator denominator := by
  simp only [roundHalfEven, Nat.mul_div_mul_right _ _ positive,
    Nat.mul_mod_mul_right, ← Nat.mul_assoc, Nat.mul_lt_mul_right positive]

/-- What is a whole number already is not rounded. -/
theorem roundHalfEven_mul_self (quotient : Nat) {denominator : Nat}
    (positive : 0 < denominator) :
    roundHalfEven (quotient * denominator) denominator = quotient := by
  simp [roundHalfEven, positive]

/-- Less than half of one is rounded to nothing. -/
theorem roundHalfEven_of_small {numerator denominator : Nat}
    (small : 2 * numerator < denominator) :
    roundHalfEven numerator denominator = 0 := by
  have below : numerator < denominator := by omega
  simp [roundHalfEven, Nat.div_eq_of_lt below, Nat.mod_eq_of_lt below, small]

/-- A quotient may be written in any terms. -/
theorem nearestMagnitude_mul_right (numerator denominator : Nat) {factor : Nat}
    (positive : 0 < factor) :
    nearestMagnitude (numerator * factor) (denominator * factor) =
      nearestMagnitude numerator denominator := by
  simp only [nearestMagnitude, Nat.mul_div_mul_right _ _ positive,
    Nat.mul_right_comm denominator factor, roundHalfEven_mul_right _ _ positive]

theorem nearestMagnitude_of_small {numerator denominator : Nat}
    (small : 2 * numerator < denominator) :
    nearestMagnitude numerator denominator = 0 := by
  have below : numerator < denominator := by omega
  have noExponent : Nat.log2 (numerator / denominator) - 52 = 0 := by
    rw [Nat.div_eq_of_lt below]
    rfl
  have rounded : roundHalfEven numerator (denominator * Nat.pow 2 0) = 0 :=
    roundHalfEven_of_small (by simpa using small)
  simp only [nearestMagnitude, noExponent, rounded]
  omega

/-- From the binade behind the last finite one on, everything is infinite. -/
theorem nearestMagnitude_of_large {numerator denominator bits : Nat}
    (tooMany : 2099 ≤ bits) (large : 2 ^ bits ≤ numerator / denominator) :
    nearestMagnitude numerator denominator = infiniteMagnitude := by
  have nonzero : numerator / denominator ≠ 0 :=
    Nat.ne_of_gt (Nat.lt_of_lt_of_le (Nat.two_pow_pos bits) large)
  have log : bits ≤ Nat.log2 (numerator / denominator) :=
    (Nat.le_log2 nonzero).mpr large
  have binades : infiniteMagnitude ≤
      (Nat.log2 (numerator / denominator) - 52) * magnitudesPerBinade :=
    Nat.mul_le_mul_right _ (by omega)
  simp only [nearestMagnitude]
  omega

/-! ## Values of magnitudes -/

/-- A finite magnitude is a binade and a fraction, with no lower bound in the first binade. -/
theorem fraction_bounds (magnitude : Nat) :
    let exponent := magnitude / magnitudesPerBinade - 1
    let fraction := magnitude - exponent * magnitudesPerBinade
    exponent * magnitudesPerBinade + fraction = magnitude ∧
      fraction < 2 ^ 53 ∧ (exponent = 0 ∨ 2 ^ 52 ≤ fraction) := by
  have perBinade : magnitudesPerBinade = 2 ^ 52 := rfl
  simp only [perBinade]
  omega

/-- The leading bit of a value stands in the binade of its magnitude. -/
theorem log2_units {fraction exponent : Nat} (bounded : fraction < 2 ^ 53)
    (normal : exponent = 0 ∨ 2 ^ 52 ≤ fraction) :
    Nat.log2 (fraction * 2 ^ exponent) - 52 = exponent := by
  rcases normal with rfl | normal
  · rw [Nat.pow_zero, Nat.mul_one]
    by_cases nothing : fraction = 0
    · rw [nothing]
      rfl
    · have log := (Nat.log2_lt nothing).mpr bounded
      omega
  · have positive := Nat.two_pow_pos exponent
    have nonzero : fraction * 2 ^ exponent ≠ 0 := by
      have := Nat.mul_pos (show 0 < fraction by omega) positive
      omega
    have log : Nat.log2 (fraction * 2 ^ exponent) = 52 + exponent := by
      rw [Nat.log2_eq_iff nonzero, Nat.pow_add,
        show 52 + exponent + 1 = 53 + exponent by omega, Nat.pow_add]
      exact ⟨Nat.mul_le_mul_right _ normal,
        Nat.mul_lt_mul_of_pos_right bounded positive⟩
    omega

/-- The value of a finite magnitude is rounded to that magnitude. -/
theorem nearestMagnitude_unitsOfMagnitude {magnitude : Nat}
    (finite : magnitude < infiniteMagnitude) :
    nearestMagnitude (unitsOfMagnitude magnitude) 1 = magnitude := by
  rcases fraction_bounds magnitude with ⟨covers, bounded, normal⟩
  have log := log2_units bounded normal
  have rounded := roundHalfEven_mul_self
    (magnitude - (magnitude / magnitudesPerBinade - 1) * magnitudesPerBinade)
    (Nat.two_pow_pos (magnitude / magnitudesPerBinade - 1))
  simp only [nearestMagnitude, unitsOfMagnitude, Nat.pow_eq, Nat.div_one, log,
    Nat.one_mul, rounded, covers]
  omega

end Number

namespace Decimal

open Number

/-! ## Decimals -/

theorem two_pow_le_ten_pow (exponent : Nat) :
    2 ^ (3 * exponent) ≤ 10 ^ exponent := by
  rw [Nat.pow_mul]
  exact Nat.pow_le_pow_left (by decide) exponent

/-- A decimal above the greatest power of ten that is looked at is infinite. -/
theorem nearestMagnitude_of_tooLarge {significand exponent : Nat}
    (nonzero : significand ≠ 0) (tooLarge : 400 < exponent) :
    nearestMagnitude (significand * 10 ^ exponent * unitsPerOne) 1 =
      infiniteMagnitude := by
  rcases exists_unitsPerOne with ⟨bits, isBits, units⟩
  have tooMany : 2099 ≤ 3 * exponent + bits := by omega
  refine nearestMagnitude_of_large tooMany ?_
  rw [Nat.div_one, Nat.pow_add, ← units]
  refine Nat.mul_le_mul_right _ (Nat.le_trans (two_pow_le_ten_pow exponent) ?_)
  exact Nat.le_mul_of_pos_left _ (Nat.pos_of_ne_zero nonzero)

/-- A decimal below the least power of ten that is looked at is nothing. -/
theorem nearestMagnitude_of_tooSmall {significand places : Nat}
    (tooSmall : Nat.log2 significand / 3 + 400 < places) :
    nearestMagnitude (significand * unitsPerOne) (10 ^ places) = 0 := by
  apply nearestMagnitude_of_small
  rcases exists_unitsPerOne with ⟨bits, isBits, units⟩
  let thirds := Nat.log2 significand / 3 + 1
  have significandBound : significand < 2 ^ (3 * thirds) :=
    Nat.lt_of_lt_of_le Nat.lt_log2_self
      (Nat.pow_le_pow_right (by decide) (by omega))
  -- A place is more than three bits: 358 places make up for the units of one,
  -- `thirds` for the significand, and others are left.
  have enough : 2 ^ (1 + (3 * thirds + bits)) ≤ 10 ^ places := by
    refine Nat.le_trans ?_ (two_pow_le_ten_pow places)
    exact Nat.pow_le_pow_right (by decide) (by omega)
  refine Nat.lt_of_lt_of_le ?_ enough
  rw [Nat.pow_add, Nat.pow_add, ← units, Nat.pow_one]
  have scaled :=
    Nat.mul_lt_mul_of_pos_right significandBound unitsPerOne_pos
  omega

/-- The magnitude of a decimal is the nearest one, however large or small the decimal is. -/
theorem magnitude_eq (decimal : Decimal) :
    decimal.magnitude =
      nearestMagnitude
        (decimal.significand * 10 ^ decimal.exponent.toNat * unitsPerOne)
        (10 ^ (-decimal.exponent).toNat) := by
  simp only [magnitude, Nat.pow_eq]
  split
  · rename_i nothing
    rw [nothing, Nat.zero_mul, Nat.zero_mul]
    refine (nearestMagnitude_of_small ?_).symm
    exact Nat.pow_pos (by decide)
  rename_i nonzero
  split
  · rename_i tooLarge
    have noPlaces : (-decimal.exponent).toNat = 0 := by omega
    rw [noPlaces, Nat.pow_zero]
    exact (nearestMagnitude_of_tooLarge nonzero (by omega)).symm
  split
  · rename_i tooSmall
    have whole : decimal.exponent.toNat = 0 := by omega
    rw [whole, Nat.pow_zero, Nat.mul_one]
    exact (nearestMagnitude_of_tooSmall (by omega)).symm
  · rfl

/-! ## The shortest decimal -/

theorem magnitude_of_onGrid? {magnitude : Nat} {places : Int}
    {decimal : Decimal} (found : onGrid? magnitude places = some decimal) :
    decimal.magnitude = magnitude := by
  simp only [onGrid?] at found
  split at found
  · rename_i lower
    cases found
    simp only [Bool.and_eq_true, beq_iff_eq] at lower
    exact lower.1
  · split at found
    · rename_i upper
      cases found
      exact beq_iff_eq.mp upper
    · contradiction

theorem magnitude_exact {magnitude : Nat}
    (finite : magnitude < infiniteMagnitude) :
    (exact magnitude).magnitude = magnitude := by
  rcases exists_unitsPerOne with ⟨bits, isBits, units⟩
  have noPower : 10 ^ (exact magnitude).exponent.toNat = 1 := rfl
  have places : (-(exact magnitude).exponent).toNat = bits := isBits.symm
  have significand : (exact magnitude).significand =
      unitsOfMagnitude magnitude * 5 ^ bits := by
    rw [exact, ← isBits, Nat.pow_eq]
  have scale : 10 ^ bits = 1 * (5 ^ bits * unitsPerOne) := by
    rw [Nat.one_mul, units, ← Nat.mul_pow]
  have positive : 0 < 5 ^ bits * unitsPerOne :=
    Nat.mul_pos (Nat.pow_pos (by decide)) unitsPerOne_pos
  rw [magnitude_eq, noPower, Nat.mul_one, places, significand, scale,
    Nat.mul_assoc, nearestMagnitude_mul_right _ _ positive,
    nearestMagnitude_unitsOfMagnitude finite]

/-- The shortest decimal of a finite magnitude has that magnitude. -/
theorem magnitude_shortest {magnitude : Nat}
    (finite : magnitude < infiniteMagnitude) :
    (shortest magnitude).magnitude = magnitude := by
  rw [shortest]
  rcases found : (List.range 19).findSome? fun step : Nat =>
      onGrid? magnitude (coarsestPlaces magnitude + step) with _ | decimal
  · exact magnitude_exact finite
  · rcases List.exists_of_findSome?_eq_some found with ⟨step, -, onGrid⟩
    exact magnitude_of_onGrid? onGrid

end Decimal

end ScopedLisp
