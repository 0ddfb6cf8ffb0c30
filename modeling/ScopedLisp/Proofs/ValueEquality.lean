import Mathlib
import ScopedLisp.Proofs.ValueRelation

/-!
# Equality of values

Two values count as equal exactly if they have the same shape: walking down
into both along the same indices one finds the same case in both, lists of the
same length, and leaves that agree (`Value.alike_eq_true_iff`).  Callables
always agree, and numbers agree if they compare equal, if they are less than a
hundred-thousandth apart, or if neither is a number.

Whatever holds of agreement at one position carries over to whole values.  So
equality is reflexive, for a number that does not compare equal to itself is
not a number; and it is symmetric, for a difference is rounded without regard
to its sign (`Number.abs_sub_swap`), be it finite, infinite or no number.  It
is not transitive.
-/

namespace ScopedLisp

namespace Number

open Float.Model
open Float.Model.UnpackedFloat (Sign)

/-! ## Differences without their sign -/

/-- Rounding a mantissa does not look at the sign. -/
theorem abs_roundWithAccuracy (format : Format) (sign other : Sign)
    (mantissa : Nat) (exponent : Int) (accuracy : UnpackedFloat.Accuracy) :
    (UnpackedFloat.roundWithAccuracy format sign mantissa exponent
        accuracy).abs =
      (UnpackedFloat.roundWithAccuracy format other mantissa exponent
        accuracy).abs := by
  simp only [UnpackedFloat.roundWithAccuracy]
  split <;> rfl

/-- Opposite mantissas are rounded to opposite numbers. -/
theorem abs_normalize_neg (format : Format) (mantissa exponent : Int)
    (zeroSign : Sign) :
    (UnpackedFloat.normalize format (-mantissa) exponent zeroSign).abs =
      (UnpackedFloat.normalize format mantissa exponent zeroSign).abs := by
  simp only [UnpackedFloat.normalize, UnpackedFloat.round]
  rcases Int.lt_trichotomy mantissa 0 with below | rfl | above
  · rw [Int.compare_eq_lt.mpr below, Int.compare_eq_gt.mpr (by omega)]
    exact abs_roundWithAccuracy ..
  · rfl
  · rw [Int.compare_eq_gt.mpr above, Int.compare_eq_lt.mpr (by omega),
      Int.neg_neg]
    exact abs_roundWithAccuracy ..

theorem abs_unpackedSub_swap (format : Format) (left right : UnpackedFloat) :
    (UnpackedFloat.sub format left right).abs =
      (UnpackedFloat.sub format right left).abs := by
  cases left with
  | notANumber => cases right <;> rfl
  | infinity sign =>
      cases right with
      | infinity other => cases sign <;> cases other <;> rfl
      | notANumber | zero | finite => rfl
  | zero sign =>
      cases right with
      | zero other => cases sign <;> cases other <;> rfl
      | notANumber | infinity | finite => rfl
  | finite sign mantissa exponent =>
      cases right with
      | finite other mantissa' exponent' =>
          simp only [UnpackedFloat.sub]
          rw [min_comm exponent' exponent, ← neg_sub, abs_normalize_neg]
      | notANumber | infinity | zero => rfl

/-- Words that differ in the sign bit alone. -/
theorem abs_unpack_packComponents {format : Format} (sign other : Sign)
    (exponent : BitVec format.exponentBits)
    (mantissa : BitVec format.mantissaBitsWithoutImplicit) :
    (UnpackedFloat.unpack format
        (UnpackedFloat.packComponents format sign exponent mantissa)).abs =
      (UnpackedFloat.unpack format
        (UnpackedFloat.packComponents format other exponent mantissa)).abs := by
  simp only [UnpackedFloat.unpack, UnpackedFloat.unpackMantissa_packComponents,
    UnpackedFloat.unpackExponent_packComponents]
  split
  · split <;> rfl
  · split
    · split <;> rfl
    · rfl

/-- Storing a number as a word does not mix its sign with the rest. -/
theorem abs_unpack_pack {left right : UnpackedFloat}
    (same : left.abs = right.abs) :
    (pack left).unpack.abs = (pack right).unpack.abs := by
  cases left with
  | notANumber =>
      cases right <;> cases same
      rfl
  | infinity sign =>
      cases right <;> cases same
      exact abs_unpack_packComponents ..
  | zero sign =>
      cases right <;> cases same
      exact abs_unpack_packComponents ..
  | finite sign mantissa exponent =>
      cases right <;> cases same
      simp only [Float.Model.unpack, Float.Model.pack, UnpackedFloat.pack]
      split
      · exact abs_unpack_packComponents ..
      · split
        · exact abs_unpack_packComponents ..
        · exact abs_unpack_packComponents ..

/-- How far apart two numbers are does not depend on their order. -/
theorem abs_sub_swap (left right : Number) :
    (left - right).abs = (right - left).abs := by
  have same := abs_unpack_pack
    (abs_unpackedSub_swap .binary64 left.toModel.unpack right.toModel.unpack)
  exact congrArg (fun number => Float.ofModel (pack number)) same

/-! ## Numbers that agree -/

/--
Whether two numbers compare equal, are less than a hundred-thousandth apart, or
are both no numbers.
-/
def Agree (left right : Number) : Prop :=
  (left == right) = true ∨ (left - right).abs < 1e-5 ∨
    left.isNaN = true ∧ right.isNaN = true

theorem alike_eq_true_iff {left right : Number} :
    left.alike right = true ↔ left.Agree right := by
  rw [alike, Bool.or_eq_true, Bool.or_eq_true, Bool.and_eq_true,
    decide_eq_true_iff, or_assoc]
  exact Iff.rfl

theorem Agree.refl (number : Number) : number.Agree number := by
  by_cases isNumber : number = Float.nan
  · subst isNumber
    exact .inr (.inr ⟨rfl, rfl⟩)
  · exact .inl (Float.beq_self_iff.mpr isNumber)

theorem Agree.symm {left right : Number} (agree : left.Agree right) :
    right.Agree left := by
  rcases agree with equal | near | ⟨leftIsNaN, rightIsNaN⟩
  · rw [Float.beq_iff_ne_nan_and_eq] at equal
    rcases equal with ⟨leftIsNumber, rightIsNumber, same⟩
    refine .inl (Float.beq_iff_ne_nan_and_eq.mpr ⟨rightIsNumber, leftIsNumber, ?_⟩)
    -- One of the two zeros, or the very same number.
    rcases same with same | ⟨isZero, isNegativeZero⟩ | ⟨isNegativeZero, isZero⟩
    · exact .inl same.symm
    · exact .inr (.inr ⟨isNegativeZero, isZero⟩)
    · exact .inr (.inl ⟨isZero, isNegativeZero⟩)
  · refine .inr (.inl ?_)
    rwa [abs_sub_swap]
  · exact .inr (.inr ⟨rightIsNaN, leftIsNaN⟩)

end Number

namespace Value

/-! ## Shapes of values -/

/-- What stands in a value where the indices of a path lead through its lists. -/
def at? : List Nat → Value → Option Value
  | [], value => some value
  | index :: path, .list items => items[index]?.bind (at? path)
  | _ :: _, _ => none

/--
Whether two values agree without regard to the items of lists: they have the
same case, lists are equally long, and leaves agree.  Nothing of callables is
compared.
-/
def SameNode : Value → Value → Prop
  | .nil, .nil => True
  | .number left, .number right => left.Agree right
  | .string left, .string right => left = right
  | .boolean left, .boolean right => left = right
  | .list left, .list right => left.length = right.length
  | .callable _, .callable _ => True
  | _, _ => False

/-- Whether two values have positions in common only, and agree at each. -/
def SameShape (left right : Value) : Prop :=
  ∀ path, Option.Rel SameNode (at? path left) (at? path right)

theorem SameNode.refl (value : Value) : value.SameNode value := by
  cases value with
  | number value => exact Number.Agree.refl value
  | nil | callable => trivial
  | string | boolean | list => exact rfl

theorem SameNode.symm {left right : Value} (same : left.SameNode right) :
    right.SameNode left := by
  cases left <;> cases right <;> try contradiction
  case number.number => exact Number.Agree.symm same
  case nil.nil | callable.callable => trivial
  all_goals exact Eq.symm same

theorem SameNode.typeName_eq {left right : Value}
    (same : left.SameNode right) : left.typeName = right.typeName := by
  cases left <;> cases right <;> try contradiction
  all_goals rfl

theorem SameShape.refl (value : Value) : value.SameShape value :=
  fun _ => optionRel_self fun inner _ => .refl inner

theorem SameShape.symm {left right : Value} (same : left.SameShape right) :
    right.SameShape left := by
  intro path
  rcases found : at? path left with _ | inner <;>
    rcases found' : at? path right with _ | inner'
  all_goals
    have atPath := same path
    rw [found, found'] at atPath
    cases atPath
  · exact .none
  · rename_i sameNode
    exact .some sameNode.symm

theorem SameShape.sameNode {left right : Value} (same : left.SameShape right) :
    left.SameNode right := by
  cases same [] with
  | some sameNode => exact sameNode

/-- There is nothing inside a value that is no list. -/
theorem at?_eq_none {value : Value} (isLeaf : ∀ items, value ≠ .list items)
    (index : Nat) (path : List Nat) : at? (index :: path) value = none := by
  cases value with
  | list items => exact absurd rfl (isLeaf items)
  | _ => rfl

theorem SameNode.sameShape {left right : Value}
    (isLeaf : ∀ items, left ≠ .list items) (same : left.SameNode right) :
    left.SameShape right := by
  intro path
  cases path with
  | nil => exact .some same
  | cons index path =>
      have isLeaf' : ∀ items, right ≠ .list items := by
        rintro items rfl
        cases left with
        | list items => exact isLeaf items rfl
        | _ => contradiction
      rw [at?_eq_none isLeaf, at?_eq_none isLeaf']
      exact .none

theorem sameShape_list_iff {left right : List Value} :
    (Value.list left).SameShape (.list right) ↔
      List.Forall₂ SameShape left right := by
  rw [List.forall₂_iff_get]
  constructor
  · intro same
    refine ⟨same.sameNode, fun index inLeft inRight path => ?_⟩
    have atPath := same (index :: path)
    rw [at?, at?, List.getElem?_eq_getElem inLeft,
      List.getElem?_eq_getElem inRight] at atPath
    exact atPath
  · rintro ⟨sameLength, each⟩ path
    cases path with
    | nil => exact .some sameLength
    | cons index path =>
        rw [at?, at?]
        by_cases inLeft : index < left.length
        · have inRight : index < right.length := sameLength ▸ inLeft
          rw [List.getElem?_eq_getElem inLeft,
            List.getElem?_eq_getElem inRight]
          exact each index inLeft inRight path
        · have notInRight : ¬ index < right.length := sameLength ▸ inLeft
          rw [List.getElem?_eq_none (Nat.not_lt.mp inLeft),
            List.getElem?_eq_none (Nat.not_lt.mp notInRight)]
          exact .none

/-! ## Equality is sameness of shape -/

theorem allAlike_eq_true_iff {left right : List Value} :
    alike.allAlike left right = true ↔
      List.Forall₂ (fun item other => item.alike other = true) left right := by
  induction left generalizing right with
  | nil => cases right <;> simp [alike.allAlike]
  | cons item items ih =>
      cases right with
      | nil => simp [alike.allAlike]
      | cons other others =>
          rw [alike.allAlike, Bool.and_eq_true, ih, List.forall₂_cons]

/-- Two leaves are equal if they agree. -/
theorem alike_eq_true_iff_sameNode {left right : Value}
    (isLeaf : ∀ items, left ≠ .list items) :
    left.alike right = true ↔ left.SameNode right := by
  cases left with
  | list items => exact absurd rfl (isLeaf items)
  | number value =>
      cases right with
      | number other => exact Number.alike_eq_true_iff
      | _ => simp [alike, SameNode]
  | _ => cases right <;> simp [alike, SameNode]

/-- Two values are equal exactly if they have the same shape. -/
theorem alike_eq_true_iff {left right : Value} :
    left.alike right = true ↔ left.SameShape right := by
  have ofLeaf : ∀ {value other : Value}, (∀ items, value ≠ .list items) →
      (value.alike other = true ↔ value.SameShape other) :=
    fun isLeaf => (alike_eq_true_iff_sameNode isLeaf).trans
      ⟨SameNode.sameShape isLeaf, SameShape.sameNode⟩
  induction left using Value.inductionOn generalizing right with
  | list items ih =>
      cases right with
      | list others =>
          rw [alike, allAlike_eq_true_iff, sameShape_list_iff,
            List.forall₂_iff_get, List.forall₂_iff_get]
          refine and_congr_right fun _ => ?_
          refine forall_congr' fun index => forall₂_congr fun inItems _ => ?_
          exact ih _ (List.get_mem items ⟨index, inItems⟩)
      | _ =>
          exact iff_of_false Bool.false_ne_true fun same => same.sameNode.elim
  | _ => exact ofLeaf (by simp)

theorem alike_comm (left right : Value) :
    left.alike right = right.alike left := by
  rw [Bool.eq_iff_iff, alike_eq_true_iff, alike_eq_true_iff]
  exact ⟨SameShape.symm, SameShape.symm⟩

end Value

/--
Equality of values is reflexive and symmetric.  Two values are equal exactly
if at every position they agree: both have the same case there, or both have
nothing.  Values of different types are unequal, and the operator for equality
answers for any two values.
-/
theorem equality_compares_shapes (left right : Value) :
    left.alike left = true ∧
      left.alike right = right.alike left ∧
      (left.alike right = true ↔ ∀ path,
        Option.Rel Value.SameNode (left.at? path) (right.at? path)) ∧
      (left.typeName = right.typeName ∨ left.alike right = false) ∧
      Operator.equal.apply left right = .ok (.boolean (left.alike right)) := by
  refine ⟨Value.alike_eq_true_iff.mpr (.refl left), left.alike_comm right,
    Value.alike_eq_true_iff, ?_, rfl⟩
  rcases equal : left.alike right with _ | _
  · exact .inr rfl
  · exact .inl (Value.alike_eq_true_iff.mp equal).sameNode.typeName_eq

/-- Equality is not transitive, for small distances add up. -/
example :
    (Value.number 0).alike (.number 9e-6) = true ∧
      (Value.number 9e-6).alike (.number 18e-6) = true ∧
      (Value.number 0).alike (.number 18e-6) = false := by
  decide

end ScopedLisp
