import Mathlib.Data.List.Forall2
import ScopedLisp.Value

/-!
# Values that differ in their callables

A relation between callables extends to values: related values have the same
shape and the same leaves, and where one holds a callable the other holds a
related one.  Nothing but a call can tell related values apart: types, texts,
comparisons and operators do not look into callables.
-/

namespace ScopedLisp

/-- A cause that only running can have. -/
def Cause.IsRuntime (cause : Cause) : Prop :=
  cause.code.kind ≠ .syntaxError

/-- Two checks that succeed together or fail for one and the same cause. -/
inductive SameCause {α β : Type} (good : α → β → Prop) :
    Except Cause α → Except Cause β → Prop where
  | ok {value : α} {value' : β} (holds : good value value') :
      SameCause good (.ok value) (.ok value')
  | error {cause : Cause} (runtime : cause.IsRuntime) :
      SameCause good (.error cause) (.error cause)

namespace Value

/-- Induction over values, with a hypothesis for every item of a list. -/
@[elab_as_elim]
theorem inductionOn {motive : Value → Prop}
    (nil : motive .nil)
    (number : ∀ value, motive (.number value))
    (string : ∀ value, motive (.string value))
    (boolean : ∀ value, motive (.boolean value))
    (list : ∀ items, (∀ item ∈ items, motive item) → motive (.list items))
    (callable : ∀ procedure, motive (.callable procedure))
    (value : Value) : motive value := by
  refine @Value.rec motive (fun values => ∀ value ∈ values, motive value)
    nil number string boolean list callable ?_ ?_ value
  · intro value member
    cases member
  · intro first rest firstHolds restHolds value member
    rcases List.mem_cons.mp member with rfl | later
    · exact firstHolds
    · exact restHolds value later

/-! ## Callables inside values -/

/-- The callables that a value holds, those in nested lists included. -/
def callables : Value → List Callable
  | .callable procedure => [procedure]
  | .list items => callablesOfAll items
  | .nil | .number _ | .string _ | .boolean _ => []
where
  /-- The callables that values hold, one value after the other. -/
  callablesOfAll : List Value → List Callable
    | [] => []
    | value :: values => value.callables ++ callablesOfAll values

theorem callablesOfAll_eq_flatMap (values : List Value) :
    callables.callablesOfAll values = values.flatMap callables := by
  induction values with
  | nil => rfl
  | cons value values ih =>
      simp [callables.callablesOfAll, ih]

theorem mem_callables_list {items : List Value} {callable : Callable} :
    callable ∈ (Value.list items).callables ↔
      ∃ item ∈ items, callable ∈ item.callables := by
  simp [callables, callablesOfAll_eq_flatMap]

@[simp]
theorem callables_toValue (value : Literal) : value.toValue.callables = [] := by
  cases value <;> rfl

/-! ## The relation -/

/-- Values of one shape with the same leaves and related callables. -/
inductive Related (relates : Callable → Callable → Prop) :
    Value → Value → Prop where
  | nil : Related relates .nil .nil
  | number (value : Number) :
      Related relates (.number value) (.number value)
  | string (value : String) :
      Related relates (.string value) (.string value)
  | boolean (value : Bool) :
      Related relates (.boolean value) (.boolean value)
  | list {left right : List Value}
      (items : List.Forall₂ (Related relates) left right) :
      Related relates (.list left) (.list right)
  | callable {left right : Callable} (related : relates left right) :
      Related relates (.callable left) (.callable right)

section Related

variable {relates other : Callable → Callable → Prop}

/-- Induction over related values, with a hypothesis for every two items. -/
@[elab_as_elim]
theorem Related.inductionOn
    {motive : ∀ left right, Related relates left right → Prop}
    (nil : motive .nil .nil .nil)
    (number : ∀ value, motive (.number value) (.number value) (.number value))
    (string : ∀ value, motive (.string value) (.string value) (.string value))
    (boolean : ∀ value,
      motive (.boolean value) (.boolean value) (.boolean value))
    (list : ∀ left right (items : List.Forall₂ (Related relates) left right),
      List.Forall₂
        (fun item other => ∃ related, motive item other related)
        left right →
      motive (.list left) (.list right) (.list items))
    (callable : ∀ left right (related : relates left right),
      motive (.callable left) (.callable right) (.callable related))
    {left right : Value} (related : Related relates left right) :
    motive left right related := by
  refine @Related.rec relates motive
    (fun left right _ =>
      List.Forall₂
        (fun item other => ∃ related, motive item other related) left right)
    nil number string boolean ?_ ?_ .nil ?_ left right related
  · intro left right items itemwise
    exact list left right items itemwise
  · intro left right relation
    exact callable left right relation
  · intro first second rest other head _ firstHolds restHolds
    exact .cons ⟨head, firstHolds⟩ restHolds

/-- Another relation that holds of all callables that a value holds holds of the value. -/
theorem Related.mono_mem
    {left right : Value} (related : Related relates left right)
    (implies : ∀ callable ∈ left.callables, ∀ callable',
      relates callable callable' → other callable callable') :
    Related other left right := by
  induction related using Related.inductionOn with
  | nil => exact .nil
  | number value => exact .number value
  | string value => exact .string value
  | boolean value => exact .boolean value
  | list left right items itemwise =>
      apply Related.list
      clear items
      induction itemwise with
      | nil => exact .nil
      | @cons head head' tail tail' headHolds _ tailHolds =>
          apply List.Forall₂.cons
          · apply headHolds.2
            intro callable inside
            exact implies callable
              (mem_callables_list.mpr ⟨head, List.mem_cons_self, inside⟩)
          · apply tailHolds
            intro callable inside
            rcases mem_callables_list.mp inside with ⟨item, member, inItem⟩
            exact implies callable (mem_callables_list.mpr
              ⟨item, List.mem_cons_of_mem head member, inItem⟩)
  | callable left right relation =>
      exact .callable (implies left List.mem_cons_self right relation)

theorem Related.mono
    {left right : Value} (related : Related relates left right)
    (implies : ∀ callable callable',
      relates callable callable' → other callable callable') :
    Related other left right :=
  related.mono_mem fun callable _ => implies callable

/-- A value is related to itself if each of its callables is. -/
theorem related_self
    {value : Value}
    (reflexive : ∀ callable ∈ value.callables, relates callable callable) :
    Related relates value value := by
  induction value using Value.inductionOn with
  | nil => exact .nil
  | number value => exact .number value
  | string value => exact .string value
  | boolean value => exact .boolean value
  | list items ih =>
      apply Related.list
      rw [List.forall₂_same]
      intro item member
      apply ih item member
      intro callable inside
      exact reflexive callable (mem_callables_list.mpr ⟨item, member, inside⟩)
  | callable procedure =>
      exact .callable (reflexive procedure List.mem_cons_self)

theorem optionRel_self
    {relates : Value → Value → Prop} {result : Option Value}
    (reflexive : ∀ value, result = some value → relates value value) :
    Option.Rel relates result result := by
  cases result with
  | none => exact .none
  | some value => exact .some (reflexive value rfl)

/-- Related along equality means equal, with callables as the relation asks. -/
theorem related_eq_iff
    {allowed : Callable → Prop} {left right : Value} :
    Related (fun one another => one = another ∧ allowed one) left right ↔
      left = right ∧ ∀ callable ∈ left.callables, allowed callable := by
  constructor
  · intro related
    induction related using Related.inductionOn with
    | nil | number value | string value | boolean value =>
        simp [callables]
    | list left right items itemwise =>
        have equal : left = right :=
          List.forall₂_eq_eq_eq ▸ itemwise.imp fun _ _ both => both.2.1
        subst equal
        refine ⟨rfl, ?_⟩
        intro callable inside
        rcases mem_callables_list.mp inside with ⟨item, member, inItem⟩
        exact (List.forall₂_same.mp itemwise item member).2.2 callable inItem
    | callable left right relation =>
        rcases relation with ⟨rfl, holds⟩
        simpa [callables] using holds
  · rintro ⟨rfl, holds⟩
    exact related_self fun callable member => ⟨rfl, holds callable member⟩

/-! ## What does not tell related values apart -/

theorem Related.typeName_eq
    {left right : Value} (related : Related relates left right) :
    left.typeName = right.typeName := by
  cases related <;> rfl

theorem Related.render_eq
    {left right : Value} (related : Related relates left right) :
    left.render = right.render := by
  cases related <;> rfl

theorem Related.asBoolean_sameCause
    {left right : Value} (related : Related relates left right) :
    SameCause Eq left.asBoolean right.asBoolean := by
  have types := related.typeName_eq
  cases related with
  | boolean value => exact .ok rfl
  | _ =>
      simp only [asBoolean, types]
      exact .error nofun

theorem Related.asCallable_sameCause
    {left right : Value} (related : Related relates left right) :
    SameCause relates left.asCallable right.asCallable := by
  have types := related.typeName_eq
  cases related with
  | callable relation => exact .ok relation
  | _ =>
      simp only [asCallable, types]
      exact .error nofun

/-- Equality compares related values alike. -/
theorem Related.alike_eq
    {left left' right right' : Value}
    (related : Related relates left left')
    (relatedRight : Related relates right right') :
    left.alike right = left'.alike right' := by
  induction related using Related.inductionOn generalizing right right' with
  | nil | number value | string value | boolean value =>
      cases relatedRight <;> rfl
  | callable left left' relation =>
      cases relatedRight <;> rfl
  | list left left' items itemwise =>
      cases relatedRight with
      | nil | number | string | boolean | callable =>
          rfl
      | @list right right' itemwiseRight =>
          simp only [alike]
          clear items
          induction itemwise generalizing right right' with
          | nil =>
              cases itemwiseRight <;> rfl
          | cons head tail tailAlike =>
              cases itemwiseRight with
              | nil =>
                  rfl
              | cons headRight tailRight =>
                  simp only [alike.allAlike]
                  rw [head.2 headRight, tailAlike tailRight]

end Related

end Value

/-! ## Operators -/

namespace Operator

open Value

variable {relates : Callable → Callable → Prop}

/-- No operator tells related operands apart. -/
theorem apply_eq_of_related
    (operator : Operator) {left left' right right' : Value}
    (related : Related relates left left')
    (relatedRight : Related relates right right') :
    operator.apply left right = operator.apply left' right' := by
  have alike := related.alike_eq relatedRight
  have types := related.typeName_eq
  have typesRight := relatedRight.typeName_eq
  cases operator with
  | equal =>
      simp only [apply, alike]
  | _ =>
      cases related <;> cases relatedRight <;> simp_all [apply]

/-- An operator on numbers computes a number or a boolean, or it divides by zero. -/
theorem onNumbers_sameCause (operator : Operator) (left right : Number) :
    SameCause (Related relates) (operator.onNumbers left right)
      (operator.onNumbers left right) := by
  cases operator with
  | add | subtract | multiply => exact .ok (.number _)
  | less | greater | lessOrEqual | greaterOrEqual | equal =>
      exact .ok (.boolean _)
  | divide =>
      simp only [onNumbers]
      split
      · exact .error nofun
      · exact .ok (.number _)

/-- No operator tells related operands apart, and none computes callables. -/
theorem apply_sameCause
    (operator : Operator) {left left' right right' : Value}
    (related : Related relates left left')
    (relatedRight : Related relates right right') :
    SameCause (Related relates) (operator.apply left right)
      (operator.apply left' right') := by
  rw [operator.apply_eq_of_related related relatedRight]
  unfold apply
  split
  · exact .ok (.boolean _)
  · exact operator.onNumbers_sameCause _ _
  · exact .error nofun

end Operator

end ScopedLisp
