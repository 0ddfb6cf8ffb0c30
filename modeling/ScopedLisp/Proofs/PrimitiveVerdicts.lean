import ScopedLisp.Primitive
import ScopedLisp.Proofs.ValueRelation

/-!
# What primitives make of their arguments

A primitive looks at its arguments no deeper than related values agree, and
the place of the call enters only the errors: each names the callee and stands
at the call.  `SameVerdict` says both at once of two runs of a check: they
succeed together, or they fail for the same cause up to the name of the
callee.  It composes along the checks that a primitive makes.
-/

namespace ScopedLisp

namespace Cause

/-- A cause with another name in the place of the one that was called or read. -/
def about (name : String) : Cause → Cause
  | .unbound _ => .unbound name
  | .argumentMismatch _ argument wanted found =>
    .argumentMismatch name argument wanted found
  | .emptyList _ => .emptyList name
  | .indexOutOfRange _ index length => .indexOutOfRange name index length
  | .arityMismatch _ wanted got => .arityMismatch name wanted got
  | other => other

theorem isRuntime_about
    {cause : Cause} (name : String) (runtime : cause.IsRuntime) :
    (cause.about name).IsRuntime := by
  cases cause <;> exact runtime

end Cause

/-- Two checks that succeed together or fail for one cause, each at its own site. -/
inductive SameVerdict {α β : Type} (site other : CallSite)
    (good : α → β → Prop) : Except Error α → Except Error β → Prop where
  | ok {value : α} {value' : β} (holds : good value value') :
      SameVerdict site other good (.ok value) (.ok value')
  | error {cause : Cause} (runtime : cause.IsRuntime) :
      SameVerdict site other good
        (.error (.located (cause.about site.name) site.position))
        (.error (.located (cause.about other.name) other.position))

namespace SameVerdict

variable {α β α' β' : Type} {site other : CallSite}

/-- A cause that already names the callee. -/
theorem siteError
    {good : α → β → Prop} {cause cause' : Cause}
    (runtime : cause.IsRuntime)
    (named : cause.about site.name = cause)
    (renamed : cause.about other.name = cause') :
    SameVerdict site other good (site.error cause) (other.error cause') := by
  have verdict : SameVerdict site other good _ _ := .error runtime
  rwa [named, renamed] at verdict

theorem bind
    {good : α → β → Prop} {better : α' → β' → Prop}
    {first : Except Error α} {first' : Except Error β}
    {rest : α → Except Error α'} {rest' : β → Except Error β'}
    (same : SameVerdict site other good first first')
    (goesOn : ∀ value value', good value value' →
      SameVerdict site other better (rest value) (rest' value')) :
    SameVerdict site other better (first >>= rest) (first' >>= rest') := by
  cases same with
  | ok holds => exact goesOn _ _ holds
  | error runtime => exact .error runtime

theorem map
    {good : α → β → Prop} {better : α' → β' → Prop}
    {first : Except Error α} {first' : Except Error β}
    {view : α → α'} {view' : β → β'}
    (same : SameVerdict site other good first first')
    (implies : ∀ value value', good value value' →
      better (view value) (view' value')) :
    SameVerdict site other better (first.map view) (first'.map view') := by
  cases same with
  | ok holds => exact .ok (implies _ _ holds)
  | error runtime => exact .error runtime

end SameVerdict

/-! ## Checks -/

namespace CallSite

open Value

variable {relates : Callable → Callable → Prop} {site other : CallSite}

theorem checkCount_sameVerdict
    {arguments arguments' : List Value} (count : Nat)
    (sameLength : arguments.length = arguments'.length) :
    SameVerdict site other (fun _ _ => arguments.length = count)
      (site.checkCount arguments count)
      (other.checkCount arguments' count) := by
  unfold checkCount
  rw [← sameLength]
  split
  · rename_i enough
    exact .ok enough
  · exact .siteError nofun rfl rfl

theorem one_sameVerdict
    {arguments arguments' : List Value}
    (related : List.Forall₂ (Related relates) arguments arguments') :
    SameVerdict site other (Related relates)
      (site.one arguments) (other.one arguments') := by
  have sameLength := related.length_eq
  rcases related with _ | ⟨head, _ | ⟨second, tail⟩⟩
  · exact .siteError nofun rfl rfl
  · exact .ok head
  · simp only [one, sameLength]
    exact .siteError nofun rfl rfl

theorem two_sameVerdict
    {arguments arguments' : List Value}
    (related : List.Forall₂ (Related relates) arguments arguments') :
    SameVerdict site other
      (fun pair pair' =>
        Related relates pair.1 pair'.1 ∧ Related relates pair.2 pair'.2)
      (site.two arguments) (other.two arguments') := by
  have sameLength := related.length_eq
  rcases related with _ | ⟨first, _ | ⟨second, _ | ⟨third, tail⟩⟩⟩
  · exact .siteError nofun rfl rfl
  · exact .siteError nofun rfl rfl
  · exact .ok ⟨first, second⟩
  · simp only [two, sameLength]
    exact .siteError nofun rfl rfl

theorem mismatch_sameVerdict
    {α β : Type} {good : α → β → Prop} {value value' : Value}
    (argument : Nat) (wanted : String) (related : Related relates value value') :
    SameVerdict site other good (site.mismatch argument wanted value)
      (other.mismatch argument wanted value') := by
  rw [mismatch, mismatch, related.typeName_eq]
  exact .siteError nofun rfl rfl

theorem numberArgument_sameVerdict
    {value value' : Value} (argument : Nat)
    (related : Related relates value value') :
    SameVerdict site other Eq (site.numberArgument argument value)
      (other.numberArgument argument value') := by
  have mismatched : SameVerdict site other (@Eq Number)
      (site.mismatch argument "number" value)
      (other.mismatch argument "number" value') :=
    mismatch_sameVerdict argument "number" related
  cases related with
  | number value => exact .ok rfl
  | _ => exact mismatched

theorem booleanArgument_sameVerdict
    {value value' : Value} (argument : Nat)
    (related : Related relates value value') :
    SameVerdict site other Eq (site.booleanArgument argument value)
      (other.booleanArgument argument value') := by
  have mismatched : SameVerdict site other (@Eq Bool)
      (site.mismatch argument "boolean" value)
      (other.mismatch argument "boolean" value') :=
    mismatch_sameVerdict argument "boolean" related
  cases related with
  | boolean value => exact .ok rfl
  | _ => exact mismatched

theorem listArgument_sameVerdict
    {value value' : Value} (argument : Nat)
    (related : Related relates value value') :
    SameVerdict site other (List.Forall₂ (Related relates))
      (site.listArgument argument value)
      (other.listArgument argument value') := by
  have mismatched : SameVerdict site other (List.Forall₂ (Related relates))
      (site.mismatch argument "list" value)
      (other.mismatch argument "list" value') :=
    mismatch_sameVerdict argument "list" related
  cases related with
  | list items => exact .ok items
  | _ => exact mismatched

end CallSite

/-! ## Primitives -/

namespace Primitive

open Value CallSite

variable {relates : Callable → Callable → Prop}

/-- Replies of one kind with related data. -/
inductive Reply.Related (relates : Callable → Callable → Prop) :
    Reply → Reply → Prop where
  | value {left right : Value} (related : Value.Related relates left right) :
      Reply.Related relates (.value left) (.value right)
  | call {left right : Callable} {arguments arguments' : List Value}
      (callables : relates left right)
      (related :
        List.Forall₂ (Value.Related relates) arguments arguments') :
      Reply.Related relates (.call left arguments) (.call right arguments')

section Verdicts

variable {site other : CallSite} {arguments arguments' : List Value}
  (related : List.Forall₂ (Value.Related relates) arguments arguments')

include related

theorem lengthOf_sameVerdict :
    SameVerdict site other (Value.Related relates)
      (lengthOf site arguments) (lengthOf other arguments') := by
  apply (one_sameVerdict related).bind
  intro value value' same
  have mismatched : SameVerdict site other (Value.Related relates)
      (site.mismatch 1 "list or string" value)
      (other.mismatch 1 "list or string" value') :=
    mismatch_sameVerdict 1 "list or string" same
  cases same with
  | list items =>
      simp only [items.length_eq]
      exact .ok (.number _)
  | string text => exact .ok (.number _)
  | _ => exact mismatched

theorem firstOf_sameVerdict :
    SameVerdict site other (Value.Related relates)
      (firstOf site arguments) (firstOf other arguments') := by
  apply (one_sameVerdict related).bind
  intro value value' same
  apply (listArgument_sameVerdict 1 same).bind
  intro items items' itemwise
  cases itemwise with
  | nil =>
      exact .siteError nofun rfl rfl
  | cons head tail => exact .ok head

theorem restOf_sameVerdict :
    SameVerdict site other (Value.Related relates)
      (restOf site arguments) (restOf other arguments') := by
  apply (one_sameVerdict related).bind
  intro value value' same
  apply (listArgument_sameVerdict 1 same).bind
  intro items items' itemwise
  cases itemwise with
  | nil =>
      exact .siteError nofun rfl rfl
  | cons head tail => exact .ok (.list tail)

omit related in
/-- One index is refused for both of two related lists or finds related items. -/
theorem atIndex_related
    {items items' : List Value}
    (itemwise : List.Forall₂ (Value.Related relates) items items')
    (index : Number) :
    Access.atIndex items index = .refused ∧
        Access.atIndex items' index = .refused ∨
      ∃ item item', Value.Related relates item item' ∧
        Access.atIndex items index = .item item ∧
          Access.atIndex items' index = .item item' := by
  by_cases outside : Access.IsOutside items.length index
  · have outside' := itemwise.length_eq ▸ outside
    exact .inl ⟨if_pos outside, if_pos outside'⟩
  · have outside' := itemwise.length_eq ▸ outside
    rcases Access.atIndex_of_not_isOutside outside with ⟨below, found⟩
    rcases Access.atIndex_of_not_isOutside outside' with ⟨below', found'⟩
    exact .inr ⟨_, _, itemwise.get below below', found, found'⟩

theorem nthOf_sameVerdict :
    SameVerdict site other (Value.Related relates)
      (nthOf site arguments) (nthOf other arguments') := by
  apply (two_sameVerdict related).bind
  rintro ⟨sequence, position⟩ ⟨sequence', position'⟩ ⟨same, samePosition⟩
  apply (listArgument_sameVerdict 1 same).bind
  intro items items' itemwise
  apply (numberArgument_sameVerdict 2 samePosition).bind
  rintro index - rfl
  rcases atIndex_related itemwise index with
    ⟨refused, refused'⟩ | ⟨item, item', sameItem, found, found'⟩
  · simp only [refused, refused', ← itemwise.length_eq]
    exact .siteError nofun rfl rfl
  · simp only [found, found']
    exact .ok sameItem

theorem notOf_sameVerdict :
    SameVerdict site other (Value.Related relates)
      (notOf site arguments) (notOf other arguments') := by
  apply (one_sameVerdict related).bind
  intro value value' same
  apply (booleanArgument_sameVerdict 1 same).bind
  rintro holds - rfl
  exact .ok (.boolean _)

theorem unary_sameVerdict (function : Number → Number) :
    SameVerdict site other (Value.Related relates)
      (unary function site arguments) (unary function other arguments') := by
  apply (one_sameVerdict related).bind
  intro value value' same
  apply (numberArgument_sameVerdict 1 same).bind
  rintro number - rfl
  exact .ok (.number _)

theorem binary_sameVerdict (function : Number → Number → Number) :
    SameVerdict site other (Value.Related relates)
      (binary function site arguments)
      (binary function other arguments') := by
  apply (two_sameVerdict related).bind
  rintro ⟨one, another⟩ ⟨one', another'⟩ ⟨same, sameOther⟩
  apply (numberArgument_sameVerdict 1 same).bind
  rintro left - rfl
  apply (numberArgument_sameVerdict 2 sameOther).bind
  rintro right - rfl
  exact .ok (.number _)

theorem textOf_sameVerdict :
    SameVerdict site other (Value.Related relates)
      (textOf site arguments) (textOf other arguments') := by
  apply (one_sameVerdict related).bind
  intro value value' same
  apply (numberArgument_sameVerdict 1 same).bind
  rintro number - rfl
  exact .ok (.string _)

theorem appendAll_eq : appendAll arguments = appendAll arguments' := by
  have texts : arguments.map Value.render = arguments'.map Value.render := by
    induction related with
    | nil => rfl
    | cons head tail ih =>
        rw [List.map_cons, List.map_cons, head.render_eq, ih]
  rw [appendAll, appendAll, texts]

theorem applied_sameVerdict :
    SameVerdict site other
      (fun pair pair' => relates pair.1 pair'.1 ∧
        List.Forall₂ (Value.Related relates) pair.2 pair'.2)
      (applied site arguments) (applied other arguments') := by
  apply (two_sameVerdict related).bind
  rintro ⟨target, items⟩ ⟨target', items'⟩ ⟨sameTarget, sameItems⟩
  have types := sameTarget.typeName_eq
  have runtime : ∀ actual, (Cause.typeMismatch "function" actual).IsRuntime :=
    fun _ => nofun
  cases sameTarget with
  | callable relation =>
      apply (listArgument_sameVerdict 2 sameItems).bind
      intro values values' itemwise
      exact .ok ⟨relation, itemwise⟩
  | _ =>
      simp only [asCallable, types]
      exact .siteError (runtime _) rfl rfl

/-- A primitive makes the same of related arguments, whatever it is called. -/
theorem reply_sameVerdict (primitive : Primitive) :
    SameVerdict site other (Reply.Related relates)
      (primitive.reply site arguments) (primitive.reply other arguments') := by
  have computed : ∀ {result result' : Except Error Value},
      SameVerdict site other (Value.Related relates) result result' →
        SameVerdict site other (Reply.Related relates)
          (result.map .value) (result'.map .value) := by
    intro result result' same
    exact same.map fun _ _ values => .value values
  cases primitive with
  | list => exact .ok (.value (.list related))
  | length => exact computed (lengthOf_sameVerdict related)
  | first => exact computed (firstOf_sameVerdict related)
  | rest => exact computed (restOf_sameVerdict related)
  | nth => exact computed (nthOf_sameVerdict related)
  | not => exact computed (notOf_sameVerdict related)
  | abs => exact computed (unary_sameVerdict related _)
  | sqrt => exact computed (unary_sameVerdict related _)
  | floor => exact computed (unary_sameVerdict related _)
  | min => exact computed (binary_sameVerdict related _)
  | max => exact computed (binary_sameVerdict related _)
  | stringAppend =>
      rw [reply, reply, appendAll_eq related]
      exact .ok (.value (.string _))
  | numberToString => exact computed (textOf_sameVerdict related)
  | apply =>
      exact (applied_sameVerdict related).map fun _ _ both =>
        .call both.1 both.2

end Verdicts

end Primitive

end ScopedLisp
