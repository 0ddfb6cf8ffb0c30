import ScopedLisp.Proofs.EvaluationPolicy

/-!
# Renaming the names in a form

`Form.names` are the names that a form mentions and that a scope could bind:
variables, targets of assignments, names of called procedures and parameters.
The words of special forms and of operators are none of them.  `Form.rename`
writes another name for one of them wherever it is mentioned, the parameters
of lambdas included.

`Form.Replacing` compares a form with one that has another part in place of a
given part.
-/

namespace ScopedLisp

/-- A text, or the new text where it is the old one. -/
def renamedText (old new text : String) : String :=
  if text = old then new else text

@[simp]
theorem renamedText_self (old new : String) :
    renamedText old new old = new :=
  if_pos rfl

theorem renamedText_of_ne {old new text : String} (different : text ≠ old) :
    renamedText old new text = text :=
  if_neg different

/-- Renaming tells texts apart, but for the new text. -/
theorem renamedText_inj
    {old new text other : String} (notNew : text ≠ new) (otherNotNew : other ≠ new) :
    renamedText old new text = renamedText old new other ↔ text = other := by
  unfold renamedText
  split <;> split <;> grind

theorem renamedText_ne_old {old new : String} (different : old ≠ new)
    (text : String) : renamedText old new text ≠ old := by
  unfold renamedText
  split
  · exact different.symm
  · assumption

/-- A name under its new text. -/
def Identifier.rename (old new : String) (name : Identifier) : Identifier :=
  ⟨renamedText old new name.text, name.position⟩

namespace Form

/-! ## Names and their renaming -/

/-- The names that a form mentions for a scope to bind, bodies of lambdas included. -/
def names : Form → List String
  | .literal _ _ => []
  | .variable name => [name.text]
  | .assignment target value => target.text :: value.names
  | .conditional _ test consequent alternate =>
    test.names ++ consequent.names ++ alternate.names
  | .lambda _ parameters body => parameters.map (·.text) ++ body.names
  | .sequence _ items => namesOfAll items
  | .printLine _ value => value.names
  | .operation _ _ left right => left.names ++ right.names
  | .call name _ arguments => name.text :: namesOfAll arguments
where
  /-- The names that forms mention. -/
  namesOfAll : List Form → List String
    | [] => []
    | form :: forms => form.names ++ namesOfAll forms

/-- A form with a new name written for an old one. -/
def rename (old new : String) : Form → Form
  | .literal token value => .literal token value
  | .variable name => .variable (name.rename old new)
  | .assignment target value =>
    .assignment (target.rename old new) (value.rename old new)
  | .conditional opening test consequent alternate =>
    .conditional opening (test.rename old new) (consequent.rename old new)
      (alternate.rename old new)
  | .lambda opening parameters body =>
    .lambda opening (parameters.map (·.rename old new)) (body.rename old new)
  | .sequence opening items => .sequence opening (renameEach old new items)
  | .printLine opening value => .printLine opening (value.rename old new)
  | .operation operator word left right =>
    .operation operator word (left.rename old new) (right.rename old new)
  | .call name group arguments =>
    .call (name.rename old new) group (renameEach old new arguments)
where
  /-- Forms with a new name written for an old one. -/
  renameEach (old new : String) : List Form → List Form
    | [] => []
    | form :: forms => form.rename old new :: renameEach old new forms

theorem namesOfAll_eq_flatMap (forms : List Form) :
    names.namesOfAll forms = forms.flatMap names := by
  induction forms with
  | nil => rfl
  | cons form forms ih =>
      simp [names.namesOfAll, ih]

theorem renameEach_eq_map (old new : String) (forms : List Form) :
    rename.renameEach old new forms = forms.map (rename old new) := by
  induction forms with
  | nil => rfl
  | cons form forms ih =>
      simp [rename.renameEach, ih]

theorem mem_names_of_part
    {form part : Form} {name : String} (isPart : part ∈ form.parts)
    (inPart : name ∈ part.names) : name ∈ form.names := by
  cases form with
  | sequence opening items =>
      rw [names, namesOfAll_eq_flatMap, List.mem_flatMap]
      exact ⟨part, isPart, inPart⟩
  | call head group arguments =>
      rw [names, namesOfAll_eq_flatMap, List.mem_cons, List.mem_flatMap]
      exact .inr ⟨part, isPart, inPart⟩
  | _ =>
      simp only [parts, List.mem_cons, List.not_mem_nil, or_false] at isPart
        <;> grind [names]

/-- A form corresponds to the renamed form if its names and its parts do. -/
theorem alongside_rename
    {places : Position → Position → Prop}
    {sameNames : Identifier → Identifier → Prop} {forms : Form → Form → Prop}
    {old new : String} {form : Form}
    (place : places form.position form.position)
    (eachName : ∀ name : Identifier, name.text ∈ form.names →
      sameNames name (name.rename old new))
    (eachPart : ∀ part ∈ form.parts, forms part (part.rename old new)) :
    form.Alongside places sameNames forms (form.rename old new) := by
  cases form with
  | literal token value => exact .literal token token value
  | «variable» name => exact .reference (eachName name (by simp [names]))
  | assignment target value =>
      exact .assignment (eachPart value (by simp [parts]))
  | conditional opening test consequent alternate =>
      exact .conditional place (eachPart test (by simp [parts]))
        (eachPart consequent (by simp [parts]))
        (eachPart alternate (by simp [parts]))
  | lambda opening parameters body => exact .lambda _ _ _ _ _ _
  | sequence opening items =>
      rw [rename, renameEach_eq_map]
      exact .sequence _ _
        (List.forall₂_map_right_iff.mpr (List.forall₂_same.mpr eachPart))
  | printLine opening value =>
      exact .printLine place (eachPart value (by simp [parts]))
  | operation operator word left right =>
      exact .operation operator place (eachPart left (by simp [parts]))
        (eachPart right (by simp [parts]))
  | call name group arguments =>
      rw [rename, renameEach_eq_map]
      exact .call _ _ (eachName name (by simp [names]))
        (List.forall₂_map_right_iff.mpr (List.forall₂_same.mpr eachPart))

/-! ## Replacing a part -/

/-- The second form is the first one, with a part replaced where it occurs or some of the time. -/
inductive Replacing (part part' : Form) : Form → Form → Prop where
  | same (form : Form) : Replacing part part' form form
  | here : Replacing part part' part part'
  | assignment (target : Identifier) {value value' : Form}
      (replaced : Replacing part part' value value') :
      Replacing part part' (.assignment target value)
        (.assignment target value')
  | conditional (opening : Position)
      {test test' consequent consequent' alternate alternate' : Form}
      (tested : Replacing part part' test test')
      (chosen : Replacing part part' consequent consequent')
      (otherwise : Replacing part part' alternate alternate') :
      Replacing part part' (.conditional opening test consequent alternate)
        (.conditional opening test' consequent' alternate')
  | lambda (opening : Position) (parameters : List Identifier)
      {body body' : Form} (replaced : Replacing part part' body body') :
      Replacing part part' (.lambda opening parameters body)
        (.lambda opening parameters body')
  | sequence (opening : Position) {items items' : List Form}
      (replaced : List.Forall₂ (Replacing part part') items items') :
      Replacing part part' (.sequence opening items)
        (.sequence opening items')
  | printLine (opening : Position) {value value' : Form}
      (replaced : Replacing part part' value value') :
      Replacing part part' (.printLine opening value)
        (.printLine opening value')
  | operation (operator : Operator) (word : Identifier)
      {left left' right right' : Form}
      (first : Replacing part part' left left')
      (second : Replacing part part' right right') :
      Replacing part part' (.operation operator word left right)
        (.operation operator word left' right')
  | call (name : Identifier) (group : Position)
      {arguments arguments' : List Form}
      (replaced : List.Forall₂ (Replacing part part') arguments arguments') :
      Replacing part part' (.call name group arguments)
        (.call name group arguments')

end Form

end ScopedLisp
