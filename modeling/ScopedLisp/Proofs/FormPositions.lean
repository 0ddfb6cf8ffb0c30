import ScopedLisp.Form

/-!
# Forms up to positions

A form records where its parts were written.  `Form.mapPositions` moves all
these places at once; what it makes equal for a constant view differs at most
in places.  `Form.unplaced` is that extreme case: of a form it keeps
everything but where it stood; `Form.places` is all that it forgets.

Forms hold lists of forms, so induction over them needs the members of these
lists.  `Form.inductionOn` provides it.
-/

namespace ScopedLisp

/-! ## Induction over forms -/

/-- Induction over forms, with a hypothesis for every member of a list of forms. -/
@[elab_as_elim]
theorem Form.inductionOn {motive : Form → Prop}
    (literal : ∀ token value, motive (.literal token value))
    (reference : ∀ name, motive (.variable name))
    (assignment : ∀ target value, motive value →
      motive (.assignment target value))
    (conditional : ∀ opening test consequent alternate,
      motive test → motive consequent → motive alternate →
        motive (.conditional opening test consequent alternate))
    (lambda : ∀ opening parameters body, motive body →
      motive (.lambda opening parameters body))
    (sequence : ∀ opening items, (∀ item ∈ items, motive item) →
      motive (.sequence opening items))
    (printLine : ∀ opening value, motive value →
      motive (.printLine opening value))
    (operation : ∀ operator word left right, motive left → motive right →
      motive (.operation operator word left right))
    (call : ∀ name group arguments,
      (∀ argument ∈ arguments, motive argument) →
        motive (.call name group arguments))
    (form : Form) : motive form := by
  refine @Form.rec motive (fun forms => ∀ form ∈ forms, motive form)
    literal reference assignment conditional lambda sequence printLine
    operation call ?_ ?_ form
  · intro form member
    cases member
  · intro first rest firstHolds restHolds form member
    rcases List.mem_cons.mp member with rfl | later
    · exact firstHolds
    · exact restHolds form later

/-! ## Moving positions -/

/-- A name moved to another place. -/
def Identifier.mapPosition (view : Position → Position) (name : Identifier) :
    Identifier :=
  ⟨name.text, view name.position⟩

theorem Identifier.mapPosition_eq_iff
    {view : Position → Position} {name other : Identifier} :
    name.mapPosition view = other.mapPosition view ↔
      name.text = other.text ∧ view name.position = view other.position :=
  Identifier.mk.injEq _ _ _ _ ▸ Iff.rfl

/-- A token moved to another place. -/
def Token.mapPosition (view : Position → Position) (token : Token) : Token :=
  ⟨token.lexeme, view token.position⟩

namespace Form

/-- A form with all its places moved. -/
def mapPositions (view : Position → Position) : Form → Form
  | .literal token value => .literal (token.mapPosition view) value
  | .variable name => .variable (name.mapPosition view)
  | .assignment target value =>
    .assignment (target.mapPosition view) (value.mapPositions view)
  | .conditional opening test consequent alternate =>
    .conditional (view opening) (test.mapPositions view)
      (consequent.mapPositions view) (alternate.mapPositions view)
  | .lambda opening parameters body =>
    .lambda (view opening) (parameters.map (·.mapPosition view))
      (body.mapPositions view)
  | .sequence opening items => .sequence (view opening) (mapEach view items)
  | .printLine opening value =>
    .printLine (view opening) (value.mapPositions view)
  | .operation operator word left right =>
    .operation operator (word.mapPosition view) (left.mapPositions view)
      (right.mapPositions view)
  | .call name group arguments =>
    .call (name.mapPosition view) (view group) (mapEach view arguments)
where
  /-- Forms with all their places moved. -/
  mapEach (view : Position → Position) : List Form → List Form
    | [] => []
    | form :: forms => form.mapPositions view :: mapEach view forms

@[simp]
theorem mapEach_eq_map (view : Position → Position) (forms : List Form) :
    mapPositions.mapEach view forms = forms.map (mapPositions view) := by
  induction forms with
  | nil => rfl
  | cons form forms ih =>
      simp [mapPositions.mapEach, ih]

@[simp]
theorem mapPositions_id (form : Form) : form.mapPositions id = form := by
  have names : Identifier.mapPosition id = id := rfl
  induction form using Form.inductionOn with
  | literal token value => rfl
  | reference name => rfl
  | assignment target value ih => simp [mapPositions, names, ih]
  | conditional opening test consequent alternate ih ih' ih'' =>
      simp [mapPositions, ih, ih', ih'']
  | lambda opening parameters body ih => simp [mapPositions, names, ih]
  | sequence opening items ih =>
      simp [mapPositions, List.map_congr_left ih]
  | printLine opening value ih => simp [mapPositions, ih]
  | operation operator word left right ih ih' =>
      simp [mapPositions, names, ih, ih']
  | call name group arguments ih =>
      simp [mapPositions, names, List.map_congr_left ih]

/-- The places that a form records, its own first, bodies of lambdas included. -/
def places : Form → List Position
  | .literal token _ => [token.position]
  | .variable name => [name.position]
  | .assignment target value => target.position :: value.places
  | .conditional opening test consequent alternate =>
    opening :: (test.places ++ consequent.places ++ alternate.places)
  | .lambda opening parameters body =>
    opening :: (parameters.map (·.position) ++ body.places)
  | .sequence opening items => opening :: placesOfAll items
  | .printLine opening value => opening :: value.places
  | .operation _ word left right =>
    word.position :: (left.places ++ right.places)
  | .call name group arguments =>
    name.position :: group :: placesOfAll arguments
where
  /-- The places that forms record. -/
  placesOfAll : List Form → List Position
    | [] => []
    | form :: forms => form.places ++ placesOfAll forms

@[simp]
theorem placesOfAll_eq_flatMap (forms : List Form) :
    places.placesOfAll forms = forms.flatMap places := by
  induction forms with
  | nil => rfl
  | cons form forms ih =>
      simp [places.placesOfAll, ih]

theorem position_mem_places (form : Form) : form.position ∈ form.places := by
  cases form <;> exact List.mem_cons_self

/-- Moving a form moves the places that it records. -/
theorem places_mapPositions (view : Position → Position) (form : Form) :
    (form.mapPositions view).places = form.places.map view := by
  have flatMaps : ∀ {forms : List Form},
      (∀ form ∈ forms,
        (form.mapPositions view).places = form.places.map view) →
      (forms.map (mapPositions view)).flatMap places =
        (forms.flatMap places).map view := by
    intro forms each
    rw [List.flatMap_map, List.map_flatMap, List.flatMap_def,
      List.flatMap_def, List.map_congr_left each]
  induction form using Form.inductionOn with
  | literal token value => rfl
  | reference name => rfl
  | assignment target value ih =>
      simp [mapPositions, places, ih, Identifier.mapPosition]
  | conditional opening test consequent alternate ih ih' ih'' =>
      simp [mapPositions, places, ih, ih', ih'']
  | lambda opening parameters body ih =>
      simp [mapPositions, places, ih, Identifier.mapPosition]
  | sequence opening items ih =>
      simp [mapPositions, places, flatMaps ih]
  | printLine opening value ih => simp [mapPositions, places, ih]
  | operation operator word left right ih ih' =>
      simp [mapPositions, places, ih, ih', Identifier.mapPosition]
  | call name group arguments ih =>
      simp [mapPositions, places, flatMaps ih, Identifier.mapPosition]

/-- A form without its places. -/
def unplaced (form : Form) : Form :=
  form.mapPositions fun _ => .start

theorem unplaced_eq_mapPositions :
    unplaced = mapPositions fun _ => .start :=
  rfl

/-- The lexemes of a list of forms, one form after the other. -/
theorem lexemesOfAll_eq_flatMap (forms : List Form) :
    lexemes.lexemesOfAll forms = forms.flatMap lexemes := by
  induction forms with
  | nil => rfl
  | cons form forms ih =>
      simp [lexemes.lexemesOfAll, ih]

end Form

end ScopedLisp
