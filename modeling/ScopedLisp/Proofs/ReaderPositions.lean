import ScopedLisp.Form.Reader
import ScopedLisp.Proofs.FormPositions

/-!
# Reading forms wherever their tokens stand

A reader copies the positions of tokens into forms and errors and never looks
at them.  So moving all tokens moves the form that is read, or the error, and
changes nothing else: `Form.ofTokens_mapPosition`.  Tokens that agree in their
lexemes therefore read alike (`Form.ofTokens_alike`).
-/

namespace ScopedLisp

/-- An error reported at another place. -/
def Error.mapPosition (view : Position → Position) (error : Error) : Error :=
  ⟨error.cause, error.position?.map view⟩

/-! ## Moving what a reader holds -/

/-- A gap of a form with all its places moved. -/
def Gap.mapPositions (view : Position → Position) : Gap → Gap
  | .item opening items => .item (view opening) (items.map (·.mapPositions view))
  | .argument name group arguments =>
    .argument (name.mapPosition view) (view group)
      (arguments.map (·.mapPositions view))
  | .body opening parameters =>
    .body (view opening) (parameters.map (·.mapPosition view))
  | .test opening => .test (view opening)
  | .consequent opening tested =>
    .consequent (view opening) (tested.mapPositions view)
  | .alternate opening tested chosen =>
    .alternate (view opening) (tested.mapPositions view)
      (chosen.mapPositions view)
  | .assigned target => .assigned (target.mapPosition view)
  | .printed opening => .printed (view opening)
  | .left operator word => .left operator (word.mapPosition view)
  | .right operator word first =>
    .right operator (word.mapPosition view) (first.mapPositions view)

/-- What filling a gap leads to, with all places moved. -/
def Filled.mapPositions (view : Position → Position) : Filled → Filled
  | .open gap => .open (gap.mapPositions view)
  | .complete form => .complete (form.mapPositions view)

/-- A reader that has read the same at other places. -/
def Reader.mapPositions (view : Position → Position) : Reader → Reader
  | .atForm around => .atForm (around.map (·.mapPositions view))
  | .atHead opening around =>
    .atHead (view opening) (around.map (·.mapPositions view))
  | .atParameterList opening around =>
    .atParameterList (view opening) (around.map (·.mapPositions view))
  | .atParameter opening parameters around =>
    .atParameter (view opening) (parameters.map (·.mapPosition view))
      (around.map (·.mapPositions view))
  | .atTarget around => .atTarget (around.map (·.mapPositions view))
  | .atFirstArgument name around =>
    .atFirstArgument (name.mapPosition view) (around.map (·.mapPositions view))
  | .atClosing complete around =>
    .atClosing (complete.mapPositions view) (around.map (·.mapPositions view))
  | .done result => .done (result.mapPositions view)

/-- What a check yields, with all places moved. -/
def movedResult
    {α : Type} (move : α → α) (view : Position → Position)
    (result : Except Error α) : Except Error α :=
  (result.map move).mapError (Error.mapPosition view)

section Moving

variable (view : Position → Position)

/-! ## One token -/

theorem Gap.fill_mapPositions (gap : Gap) (form : Form) :
    (gap.mapPositions view).fill (form.mapPositions view) =
      (gap.fill form).mapPositions view := by
  cases gap <;> rfl

theorem Gap.close?_mapPositions (gap : Gap) :
    (gap.mapPositions view).close? =
      gap.close?.map (·.mapPositions view) := by
  cases gap <;> simp [mapPositions, close?, Form.mapPositions]

namespace Reader

theorem deliver_mapPositions (form : Form) (around : List Gap) :
    deliver (form.mapPositions view) (around.map (·.mapPositions view)) =
      (deliver form around).mapPositions view := by
  cases around with
  | nil => rfl
  | cons gap around =>
      simp only [List.map_cons, deliver, Gap.fill_mapPositions]
      cases gap.fill form <;> rfl

theorem afterHead_mapPositions
    (opening : Position) (head : Identifier) (around : List Gap) :
    afterHead (view opening) (head.mapPosition view)
        (around.map (·.mapPositions view)) =
      (afterHead opening head around).mapPositions view := by
  have sameText : (head.mapPosition view).text = head.text := rfl
  simp only [afterHead, sameText]
  rcases SpecialForm.ofWord? head.text with _ | special
  · rcases Operator.ofSymbol? head.text with _ | operator <;> rfl
  · cases special <;> rfl

theorem closeInnermost_mapPositions (token : Token) (around : List Gap) :
    closeInnermost (token.mapPosition view) (around.map (·.mapPositions view)) =
      movedResult (mapPositions view) view (closeInnermost token around) := by
  cases around with
  | nil => rfl
  | cons gap around =>
      simp only [List.map_cons, closeInnermost, Gap.close?_mapPositions]
      rcases gap.close? with _ | form
      · rfl
      · exact congrArg Except.ok (deliver_mapPositions view form around)

theorem literal_mapPosition (token : Token) :
    (token.mapPosition view).literal =
      movedResult id view token.literal := by
  simp only [Token.literal, Token.mapPosition]
  rcases token.lexeme.literal with cause | value <;> rfl

theorem stepForm_mapPositions (token : Token) (around : List Gap) :
    stepForm (token.mapPosition view) (around.map (·.mapPositions view)) =
      movedResult (mapPositions view) view (stepForm token around) := by
  have delivered := deliver_mapPositions view
  have sameKind : (token.mapPosition view).kind = token.kind := rfl
  have valued :
      (token.mapPosition view).literal.map (fun value =>
          deliver (.literal (token.mapPosition view) value)
            (around.map (·.mapPositions view))) =
        movedResult (mapPositions view) view
          (token.literal.map fun value =>
            deliver (.literal token value) around) := by
    rw [literal_mapPosition]
    rcases token.literal with error | value
    · rfl
    · exact congrArg Except.ok (delivered (.literal token value) around)
  simp only [stepForm, sameKind]
  cases token.kind with
  | openParen => rfl
  | closeParen => exact closeInnermost_mapPositions view token around
  | identifier =>
      exact congrArg Except.ok
        (delivered (.variable token.identifier) around)
  | nil | number | string | boolean => exact valued

/-- Taking a moved token is taking the token and moving what comes of it. -/
theorem step_mapPositions (reader : Reader) (token : Token) :
    (reader.mapPositions view).step (token.mapPosition view) =
      movedResult (mapPositions view) view (reader.step token) := by
  have sameKind : (token.mapPosition view).kind = token.kind := rfl
  cases reader with
  | atForm around => exact stepForm_mapPositions view token around
  | atFirstArgument name around =>
      exact stepForm_mapPositions view token
        (.argument name token.position [] :: around)
  | done result => rfl
  | atHead opening around =>
      simp only [mapPositions, step, sameKind]
      cases token.kind with
      | identifier =>
          exact congrArg Except.ok
            (afterHead_mapPositions view opening token.identifier around)
      | _ => rfl
  | atParameter opening parameters around =>
      simp only [mapPositions, step, sameKind]
      cases token.kind with
      | closeParen =>
          simp only [← List.map_reverse]
          rfl
      | _ => rfl
  | atParameterList opening around | atTarget around =>
      simp only [mapPositions, step, sameKind]
      cases token.kind <;> rfl
  | atClosing complete around =>
      simp only [mapPositions, step, sameKind]
      cases token.kind with
      | closeParen =>
          exact congrArg Except.ok (deliver_mapPositions view complete around)
      | _ => rfl

/-! ## All tokens -/

theorem run_mapPositions (reader : Reader) (tokens : List Token) :
    (reader.mapPositions view).run (tokens.map (·.mapPosition view)) =
      movedResult (mapPositions view) view (reader.run tokens) := by
  induction tokens generalizing reader with
  | nil => rfl
  | cons token tokens ih =>
      simp only [List.map_cons, run, step_mapPositions]
      rcases reader.step token with error | next
      · rfl
      · exact ih next

end Reader

/-- Reading moved tokens is reading the tokens and moving what was read. -/
theorem Form.ofTokens_mapPosition (tokens : List Token) :
    Form.ofTokens (tokens.map (·.mapPosition view)) =
      movedResult (mapPositions view) view (Form.ofTokens tokens) := by
  have ran := Reader.run_mapPositions view .start tokens
  have start : Reader.start.mapPositions view = .start := rfl
  rw [start] at ran
  have lastPlace :
      (tokens.map (·.mapPosition view)).getLast?.map (·.position) =
        (tokens.getLast?.map (·.position)).map view := by
    rw [List.getLast?_map, Option.map_map, Option.map_map]
    rfl
  simp only [Form.ofTokens, ran]
  rcases Reader.start.run tokens with error | reader
  · rfl
  · cases reader with
    | done result => rfl
    | _ =>
        exact congrArg (fun place => Except.error (Error.mk _ place)) lastPlace

end Moving

/--
A form that was read records places of tokens only: moving all other places
would not move the form.
-/
theorem Form.mem_positions_of_mem_places {tokens : List Token} {form : Form}
    (read : Form.ofTokens tokens = .ok form) {place : Position}
    (member : place ∈ form.places) :
    place ∈ tokens.map (·.position) := by
  apply Decidable.byContradiction
  intro absent
  let view : Position → Position := fun other =>
    if other = place then place.next '\n' else other
  have tokensStay : tokens.map (·.mapPosition view) = tokens := by
    refine (List.map_congr_left ?_).trans (List.map_id tokens)
    intro token isToken
    have elsewhere : token.position ≠ place := by
      rintro rfl
      exact absent (List.mem_map_of_mem isToken)
    simp [Token.mapPosition, view, elsewhere]
  have formStays : form.mapPositions view = form := by
    have moved := Form.ofTokens_mapPosition view tokens
    rw [tokensStay, read] at moved
    exact (Except.ok.inj moved).symm
  have placeStays : view place = id place := by
    have placesStay := form.places_mapPositions view
    rw [formStays, ← List.map_id form.places, List.map_map] at placesStay
    exact (List.map_inj_left.mp placesStay place member).symm
  have samePlace : place.next '\n' = place := by
    simpa [view] using placeStays
  exact Nat.succ_ne_self _ (congrArg Position.line samePlace)

/-! ## Tokens with the same lexemes -/

/-- Two readings that both fail for one cause or yield forms that differ in places only. -/
inductive ReadAlike : Except Error Form → Except Error Form → Prop where
  | read {form form' : Form} (same : form.unplaced = form'.unplaced) :
      ReadAlike (.ok form) (.ok form')
  | refused {error error' : Error} (sameCause : error.cause = error'.cause) :
      ReadAlike (.error error) (.error error')

/-- Where tokens stand does not matter for what is read from them. -/
theorem Form.ofTokens_alike
    {tokens tokens' : List Token}
    (same : tokens.map (·.lexeme) = tokens'.map (·.lexeme)) :
    ReadAlike (Form.ofTokens tokens) (Form.ofTokens tokens') := by
  have moved : ∀ tokens : List Token,
      tokens.map (·.mapPosition fun _ => .start) =
        (tokens.map (·.lexeme)).map (⟨·, .start⟩) := by
    intro tokens
    rw [List.map_map]
    rfl
  have results := congrArg Form.ofTokens
    ((moved tokens).trans ((congrArg _ same).trans (moved tokens').symm))
  rw [ofTokens_mapPosition, ofTokens_mapPosition] at results
  generalize Form.ofTokens tokens = result at results
  generalize Form.ofTokens tokens' = result' at results
  cases result with
  | ok form =>
      cases result' with
      | ok form' => exact .read (Except.ok.inj results)
      | error error' => cases results
  | error error =>
      cases result' with
      | ok form' => cases results
      | error error' =>
          have sameError := Except.error.inj results
          exact .refused (Error.mk.inj sameError).1

end ScopedLisp
