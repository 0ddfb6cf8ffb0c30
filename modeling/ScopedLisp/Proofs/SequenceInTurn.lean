import ScopedLisp.Proofs.FormExactness
import ScopedLisp.Proofs.InputLines
import ScopedLisp.Proofs.JoinedSources
import ScopedLisp.Proofs.LayoutIndependence

/-!
# Forms in sequence and forms in turn

Sources that hold a form each can be written below each other between `(begin`
and a closing parenthesis.  The source made in this way holds the sequence of
the forms (`Form.ofSource_sequenceSource`), and running it is running the
sources in turn, one after the other in the same scope, up to the first that
fails.
-/

namespace ScopedLisp

/-! ## Reading a sequence of sources -/

/-- The source of a `begin` form whose items have lines of their own. -/
def sequenceSource (sources : List String) : String :=
  "(begin\n" ++ joinLines sources ++ ")"

/-- Sources that hold these forms, one each. -/
abbrev Form.AllOfSource (sources : List String) (forms : List Form) : Prop :=
  List.Forall₂ (fun source form => Form.ofSource source = .ok form)
    sources forms

theorem Form.ofSource_eq_ok_iff {source : String} {form : Form} :
    Form.ofSource source = .ok form ↔
      ∃ tokens, tokenize source = .ok tokens ∧
        Form.ofTokens tokens = .ok form := by
  rw [ofSource]
  cases tokenize source <;> simp [bind, Except.bind]

theorem Form.exists_allOfSource {sources : List String}
    (readable : ∀ source ∈ sources,
      ∃ form, Form.ofSource source = .ok form) :
    ∃ forms, Form.AllOfSource sources forms := by
  induction sources with
  | nil => exact ⟨[], .nil⟩
  | cons source sources ih =>
      rcases List.forall_mem_cons.mp readable with ⟨⟨form, read⟩, readable⟩
      rcases ih readable with ⟨forms, readAll⟩
      exact ⟨form :: forms, .cons read readAll⟩

/-- What was read can be read again from wherever it is written. -/
theorem Form.AllOfSource.readable {sources : List String} {forms : List Form}
    (read : Form.AllOfSource sources forms) :
    ∀ form ∈ forms, form.Readable := by
  induction read with
  | nil => simp
  | cons readFirst readRest ih =>
      rcases ofSource_eq_ok_iff.mp readFirst with ⟨tokens, -, parsed⟩
      exact List.forall_mem_cons.mpr ⟨(ofTokens_wrote parsed).2.readable, ih⟩

theorem spellings_congr {tokens tokens' : List Token}
    (same : tokens.map (·.lexeme) = tokens'.map (·.lexeme)) :
    spellings tokens = spellings tokens' := by
  have spelled := congrArg (List.map Lexeme.spelled) same
  rwa [List.map_map, List.map_map] at spelled

/-- The items of a sequence, up to the parenthesis that closes it, as they are read. -/
theorem exists_lexed_items {sources : List String} {forms : List Form}
    (read : Form.AllOfSource sources forms) (position : Position) :
    ∃ inner closing, closing.kind = .closeParen ∧
      forms.flatMap Form.lexemes = spellings inner ∧
        Lexed position 1
          ((joinLines sources).toList ++ [')']) (inner ++ [closing]) := by
  induction read generalizing position with
  | nil =>
      refine ⟨[], ⟨.closing, position⟩, rfl, rfl, ?_⟩
      exact .token .empty .closing rfl (.done .empty)
  | @cons source form sources forms readFirst readRest ih =>
      rcases Form.ofSource_eq_ok_iff.mp readFirst with
        ⟨tokens, lexed, parsed⟩
      rcases (lexed_of_tokenizeFrom lexed).moved position with
        ⟨moved, lexedMoved, sameLexemes⟩
      rcases ih (position.advance (source.toList ++ ['\n'])) with
        ⟨inner, closing, closes, written, lexedRest⟩
      refine ⟨moved ++ inner, closing, closes, ?_, ?_⟩
      · have spelled := spellings_congr sameLexemes
        rw [List.flatMap_cons, (Form.ofTokens_wrote parsed).1, written,
          ← spelled, spellings_append]
      · have joined := lexedMoved.joinLine lexedRest
        rw [Nat.zero_add] at joined
        simpa using joined

/-- A sequence of sources is read as the sequence of what the sources are read as. -/
theorem Form.ofSource_sequenceSource
    {sources : List String} {forms : List Form}
    (read : Form.AllOfSource sources forms) :
    ∃ opening items,
      Form.ofSource (sequenceSource sources) = .ok (.sequence opening items) ∧
        items.map unplaced = forms.map unplaced := by
  rcases exists_lexed_items read ⟨2, 1⟩ with
    ⟨inner, closing, closes, written, lexedItems⟩
  generalize items : (joinLines sources).toList ++ [')'] = text at lexedItems
  have lexedWord : Lexed ⟨1, 2⟩ 1 ("begin\n".toList ++ text)
      (⟨.name "begin", ⟨1, 2⟩⟩ :: (inner ++ [closing])) := by
    have cuts : CutsOff 'b' ("egin\n".toList ++ text)
        ⟨.identifier, "begin".toList, '\n' :: text⟩ := .word rfl rfl
    have newline : IsGap false ['\n'] := .blank (by simp) .empty
    exact .token .empty cuts rfl (.afterGap newline lexedItems)
  have lexed : Lexed .start 0 (sequenceSource sources).toList
      (⟨.opening, .start⟩ :: ⟨.name "begin", ⟨1, 2⟩⟩ :: (inner ++ [closing])) := by
    have token : Lexed .start 0 ('(' :: ("begin\n".toList ++ text))
        (⟨.opening, .start⟩ :: ⟨.name "begin", ⟨1, 2⟩⟩ ::
          (inner ++ [closing])) := .token .empty .opening rfl lexedWord
    rw [← items] at token
    simpa [sequenceSource] using token
  rcases (allReadFrom read.readable written).reading with ⟨parsed, same, readsAll⟩
  have opens : (Token.mk .opening .start).kind = .openParen := rfl
  have word : (Token.mk (.name "begin") ⟨1, 2⟩).IsWord "begin" := ⟨rfl, rfl⟩
  have reads := Reader.Reads.sequence opens closes word readsAll
  exact ⟨.start, parsed,
    ofSource_eq_ok_iff.mpr ⟨_, lexed.tokenizeFrom_eq, reads.ofTokens⟩, same⟩

/-! ## Running a sequence of sources -/

/-- Runs sources in one scope, one after the other, up to the first that fails. -/
def interpretEach
    (host : Host) (depth : Nat) (scope : ScopeId) :
    List String → Run (List Value)
  | [] => pure []
  | source :: sources => do
    let value ← interpret host depth scope source
    let values ← interpretEach host depth scope sources
    pure (value :: values)

/-- Running on from related worlds ends in related worlds. -/
theorem Outcome.Related.bind
    {α α' β β' : Type} {worlds : World → World → Prop}
    {good : α → α' → Prop} {better : β → β' → Prop}
    {errors : Error → Error → Prop} {world world' : World}
    {first : Run α} {first' : Run α'}
    {second : α → Run β} {second' : α' → Run β'}
    (related : Outcome.Related worlds good errors (first world)
      (first' world'))
    (goesOn : ∀ value value' next next', worlds next next' →
      good value value' →
        Outcome.Related worlds better errors (second value next)
          (second' value' next')) :
    Outcome.Related worlds better errors ((first >>= second) world)
      ((first' >>= second') world') := by
  show Outcome.Related worlds better errors (Run.bind first second world)
    (Run.bind first' second' world')
  simp only [Run.bind]
  generalize first world = outcome at related
  generalize first' world' = outcome' at related
  cases related with
  | done sameWorlds sameValues => exact goesOn _ _ _ _ sameWorlds sameValues
  | failed sameWorlds sameErrors => exact .failed sameWorlds sameErrors
  | exhausted => exact .exhausted

/-- The items of a sequence are evaluated as the sources that hold them are run. -/
theorem evaluateAll_interpretEach
    {sources : List String} {forms items : List Form}
    (read : Form.AllOfSource sources forms)
    (sameForms : items.map Form.unplaced = forms.map Form.unplaced)
    (scope : ScopeId) (depth : Nat)
    {world world' : World} (same : world.SameButPlaces world') :
    Outcome.Related World.SameButPlaces (List.Forall₂ Value.SameButPlaces)
      Error.SameButPlaces
      ((evaluator Host.none depth).evaluateAll scope items world)
      (interpretEach Host.none depth scope sources world') := by
  induction read generalizing items world world' with
  | nil =>
      obtain rfl : items = [] := by simpa using sameForms
      exact .done same .nil
  | @cons source form sources forms readFirst readRest ih =>
      rcases items with _ | ⟨item, items⟩
      · cases sameForms
      · rcases List.cons.inj sameForms with ⟨sameForm, sameForms⟩
        have first : Outcome.SameButPlaces
            (evaluate Host.none depth item scope world)
            (interpret Host.none depth scope source world') := by
          rcases interpret_cases Host.none scope source world' with
            ⟨error, entries, refused, -⟩ | ⟨form', entries, read, result⟩
          · rw [readFirst] at refused
            cases refused
          · rw [readFirst] at read
            cases read
            rw [result depth]
            exact evaluate_sameButPlaces (same.records [] entries) sameForm
              scope depth
        apply first.bind
        intro value value' next next' sameNext sameValue
        apply (ih sameForms sameNext).bind
        intro values values' last last' sameLast sameValues
        exact .done sameLast (.cons sameValue sameValues)

theorem evaluate_sequence
    (host : Host) (depth : Nat) (opening : Position) (items : List Form)
    (scope : ScopeId) :
    evaluate host (depth + 1) (.sequence opening items) scope =
      ((evaluator host depth).evaluateAll scope items >>= fun values =>
        pure (Value.list values)) :=
  rfl

/--
Running a sequence of sources is running the sources in turn.  Either way the
same sources take effect: all of them, or those up to the first that fails, or
neither run ends within its depth.  Then the sinks have received the same text
and the worlds are the same but for places.  If no source fails, the value of
the sequence is the list of the values of the sources; otherwise the sequence
fails like the first source that fails.
-/
theorem sequence_runs_in_turn
    {sources : List String}
    (readable : ∀ source ∈ sources,
      ∃ form, Form.ofSource source = .ok form)
    (scope : ScopeId) (world : World) (depth : Nat) :
    Outcome.Related World.SameButPlaces
      (fun value values => ∃ items, value = .list items ∧
        List.Forall₂ Value.SameButPlaces items values)
      (fun error error' => error.cause.code = error'.cause.code ∧
        error.cause.message = error'.cause.message)
      (interpret Host.none (depth + 1) scope (sequenceSource sources) world)
      (interpretEach Host.none depth scope sources world) := by
  rcases Form.exists_allOfSource readable with ⟨forms, read⟩
  rcases Form.ofSource_sequenceSource read with
    ⟨opening, items, readSequence, sameForms⟩
  rcases interpret_cases Host.none scope (sequenceSource sources) world with
    ⟨error, entries, refused, -⟩ | ⟨form, entries, readForm, result⟩
  · rw [readSequence] at refused
    cases refused
  · rw [readSequence] at readForm
    cases readForm
    have same : World.SameButPlaces (entries.foldl World.record world) world :=
      (World.SameButPlaces.refl world).records entries []
    have inTurn := evaluateAll_interpretEach read sameForms scope depth same
    rw [result (depth + 1), evaluate_sequence]
    show Outcome.Related _ _ _ (Run.bind _ _ _) _
    simp only [Run.bind]
    generalize (evaluator Host.none depth).evaluateAll scope items
      (entries.foldl World.record world) = outcome at inTurn
    generalize interpretEach Host.none depth scope sources world = outcome'
      at inTurn
    cases inTurn with
    | done sameWorlds sameValues =>
        exact .done sameWorlds ⟨_, rfl, sameValues⟩
    | failed sameWorlds sameCause =>
        exact .failed sameWorlds
          ⟨congrArg Cause.code sameCause, congrArg Cause.message sameCause⟩
    | exhausted => exact .exhausted

/-- The first source ends within a comment; the second fails, so the third does not run. -/
theorem sequence_runs_in_turn_until_failure :
    let sources := ["(set x #t) ; on", "y", "(print-line x)"]
    let world := World.empty.addRoot .keeping
    (∀ source ∈ sources, ∃ form, Form.ofSource source = .ok form) ∧
      Outcome.Related World.SameButPlaces
        (fun value values => ∃ items, value = .list items ∧
          List.Forall₂ Value.SameButPlaces items values)
        (fun error error' => error.cause.code = error'.cause.code ∧
          error.cause.message = error'.cause.message)
        (interpret Host.none 4 0 (sequenceSource sources) world)
        (interpretEach Host.none 3 0 sources world) := by
  intro sources world
  have readable : ∀ source ∈ sources,
      ∃ form, Form.ofSource source = .ok form := by
    have assigned : Form.ofSource "(set x #t) ; on" =
        .ok (.assignment ⟨"x", ⟨1, 6⟩⟩
          (.literal ⟨⟨.boolean, "#t"⟩, ⟨1, 8⟩⟩ (.boolean true))) := by
      cbv
    have named : Form.ofSource "y" = .ok (.variable ⟨"y", ⟨1, 1⟩⟩) := by
      cbv
    have printed : Form.ofSource "(print-line x)" =
        .ok (.printLine ⟨1, 1⟩ (.variable ⟨"x", ⟨1, 13⟩⟩)) := by
      cbv
    simp [sources, assigned, named, printed]
  exact ⟨readable, sequence_runs_in_turn readable 0 world 3⟩

end ScopedLisp
