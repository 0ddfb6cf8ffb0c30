import Mathlib
import ScopedLisp.Proofs.ReaderPositions
import ScopedLisp.Proofs.WorldComparison

/-!
# Layout does not matter

Where a program was written matters to nothing but the places of its errors
and of its log.  Two worlds are the same but for places if they have the same
scopes and sinks and their closures differ at most in where they were written.
From such worlds, forms that differ in places only evaluate alike, and so do
sources that are read into the same lexemes, whatever blanks and comments
stand between them.
-/

namespace ScopedLisp

/-! ## The same but for places -/

/-- Callables that differ at most in where a closure was written. -/
inductive Callable.SameButPlaces : Callable → Callable → Prop where
  | native (name : String) (native : Native) :
      SameButPlaces (.native name native) (.native name native)
  | closure {parameters parameters' : List Identifier} {body body' : Form}
      (sameParameters :
        parameters.map (·.text) = parameters'.map (·.text))
      (sameBody : body.unplaced = body'.unplaced) (scope : ScopeId) :
      SameButPlaces (.closure parameters body scope)
        (.closure parameters' body' scope)

/-- Values that differ at most in where their closures were written. -/
abbrev Value.SameButPlaces : Value → Value → Prop :=
  Value.Related Callable.SameButPlaces

/-- Errors with the same cause, hence with one code and one message. -/
def Error.SameButPlaces (error error' : Error) : Prop :=
  error.cause = error'.cause

/-- Worlds that differ at most in where stored closures were written, and in the log. -/
structure World.SameButPlaces (world world' : World) : Prop where
  scopeCount : world.nextScope = world'.nextScope
  links (scope : ScopeId) :
    world.heap.link? scope = world'.heap.link? scope
  bindings (scope : ScopeId) (name : String) :
    Option.Rel Value.SameButPlaces (world.heap.local? scope name)
      (world'.heap.local? scope name)
  sinks : world.sinks = world'.sinks

/-- Runs that end alike but for places, or both do not end. -/
abbrev Outcome.SameButPlaces : Outcome Value → Outcome Value → Prop :=
  Outcome.Related World.SameButPlaces Value.SameButPlaces
    Error.SameButPlaces

theorem Callable.SameButPlaces.refl (callable : Callable) :
    callable.SameButPlaces callable := by
  cases callable with
  | native name native => exact .native name native
  | closure parameters body scope => exact .closure rfl rfl scope

theorem World.SameButPlaces.refl (world : World) :
    world.SameButPlaces world where
  scopeCount := rfl
  links _ := rfl
  bindings _ _ := Value.optionRel_self fun _ _ =>
    Value.related_self fun callable _ => .refl callable
  sinks := rfl

/-! ## A comparison that sees no places -/

namespace Comparison

/-- Every scope is matched with itself, and all places look the same. -/
def ofPlaces : Comparison where
  view _ := .start
  scopes := Eq
  sinks _ := True
  oneToOne := by
    rintro scope _ other _ rfl rfl
    exact Iff.rfl

theorem mapPosition_start_eq_iff {names names' : List Identifier} :
    names.map (·.mapPosition ofPlaces.view) =
        names'.map (·.mapPosition ofPlaces.view) ↔
      names.map (·.text) = names'.map (·.text) := by
  have placed : ∀ names : List Identifier,
      names.map (·.mapPosition ofPlaces.view) =
        (names.map (·.text)).map (⟨·, .start⟩) := by
    intro names
    rw [List.map_map]
    rfl
  have injective :
      Function.Injective fun text => Identifier.mk text Position.start :=
    fun text text' same => (Identifier.mk.inj same).1
  rw [placed, placed, (List.map_injective_iff.mpr injective).eq_iff]

theorem callables_ofPlaces_iff {callable callable' : Callable} :
    ofPlaces.Callables callable callable' ↔
      callable.SameButPlaces callable' := by
  constructor
  · rintro (⟨name, native⟩ | ⟨sameParameters, sameBody, ⟨⟩⟩)
    · exact .native name native
    · exact .closure (mapPosition_start_eq_iff.mp sameParameters) sameBody _
  · rintro (⟨name, native⟩ | ⟨sameParameters, sameBody, scope⟩)
    · exact .native name native
    · exact .closure (mapPosition_start_eq_iff.mpr sameParameters) sameBody rfl

theorem callables_ofPlaces :
    ofPlaces.Callables = Callable.SameButPlaces :=
  funext₂ fun _ _ => propext callables_ofPlaces_iff

theorem links_ofPlaces_iff {scope : ScopeId} {link link' : Option Link} :
    ofPlaces.Links scope scope link link' ↔ link = link' := by
  constructor
  · rintro (⟨⟩ | ⟨-⟩ | ⟨⟨⟩, -⟩) <;> rfl
  · rintro rfl
    rcases link with _ | sink | parent
    · exact .none
    · exact .root trivial
    · exact .child rfl Iff.rfl

/-- Worlds that are the same but for places compare in every scope. -/
theorem worlds_ofPlaces_iff {world world' : World} :
    ofPlaces.Worlds world world' ↔ world.SameButPlaces world' := by
  constructor
  · intro worlds
    have sameCount : world.nextScope + 0 = world'.nextScope + 0 :=
      worlds.fresh 0
    refine ⟨sameCount, ?_, ?_, ?_⟩
    · intro scope
      exact links_ofPlaces_iff.mp (worlds.links rfl)
    · intro scope name
      rw [Value.SameButPlaces, ← callables_ofPlaces]
      exact worlds.locals name rfl
    · exact Array.ext_getElem? fun sink => worlds.sinks trivial
  · intro same
    constructor
    case fresh =>
      intro index
      show world.nextScope + index = world'.nextScope + index
      rw [same.scopeCount]
    case made =>
      rintro scope _ rfl
      rw [same.scopeCount]
    case links =>
      rintro scope _ rfl
      exact links_ofPlaces_iff.mpr (same.links scope)
    case locals =>
      rintro scope _ name rfl
      rw [callables_ofPlaces]
      exact same.bindings scope name
    case sinks =>
      intro sink _
      rw [same.sinks]

end Comparison

/-! ## Evaluation -/

/-- Forms that differ in places only evaluate alike. -/
theorem evaluate_sameButPlaces
    {world world' : World} (same : world.SameButPlaces world')
    {form form' : Form} (sameForm : form.unplaced = form'.unplaced)
    (scope : ScopeId) (depth : Nat) :
    Outcome.SameButPlaces (evaluate Host.none depth form scope world)
      (evaluate Host.none depth form' scope world') := by
  have ends := Comparison.evaluate_ends
    (Comparison.worlds_ofPlaces_iff.mpr same) sameForm
    (rfl : Comparison.ofPlaces.scopes scope scope) depth
  generalize evaluate Host.none depth form scope world = outcome at ends ⊢
  generalize evaluate Host.none depth form' scope world' = outcome' at ends ⊢
  cases ends with
  | done worlds related =>
      rw [Comparison.callables_ofPlaces] at related
      exact .done (Comparison.worlds_ofPlaces_iff.mp worlds) related
  | failed worlds sameCause samePlace =>
      exact .failed (Comparison.worlds_ofPlaces_iff.mp worlds) sameCause
  | exhausted => exact .exhausted

theorem World.SameButPlaces.records
    {world world' : World} (same : world.SameButPlaces world')
    (entries entries' : List LogRecord) :
    World.SameButPlaces (entries.foldl World.record world)
      (entries'.foldl World.record world') :=
  Comparison.worlds_ofPlaces_iff.mp
    ((Comparison.worlds_ofPlaces_iff.mpr same).records entries entries')

/-- Sources that are read alike are run alike. -/
theorem interpret_sameButPlaces
    {world world' : World} (same : world.SameButPlaces world')
    {source source' : String}
    (readAlike : ReadAlike (Form.ofSource source) (Form.ofSource source'))
    (scope : ScopeId) (depth : Nat) :
    Outcome.SameButPlaces (interpret Host.none depth scope source world)
      (interpret Host.none depth scope source' world') := by
  rcases interpret_cases Host.none scope source world with
    ⟨error, entries, refused, result⟩ | ⟨form, entries, read, result⟩
  · rcases interpret_cases Host.none scope source' world' with
      ⟨error', entries', refused', result'⟩ | ⟨form', entries', read', -⟩
    · rw [refused, refused'] at readAlike
      cases readAlike with
      | refused sameCause =>
          rw [result depth, result' depth]
          exact .failed (same.records entries entries') sameCause
    · rw [refused, read'] at readAlike
      cases readAlike
  · rcases interpret_cases Host.none scope source' world' with
      ⟨error', entries', refused', -⟩ | ⟨form', entries', read', result'⟩
    · rw [read, refused'] at readAlike
      cases readAlike
    · rw [read, read'] at readAlike
      cases readAlike with
      | read sameForm =>
          rw [result depth, result' depth]
          exact evaluate_sameButPlaces (same.records entries entries')
            sameForm scope depth

/-- What the tokens of a source are read into is what the source is read into. -/
theorem Form.ofSource_of_tokenize
    {source : String} {tokens : List Token}
    (lexed : tokenize source = .ok tokens) :
    Form.ofSource source = Form.ofTokens tokens := by
  rw [ofSource, lexed]
  rfl

/--
Two sources with the same lexemes, run in one scope of worlds that are the
same but for places, behave alike to every depth.  Both end or neither does;
they return values that are the same but for places, or fail with one code and
one message; all sinks have received the same text, and the worlds at the end
are again the same but for places.
-/
theorem layout_does_not_matter
    {source source' : String} {tokens tokens' : List Token}
    (lexed : tokenize source = .ok tokens)
    (lexed' : tokenize source' = .ok tokens')
    (sameLexemes : tokens.map (·.lexeme) = tokens'.map (·.lexeme))
    {world world' : World} (same : world.SameButPlaces world')
    (scope : ScopeId) (depth : Nat) :
    Outcome.Related World.SameButPlaces Value.SameButPlaces
      (fun error error' => error.cause.code = error'.cause.code ∧
        error.cause.message = error'.cause.message)
      (interpret Host.none depth scope source world)
      (interpret Host.none depth scope source' world') := by
  have readAlike :
      ReadAlike (Form.ofSource source) (Form.ofSource source') := by
    rw [Form.ofSource_of_tokenize lexed, Form.ofSource_of_tokenize lexed']
    exact Form.ofTokens_alike sameLexemes
  apply (interpret_sameButPlaces same readAlike scope depth).imp
  · exact fun _ _ worlds => worlds
  · exact fun _ _ values => values
  · intro error error' sameCause
    exact ⟨congrArg Cause.code sameCause, congrArg Cause.message sameCause⟩

/-- A call on one line and on two, of closures that were written on different lines. -/
theorem layout_does_not_matter_call :
    let world (line : Nat) : World :=
      (World.empty.addRoot .keeping).define 0 "f"
        (.callable (.closure [⟨"x", ⟨line, 17⟩⟩]
          (.printLine ⟨line, 20⟩ (.variable ⟨"x", ⟨line, 32⟩⟩)) 0))
    let tokens : List Token :=
      [⟨⟨.openParen, "("⟩, ⟨1, 1⟩⟩, ⟨⟨.identifier, "f"⟩, ⟨1, 2⟩⟩,
        ⟨⟨.number, "1"⟩, ⟨1, 4⟩⟩, ⟨⟨.closeParen, ")"⟩, ⟨1, 5⟩⟩]
    let tokens' : List Token :=
      [⟨⟨.openParen, "("⟩, ⟨1, 1⟩⟩, ⟨⟨.identifier, "f"⟩, ⟨1, 2⟩⟩,
        ⟨⟨.number, "1"⟩, ⟨2, 1⟩⟩, ⟨⟨.closeParen, ")"⟩, ⟨2, 2⟩⟩]
    tokenize "(f 1)" = .ok tokens ∧ tokenize "(f ; one\n1)" = .ok tokens' ∧
      tokens.map (·.lexeme) = tokens'.map (·.lexeme) ∧
      World.SameButPlaces (world 1) (world 2) ∧
      Outcome.Related World.SameButPlaces Value.SameButPlaces
        (fun error error' => error.cause.code = error'.cause.code ∧
          error.cause.message = error'.cause.message)
        (interpret Host.none 4 0 "(f 1)" (world 1))
        (interpret Host.none 4 0 "(f ; one\n1)" (world 2)) := by
  intro world tokens tokens'
  have lexed : tokenize "(f 1)" = .ok tokens := by cbv
  have lexed' : tokenize "(f ; one\n1)" = .ok tokens' := by cbv
  have sameLexemes : tokens.map (·.lexeme) = tokens'.map (·.lexeme) := rfl
  have same : World.SameButPlaces (world 1) (world 2) := by
    have roots := Comparison.worlds_ofPlaces_iff.mpr
      (World.SameButPlaces.refl (World.empty.addRoot .keeping))
    exact Comparison.worlds_ofPlaces_iff.mp
      (roots.define rfl "f" (.callable (.closure rfl rfl rfl)))
  exact ⟨lexed, lexed', sameLexemes, same,
    layout_does_not_matter lexed lexed' sameLexemes same 0 4⟩

end ScopedLisp
