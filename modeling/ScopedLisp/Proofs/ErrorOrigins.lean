import ScopedLisp.Proofs.EvaluationTasks
import ScopedLisp.Proofs.ReaderPositions
import ScopedLisp.Proofs.Sessions

/-!
# Where errors come from

An error of running is reported at a token that was really read.  Forms record
places of tokens only, also the forms that closures carry from one source to
the next, and evaluation reports its errors at places that evaluated forms
record.  So the place of an error belongs to the source that runs or to one
that was read before it.

The task that raised the error also decides all of the error: whatever tasks
lie around it, each of them ends with that error unchanged.
-/

namespace ScopedLisp

/-! ## Forms and closures with given places -/

theorem Form.places_subset_of_part {form part : Form}
    (isPart : part ∈ form.parts) : part.places ⊆ form.places := by
  cases form with
  | sequence opening items =>
      simp only [places, placesOfAll_eq_flatMap]
      exact fun place inside =>
        List.mem_cons_of_mem _ (List.mem_flatMap.mpr ⟨part, isPart, inside⟩)
  | call name group arguments =>
      simp only [places, placesOfAll_eq_flatMap]
      exact fun place inside => List.mem_cons_of_mem _
        (List.mem_cons_of_mem _ (List.mem_flatMap.mpr ⟨part, isPart, inside⟩))
  | _ =>
      simp only [parts, List.mem_cons, List.not_mem_nil, or_false] at isPart
        <;> grind [places]

/-- Whether the body of a closure records given places only. -/
def Callable.PlacedIn (real : Position → Prop) : Callable → Prop
  | .native _ _ => True
  | .closure _ body _ => ∀ place ∈ body.places, real place

theorem Callable.PlacedIn.mono {real larger : Position → Prop}
    (included : ∀ place, real place → larger place) {callable : Callable}
    (placed : callable.PlacedIn real) : callable.PlacedIn larger := by
  cases callable with
  | native name native => trivial
  | closure parameters body scope =>
      exact fun place inside => included place (placed place inside)

/-- Whether all closures that a world stores record given places only. -/
def World.PlacedIn (real : Position → Prop) (world : World) : Prop :=
  ∀ scope name value, world.heap.local? scope name = some value →
    ∀ callable ∈ value.callables, callable.PlacedIn real

theorem World.PlacedIn.mono {real larger : Position → Prop}
    (included : ∀ place, real place → larger place) {world : World}
    (placed : world.PlacedIn real) : world.PlacedIn larger :=
  fun scope name value bound callable inside =>
    (placed scope name value bound callable inside).mono included

/-- Evaluation of forms that record given places only. -/
def placePolicy (real : Position → Prop) : Policy where
  world world := world.PlacedIn real
  active _ _ := True
  callable _ callable := callable.PlacedIn real
  form form := ∀ place ∈ form.places, real place
  place := real

theorem placePolicy_lawful (real : Position → Prop) :
    (placePolicy real).Lawful where
  change := by
    intro world world' placed change scope name value bound
    rcases change.stored bound with old | held
    · exact placed scope name value old
    · exact held
  active_change _ _ := trivial
  callable_change _ placed := placed
  parts placed isPart place inside :=
    placed place (Form.places_subset_of_part isPart inside)
  place placed := placed _ (Form.position_mem_places _)
  found placed _ found := by
    rcases Heap.value?_eq_some found with ⟨owner, -, bound⟩
    exact placed owner _ _ bound
  captured placed _ place inside :=
    placed place (List.mem_cons_of_mem _ (List.mem_append_right _ inside))
  body placed := placed
  fresh _ _ _ := trivial

/-! ## Sources that were read -/

/-- Whether a token of a source stands at a place. -/
def HasTokenAt (source : String) (place : Position) : Prop :=
  ∃ tokens, tokenize source = .ok tokens ∧
    place ∈ tokens.map (·.position)

/-- Whether a token of one of some sources stands at a place. -/
def ReadAt (sources : List String) (place : Position) : Prop :=
  ∃ source ∈ sources, HasTokenAt source place

theorem ReadAt.later {source : String} {sources : List String}
    {place : Position} (read : ReadAt sources place) :
    ReadAt (source :: sources) place := by
  rcases read with ⟨earlier, member, hasToken⟩
  exact ⟨earlier, List.mem_cons_of_mem _ member, hasToken⟩

theorem Form.hasTokenAt_of_ofSource {source : String} {form : Form}
    (read : Form.ofSource source = .ok form) {place : Position}
    (inside : place ∈ form.places) : HasTokenAt source place := by
  rcases lexed : tokenize source with error | tokens
  · simp only [ofSource, lexed, bind, Except.bind] at read
    cases read
  · simp only [ofSource, lexed, bind, Except.bind] at read
    exact ⟨tokens, lexed, mem_positions_of_mem_places read inside⟩

theorem ReadAt.here {source : String} {sources : List String} {form : Form}
    (read : Form.ofSource source = .ok form) {place : Position}
    (inside : place ∈ form.places) : ReadAt (source :: sources) place :=
  ⟨source, List.mem_cons_self, Form.hasTokenAt_of_ofSource read inside⟩

/--
The worlds that an embedding program gets to by making roots and children and
running sources in scopes, with the sources that it ran, the latest first.
-/
inductive ReachedBy : List String → World → Prop where
  | start : ReachedBy [] .empty
  | root {sources : List String} {world : World}
      (reached : ReachedBy sources world) (setup : RootSetup) :
      ReachedBy sources (world.createRoot setup)
  | child {sources : List String} {world : World}
      (reached : ReachedBy sources world) (parent : ScopeId) :
      ReachedBy sources (world.addChild parent)
  | ran {sources : List String} {world after : World} {depth : Nat}
      {scope : ScopeId} {source : String}
      (reached : ReachedBy sources world)
      (ends : (interpret Host.none depth scope source world).world? =
        some after) :
      ReachedBy (source :: sources) after

/-- Closures that a session leaves behind record places of its sources only. -/
theorem ReachedBy.placedIn {sources : List String} {world : World}
    (reached : ReachedBy sources world) : world.PlacedIn (ReadAt sources) := by
  induction reached with
  | start =>
      intro scope name value bound
      rw [Heap.local?_of_next_le (Nat.zero_le scope)] at bound
      cases bound
  | root reached setup ih =>
      intro scope name value bound
      rcases World.local?_createRoot_cases bound with old | ⟨primitive, rfl⟩
      · exact ih scope name value old
      · intro callable inside
        rw [List.mem_singleton.mp inside]
        trivial
  | child reached parent ih =>
      intro scope name value bound
      rw [World.addChild, Heap.local?_add] at bound
      exact ih scope name value bound
  | @ran sources world after depth scope source reached ends ih =>
      have allowed : (placePolicy (ReadAt (source :: sources))).world world :=
        ih.mono fun _ => ReadAt.later
      have lawful := placePolicy_lawful (ReadAt (source :: sources))
      have changes := lawful.interpret_changes allowed trivial
        (fun form read place inside => ReadAt.here read inside) ends
      exact lawful.world_changes allowed changes

/--
Every run that fails with a code of running, in any world that a session
reaches, reports the error at a token of its source or of an earlier source of
the session.  Some task that is nested in the run raised the error, with that
cause and at that place, and each task around that one ends with this error.
-/
theorem errors_are_located_in_sources {sources : List String}
    {world after : World} {depth : Nat} {scope : ScopeId} {source : String}
    {error : Error} (reached : ReachedBy sources world)
    (fails : interpret Host.none depth scope source world =
      .failed error after)
    (running : error.cause.code.letter? = some 'R') :
    ∃ cause position, error = .located cause position ∧
      ReadAt (source :: sources) position ∧
      ∃ form start left inner middle,
        Form.ofSource source = .ok form ∧
        start.heap = world.heap ∧ start.sinks = world.sinks ∧
        Nested depth (.evaluate form scope) start (left + 1) inner middle ∧
        (evaluator Host.none left).Faults inner middle cause position after ∧
        ∀ outerLeft outer before,
          Nested depth (.evaluate form scope) start outerLeft outer before →
          Nested outerLeft outer before (left + 1) inner middle →
            (evaluator Host.none outerLeft).perform outer before =
              .failed error after := by
  rcases interpret_cases Host.none scope source world with
    ⟨fault, entries, refused, result⟩ | ⟨form, entries, read, result⟩
  · rw [result depth] at fails
    cases fails
    have reading := Form.ofSource_syntaxError refused
    exact absurd reading (ErrorCode.letter?_eq_running_iff.mp running)
  · have lawful := placePolicy_lawful (ReadAt (source :: sources))
    have active : (placePolicy (ReadAt (source :: sources))).active world
      scope := trivial
    have follows := lawful.interpret_follows depth
      (reached.placedIn.mono fun _ => ReadAt.later) active read
      (fun place inside => ReadAt.here read inside)
    rw [fails] at follows
    have taskFails : (evaluator Host.none depth).perform (.evaluate form scope)
        (entries.foldl World.record world) = .failed error after :=
      (result depth).symm.trans fails
    rcases exists_fault taskFails with
      ⟨left, inner, middle, cause, position, rfl, nested, faults⟩
    refine ⟨cause, position, rfl, ?_, form, _, left, inner, middle, read,
      (world.records_frame entries).1, (world.records_frame entries).2, nested,
      faults, ?_⟩
    · cases follows with
      | failed changes runtime place => exact place
    · intro outerLeft outer before _ inside
      apply inside.failed
      rw [Evaluator.perform_succ]
      exact faults.failed

/-- A closure of an earlier source calls its argument, which is no function. -/
theorem errors_are_located_in_sources_apply :
    ∃ first : World,
      ReachedBy ["(set f (lambda (x) (x)))"] first ∧
      ∃ error after,
        interpret Host.none 7 0 "(apply f (list nil))" first =
          .failed error after ∧
        error.cause.code.letter? = some 'R' ∧
        ∃ position, error.position? = some position ∧
          ReadAt ["(apply f (list nil))", "(set f (lambda (x) (x)))"]
            position := by
  have ended : ∃ first,
      (interpret Host.none 3 0 "(set f (lambda (x) (x)))"
        (World.empty.createRoot ⟨true, .keeping⟩)).world? = some first ∧
      ∃ after, interpret Host.none 7 0 "(apply f (list nil))" first =
        .failed (.located (.typeMismatch "function" "nil") ⟨1, 21⟩) after := by
    refine ⟨?first, ?ends, ?after, ?fails⟩
    case ends =>
      cbv
      rfl
    case fails =>
      cbv
      rfl
  rcases ended with ⟨first, ends, after, fails⟩
  have reached := ReachedBy.ran (.root .start ⟨true, .keeping⟩) ends
  have running : (Cause.typeMismatch "function" "nil").code.letter? =
      some 'R' := by
    decide
  rcases errors_are_located_in_sources reached fails running with
    ⟨cause, position, isError, read, -⟩
  exact ⟨first, reached, _, after, fails, running, position,
    congrArg Error.position? isError, read⟩

end ScopedLisp
