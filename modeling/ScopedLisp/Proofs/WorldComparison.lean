import ScopedLisp.Proofs.EvaluationPolicy
import ScopedLisp.Proofs.FormPositions

/-!
# Worlds that differ in numbers and places

Scopes are known by numbers and forms remember where they were written;
neither should matter.  A `Comparison` matches scopes of one world with scopes
of another, one to one, and says how much of a position is seen.  Worlds are
compared on matched scopes only: these hang on matched scopes or print to one
shared sink, and they bind the same names to values that agree up to matched
scopes and seen places.  The scopes that are still to be made are matched in
the order in which they will be made.

Equal looking forms in matched scopes evaluate alike in compared worlds.
-/

namespace ScopedLisp

/-- Which scopes of two worlds are matched, which sinks they share and how positions look. -/
structure Comparison where
  view : Position → Position
  scopes : ScopeId → ScopeId → Prop
  sinks : SinkId → Prop
  oneToOne {scope scope' other other' : ScopeId} :
    scopes scope scope' → scopes other other' →
      (scope = other ↔ scope' = other')

namespace Comparison

section Relations

variable (comparison : Comparison)

/-- Natives are themselves; closures look equal and were made in matched scopes. -/
inductive Callables : Callable → Callable → Prop where
  | native (name : String) (native : Native) :
      Callables (.native name native) (.native name native)
  | closure {parameters parameters' : List Identifier} {body body' : Form}
      {scope scope' : ScopeId}
      (sameParameters :
        parameters.map (·.mapPosition comparison.view) =
          parameters'.map (·.mapPosition comparison.view))
      (sameBody : body.mapPositions comparison.view =
        body'.mapPositions comparison.view)
      (matched : comparison.scopes scope scope') :
      Callables (.closure parameters body scope)
        (.closure parameters' body' scope')

/-- What matched scopes hang on. -/
inductive Links (scope scope' : ScopeId) :
    Option Link → Option Link → Prop where
  | none : Links scope scope' none none
  | root {sink : SinkId} (shared : comparison.sinks sink) :
      Links scope scope' (some (.root sink)) (some (.root sink))
  | child {parent parent' : ScopeId}
      (matched : comparison.scopes parent parent')
      (order : parent < scope ↔ parent' < scope') :
      Links scope scope' (some (.child parent)) (some (.child parent'))

/-- Worlds that agree on matched scopes. -/
structure Worlds (world world' : World) : Prop where
  fresh (index : Nat) :
    comparison.scopes (world.nextScope + index) (world'.nextScope + index)
  made {scope scope' : ScopeId} : comparison.scopes scope scope' →
    (scope < world.nextScope ↔ scope' < world'.nextScope)
  links {scope scope' : ScopeId} : comparison.scopes scope scope' →
    comparison.Links scope scope' (world.heap.link? scope)
      (world'.heap.link? scope')
  locals {scope scope' : ScopeId} (name : String) :
    comparison.scopes scope scope' →
      Option.Rel (Value.Related comparison.Callables)
        (world.heap.local? scope name) (world'.heap.local? scope' name)
  sinks {sink : SinkId} : comparison.sinks sink →
    world.sinks[sink]? = world'.sinks[sink]?

/-- Evaluations of equal looking forms in matched scopes. -/
def simulation : Simulation Unit where
  later _ _ := True
  worlds _ := comparison.Worlds
  forms _ form scope form' scope' :=
    form.mapPositions comparison.view = form'.mapPositions comparison.view ∧
      comparison.scopes scope scope'
  names _ name scope name' scope' :=
    name.mapPosition comparison.view = name'.mapPosition comparison.view ∧
      comparison.scopes scope scope'
  callables _ := comparison.Callables
  sites site site' := site.name = site'.name ∧
    comparison.view site.position = comparison.view site'.position
  causes := Eq
  places position position' :=
    comparison.view position = comparison.view position'
  lockstep := True

end Relations

variable {comparison : Comparison} {world world' : World}

/-! ## Lookup -/

namespace Worlds

theorem outer?
    (worlds : comparison.Worlds world world') {scope scope' : ScopeId}
    (matched : comparison.scopes scope scope') :
    Option.Rel comparison.scopes (world.heap.outer? scope)
      (world'.heap.outer? scope') := by
  have links := worlds.links matched
  unfold Heap.outer? Heap.parent?
  generalize world.heap.link? scope = link at links
  generalize world'.heap.link? scope' = link' at links
  cases links with
  | none => exact .none
  | root shared => exact .none
  | child matchedParents order =>
      simp only [Option.bind_some, Link.parent?, Option.filter_some,
        decide_eq_true_eq, order]
      split
      · exact .some matchedParents
      · exact .none

theorem value?
    (worlds : comparison.Worlds world world') {scope scope' : ScopeId}
    (matched : comparison.scopes scope scope') (name : String) :
    Option.Rel (Value.Related comparison.Callables)
      (world.heap.value? scope name) (world'.heap.value? scope' name) := by
  induction scope using world.heap.outwardInduction generalizing scope' with
  | step scope ih =>
      rw [Heap.value?_eq, Heap.value?_eq]
      have locals := worlds.locals name matched
      have outer := worlds.outer? matched
      generalize world.heap.local? scope name = bound at locals
      generalize world'.heap.local? scope' name = bound' at locals
      cases locals with
      | some related => exact .some related
      | none =>
          generalize goesOn : world.heap.outer? scope = next at outer
          generalize world'.heap.outer? scope' = next' at outer
          cases outer with
          | some matchedOuter => exact ih _ goesOn matchedOuter
          | none => exact .none

/-- Matched scopes find the owner of a name in matched scopes. -/
theorem owner?
    (worlds : comparison.Worlds world world') {scope scope' : ScopeId}
    (matched : comparison.scopes scope scope') (name : String) :
    Option.Rel comparison.scopes (world.heap.owner? scope name)
      (world'.heap.owner? scope' name) := by
  induction scope using world.heap.outwardInduction generalizing scope' with
  | step scope ih =>
      rw [Heap.owner?_eq, Heap.owner?_eq]
      have locals := worlds.locals name matched
      have outer := worlds.outer? matched
      generalize world.heap.local? scope name = bound at locals
      generalize world'.heap.local? scope' name = bound' at locals
      cases locals with
      | some related => exact .some matched
      | none =>
          generalize goesOn : world.heap.outer? scope = next at outer
          generalize world'.heap.outer? scope' = next' at outer
          cases outer with
          | some matchedOuter => exact ih _ goesOn matchedOuter
          | none => exact .none

/-- Matched scopes print to one shared sink or to none. -/
theorem sink?
    (worlds : comparison.Worlds world world') {scope scope' : ScopeId}
    (matched : comparison.scopes scope scope') :
    world.heap.sink? scope = world'.heap.sink? scope' ∧
      ∀ sink, world.heap.sink? scope = some sink →
        comparison.sinks sink := by
  induction scope using world.heap.outwardInduction generalizing scope' with
  | step scope ih =>
      rw [Heap.sink?_eq, Heap.sink?_eq]
      have links := worlds.links matched
      have outer := worlds.outer? matched
      generalize goesOn : world.heap.outer? scope = next at outer
      generalize world'.heap.outer? scope' = next' at outer
      generalize world.heap.link? scope = link at links
      generalize world'.heap.link? scope' = link' at links
      cases links with
      | root shared =>
          simpa [Link.sink?] using shared
      | none | child =>
          cases outer with
          | some matchedOuter => exact ih _ goesOn matchedOuter
          | none => simp [Link.sink?]

/-! ## Changes -/

theorem define
    (worlds : comparison.Worlds world world') {scope scope' : ScopeId}
    (matched : comparison.scopes scope scope') (name : String)
    {value value' : Value}
    (related : Value.Related comparison.Callables value value') :
    comparison.Worlds (world.define scope name value)
      (world'.define scope' name value') where
  fresh index := by
    simpa [World.nextScope, World.define] using worlds.fresh index
  made other := by
    simpa [World.nextScope, World.define] using worlds.made other
  links other := by
    simpa [World.define] using worlds.links other
  locals {other other'} key matchedOther := by
    have locals := worlds.locals key matchedOther
    have made := worlds.made matched
    simp only [World.define]
    by_cases exists' : scope < world.nextScope
    · rw [Heap.local?_define name value exists',
        Heap.local?_define name value' (made.mp exists')]
      simp only [comparison.oneToOne matched matchedOther]
      split
      · exact .some related
      · exact locals
    · rw [Heap.define_of_next_le (Nat.le_of_not_lt exists'),
        Heap.define_of_next_le (Nat.le_of_not_lt (exists' ∘ made.mpr))]
      exact locals
  sinks shared := worlds.sinks shared

theorem assign
    (worlds : comparison.Worlds world world') {scope scope' : ScopeId}
    (matched : comparison.scopes scope scope') (name : String)
    {value value' : Value}
    (related : Value.Related comparison.Callables value value') :
    comparison.Worlds (world.assign scope name value)
      (world'.assign scope' name value') := by
  have matchedOwner : comparison.scopes
      ((world.heap.owner? scope name).getD scope)
      ((world'.heap.owner? scope' name).getD scope') := by
    have owner := worlds.owner? matched name
    generalize world.heap.owner? scope name = found at owner
    generalize world'.heap.owner? scope' name = found' at owner
    cases owner with
    | some matchedOwner => exact matchedOwner
    | none => exact matched
  exact worlds.define matchedOwner name related

theorem afterLine
    (worlds : comparison.Worlds world world') {scope scope' : ScopeId}
    (matched : comparison.scopes scope scope') (line : String) :
    comparison.Worlds (world.afterLine scope line)
      (world'.afterLine scope' line) where
  fresh index := by simpa using worlds.fresh index
  made other := by simpa using worlds.made other
  links other := by simpa using worlds.links other
  locals name other := by simpa using worlds.locals name other
  sinks {sink} shared := by
    have sameSink := (worlds.sink? matched).1
    simp only [World.afterLine, ← sameSink]
    split
    · simp only [World.updateSink, Array.getElem?_modify,
        worlds.sinks shared]
    · exact worlds.sinks shared

theorem acceptance
    (worlds : comparison.Worlds world world') {scope scope' : ScopeId}
    (matched : comparison.scopes scope scope') (line : String) :
    world.acceptance scope line = world'.acceptance scope' line := by
  rcases worlds.sink? matched with ⟨sameSink, shared⟩
  have sameSinks : world.sinkOf? scope = world'.sinkOf? scope' := by
    simp only [World.sinkOf?, ← sameSink]
    rcases found : world.heap.sink? scope with _ | sink
    · rfl
    · exact worlds.sinks (shared sink found)
  rw [World.acceptance, World.acceptance, sameSinks]

theorem record
    (worlds : comparison.Worlds world world') (entry entry' : LogRecord) :
    comparison.Worlds (world.record entry) (world'.record entry') :=
  ⟨worlds.fresh, worlds.made, worlds.links, worlds.locals, worlds.sinks⟩

theorem addChild
    (worlds : comparison.Worlds world world') {scope scope' : ScopeId}
    (matched : comparison.scopes scope scope') :
    comparison.Worlds (world.addChild scope) (world'.addChild scope') where
  fresh index := by
    have next := worlds.fresh (index + 1)
    simp only [World.nextScope, World.addChild, Heap.next_add] at next ⊢
    rwa [Nat.add_assoc, Nat.add_assoc, Nat.add_comm 1 index]
  made {other other'} matchedOther := by
    have same := comparison.oneToOne matchedOther (worlds.fresh 0)
    have made := worlds.made matchedOther
    simp only [World.nextScope, World.addChild, Heap.next_add] at made ⊢
    rw [Nat.lt_succ_iff_lt_or_eq, Nat.lt_succ_iff_lt_or_eq, made]
    exact or_congr_right same
  links {other other'} matchedOther := by
    have same := comparison.oneToOne matchedOther (worlds.fresh 0)
    have links := worlds.links matchedOther
    simp only [World.addChild, Heap.link?_add]
    by_cases isFresh : other = world.heap.next
    · have isFresh' : other' = world'.heap.next := same.mp isFresh
      rw [if_pos isFresh, if_pos isFresh', isFresh, isFresh']
      exact .child matched (worlds.made matched)
    · have isOld : ¬ other' = world'.heap.next := fun isFresh' =>
        isFresh (same.mpr isFresh')
      rw [if_neg isFresh, if_neg isOld]
      exact links
  locals name other := by
    simpa [World.addChild] using worlds.locals name other
  sinks shared := worlds.sinks shared

theorem defineAll
    (worlds : comparison.Worlds world world') {scope scope' : ScopeId}
    (matched : comparison.scopes scope scope')
    {names names' : List Identifier} {values values' : List Value}
    (sameNames : names.map (·.mapPosition comparison.view) =
      names'.map (·.mapPosition comparison.view))
    (related : List.Forall₂ (Value.Related comparison.Callables)
      values values') :
    comparison.Worlds (world.defineAll scope names values)
      (world'.defineAll scope' names' values') := by
  induction names generalizing names' values values' world world' with
  | nil =>
      have none : names' = [] := by simpa using sameNames.symm
      subst none
      exact worlds
  | cons name names ih =>
      rcases names' with _ | ⟨name', names'⟩
      · cases sameNames
      · rcases List.cons.inj sameNames with ⟨sameName, sameRest⟩
        have sameText := (Identifier.mapPosition_eq_iff.mp sameName).1
        cases related with
        | nil => exact worlds
        | cons head tail =>
            rw [World.defineAll, World.defineAll, ← sameText]
            exact ih (worlds.define matched name.text head) sameRest tail

theorem enter
    (worlds : comparison.Worlds world world') {scope scope' : ScopeId}
    (matched : comparison.scopes scope scope')
    {names names' : List Identifier} {values values' : List Value}
    (sameNames : names.map (·.mapPosition comparison.view) =
      names'.map (·.mapPosition comparison.view))
    (related : List.Forall₂ (Value.Related comparison.Callables)
      values values') :
    comparison.Worlds (world.enter scope names values)
      (world'.enter scope' names' values') :=
  (worlds.addChild matched).defineAll (worlds.fresh 0) sameNames related

end Worlds

/-! ## Evaluation -/

/-- Equal looking lists of forms look equal member by member. -/
theorem forall₂_of_map_eq
    {forms forms' : List Form} {scope scope' : ScopeId}
    (same : forms.map (Form.mapPositions comparison.view) =
      forms'.map (Form.mapPositions comparison.view))
    (matched : comparison.scopes scope scope') :
    List.Forall₂
      (fun form form' =>
        comparison.simulation.forms () form scope form' scope')
      forms forms' := by
  have pointwise : List.Forall₂ Eq
      (forms.map (Form.mapPositions comparison.view))
      (forms'.map (Form.mapPositions comparison.view)) := by
    rw [same]
    exact List.forall₂_same.mpr fun _ _ => rfl
  rw [List.forall₂_map_left_iff, List.forall₂_map_right_iff] at pointwise
  exact pointwise.imp fun _ _ equal => ⟨equal, matched⟩

theorem alongside
    {form form' : Form} {scope scope' : ScopeId}
    (same : form.mapPositions comparison.view =
      form'.mapPositions comparison.view)
    (matched : comparison.scopes scope scope') :
    form.Alongside comparison.simulation.places
      (fun name name' =>
        comparison.simulation.names () name scope name' scope')
      (fun part part' =>
        comparison.simulation.forms () part scope part' scope')
      form' := by
  cases form <;> cases form' <;> simp only [Form.mapPositions, reduceCtorEq,
    Form.literal.injEq, Form.variable.injEq, Form.assignment.injEq,
    Form.conditional.injEq, Form.lambda.injEq, Form.sequence.injEq,
    Form.printLine.injEq, Form.operation.injEq, Form.call.injEq,
    Form.mapEach_eq_map] at same
  case literal.literal =>
    rcases same with ⟨-, rfl⟩
    exact .literal _ _ _
  case variable.variable =>
    exact .reference ⟨same, matched⟩
  case assignment.assignment =>
    exact .assignment ⟨same.2, matched⟩
  case conditional.conditional =>
    rcases same with ⟨place, test, consequent, alternate⟩
    exact .conditional place ⟨test, matched⟩ ⟨consequent, matched⟩
      ⟨alternate, matched⟩
  case lambda.lambda =>
    exact .lambda _ _ _ _ _ _
  case sequence.sequence =>
    exact .sequence _ _ (forall₂_of_map_eq same.2 matched)
  case printLine.printLine =>
    exact .printLine same.1 ⟨same.2, matched⟩
  case operation.operation =>
    rcases same with ⟨rfl, word, left, right⟩
    exact .operation _ (Identifier.mapPosition_eq_iff.mp word).2 ⟨left, matched⟩
      ⟨right, matched⟩
  case call.call =>
    exact .call _ _ ⟨same.1, matched⟩ (forall₂_of_map_eq same.2.2 matched)

theorem simulation_lawful (comparison : Comparison) :
    comparison.simulation.Lawful where
  refl _ := trivial
  trans _ _ := trivial
  forms_later _ forms := forms
  callables_later _ callables := callables
  alongside forms := alongside forms.1 forms.2
  sameKind callables := by
    cases callables with
    | native name native => exact .native name native
    | closure sameParameters sameBody matched =>
        have sameCount := congrArg List.length sameParameters
        rw [List.length_map, List.length_map] at sameCount
        exact .closure _ _ _ _ sameCount
  runtime _ := rfl
  site names := Identifier.mapPosition_eq_iff.mp names.1
  sitePlace sites := sites.2
  siteCause {site site' cause} sites _ := congrArg (cause.about ·) sites.1
  found {stage world world' name name' scope scope'} worlds names := by
    have sameText := (Identifier.mapPosition_eq_iff.mp names.1).1
    rw [← sameText]
    exact worlds.value? names.2 name.text
  captured forms := by
    simp only [simulation, Form.mapPositions, Form.lambda.injEq] at forms
    rcases forms with ⟨⟨-, sameParameters, sameBody⟩, matched⟩
    exact .closure sameParameters sameBody matched
  assigned {stage world world' target target' value value' scope scope' result
      result'} worlds forms values := by
    simp only [simulation, Form.mapPositions, Form.assignment.injEq] at forms
    rcases forms with ⟨⟨sameTarget, -⟩, matched⟩
    rw [← (Identifier.mapPosition_eq_iff.mp sameTarget).1]
    exact ⟨(), trivial, worlds.assign matched target.text values⟩
  printed line worlds forms :=
    ⟨worlds.acceptance forms.2 line, (), trivial, worlds.afterLine forms.2 line⟩
  recorded worlds _ := ⟨(), trivial, worlds.record _ _⟩
  entered worlds callables arguments _ := by
    cases callables with
    | closure sameParameters sameBody matched =>
        exact ⟨(), trivial, worlds.enter matched sameParameters arguments,
          sameBody, worlds.fresh 0⟩

/-- Runs that end alike, up to matched scopes and seen places. -/
inductive Ends (comparison : Comparison) :
    Outcome Value → Outcome Value → Prop where
  | done {value value' : Value} {world world' : World}
      (worlds : comparison.Worlds world world')
      (related : Value.Related comparison.Callables value value') :
      Ends comparison (.done value world) (.done value' world')
  | failed {error error' : Error} {world world' : World}
      (worlds : comparison.Worlds world world')
      (sameCause : error.cause = error'.cause)
      (samePlace : error.position?.map comparison.view =
        error'.position?.map comparison.view) :
      Ends comparison (.failed error world) (.failed error' world')
  | exhausted : Ends comparison .exhausted .exhausted

theorem evaluate_ends
    (worlds : comparison.Worlds world world') {form form' : Form}
    (sameForm : form.mapPositions comparison.view =
      form'.mapPositions comparison.view)
    {scope scope' : ScopeId} (matched : comparison.scopes scope scope')
    (depth : Nat) :
    comparison.Ends (evaluate Host.none depth form scope world)
      (evaluate Host.none depth form' scope' world') := by
  have evaluators := comparison.simulation_lawful.evaluators
    (Nat.le_refl depth) fun _ => rfl
  have outcomes : comparison.simulation.Outcomes ()
      comparison.simulation.values
      (evaluate Host.none depth form scope world)
      (evaluate Host.none depth form' scope' world') :=
    evaluators.evaluate ⟨sameForm, matched⟩ world world' worlds
  generalize evaluate Host.none depth form scope world = outcome at outcomes ⊢
  generalize evaluate Host.none depth form' scope' world' = outcome'
    at outcomes ⊢
  cases outcomes with
  | done _ worlds values => exact .done worlds values
  | failed _ worlds errors =>
      rcases errors with ⟨rfl, samePlace⟩
      exact .failed worlds rfl (congrArg some samePlace)
  | exhausted both =>
      rw [both trivial]
      exact .exhausted

theorem Worlds.records
    (worlds : comparison.Worlds world world')
    (entries entries' : List LogRecord) :
    comparison.Worlds (entries.foldl World.record world)
      (entries'.foldl World.record world') := by
  have recorded : ∀ {world world' : World} (entries : List LogRecord),
      comparison.Worlds world world' →
        comparison.Worlds (entries.foldl World.record world) world' := by
    intro world world' entries worlds
    induction entries generalizing world with
    | nil => exact worlds
    | cons entry entries ih =>
        exact ih ⟨worlds.fresh, worlds.made, worlds.links, worlds.locals,
          worlds.sinks⟩
  induction entries' generalizing world' with
  | nil => exact recorded entries worlds
  | cons entry' entries' ih =>
      exact ih ⟨worlds.fresh, worlds.made, worlds.links, worlds.locals,
        worlds.sinks⟩

/-- A source run in matched scopes ends alike. -/
theorem interpret_ends
    (worlds : comparison.Worlds world world') {scope scope' : ScopeId}
    (matched : comparison.scopes scope scope') (depth : Nat)
    (source : String) :
    comparison.Ends (interpret Host.none depth scope source world)
      (interpret Host.none depth scope' source world') := by
  rcases interpret_cases Host.none scope source world with
    ⟨error, entries, refused, result⟩ | ⟨form, entries, read, result⟩
  · rcases interpret_cases Host.none scope' source world' with
      ⟨error', entries', refused', result'⟩ | ⟨form', entries', read', -⟩
    · rw [refused] at refused'
      cases refused'
      rw [result depth, result' depth]
      exact .failed (worlds.records entries entries') rfl rfl
    · rw [refused] at read'
      cases read'
  · rcases interpret_cases Host.none scope' source world' with
      ⟨error', entries', refused', -⟩ | ⟨form', entries', read', result'⟩
    · rw [read] at refused'
      cases refused'
    · rw [read] at read'
      cases read'
      rw [result depth, result' depth]
      exact evaluate_ends (worlds.records entries entries') rfl matched depth

end Comparison

end ScopedLisp
