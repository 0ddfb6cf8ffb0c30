import ScopedLisp.Proofs.EvaluationTasks
import ScopedLisp.Proofs.LayoutIndependence

/-!
# Calls through `apply`

A procedure can be called by its name, or `apply` can be given the procedure
and a list of the arguments.  Either way the procedure is looked up before the
arguments are evaluated, in the same scope and from left to right, and then it
is called with their values.  What differs is the call site, whose name enters
the messages of the errors that the procedure reports about its arguments.

`Simulation.ofCallees` compares evaluations whose forms and worlds differ in
places only, while call sites may also be known by two different callees.  Its
laws are those of `Comparison.ofPlaces`, except for what they say about sites
and causes, and with them a procedure does the same for either caller
(`apply_is_direct_call`).
-/

namespace ScopedLisp

/-! ## Sites with two callees -/

/-- Causes that are equal up to the name of the callee. -/
def Cause.SameButCallee (callee callee' : String) (cause cause' : Cause) :
    Prop :=
  cause = cause' ∨
    ∃ unnamed : Cause, cause = unnamed.about callee ∧
      cause' = unnamed.about callee'

@[simp]
theorem Cause.code_about (cause : Cause) (callee : String) :
    (cause.about callee).code = cause.code := by
  cases cause <;> rfl

theorem Cause.SameButCallee.code_eq {callee callee' : String}
    {cause cause' : Cause} (same : cause.SameButCallee callee callee' cause') :
    cause.code = cause'.code := by
  rcases same with rfl | ⟨unnamed, rfl, rfl⟩
  · rfl
  · rw [code_about, code_about]

/--
Evaluations that see no places and are the same but for two callees: a site of
the one may stand for a site of the other.
-/
def Simulation.ofCallees (callee callee' : String) : Simulation Unit :=
  { Comparison.ofPlaces.simulation with
    sites := fun site site' => site.name = site'.name ∨
      (site.name = callee ∧ site'.name = callee')
    causes := Cause.SameButCallee callee callee' }

theorem Simulation.ofCallees_lawful (callee callee' : String) :
    (Simulation.ofCallees callee callee').Lawful :=
  { Comparison.simulation_lawful Comparison.ofPlaces with
    runtime := fun _ => .inl rfl
    site := fun names => .inl (Identifier.mapPosition_eq_iff.mp names.1).1
    sitePlace := fun _ => rfl
    siteCause := by
      rintro site site' cause (sameName | ⟨named, named'⟩) -
      · exact .inl (congrArg cause.about sameName)
      · exact .inr ⟨cause, congrArg cause.about named,
          congrArg cause.about named'⟩
    recorded := fun worlds _ => ⟨(), trivial, worlds.record _ _⟩ }

/-! ## The two routes -/

section Routes

variable {applyName listName procedure : Identifier} {scope : ScopeId}
variable {callable : Callable}

/-- What is left of a call through `apply` when the arguments have their values. -/
def Run.handOver (depth : Nat) (applyName listName : Identifier)
    (callable : Callable) (scope : ScopeId) (values : List Value) :
    Run Value := do
  Run.record (.called listName.text listName.position values.length)
  let listed ← call Host.none depth (.native "list" (.primitive .list))
    (.ofIdentifier listName) scope values
  Run.record (.called applyName.text applyName.position 2)
  call Host.none (depth + 1) (.native "apply" (.primitive .apply))
    (.ofIdentifier applyName) scope [.callable callable, listed]

/-- The procedure and the list are looked up before the arguments are evaluated. -/
theorem evaluate_apply {world : World}
    (applies : world.heap.value? scope applyName.text =
      some Primitive.apply.toValue)
    (lists : world.heap.value? scope listName.text =
      some Primitive.list.toValue)
    (found : world.heap.value? scope procedure.text = some (.callable callable))
    (arguments : List Form) (group listGroup : Position) (depth : Nat) :
    evaluate Host.none (depth + 2)
        (.call applyName group
          [.variable procedure, .call listName listGroup arguments])
        scope world =
      ((evaluator Host.none depth).evaluateAll scope arguments >>=
        Run.handOver depth applyName listName callable scope) world := by
  let nested := evaluator Host.none (depth + 1)
  have meansProcedure :
      nested.evaluate (.variable procedure) scope world =
        .done (.callable callable) world :=
    Run.get_locate_eq_done_iff.mpr ⟨found, rfl⟩
  have meansList :
      nested.evaluate (.call listName listGroup arguments) scope world =
        ((evaluator Host.none depth).evaluateAll scope arguments >>=
          fun values => do
            Run.record (.called listName.text listName.position values.length)
            call Host.none depth (.native "list" (.primitive .list))
              (.ofIdentifier listName) scope values) world :=
    Evaluator.evaluateWith_call listGroup arguments lists
  refine (Evaluator.evaluateWith_call group
    [.variable procedure, .call listName listGroup arguments]
    applies).trans ?_
  change (nested.evaluateAll scope _ >>= _) world = _
  simp only [Evaluator.evaluateAll, Run.bind_apply, meansProcedure, meansList]
  rcases (evaluator Host.none depth).evaluateAll scope arguments world with
    ⟨values, middle⟩ | ⟨error, middle⟩ | -
  · simp only [Run.handOver, Run.bind_apply, Run.record, Run.modify]
    rcases call Host.none depth (.native "list" (.primitive .list))
      (.ofIdentifier listName) scope values _ with
      ⟨listed, last⟩ | ⟨error, last⟩ | - <;> rfl
  · rfl
  · rfl

/-- What `apply` is given it hands on, at its own site. -/
theorem handOver_apply (depth : Nat) (values : List Value) (world : World) :
    Run.handOver (depth + 1) applyName listName callable scope values world =
      (call Host.none (depth + 1) callable (.ofIdentifier applyName) scope
        values).locate applyName.position
        ((world.record
          (.called listName.text listName.position values.length)).record
          (.called applyName.text applyName.position 2)) :=
  rfl

/-- What is left of a direct call when the arguments have their values. -/
def Run.goOn (depth : Nat) (name : Identifier) (callable : Callable)
    (scope : ScopeId) (values : List Value) : Run Value := do
  Run.record (.called name.text name.position values.length)
  call Host.none depth callable (.ofIdentifier name) scope values

/-- Errors that leave a comparison have their places already. -/
theorem Simulation.Outcomes.locate_left {Stage : Type}
    {simulation : Simulation Stage} {α β : Type} {stage : Stage}
    {good : Stage → α → β → Prop} {run : Run α} {world : World}
    {outcome : Outcome β}
    (outcomes : simulation.Outcomes stage good (run world) outcome)
    (position : Position) :
    simulation.Outcomes stage good (run.locate position world) outcome := by
  simp only [Run.locate]
  generalize run world = result at outcomes ⊢
  cases outcomes with
  | done later worlds holds => exact .done later worlds holds
  | failed later worlds errors =>
      rcases errors with ⟨sameCause, samePlace⟩
      exact .failed later worlds (.located sameCause samePlace)
  | exhausted both => exact .exhausted both

theorem evaluate_call {world : World}
    (group : Position) (arguments : List Form) {depth : Nat}
    (found : world.heap.value? scope procedure.text =
      some (.callable callable)) :
    evaluate Host.none (depth + 1) (.call procedure group arguments) scope
        world =
      ((evaluator Host.none depth).evaluateAll scope arguments >>=
        Run.goOn depth procedure callable scope) world :=
  Evaluator.evaluateWith_call group arguments found

/-- What corresponds to a callable is one. -/
theorem exists_callable_of_rel {relates : Callable → Callable → Prop}
    {found : Option Value}
    (related : Option.Rel (Value.Related relates) (some (.callable callable))
      found) :
    ∃ callable', found = some (.callable callable') ∧
      relates callable callable' := by
  cases related with
  | some values =>
      cases values with
      | callable same => exact ⟨_, rfl, same⟩

/-- With the same values a procedure does the same for either caller. -/
theorem handOver_runs (applyName listName : Identifier)
    {procedure : Identifier} {callable callable' : Callable}
    (same : Comparison.ofPlaces.Callables callable callable')
    {values values' : List Value}
    (itemwise : List.Forall₂ (Value.Related Comparison.ofPlaces.Callables)
      values values') (scope : ScopeId) (depth : Nat) :
    let simulation :=
      Simulation.ofCallees applyName.text procedure.text
    simulation.Runs () simulation.values
      (Run.handOver depth applyName listName callable scope values)
      (Run.goOn depth procedure callable' scope values') := by
  intro simulation world world' worlds
  have lawful := Simulation.ofCallees_lawful applyName.text procedure.text
  cases depth with
  | zero => exact .exhausted fun _ => rfl
  | succ depth =>
      have evaluators := lawful.evaluators (Nat.le_refl (depth + 1))
        fun _ => rfl
      have sites : simulation.sites (.ofIdentifier applyName)
          (.ofIdentifier procedure) := .inr ⟨rfl, rfl⟩
      -- The one world gets a record more, which the comparison does not see.
      have recorded := Comparison.Worlds.records worlds
        [.called listName.text listName.position values.length,
          .called applyName.text applyName.position 2]
        [.called procedure.text procedure.position values'.length]
      rw [handOver_apply]
      exact (evaluators.call scope scope same sites itemwise _ _
        recorded).locate_left _

end Routes

/-! ## Calls through `apply` are direct calls -/

/-- Errors with one code, whose messages are equal up to the name of the callee. -/
def Error.SameButCallee (callee callee' : String) (error error' : Error) :
    Prop :=
  error.cause.code = error'.cause.code ∧
    error.cause.SameButCallee callee callee' error'.cause

/--
Let `apply` and `list` be bound to the natives of these names in a scope, and
let a name mean some callable there, a closure or a native.  Then giving that
callable to `apply` with a list of arguments is calling it by its name with
these arguments, from worlds that are the same but for places.  Both calls end
or neither does; they return values that are the same but for places, or fail
with one code and with messages that are equal up to the name of the callee;
all sinks have received the same text, and the worlds at the end are again the
same but for places.  The arguments may do anything, also bind the names anew.

The call through `apply` has one level more, and needs that much more depth.
-/
theorem apply_is_direct_call {world world' : World}
    (same : world.SameButPlaces world') {scope : ScopeId}
    {applyName listName procedure procedure' : Identifier}
    {callable : Callable}
    (applies : world.heap.value? scope applyName.text =
      some Primitive.apply.toValue)
    (lists : world.heap.value? scope listName.text =
      some Primitive.list.toValue)
    (found : world.heap.value? scope procedure.text = some (.callable callable))
    (sameName : procedure.text = procedure'.text)
    {arguments arguments' : List Form}
    (sameArguments :
      arguments.map Form.unplaced = arguments'.map Form.unplaced)
    (group listGroup group' : Position) (depth : Nat) :
    Outcome.Related World.SameButPlaces Value.SameButPlaces
      (Error.SameButCallee applyName.text procedure.text)
      (evaluate Host.none (depth + 2)
        (.call applyName group
          [.variable procedure, .call listName listGroup arguments])
        scope world)
      (evaluate Host.none (depth + 1) (.call procedure' group' arguments')
        scope world') := by
  let simulation := Simulation.ofCallees applyName.text procedure'.text
  have lawful : simulation.Lawful := Simulation.ofCallees_lawful _ _
  have worlds := Comparison.worlds_ofPlaces_iff.mpr same
  have related := worlds.value? (Eq.refl scope) procedure.text
  rw [found] at related
  rcases exists_callable_of_rel related with ⟨callable', found', callables⟩
  have evaluators := lawful.evaluators (Nat.le_refl depth) fun _ => rfl
  have outcomes : simulation.Outcomes () simulation.values
      (evaluate Host.none (depth + 2)
        (.call applyName group
          [.variable procedure, .call listName listGroup arguments])
        scope world)
      (evaluate Host.none (depth + 1) (.call procedure' group' arguments')
        scope world') := by
    rw [evaluate_apply applies lists found,
      evaluate_call group' arguments' (sameName ▸ found')]
    refine Simulation.Runs.bind lawful (evaluators.evaluateAll lawful
      (Comparison.forall₂_of_map_eq sameArguments rfl)) ?_ world world' worlds
    intro _ values values' _ itemwise
    exact handOver_runs applyName listName callables itemwise scope depth
  rcases outcomes.exists_related lawful trivial with ⟨_, -, ended⟩
  apply ended.imp
  · exact fun _ _ => Comparison.worlds_ofPlaces_iff.mp
  · intro value value' values
    rw [Value.SameButPlaces, ← Comparison.callables_ofPlaces]
    exact values
  · rintro _ _ ⟨sameCause, -⟩
    rw [sameName]
    exact ⟨sameCause.code_eq, sameCause⟩

/-- An argument that binds the name anew, and is nothing that the procedure takes. -/
theorem apply_is_direct_call_first :
    let world := (World.empty.addRoot .keeping).install 0
    let argument : Form :=
      .assignment ⟨"first", ⟨1, 18⟩⟩ (.literal ⟨⟨.nil, "nil"⟩, ⟨1, 24⟩⟩ .nil)
    let direct : Form := .call ⟨"first", ⟨1, 2⟩⟩ ⟨1, 13⟩ [argument]
    world.heap.value? 0 "apply" = some Primitive.apply.toValue ∧
      world.heap.value? 0 "list" = some Primitive.list.toValue ∧
      world.heap.value? 0 "first" = some Primitive.first.toValue ∧
      (∃ after, evaluate Host.none 3 direct 0 world =
        .failed (.located (.argumentMismatch "first" 1 "list" "nil") ⟨1, 2⟩)
          after) ∧
      Outcome.Related World.SameButPlaces Value.SameButPlaces
        (Error.SameButCallee "apply" "first")
        (evaluate Host.none 4
          (.call ⟨"apply", ⟨1, 2⟩⟩ ⟨1, 8⟩
            [.variable ⟨"first", ⟨1, 8⟩⟩,
              .call ⟨"list", ⟨1, 15⟩⟩ ⟨1, 20⟩ [argument]]) 0 world)
        (evaluate Host.none 3 direct 0 world) := by
  intro world argument direct
  have applies :
      world.heap.value? 0 "apply" = some Primitive.apply.toValue := by cbv
  have lists : world.heap.value? 0 "list" = some Primitive.list.toValue := by
    cbv
  have found : world.heap.value? 0 "first" = some Primitive.first.toValue := by
    cbv
  have fails : ∃ after, evaluate Host.none 3 direct 0 world =
      .failed (.located (.argumentMismatch "first" 1 "list" "nil") ⟨1, 2⟩)
        after := by
    subst direct argument world
    refine ⟨?after, ?runs⟩
    case runs =>
      cbv
      rfl
  exact ⟨applies, lists, found, fails,
    @apply_is_direct_call world world (.refl world) 0 ⟨"apply", ⟨1, 2⟩⟩
      ⟨"list", ⟨1, 15⟩⟩ ⟨"first", ⟨1, 8⟩⟩ ⟨"first", ⟨1, 2⟩⟩ _ applies lists
      found rfl [argument] [argument] rfl ⟨1, 8⟩ ⟨1, 20⟩ ⟨1, 13⟩ 2⟩

end ScopedLisp
