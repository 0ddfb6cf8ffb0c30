import ScopedLisp.Proofs.ErrorPhases
import ScopedLisp.Proofs.RunOutcomes

/-!
# Tasks and the tasks nested in them

Evaluating a form and calling a callable are tasks.  While a task is under way
it asks for further tasks, each in the world that it has reached by then:
`Evaluator.Asks` lists them, one rule for each place where evaluation or a
call goes on to another form or callable.  `Evaluator.Faults` lists how a task
can fail by itself, although all that it asked for went well.

Together the two account for every failure (`Evaluator.performWith_origin`),
and a failure of a task that was asked for is the failure of the task that
asked (`Evaluator.Asks.failed`).  So an error that leaves an evaluation was
raised by some task nested in it (`exists_fault`), and all tasks around that
one end with the same error (`Nested.failed`).
-/

namespace ScopedLisp

/-! ## Tasks -/

/-- What evaluation is asked for: a form in a scope, or a call from a scope. -/
inductive Task where
  | evaluate (form : Form) (scope : ScopeId)
  | call (callable : Callable) (site : CallSite) (scope : ScopeId)
    (arguments : List Value)

namespace Evaluator

/-- Does what it is asked for. -/
def perform (evaluator : Evaluator) : Task → Run Value
  | .evaluate form scope => evaluator.evaluate form scope
  | .call callable site scope arguments =>
    evaluator.call callable site scope arguments

/-- Whether all errors of an evaluator have a place. -/
def LocatesErrors (evaluator : Evaluator) : Prop :=
  ∀ task world error after,
    evaluator.perform task world = .failed error after →
      error.position?.isSome

section Rules

variable (evaluator : Evaluator)

/-- The tasks that a task asks for, and the worlds in which it does. -/
inductive Asks : Task → World → Task → World → Prop where
  | assigned (target : Identifier) (value : Form) (scope : ScopeId)
      (world : World) :
      Asks (.evaluate (.assignment target value) scope) world
        (.evaluate value scope) world
  | tested (opening : Position) (test consequent alternate : Form)
      (scope : ScopeId) (world : World) :
      Asks (.evaluate (.conditional opening test consequent alternate) scope)
        world (.evaluate test scope) world
  | chosen (opening : Position) {test : Form} (consequent alternate : Form)
      {scope : ScopeId} {world middle : World} {holds : Bool}
      (tests : evaluator.evaluate test scope world =
        .done (.boolean holds) middle) :
      Asks (.evaluate (.conditional opening test consequent alternate) scope)
        world (.evaluate (if holds then consequent else alternate) scope) middle
  | item (opening : Position) {earlier : List Form} (item : Form)
      (later : List Form) {scope : ScopeId} {values : List Value}
      {world middle : World}
      (before : evaluator.evaluateAll scope earlier world =
        .done values middle) :
      Asks (.evaluate (.sequence opening (earlier ++ item :: later)) scope)
        world (.evaluate item scope) middle
  | printed (opening : Position) (value : Form) (scope : ScopeId)
      (world : World) :
      Asks (.evaluate (.printLine opening value) scope) world
        (.evaluate value scope) world
  | left (operator : Operator) (word : Identifier) (left right : Form)
      (scope : ScopeId) (world : World) :
      Asks (.evaluate (.operation operator word left right) scope) world
        (.evaluate left scope) world
  | right (operator : Operator) (word : Identifier) {left : Form}
      (right : Form) {scope : ScopeId} {value : Value} {world middle : World}
      (before : evaluator.evaluate left scope world = .done value middle) :
      Asks (.evaluate (.operation operator word left right) scope) world
        (.evaluate right scope) middle
  | argument {name : Identifier} (group : Position) {earlier : List Form}
      (argument : Form) (later : List Form) {scope : ScopeId}
      {callable : Callable} {values : List Value} {world middle : World}
      (found : world.heap.value? scope name.text = some (.callable callable))
      (before : evaluator.evaluateAll scope earlier world =
        .done values middle) :
      Asks (.evaluate (.call name group (earlier ++ argument :: later)) scope)
        world (.evaluate argument scope) middle
  | called {name : Identifier} (group : Position) {arguments : List Form}
      {scope : ScopeId} {callable : Callable} {values : List Value}
      {world middle : World}
      (found : world.heap.value? scope name.text = some (.callable callable))
      (before : evaluator.evaluateAll scope arguments world =
        .done values middle) :
      Asks (.evaluate (.call name group arguments) scope) world
        (.call callable (.ofIdentifier name) scope values)
        (middle.record (.called name.text name.position values.length))
  | applied (name : String) {primitive : Primitive} {site : CallSite}
      (scope : ScopeId) {callable : Callable} {arguments items : List Value}
      (world : World)
      (replies : primitive.reply site arguments = .ok (.call callable items)) :
      Asks (.call (.native name (.primitive primitive)) site scope arguments)
        world (.call callable site scope items) world
  | entered {parameters : List Identifier} (body : Form) (defining : ScopeId)
      (site : CallSite) (scope : ScopeId) {arguments : List Value}
      (world : World) (enough : arguments.length = parameters.length) :
      Asks (.call (.closure parameters body defining) site scope arguments)
        world (.evaluate body world.nextScope)
        ((world.enter defining parameters arguments).record
          (.entered site.name parameters.length))

/--
The ways in which a task fails by itself: what goes wrong, the place that it
is reported at, and the world that is left.
-/
inductive Faults : Task → World → Cause → Position → World → Prop where
  | unbound {name : Identifier} {scope : ScopeId} {world : World}
      (missing : world.heap.value? scope name.text = none) :
      Faults (.evaluate (.variable name) scope) world (.unbound name.text)
        name.position world
  | unboundCallee {name : Identifier} (group : Position)
      (arguments : List Form) {scope : ScopeId} {world : World}
      (missing : world.heap.value? scope name.text = none) :
      Faults (.evaluate (.call name group arguments) scope) world
        (.unbound name.text) name.position world
  | notCallable {name : Identifier} (group : Position)
      (arguments : List Form) {scope : ScopeId} {world : World} {value : Value}
      {cause : Cause} (found : world.heap.value? scope name.text = some value)
      (refused : value.asCallable = .error cause) :
      Faults (.evaluate (.call name group arguments) scope) world cause
        name.position world
  | notBoolean (opening : Position) {test : Form} (consequent alternate : Form)
      {scope : ScopeId} {world after : World} {value : Value} {cause : Cause}
      (tests : evaluator.evaluate test scope world = .done value after)
      (refused : value.asBoolean = .error cause) :
      Faults (.evaluate (.conditional opening test consequent alternate) scope)
        world cause opening after
  | badOperands {operator : Operator} {word : Identifier} {left right : Form}
      {scope : ScopeId} {world middle after : World}
      {leftValue rightValue : Value} {cause : Cause}
      (leftEnds : evaluator.evaluate left scope world =
        .done leftValue middle)
      (rightEnds : evaluator.evaluate right scope middle =
        .done rightValue after)
      (refused : operator.apply leftValue rightValue = .error cause) :
      Faults (.evaluate (.operation operator word left right) scope) world
        cause word.position after
  | unprinted (opening : Position) {value : Form} {scope : ScopeId}
      {world middle : World} {result : Value} {cause : Cause}
      (ends : evaluator.evaluate value scope world = .done result middle)
      (refused : middle.acceptance scope result.render = .error cause) :
      Faults (.evaluate (.printLine opening value) scope) world cause opening
        (middle.afterLine scope result.render)
  | wrongCount {parameters : List Identifier} (body : Form)
      (defining : ScopeId) (site : CallSite) (scope : ScopeId)
      {arguments : List Value} (world : World)
      (different : arguments.length ≠ parameters.length) :
      Faults (.call (.closure parameters body defining) site scope arguments)
        world (.arityMismatch site.name parameters.length arguments.length)
        site.position world
  | refusedByPrimitive (name : String) {primitive : Primitive}
      {site : CallSite} (scope : ScopeId) {arguments : List Value}
      (world : World) {cause : Cause}
      (refused : primitive.reply site arguments = site.error cause) :
      Faults (.call (.native name (.primitive primitive)) site scope arguments)
        world cause site.position world
  | noSuchNative (name key : String) (site : CallSite) (scope : ScopeId)
      (arguments : List Value) (world : World) :
      Faults (.call (.native name (.foreign key)) site scope arguments)
        world (.unbound key) site.position world

end Rules

/-- One level of a task in terms of an evaluator for the levels below. -/
def performWith (evaluator : Evaluator) : Task → Run Value
  | .evaluate form scope => evaluator.evaluateWith form scope
  | .call callable site scope arguments =>
    evaluator.callWith Host.none callable site scope arguments

theorem perform_succ (depth : Nat) (task : Task) :
    (evaluator Host.none (depth + 1)).perform task =
      (evaluator Host.none depth).performWith task := by
  cases task <;> rfl

theorem perform_zero (task : Task) (world : World) :
    (evaluator Host.none 0).perform task world = .exhausted := by
  cases task <;> rfl

/-- A call by a name that means a callable goes on to the arguments. -/
theorem evaluateWith_call {evaluator : Evaluator} {name : Identifier}
    (group : Position) (arguments : List Form) {scope : ScopeId}
    {callable : Callable} {world : World}
    (found : world.heap.value? scope name.text = some (.callable callable)) :
    evaluator.evaluateWith (.call name group arguments) scope world =
      (evaluator.evaluateAll scope arguments >>= fun values => do
        Run.record (.called name.text name.position values.length)
        evaluator.call callable (.ofIdentifier name) scope values) world := by
  have looksUp := Run.get_locate_eq_done_iff.mpr ⟨found, rfl⟩
  rw [evaluateWith, Run.bind_eq_of_done looksUp]
  rfl

/-! ## Faults fail -/

theorem callWith_native (evaluator : Evaluator) (name : String)
    (primitive : Primitive) (site : CallSite) (scope : ScopeId)
    (arguments : List Value) (world : World) :
    evaluator.callWith Host.none (.native name (.primitive primitive)) site
        scope arguments world =
      match primitive.reply site arguments with
      | .error error => .failed (error.locate site.position) world
      | .ok (.value value) => .done value world
      | .ok (.call callable items) =>
        (evaluator.call callable site scope items).locate site.position
          world := by
  simp only [callWith, Run.locate, bind, Run.bind, Run.ofError]
  cases primitive.reply site arguments with
  | error error => rfl
  | ok reply =>
      cases reply <;> rfl

/-- A task that faults fails with just that cause at just that place. -/
theorem Faults.failed {evaluator : Evaluator} {task : Task}
    {world after : World} {cause : Cause} {position : Position}
    (faults : evaluator.Faults task world cause position after) :
    evaluator.performWith task world =
      .failed (.located cause position) after := by
  cases faults with
  | unbound missing =>
      exact Run.get_locate_eq_failed_iff.mpr ⟨missing, rfl, rfl⟩
  | unboundCallee group arguments missing =>
      apply Run.bind_eq_of_failed
      exact Run.get_locate_eq_failed_iff.mpr ⟨missing, rfl, rfl⟩
  | notCallable group arguments found refused =>
      have looksUp := Run.get_locate_eq_done_iff.mpr ⟨found, rfl⟩
      rw [performWith, evaluateWith, Run.bind_eq_of_done looksUp]
      apply Run.bind_eq_of_failed
      exact Run.ofCause_locate_eq_failed_iff.mpr ⟨cause, refused, rfl, rfl⟩
  | notBoolean opening consequent alternate tests refused =>
      rw [performWith, evaluateWith, Run.bind_eq_of_done tests]
      apply Run.bind_eq_of_failed
      exact Run.ofCause_locate_eq_failed_iff.mpr ⟨cause, refused, rfl, rfl⟩
  | badOperands leftEnds rightEnds refused =>
      rw [performWith, evaluateWith, Run.bind_eq_of_done leftEnds,
        Run.bind_eq_of_done rightEnds]
      exact Run.ofCause_locate_eq_failed_iff.mpr ⟨cause, refused, rfl, rfl⟩
  | unprinted opening ends refused =>
      rw [performWith, evaluateWith, Run.bind_eq_of_done ends]
      apply Run.bind_eq_of_failed
      exact Run.writeLine_locate_eq_failed_iff.mpr ⟨cause, refused, rfl, rfl⟩
  | wrongCount body defining site scope world different =>
      apply Run.bind_eq_of_failed
      rw [CallSite.checkCount, if_neg different]
      rfl
  | refusedByPrimitive name scope world refused =>
      rw [performWith, callWith_native, refused]
      rfl
  | noSuchNative name key site scope arguments world =>
      rfl

/-- A call by a name that means no callable fails before anything else. -/
theorem exists_fault_of_not_callable {evaluator : Evaluator}
    {name : Identifier} (group : Position) (arguments : List Form)
    {scope : ScopeId} {world : World}
    (found : ¬ ∃ callable, world.heap.value? scope name.text =
      some (.callable callable)) :
    ∃ cause, ∀ other : World, other.heap = world.heap →
      evaluator.Faults (.evaluate (.call name group arguments) scope) other
        cause name.position other := by
  rcases means : world.heap.value? scope name.text with _ | value
  · refine ⟨.unbound name.text, fun other same => ?_⟩
    exact .unboundCallee group arguments (by rw [same, means])
  · rcases isCallable : value.asCallable with cause | callable
    · refine ⟨cause, fun other same => ?_⟩
      exact .notCallable group arguments (by rw [same, means]) isCallable
    · rw [Value.eq_callable_of_asCallable isCallable] at means
      exact absurd ⟨callable, means⟩ found

/-! ## A task that was asked for fails -/

theorem evaluateAll_cons_eq_done_iff {evaluator : Evaluator} {scope : ScopeId}
    {item : Form} {items : List Form} {world after : World}
    {values : List Value} :
    evaluator.evaluateAll scope (item :: items) world = .done values after ↔
      ∃ value middle others, evaluator.evaluate item scope world =
          .done value middle ∧
        evaluator.evaluateAll scope items middle = .done others after ∧
        values = value :: others := by
  rw [evaluateAll, Run.bind_eq_done_iff]
  constructor
  · rintro ⟨value, middle, itemEnds, rest⟩
    rcases Run.bind_eq_done_iff.mp rest with ⟨others, last, restEnds, built⟩
    cases built
    exact ⟨value, middle, others, itemEnds, restEnds, rfl⟩
  · rintro ⟨value, middle, others, itemEnds, restEnds, rfl⟩
    exact ⟨value, middle, itemEnds, Run.bind_eq_of_done restEnds⟩

/-- Forms fail as the first of them does that fails. -/
theorem evaluateAll_eq_failed_iff {evaluator : Evaluator} {scope : ScopeId}
    {items : List Form} {world after : World} {error : Error} :
    evaluator.evaluateAll scope items world = .failed error after ↔
      ∃ earlier item later values middle, items = earlier ++ item :: later ∧
        evaluator.evaluateAll scope earlier world = .done values middle ∧
        evaluator.evaluate item scope middle = .failed error after := by
  induction items generalizing world with
  | nil =>
      constructor
      · intro ends
        cases ends
      · rintro ⟨earlier, item, later, -, -, empty, -⟩
        simp at empty
  | cons first items ih =>
      rw [evaluateAll, Run.bind_eq_failed_iff]
      constructor
      · rintro (fails | ⟨value, next, firstEnds, rest⟩)
        · exact ⟨[], first, items, [], world, rfl, rfl, fails⟩
        · rcases Run.bind_eq_failed_iff.mp rest with
            restFails | ⟨values, last, -, impossible⟩
          · rcases ih.mp restFails with
              ⟨earlier, item, later, values, middle, rfl, before, fails⟩
            have before := evaluateAll_cons_eq_done_iff.mpr
              ⟨value, next, values, firstEnds, before, rfl⟩
            exact ⟨first :: earlier, item, later, _, middle, rfl, before, fails⟩
          · cases impossible
      · rintro ⟨earlier, item, later, values, middle, same, before, fails⟩
        cases earlier with
        | nil =>
            cases before
            cases same
            exact .inl fails
        | cons head earlier =>
            rcases List.cons.inj same with ⟨rfl, rfl⟩
            rcases evaluateAll_cons_eq_done_iff.mp before with
              ⟨value, next, others, firstEnds, restEnds, -⟩
            have restFails := ih.mpr
              ⟨earlier, item, later, _, _, rfl, restEnds, fails⟩
            exact .inr ⟨value, next, firstEnds, Run.bind_eq_of_failed restFails⟩

/-- Calling a closure with enough arguments is evaluating its body. -/
theorem callWith_closure_apply (evaluator : Evaluator)
    {parameters : List Identifier} (body : Form) (defining : ScopeId)
    (site : CallSite) (scope : ScopeId) {arguments : List Value}
    (enough : arguments.length = parameters.length) (world : World) :
    evaluator.callWith Host.none (.closure parameters body defining) site scope
        arguments world =
      evaluator.evaluate body world.nextScope
        ((world.enter defining parameters arguments).record
          (.entered site.name parameters.length)) := by
  rw [callWith_closure, CallSite.checkCount, if_pos enough]
  rfl

/--
A task fails with the very error that a task it asks for fails with, once that
error has a place.
-/
theorem Asks.failed {evaluator : Evaluator} {task inner : Task}
    {world middle after : World} {error : Error}
    (asks : evaluator.Asks task world inner middle)
    (fails : evaluator.perform inner middle = .failed error after)
    (placed : error.position?.isSome) :
    evaluator.performWith task world = .failed error after := by
  cases asks with
  | assigned target value scope world =>
      exact Run.bind_eq_of_failed fails
  | tested opening test consequent alternate scope world =>
      exact Run.bind_eq_of_failed fails
  | @chosen opening test consequent alternate scope world middle holds tests =>
      have checks : (Run.ofCause (Value.boolean holds).asBoolean).locate opening
          middle = .done holds middle := rfl
      rw [performWith, evaluateWith, Run.bind_eq_of_done tests,
        Run.bind_eq_of_done checks]
      cases holds with
      | false => exact fails
      | true => exact fails
  | item opening item later before =>
      apply Run.bind_eq_of_failed
      exact evaluateAll_eq_failed_iff.mpr
        ⟨_, item, later, _, _, rfl, before, fails⟩
  | printed opening value scope world =>
      exact Run.bind_eq_of_failed fails
  | left operator word left right scope world =>
      exact Run.bind_eq_of_failed fails
  | right operator word right before =>
      rw [performWith, evaluateWith, Run.bind_eq_of_done before]
      exact Run.bind_eq_of_failed fails
  | argument group argument later found before =>
      rw [performWith, evaluateWith_call group _ found]
      apply Run.bind_eq_of_failed
      exact evaluateAll_eq_failed_iff.mpr
        ⟨_, argument, later, _, _, rfl, before, fails⟩
  | called group found before =>
      rw [performWith, evaluateWith_call group _ found,
        Run.bind_eq_of_done before]
      exact fails
  | applied name scope world replies =>
      rw [performWith, callWith_native, replies]
      have same := Error.locate_of_isSome placed
      exact Run.locate_eq_failed_iff.mpr ⟨error, fails, same _⟩
  | entered body defining site scope world enough =>
      rw [performWith, callWith_closure_apply _ _ _ _ _ enough]
      exact fails

/-! ## Every failure has an origin -/

/-- What a primitive refuses is a fault of running at the place of the call. -/
theorem reply_eq_error {primitive : Primitive} {site : CallSite}
    {arguments : List Value} {error : Error}
    (refused : primitive.reply site arguments = .error error) :
    ∃ cause, error = .located cause site.position ∧ cause.IsRuntime := by
  have related : List.Forall₂ (Value.Related fun _ _ => True)
      arguments arguments :=
    List.forall₂_same.mpr fun _ _ => Value.related_self fun _ _ => trivial
  have verdict : SameVerdict site site (Primitive.Reply.Related fun _ _ => True)
      (primitive.reply site arguments) (primitive.reply site arguments) :=
    primitive.reply_sameVerdict related
  rw [refused] at verdict
  cases verdict with
  | error runtime => exact ⟨_, rfl, Cause.isRuntime_about site.name runtime⟩

/--
How a task can come to fail: by itself, or because a task that it asked for
does.
-/
inductive Origin (evaluator : Evaluator) (task : Task) (world : World)
    (error : Error) (after : World) : Prop where
  | fault {cause : Cause} {position : Position}
      (isError : error = .located cause position)
      (faults : evaluator.Faults task world cause position after)
  | asked {inner : Task} {middle : World}
      (asks : evaluator.Asks task world inner middle)
      (fails : evaluator.perform inner middle = .failed error after)

/-- A form fails by itself, or because something that it asks for fails. -/
theorem evaluateWith_origin {evaluator : Evaluator} {form : Form}
    {scope : ScopeId} {world after : World} {error : Error}
    (fails : evaluator.evaluateWith form scope world = .failed error after) :
    evaluator.Origin (.evaluate form scope) world error after := by
  cases form with
  | literal token value => cases fails
  | «variable» name =>
      rcases Run.get_locate_eq_failed_iff.mp fails with ⟨missing, rfl, rfl⟩
      exact .fault rfl (.unbound missing)
  | assignment target value =>
      rcases Run.bind_eq_failed_iff.mp fails with
        valueFails | ⟨result, middle, -, impossible⟩
      · exact .asked (.assigned target value scope world) valueFails
      · cases impossible
  | conditional opening test consequent alternate =>
      rcases Run.bind_eq_failed_iff.mp fails with
        testFails | ⟨value, middle, tests, rest⟩
      · exact .asked (.tested opening _ consequent alternate _ _) testFails
      rcases Run.bind_eq_failed_iff.mp rest with
        checkFails | ⟨holds, same, checks, chosenFails⟩
      · rcases Run.ofCause_locate_eq_failed_iff.mp checkFails with
          ⟨cause, refused, rfl, rfl⟩
        exact .fault rfl (.notBoolean opening _ _ tests refused)
      · rcases Run.ofCause_locate_eq_done_iff.mp checks with ⟨isBoolean, rfl⟩
        rw [Value.eq_boolean_of_asBoolean isBoolean] at tests
        apply Origin.asked (.chosen opening consequent alternate tests)
        cases holds with
        | false => exact chosenFails
        | true => exact chosenFails
  | lambda opening parameters body => cases fails
  | sequence opening items =>
      rcases Run.bind_eq_failed_iff.mp fails with
        itemsFail | ⟨values, middle, -, impossible⟩
      · rcases evaluateAll_eq_failed_iff.mp itemsFail with
          ⟨earlier, item, later, values, middle, rfl, before, itemFails⟩
        exact .asked (.item opening item later before) itemFails
      · cases impossible
  | printLine opening value =>
      rcases Run.bind_eq_failed_iff.mp fails with
        valueFails | ⟨result, middle, ends, rest⟩
      · exact .asked (.printed opening value scope world) valueFails
      rcases Run.bind_eq_failed_iff.mp rest with
        printFails | ⟨_, last, -, impossible⟩
      · rcases Run.writeLine_locate_eq_failed_iff.mp printFails with
          ⟨cause, refused, rfl, rfl⟩
        exact .fault rfl (.unprinted opening ends refused)
      · cases impossible
  | operation operator word left right =>
      rcases Run.bind_eq_failed_iff.mp fails with
        leftFails | ⟨leftValue, middle, leftEnds, rest⟩
      · exact .asked (.left operator word left right scope world) leftFails
      rcases Run.bind_eq_failed_iff.mp rest with
        rightFails | ⟨rightValue, last, rightEnds, applyFails⟩
      · exact .asked (.right operator word right leftEnds) rightFails
      · rcases Run.ofCause_locate_eq_failed_iff.mp applyFails with
          ⟨cause, refused, rfl, rfl⟩
        exact .fault rfl (.badOperands leftEnds rightEnds refused)
  | call name group arguments =>
      by_cases found : ∃ callable, world.heap.value? scope name.text =
        some (.callable callable)
      · rcases found with ⟨callable, found⟩
        rw [evaluateWith_call group arguments found] at fails
        rcases Run.bind_eq_failed_iff.mp fails with
          argumentsFail | ⟨values, middle, before, callFails⟩
        · rcases evaluateAll_eq_failed_iff.mp argumentsFail with
            ⟨earlier, argument, later, values, middle, rfl, before,
              argumentFails⟩
          exact .asked (.argument group argument later found before)
            argumentFails
        · exact .asked (.called group found before) callFails
      · rcases exists_fault_of_not_callable group arguments found with
          ⟨cause, faults⟩
        have same := (faults world rfl).failed.symm.trans fails
        cases same
        exact .fault rfl (faults world rfl)

/-- A call fails by itself, or because something that it asks for fails. -/
theorem callWith_origin {evaluator : Evaluator}
    (locates : evaluator.LocatesErrors) {callable : Callable} {site : CallSite}
    {scope : ScopeId} {arguments : List Value} {world after : World}
    {error : Error}
    (fails : evaluator.callWith Host.none callable site scope arguments world =
      .failed error after) :
    evaluator.Origin (.call callable site scope arguments) world error
      after := by
  cases callable with
  | closure parameters body defining =>
      by_cases enough : arguments.length = parameters.length
      · rw [callWith_closure_apply _ _ _ _ _ enough] at fails
        exact .asked (.entered body defining site scope world enough) fails
      · have faults : evaluator.Faults _ _ _ _ _ :=
          .wrongCount body defining site scope world enough
        rw [← performWith, faults.failed] at fails
        cases fails
        exact .fault rfl faults
  | native name native =>
      cases native with
      | foreign key =>
          cases fails
          exact .fault rfl (.noSuchNative name key site scope arguments world)
      | primitive primitive =>
          rw [callWith_native] at fails
          rcases replies : primitive.reply site arguments with fault | reply
          · rcases reply_eq_error replies with ⟨cause, rfl, -⟩
            rw [replies] at fails
            cases fails
            exact .fault rfl (.refusedByPrimitive name scope world replies)
          · rw [replies] at fails
            cases reply with
            | value value => cases fails
            | call callable items =>
                rcases Run.locate_eq_failed_iff.mp fails with
                  ⟨fault, callFails, same⟩
                have placed := locates (.call callable site scope items) _ _ _
                  callFails
                rw [Error.locate_of_isSome placed] at same
                subst same
                exact .asked (.applied name scope world replies) callFails

/-- Every failure of a task comes from a fault of it or of a task it asked for. -/
theorem performWith_origin {evaluator : Evaluator}
    (locates : evaluator.LocatesErrors) {task : Task} {world after : World}
    {error : Error}
    (fails : evaluator.performWith task world = .failed error after) :
    evaluator.Origin task world error after := by
  cases task with
  | evaluate form scope => exact evaluateWith_origin fails
  | call callable site scope arguments => exact callWith_origin locates fails

theorem locatesErrors (depth : Nat) :
    (evaluator Host.none depth).LocatesErrors := by
  intro task world error after fails
  cases task with
  | evaluate form scope => exact (evaluate_failed fails).2
  | call callable site scope arguments => exact (call_failed fails).2

end Evaluator

/-! ## Tasks at any depth -/

/--
The tasks that are performed while a task is performed to a depth, that task
included, each with the depth that is left for it and the world it starts in.
-/
inductive Nested : Nat → Task → World → Nat → Task → World → Prop where
  | here (depth : Nat) (task : Task) (world : World) :
      Nested depth task world depth task world
  | further {depth left : Nat} {task next inner : Task}
      {world middle start : World}
      (asks : (evaluator Host.none depth).Asks task world next middle)
      (nested : Nested depth next middle left inner start) :
      Nested (depth + 1) task world left inner start

/-- A task fails with the very error that any task nested in it fails with. -/
theorem Nested.failed {depth left : Nat} {task inner : Task}
    {world start after : World} {error : Error}
    (nested : Nested depth task world left inner start)
    (fails : (evaluator Host.none left).perform inner start =
      .failed error after) :
    (evaluator Host.none depth).perform task world = .failed error after := by
  induction nested with
  | here depth task world => exact fails
  | further asks nested ih =>
      have nextFails := ih fails
      rw [Evaluator.perform_succ]
      exact asks.failed nextFails
        (Evaluator.locatesErrors _ _ _ _ _ nextFails)

/-- An error that leaves a task was raised by a fault of some task nested in it. -/
theorem exists_fault {depth : Nat} {task : Task} {world after : World}
    {error : Error}
    (fails : (evaluator Host.none depth).perform task world =
      .failed error after) :
    ∃ left inner start cause position,
      error = .located cause position ∧
      Nested depth task world (left + 1) inner start ∧
      (evaluator Host.none left).Faults inner start cause position after := by
  induction depth generalizing task world with
  | zero =>
      rw [Evaluator.perform_zero] at fails
      cases fails
  | succ depth ih =>
      rw [Evaluator.perform_succ] at fails
      rcases Evaluator.performWith_origin (Evaluator.locatesErrors depth) fails
        with ⟨isError, faults⟩ | ⟨asks, nextFails⟩
      · exact ⟨depth, task, world, _, _, isError, .here _ _ _, faults⟩
      · rcases ih nextFails with
          ⟨left, inner, start, cause, position, isError, nested, faults⟩
        exact ⟨left, inner, start, cause, position, isError,
          .further asks nested, faults⟩

end ScopedLisp
