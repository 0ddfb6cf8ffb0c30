import ScopedLisp.Evaluation
import ScopedLisp.Proofs.PrimitiveVerdicts
import ScopedLisp.Proofs.ScopeLookup

/-!
# Evaluations side by side

Two evaluations that go through the same steps can be compared step by step.
A `Simulation` says what is compared: which worlds, forms in scopes, callables
and call sites correspond, which errors count as the same, and whether one run
may need more depth than the other.  Everything but errors is compared at a
stage, and a comparison moves from a stage to later ones as scopes are made
and bindings change.

`Simulation.Lawful` collects what the steps on worlds have to keep.  From
these laws alone, corresponding forms evaluate to corresponding outcomes, to
any depth: `Simulation.Lawful.evaluators`.  No evaluation here has procedures
of an embedding program.
-/

namespace ScopedLisp

/-! ## What is compared -/

/-- What two evaluations side by side have in common. -/
structure Simulation (Stage : Type) where
  /-- Where a comparison may get from a stage. -/
  later : Stage → Stage → Prop
  worlds : Stage → World → World → Prop
  /-- Forms, each with the scope that it is evaluated in. -/
  forms : Stage → Form → ScopeId → Form → ScopeId → Prop
  /-- Names that are looked up, each with the scope where the search starts. -/
  names : Stage → Identifier → ScopeId → Identifier → ScopeId → Prop
  callables : Stage → Callable → Callable → Prop
  sites : CallSite → CallSite → Prop
  causes : Cause → Cause → Prop
  places : Position → Position → Prop
  /-- Whether the second run gets no more depth than the first. -/
  lockstep : Prop

/-- A sink that refuses a line is a fault of running. -/
theorem World.isRuntime_of_acceptance
    {world : World} {scope : ScopeId} {line : String} {cause : Cause}
    (refused : world.acceptance scope line = .error cause) :
    cause.IsRuntime := by
  unfold World.acceptance at refused
  split at refused
  · unfold Sink.acceptance at refused
    split at refused
    case h_4 =>
      split at refused <;> cases refused
      nofun
    all_goals cases refused <;> nofun
  · cases refused

/-- Forms of one kind, with parts and places that correspond. -/
inductive Form.Alongside
    (places : Position → Position → Prop)
    (names : Identifier → Identifier → Prop)
    (forms : Form → Form → Prop) : Form → Form → Prop where
  | literal (token token' : Token) (value : Literal) :
      Alongside places names forms
        (.literal token value) (.literal token' value)
  | reference {name name' : Identifier} (same : names name name') :
      Alongside places names forms (.variable name) (.variable name')
  | assignment {target target' : Identifier} {value value' : Form}
      (sameValue : forms value value') :
      Alongside places names forms
        (.assignment target value) (.assignment target' value')
  | conditional {opening opening' : Position}
      {test test' consequent consequent' alternate alternate' : Form}
      (place : places opening opening')
      (sameTest : forms test test')
      (sameConsequent : forms consequent consequent')
      (sameAlternate : forms alternate alternate') :
      Alongside places names forms
        (.conditional opening test consequent alternate)
        (.conditional opening' test' consequent' alternate')
  | lambda (opening opening' : Position)
      (parameters parameters' : List Identifier) (body body' : Form) :
      Alongside places names forms
        (.lambda opening parameters body) (.lambda opening' parameters' body')
  | sequence (opening opening' : Position) {items items' : List Form}
      (sameItems : List.Forall₂ forms items items') :
      Alongside places names forms
        (.sequence opening items) (.sequence opening' items')
  | printLine {opening opening' : Position} {value value' : Form}
      (place : places opening opening') (sameValue : forms value value') :
      Alongside places names forms
        (.printLine opening value) (.printLine opening' value')
  | operation (operator : Operator) {word word' : Identifier}
      {left left' right right' : Form}
      (place : places word.position word'.position)
      (sameLeft : forms left left') (sameRight : forms right right') :
      Alongside places names forms
        (.operation operator word left right)
        (.operation operator word' left' right')
  | call {name name' : Identifier} (group group' : Position)
      {arguments arguments' : List Form} (same : names name name')
      (sameArguments : List.Forall₂ forms arguments arguments') :
      Alongside places names forms
        (.call name group arguments) (.call name' group' arguments')

/-- Callables of one kind: the same native, or closures that take as many arguments. -/
inductive Callable.Alongside : Callable → Callable → Prop where
  | native (name : String) (native : Native) :
      Alongside (.native name native) (.native name native)
  | closure {parameters parameters' : List Identifier} (body body' : Form)
      (scope scope' : ScopeId)
      (sameCount : parameters.length = parameters'.length) :
      Alongside (.closure parameters body scope)
        (.closure parameters' body' scope')

theorem Callable.Alongside.refl (callable : Callable) :
    callable.Alongside callable := by
  cases callable with
  | native name native => exact .native name native
  | closure parameters body scope => exact .closure body body scope scope rfl

/-- Records of one kind about corresponding call sites. -/
inductive LogRecord.Alongside (sites : CallSite → CallSite → Prop) :
    LogRecord → LogRecord → Prop where
  | called {site site' : CallSite} (same : sites site site') (count : Nat) :
      Alongside sites (.called site.name site.position count)
        (.called site'.name site'.position count)
  | entered {site site' : CallSite} (same : sites site site') (count : Nat) :
      Alongside sites (.entered site.name count) (.entered site'.name count)

/-- Makes a new child of a scope that binds parameters to arguments. -/
def Run.enter
    (defining : ScopeId) (parameters : List Identifier)
    (arguments : List Value) : Run ScopeId := fun world =>
  .done world.nextScope (world.enter defining parameters arguments)

/-- Calling a closure enters it in one step and goes on in the new scope. -/
theorem Evaluator.callWith_closure
    (host : Host) (evaluator : Evaluator) (parameters : List Identifier)
    (body : Form) (defining : ScopeId) (site : CallSite) (scope : ScopeId)
    (arguments : List Value) :
    evaluator.callWith host (.closure parameters body defining) site scope
        arguments =
      (do
        Run.ofError (site.checkCount arguments parameters.length)
        let fresh ← Run.enter defining parameters arguments
        Run.record (.entered site.name parameters.length)
        evaluator.evaluate body fresh) := by
  funext world
  simp only [callWith, bind, Run.bind, Run.newChild, Run.enter,
    Run.defineAll_apply]
  rfl

/-- Runs that both end well, both fail or both do not end, with what remains related. -/
inductive Outcome.Related {α β : Type}
    (worlds : World → World → Prop) (values : α → β → Prop)
    (errors : Error → Error → Prop) : Outcome α → Outcome β → Prop where
  | done {value : α} {value' : β} {world world' : World}
      (sameWorlds : worlds world world') (sameValues : values value value') :
      Related worlds values errors (.done value world) (.done value' world')
  | failed {error error' : Error} {world world' : World}
      (sameWorlds : worlds world world') (sameErrors : errors error error') :
      Related worlds values errors (.failed error world) (.failed error' world')
  | exhausted : Related worlds values errors .exhausted .exhausted

theorem Outcome.Related.imp
    {α β : Type} {worlds worlds' : World → World → Prop}
    {values values' : α → β → Prop} {errors errors' : Error → Error → Prop}
    {outcome : Outcome α} {outcome' : Outcome β}
    (related : Outcome.Related worlds values errors outcome outcome')
    (sameWorlds : ∀ world world', worlds world world' → worlds' world world')
    (sameValues : ∀ value value', values value value' → values' value value')
    (sameErrors : ∀ error error', errors error error' → errors' error error') :
    Outcome.Related worlds' values' errors' outcome outcome' := by
  cases related with
  | done worlds values =>
      exact .done (sameWorlds _ _ worlds) (sameValues _ _ values)
  | failed worlds errors =>
      exact .failed (sameWorlds _ _ worlds) (sameErrors _ _ errors)
  | exhausted => exact .exhausted

namespace Simulation

variable {Stage : Type}

section Relations

variable (simulation : Simulation Stage)

/-- Values that correspond as far as their callables do. -/
def values (stage : Stage) : Value → Value → Prop :=
  Value.Related (simulation.callables stage)

/-- Worlds that correspond at some later stage. -/
def Reaches (stage : Stage) (world world' : World) : Prop :=
  ∃ next, simulation.later stage next ∧ simulation.worlds next world world'

/-- Errors with corresponding causes at corresponding places. -/
inductive Errors : Error → Error → Prop where
  | located {cause cause' : Cause} {position position' : Position}
      (sameCause : simulation.causes cause cause')
      (samePlace : simulation.places position position') :
      Errors (.located cause position) (.located cause' position')

variable {α β α' β' : Type}

/-- Runs that end alike; a run that needs more depth may be continued by the other. -/
inductive Outcomes (stage : Stage) (good : Stage → α → β → Prop) :
    Outcome α → Outcome β → Prop where
  | done {next : Stage} {value : α} {value' : β} {world world' : World}
      (later : simulation.later stage next)
      (worlds : simulation.worlds next world world')
      (holds : good next value value') :
      Outcomes stage good (.done value world) (.done value' world')
  | failed {next : Stage} {error error' : Error} {world world' : World}
      (later : simulation.later stage next)
      (worlds : simulation.worlds next world world')
      (errors : simulation.Errors error error') :
      Outcomes stage good (.failed error world) (.failed error' world')
  | exhausted {outcome : Outcome β}
      (both : simulation.lockstep → outcome = .exhausted) :
      Outcomes stage good .exhausted outcome

/-- Runs that end alike from all worlds that correspond at a stage. -/
def Runs (stage : Stage) (good : Stage → α → β → Prop)
    (run : Run α) (run' : Run β) : Prop :=
  ∀ world world', simulation.worlds stage world world' →
    simulation.Outcomes stage good (run world) (run' world')

/-- Evaluators that make corresponding outcomes of what corresponds. -/
structure Evaluators (evaluator evaluator' : Evaluator) : Prop where
  evaluate {stage : Stage} {form form' : Form} {scope scope' : ScopeId} :
    simulation.forms stage form scope form' scope' →
    simulation.Runs stage simulation.values
      (evaluator.evaluate form scope) (evaluator'.evaluate form' scope')
  call {stage : Stage} {callable callable' : Callable}
    {site site' : CallSite} {arguments arguments' : List Value}
    (scope scope' : ScopeId) :
    simulation.callables stage callable callable' →
    simulation.sites site site' →
    List.Forall₂ (simulation.values stage) arguments arguments' →
    simulation.Runs stage simulation.values
      (evaluator.call callable site scope arguments)
      (evaluator'.call callable' site' scope' arguments')

end Relations

/-! ## What steps have to keep -/

/-- What makes corresponding evaluations go on corresponding. -/
structure Lawful (simulation : Simulation Stage) : Prop where
  refl (stage : Stage) : simulation.later stage stage
  trans {first second third : Stage} :
    simulation.later first second → simulation.later second third →
      simulation.later first third
  forms_later {stage next : Stage} {form form' : Form}
    {scope scope' : ScopeId} :
    simulation.later stage next →
    simulation.forms stage form scope form' scope' →
      simulation.forms next form scope form' scope'
  callables_later {stage next : Stage} {callable callable' : Callable} :
    simulation.later stage next →
    simulation.callables stage callable callable' →
      simulation.callables next callable callable'
  alongside {stage : Stage} {form form' : Form} {scope scope' : ScopeId} :
    simulation.forms stage form scope form' scope' →
      form.Alongside simulation.places
        (fun name name' => simulation.names stage name scope name' scope')
        (fun part part' => simulation.forms stage part scope part' scope')
        form'
  sameKind {stage : Stage} {callable callable' : Callable} :
    simulation.callables stage callable callable' →
      callable.Alongside callable'
  runtime {cause : Cause} : cause.IsRuntime → simulation.causes cause cause
  site {stage : Stage} {name name' : Identifier} {scope scope' : ScopeId} :
    simulation.names stage name scope name' scope' →
      simulation.sites (.ofIdentifier name) (.ofIdentifier name')
  sitePlace {site site' : CallSite} :
    simulation.sites site site' →
      simulation.places site.position site'.position
  siteCause {site site' : CallSite} {cause : Cause} :
    simulation.sites site site' → cause.IsRuntime →
      simulation.causes (cause.about site.name) (cause.about site'.name)
  found {stage : Stage} {world world' : World} {name name' : Identifier}
    {scope scope' : ScopeId} :
    simulation.worlds stage world world' →
    simulation.names stage name scope name' scope' →
      Option.Rel (simulation.values stage)
        (world.heap.value? scope name.text)
        (world'.heap.value? scope' name'.text)
  captured {stage : Stage} {opening opening' : Position}
    {parameters parameters' : List Identifier} {body body' : Form}
    {scope scope' : ScopeId} :
    simulation.forms stage (.lambda opening parameters body) scope
        (.lambda opening' parameters' body') scope' →
      simulation.callables stage (.closure parameters body scope)
        (.closure parameters' body' scope')
  assigned {stage : Stage} {world world' : World}
    {target target' : Identifier} {value value' : Form}
    {scope scope' : ScopeId} {result result' : Value} :
    simulation.worlds stage world world' →
    simulation.forms stage (.assignment target value) scope
        (.assignment target' value') scope' →
    simulation.values stage result result' →
      simulation.Reaches stage (world.assign scope target.text result)
        (world'.assign scope' target'.text result')
  printed {stage : Stage} {world world' : World}
    {opening opening' : Position} {value value' : Form}
    {scope scope' : ScopeId} (line : String) :
    simulation.worlds stage world world' →
    simulation.forms stage (.printLine opening value) scope
        (.printLine opening' value') scope' →
      world.acceptance scope line = world'.acceptance scope' line ∧
        simulation.Reaches stage (world.afterLine scope line)
          (world'.afterLine scope' line)
  recorded {stage : Stage} {world world' : World}
    {entry entry' : LogRecord} :
    simulation.worlds stage world world' →
    entry.Alongside simulation.sites entry' →
      simulation.Reaches stage (world.record entry) (world'.record entry')
  entered {stage : Stage} {world world' : World}
    {parameters parameters' : List Identifier} {body body' : Form}
    {scope scope' : ScopeId} {arguments arguments' : List Value} :
    simulation.worlds stage world world' →
    simulation.callables stage (.closure parameters body scope)
        (.closure parameters' body' scope') →
    List.Forall₂ (simulation.values stage) arguments arguments' →
    arguments.length = parameters.length →
      ∃ next, simulation.later stage next ∧
        simulation.worlds next (world.enter scope parameters arguments)
          (world'.enter scope' parameters' arguments') ∧
        simulation.forms next body world.nextScope body' world'.nextScope

/-- Runs in lockstep end alike at one later stage. -/
theorem Outcomes.exists_related
    {simulation : Simulation Stage} {α β : Type} {stage : Stage}
    {good : Stage → α → β → Prop} {outcome : Outcome α}
    {outcome' : Outcome β} (lawful : simulation.Lawful)
    (lockstep : simulation.lockstep)
    (outcomes : simulation.Outcomes stage good outcome outcome') :
    ∃ next, simulation.later stage next ∧
      Outcome.Related (simulation.worlds next) (good next) simulation.Errors
        outcome outcome' := by
  cases outcomes with
  | done later worlds holds => exact ⟨_, later, .done worlds holds⟩
  | failed later worlds errors => exact ⟨_, later, .failed worlds errors⟩
  | exhausted both =>
      rw [both lockstep]
      exact ⟨stage, lawful.refl stage, .exhausted⟩

theorem Lawful.values_later
    {simulation : Simulation Stage} (lawful : simulation.Lawful)
    {stage next : Stage} (later : simulation.later stage next)
    {value value' : Value} (values : simulation.values stage value value') :
    simulation.values next value value' :=
  values.mono fun _ _ => lawful.callables_later later

/-! ## Single steps -/

section Steps

variable {simulation : Simulation Stage} {α β α' β' : Type}

namespace Runs

theorem pure
    (lawful : simulation.Lawful) {stage : Stage}
    {good : Stage → α → β → Prop} {value : α} {value' : β}
    (holds : good stage value value') :
    simulation.Runs stage good (Pure.pure value) (Pure.pure value') := by
  intro world world' worlds
  exact .done (lawful.refl stage) worlds holds

theorem bind
    (lawful : simulation.Lawful) {stage : Stage}
    {good : Stage → α → β → Prop} {better : Stage → α' → β' → Prop}
    {first : Run α} {first' : Run β}
    {second : α → Run α'} {second' : β → Run β'}
    (firstRuns : simulation.Runs stage good first first')
    (secondRuns : ∀ next value value', simulation.later stage next →
      good next value value' →
        simulation.Runs next better (second value) (second' value')) :
    simulation.Runs stage better (first >>= second) (first' >>= second') := by
  intro world world' worlds
  have firstOutcome := firstRuns world world' worlds
  show simulation.Outcomes stage better
    (Run.bind first second world) (Run.bind first' second' world')
  simp only [Run.bind]
  generalize first world = outcome at firstOutcome
  generalize first' world' = outcome' at firstOutcome
  cases firstOutcome with
  | @done next value value' after after' later afterWorlds holds =>
      have secondOutcome :=
        secondRuns next value value' later holds after after' afterWorlds
      simp only
      generalize second value after = outcome at secondOutcome
      generalize second' value' after' = outcome' at secondOutcome
      cases secondOutcome with
      | done later' worlds holds =>
          exact .done (lawful.trans later later') worlds holds
      | failed later' worlds errors =>
          exact .failed (lawful.trans later later') worlds errors
      | exhausted both =>
          exact .exhausted both
  | failed later worlds errors =>
      exact .failed later worlds errors
  | exhausted both =>
      apply Outcomes.exhausted
      intro lockstep
      rw [both lockstep]

theorem imp
    {stage : Stage} {good better : Stage → α → β → Prop}
    {run : Run α} {run' : Run β}
    (runs : simulation.Runs stage good run run')
    (implies : ∀ next value value', simulation.later stage next →
      good next value value' → better next value value') :
    simulation.Runs stage better run run' := by
  intro world world' worlds
  have outcome := runs world world' worlds
  generalize run world = result at outcome
  generalize run' world' = result' at outcome
  cases outcome with
  | done later worlds holds =>
      exact .done later worlds (implies _ _ _ later holds)
  | failed later worlds errors =>
      exact .failed later worlds errors
  | exhausted both =>
      exact .exhausted both

/-- Errors that have their places keep them. -/
theorem locate
    {stage : Stage} {good : Stage → α → β → Prop}
    {run : Run α} {run' : Run β}
    (runs : simulation.Runs stage good run run')
    (position position' : Position) :
    simulation.Runs stage good (run.locate position)
      (run'.locate position') := by
  intro world world' worlds
  have outcome := runs world world' worlds
  simp only [Run.locate]
  generalize run world = result at outcome
  generalize run' world' = result' at outcome
  cases outcome with
  | done later worlds holds =>
      exact .done later worlds holds
  | failed later worlds errors =>
      rcases errors with ⟨sameCause, samePlace⟩
      exact .failed later worlds (.located sameCause samePlace)
  | exhausted both =>
      apply Outcomes.exhausted
      intro lockstep
      rw [both lockstep]

theorem failedAt
    (lawful : simulation.Lawful) {stage : Stage}
    {good : Stage → α → β → Prop} {cause cause' : Cause}
    {position position' : Position}
    (sameCause : simulation.causes cause cause')
    (samePlace : simulation.places position position') :
    simulation.Runs stage good
      (Run.fail (.located cause position))
      (Run.fail (.located cause' position')) := by
  intro world world' worlds
  exact .failed (lawful.refl stage) worlds (.located sameCause samePlace)

theorem ofCause
    (lawful : simulation.Lawful) {stage : Stage} {good : α → β → Prop}
    {result : Except Cause α} {result' : Except Cause β}
    {position position' : Position}
    (same : SameCause good result result')
    (samePlace : simulation.places position position') :
    simulation.Runs stage (fun _ => good)
      ((Run.ofCause result).locate position)
      ((Run.ofCause result').locate position') := by
  cases same with
  | ok holds => exact pure lawful holds
  | error runtime =>
      exact failedAt lawful (lawful.runtime runtime) samePlace

theorem ofVerdict
    (lawful : simulation.Lawful) {stage : Stage} {good : α → β → Prop}
    {site site' : CallSite}
    {result : Except Error α} {result' : Except Error β}
    (same : SameVerdict site site' good result result')
    (sites : simulation.sites site site') :
    simulation.Runs stage (fun _ => good)
      (Run.ofError result) (Run.ofError result') := by
  cases same with
  | ok holds => exact pure lawful holds
  | error runtime =>
      exact failedAt lawful (lawful.siteCause sites runtime)
        (lawful.sitePlace sites)

theorem modify
    {stage : Stage} {change change' : World → World}
    (reaches : ∀ world world', simulation.worlds stage world world' →
      simulation.Reaches stage (change world) (change' world')) :
    simulation.Runs stage (fun _ _ _ => True)
      (Run.modify change) (Run.modify change') := by
  intro world world' worlds
  rcases reaches world world' worlds with ⟨next, later, nextWorlds⟩
  exact .done later nextWorlds trivial

theorem get
    (lawful : simulation.Lawful) {stage : Stage} {name name' : Identifier}
    {scope scope' : ScopeId}
    (names : simulation.names stage name scope name' scope') :
    simulation.Runs stage simulation.values
      ((Run.get scope name.text).locate name.position)
      ((Run.get scope' name'.text).locate name'.position) := by
  intro world world' worlds
  have found := lawful.found worlds names
  have sites := lawful.site names
  simp only [Run.locate, Run.get]
  generalize world.heap.value? scope name.text = result at found
  generalize world'.heap.value? scope' name'.text = result' at found
  cases found with
  | some values =>
      exact .done (lawful.refl stage) worlds values
  | none =>
      have runtime : Cause.IsRuntime (.unbound "") := nofun
      have sameCause :
          simulation.causes (.unbound name.text) (.unbound name'.text) :=
        lawful.siteCause sites runtime
      exact .failed (lawful.refl stage) worlds
        (.located sameCause (lawful.sitePlace sites))

theorem writeLine
    (lawful : simulation.Lawful) {stage : Stage}
    {opening opening' : Position} {value value' : Form}
    {scope scope' : ScopeId}
    (forms : simulation.forms stage (.printLine opening value) scope
      (.printLine opening' value') scope')
    (samePlace : simulation.places opening opening') (line : String) :
    simulation.Runs stage (fun _ _ _ => True)
      ((Run.writeLine scope line).locate opening)
      ((Run.writeLine scope' line).locate opening') := by
  intro world world' worlds
  rcases lawful.printed line worlds forms with
    ⟨sameAcceptance, next, later, nextWorlds⟩
  simp only [Run.locate, Run.writeLine, ← sameAcceptance]
  rcases accepted : world.acceptance scope line with cause | _
  · have runtime := World.isRuntime_of_acceptance accepted
    exact .failed later nextWorlds
      (.located (lawful.runtime runtime) samePlace)
  · exact .done later nextWorlds trivial

theorem enter
    (lawful : simulation.Lawful) {stage : Stage}
    {parameters parameters' : List Identifier} {body body' : Form}
    {scope scope' : ScopeId} {arguments arguments' : List Value}
    (callables : simulation.callables stage
      (.closure parameters body scope) (.closure parameters' body' scope'))
    (same : List.Forall₂ (simulation.values stage) arguments arguments')
    (enough : arguments.length = parameters.length) :
    simulation.Runs stage
      (fun next fresh fresh' => simulation.forms next body fresh body' fresh')
      (Run.enter scope parameters arguments)
      (Run.enter scope' parameters' arguments') := by
  intro world world' worlds
  rcases lawful.entered worlds callables same enough with
    ⟨next, later, nextWorlds, bodies⟩
  exact .done later nextWorlds bodies

end Runs

end Steps

/-! ## Whole evaluations -/

section Evaluation

variable {simulation : Simulation Stage} {evaluator evaluator' : Evaluator}

namespace Evaluators

theorem evaluateAll
    (lawful : simulation.Lawful)
    (evaluators : simulation.Evaluators evaluator evaluator')
    {stage : Stage} {forms forms' : List Form} {scope scope' : ScopeId}
    (same : List.Forall₂
      (fun form form' => simulation.forms stage form scope form' scope')
      forms forms') :
    simulation.Runs stage
      (fun next => List.Forall₂ (simulation.values next))
      (evaluator.evaluateAll scope forms)
      (evaluator'.evaluateAll scope' forms') := by
  induction forms generalizing stage forms' with
  | nil =>
      cases same
      exact .pure lawful .nil
  | cons form forms ih =>
      rcases same with _ | ⟨head, tail⟩
      apply Runs.bind lawful (evaluators.evaluate head)
      intro next value value' later values
      have tailNext := tail.imp fun _ _ => lawful.forms_later later
      apply Runs.bind lawful (ih tailNext)
      intro last rest rest' laterStill itemwise
      exact .pure lawful
        (.cons (lawful.values_later laterStill values) itemwise)

theorem evaluateWith
    (lawful : simulation.Lawful)
    (evaluators : simulation.Evaluators evaluator evaluator')
    {stage : Stage} {form form' : Form} {scope scope' : ScopeId}
    (forms : simulation.forms stage form scope form' scope') :
    simulation.Runs stage simulation.values
      (evaluator.evaluateWith form scope)
      (evaluator'.evaluateWith form' scope') := by
  have alongside := lawful.alongside forms
  cases alongside with
  | literal token token' value =>
      apply Runs.pure lawful
      apply Value.related_self
      simp
  | reference same =>
      exact .get lawful same
  | assignment sameValue =>
      apply Runs.bind lawful (evaluators.evaluate sameValue)
      intro next result result' later values
      apply Runs.bind lawful
      · apply Runs.modify
        intro world world' worlds
        exact lawful.assigned worlds (lawful.forms_later later forms) values
      · intro last _ _ _ _
        exact .pure lawful .nil
  | conditional place sameTest sameConsequent sameAlternate =>
      apply Runs.bind lawful (evaluators.evaluate sameTest)
      intro next tested tested' later values
      apply Runs.bind lawful (.ofCause lawful values.asBoolean_sameCause place)
      rintro last holds - later' rfl
      have further := lawful.trans later later'
      cases holds with
      | true =>
          exact evaluators.evaluate (lawful.forms_later further sameConsequent)
      | false =>
          exact evaluators.evaluate (lawful.forms_later further sameAlternate)
  | lambda opening opening' parameters parameters' body body' =>
      exact .pure lawful (.callable (lawful.captured forms))
  | sequence opening opening' sameItems =>
      apply Runs.bind lawful (evaluators.evaluateAll lawful sameItems)
      intro next values values' later itemwise
      exact .pure lawful (.list itemwise)
  | printLine place sameValue =>
      apply Runs.bind lawful (evaluators.evaluate sameValue)
      intro next result result' later values
      have sameText := values.render_eq
      rw [sameText]
      apply Runs.bind lawful
        (.writeLine lawful (lawful.forms_later later forms) place _)
      intro last _ _ _ _
      exact .pure lawful .nil
  | operation operator place sameLeft sameRight =>
      apply Runs.bind lawful (evaluators.evaluate sameLeft)
      intro next left left' later leftValues
      apply Runs.bind lawful
        (evaluators.evaluate (lawful.forms_later later sameRight))
      intro last right right' laterStill rightValues
      have computed := operator.apply_sameCause
        (lawful.values_later laterStill leftValues) rightValues
      apply Runs.imp (.ofCause lawful computed place)
      intro final value value' toFinal values
      exact lawful.values_later toFinal values
  | call group group' same sameArguments =>
      have sites := lawful.site same
      have place := lawful.sitePlace sites
      apply Runs.bind lawful (.get lawful same)
      intro first target target' toFirst targets
      apply Runs.bind lawful
        (.ofCause lawful targets.asCallable_sameCause place)
      intro second callable callable' toSecond callables
      have sameArguments := sameArguments.imp fun _ _ =>
        lawful.forms_later (lawful.trans toFirst toSecond)
      apply Runs.bind lawful (evaluators.evaluateAll lawful sameArguments)
      intro third values values' toThird itemwise
      rw [itemwise.length_eq]
      apply Runs.bind lawful
      · apply Runs.modify
        intro world world' worlds
        exact lawful.recorded worlds (.called sites values'.length)
      · intro last _ _ toLast _
        apply evaluators.call scope scope' _ sites
        · exact itemwise.imp fun _ _ => lawful.values_later toLast
        · apply lawful.callables_later _ callables
          exact lawful.trans toSecond (lawful.trans toThird toLast)

theorem callWith
    (lawful : simulation.Lawful)
    (evaluators : simulation.Evaluators evaluator evaluator')
    {stage : Stage} {callable callable' : Callable}
    {site site' : CallSite} {arguments arguments' : List Value}
    (scope scope' : ScopeId)
    (callables : simulation.callables stage callable callable')
    (sites : simulation.sites site site')
    (same : List.Forall₂ (simulation.values stage) arguments arguments') :
    simulation.Runs stage simulation.values
      (evaluator.callWith Host.none callable site scope arguments)
      (evaluator'.callWith Host.none callable' site' scope' arguments') := by
  have place := lawful.sitePlace sites
  cases lawful.sameKind callables with
  | native name native =>
      cases native with
      | primitive primitive =>
          apply Runs.locate
          apply Runs.bind lawful
            (.ofVerdict lawful (primitive.reply_sameVerdict same) sites)
          intro next reply reply' later replies
          cases replies with
          | value values =>
              exact .pure lawful (lawful.values_later later values)
          | call callables arguments =>
              apply evaluators.call scope scope' _ sites
              · exact arguments.imp fun _ _ => lawful.values_later later
              · exact lawful.callables_later later callables
      | foreign key =>
          have runtime : Cause.IsRuntime (.unbound key) := nofun
          exact .failedAt lawful (lawful.runtime runtime) place
  | closure body body' defining defining' sameCount =>
      rw [Evaluator.callWith_closure, Evaluator.callWith_closure, ← sameCount]
      apply Runs.bind lawful
        (.ofVerdict lawful
          (CallSite.checkCount_sameVerdict _ same.length_eq) sites)
      intro first _ _ toFirst enough
      have callables := lawful.callables_later toFirst callables
      have same := same.imp fun _ _ => lawful.values_later toFirst
      apply Runs.bind lawful (.enter lawful callables same enough)
      intro second fresh fresh' toSecond bodies
      apply Runs.bind lawful
      · apply Runs.modify
        intro world world' worlds
        exact lawful.recorded worlds (.entered sites _)
      · intro third _ _ toThird _
        exact evaluators.evaluate (lawful.forms_later toThird bodies)

end Evaluators

end Evaluation

/-- Corresponding forms evaluate alike to any depth. -/
theorem Lawful.evaluators
    {simulation : Simulation Stage} (lawful : simulation.Lawful)
    {depth depth' : Nat} (enough : depth ≤ depth')
    (lockstep : simulation.lockstep → depth = depth') :
    simulation.Evaluators (evaluator Host.none depth)
      (evaluator Host.none depth') := by
  induction depth generalizing depth' with
  | zero =>
      constructor
      · intro stage form form' scope scope' forms world world' worlds
        apply Outcomes.exhausted
        intro same
        rw [← lockstep same]
        rfl
      · intro stage callable callable' site site' arguments arguments' scope
          scope' callables sites same world world' worlds
        apply Outcomes.exhausted
        intro same
        rw [← lockstep same]
        rfl
  | succ depth ih =>
      cases depth' with
      | zero =>
          contradiction
      | succ depth' =>
          have below : simulation.Evaluators (evaluator Host.none depth)
              (evaluator Host.none depth') := by
            apply ih (Nat.le_of_succ_le_succ enough)
            intro same
            exact Nat.succ.inj (lockstep same)
          exact ⟨below.evaluateWith lawful, below.callWith lawful⟩

end Simulation

end ScopedLisp
