import Mathlib.Logic.Relation
import ScopedLisp.Proofs.Simulation

/-!
# What evaluation does to the world

Evaluation changes a world in four ways only: it notes something down, prints,
enters a closure or carries out an assignment.  A `Policy` fixes which scopes
may be active, which callables may be held and which forms may be evaluated;
`Policy.Change` lists the changes that this leaves.  If every change keeps the
policy, then evaluation makes such changes alone, whether it succeeds or fails,
and its errors are errors of running at places of evaluated forms.

This is a comparison of an evaluation with itself, and so it also shows that
more depth does not change how an evaluation ends.
-/

namespace ScopedLisp

/-- The world at the end of a run that ends. -/
def Outcome.world? {α : Type} : Outcome α → Option World
  | .done _ world => some world
  | .failed _ world => some world
  | .exhausted => none

/-- What comes back from a run that ends, and the world at its end. -/
def Outcome.reply? {α : Type} : Outcome α → Option (Except Error α × World)
  | .done value world => some (.ok value, world)
  | .failed error world => some (.error error, world)
  | .exhausted => none

theorem Outcome.world?_of_reply?
    {α : Type} {outcome : Outcome α} {reply : Except Error α} {world : World}
    (ends : outcome.reply? = some (reply, world)) :
    outcome.world? = some world := by
  cases outcome <;> cases ends <;> rfl

theorem Outcome.ne_exhausted_of_reply?
    {α : Type} {outcome : Outcome α} {result : Except Error α × World}
    (ends : outcome.reply? = some result) : outcome ≠ .exhausted := by
  rintro rfl
  cases ends

/-- The parts of a form that are evaluated in the scope of the form. -/
def Form.parts : Form → List Form
  | .literal _ _ | .variable _ | .lambda _ _ _ => []
  | .assignment _ value => [value]
  | .conditional _ test consequent alternate => [test, consequent, alternate]
  | .sequence _ items => items
  | .printLine _ value => [value]
  | .operation _ _ left right => [left, right]
  | .call _ _ arguments => arguments

/-- A form corresponds to itself if its names and its parts do. -/
theorem Form.alongside_self
    {places : Position → Position → Prop}
    {names : Identifier → Identifier → Prop} {forms : Form → Form → Prop}
    {form : Form} (place : places form.position form.position)
    (sameNames : ∀ name, name.position = form.position → names name name)
    (sameParts : ∀ part ∈ form.parts, forms part part) :
    form.Alongside places names forms form := by
  cases form with
  | literal token value => exact .literal token token value
  | «variable» name => exact .reference (sameNames name rfl)
  | assignment target value =>
      exact .assignment (sameParts value (by simp [parts]))
  | conditional opening test consequent alternate =>
      exact .conditional place (sameParts test (by simp [parts]))
        (sameParts consequent (by simp [parts]))
        (sameParts alternate (by simp [parts]))
  | lambda opening parameters body => exact .lambda _ _ _ _ _ _
  | sequence opening items =>
      exact .sequence _ _ (List.forall₂_same.mpr sameParts)
  | printLine opening value =>
      exact .printLine place (sameParts value (by simp [parts]))
  | operation operator word left right =>
      exact .operation operator place (sameParts left (by simp [parts]))
        (sameParts right (by simp [parts]))
  | call name group arguments =>
      exact .call _ _ (sameNames name rfl) (List.forall₂_same.mpr sameParts)

/-- What may occur in an evaluation. -/
structure Policy where
  world : World → Prop
  /-- The scopes that forms are evaluated in. -/
  active : World → ScopeId → Prop
  callable : World → Callable → Prop
  form : Form → Prop
  /-- The places of errors. -/
  place : Position → Prop

namespace Policy

section Changes

variable (policy : Policy)

/-- Values that hold no other callables than a policy allows. -/
def value (world : World) (value : Value) : Prop :=
  ∀ callable ∈ value.callables, policy.callable world callable

/-- The changes of a world that a policy allows. -/
inductive Change : World → World → Prop where
  | recorded (world : World) (entry : LogRecord) :
      Change world (world.record entry)
  | printed {world : World} {scope : ScopeId}
      (active : policy.active world scope) (line : String) :
      Change world (world.afterLine scope line)
  | assigned {world : World} {scope : ScopeId} {target : Identifier}
      {form : Form} {result : Value}
      (active : policy.active world scope)
      (allowed : policy.form (.assignment target form))
      (held : policy.value world result) :
      Change world (world.assign scope target.text result)
  | entered {world : World} {parameters : List Identifier} {body : Form}
      {defining : ScopeId} {arguments : List Value}
      (allowed : policy.callable world (.closure parameters body defining))
      (held : ∀ argument ∈ arguments, policy.value world argument) :
      Change world (world.enter defining parameters arguments)

/-- Any number of allowed changes, one after the other. -/
abbrev Changes : World → World → Prop :=
  Relation.ReflTransGen policy.Change

/-- What keeps evaluation within a policy. -/
structure Lawful : Prop where
  change {world world' : World} :
    policy.world world → policy.Change world world' → policy.world world'
  active_change {world world' : World} {scope : ScopeId} :
    policy.Change world world' → policy.active world scope →
      policy.active world' scope
  callable_change {world world' : World} {callable : Callable} :
    policy.Change world world' → policy.callable world callable →
      policy.callable world' callable
  parts {form part : Form} :
    policy.form form → part ∈ form.parts → policy.form part
  place {form : Form} : policy.form form → policy.place form.position
  found {world : World} {scope : ScopeId} {name : String} {value : Value} :
    policy.world world → policy.active world scope →
    world.heap.value? scope name = some value → policy.value world value
  captured {world : World} {opening : Position}
    {parameters : List Identifier} {body : Form} {scope : ScopeId} :
    policy.form (.lambda opening parameters body) →
    policy.active world scope →
      policy.callable world (.closure parameters body scope)
  body {world : World} {parameters : List Identifier} {body : Form}
    {defining : ScopeId} :
    policy.callable world (.closure parameters body defining) →
      policy.form body
  fresh {world : World} {parameters : List Identifier} {body : Form}
    {defining : ScopeId} (arguments : List Value) :
    policy.world world →
    policy.callable world (.closure parameters body defining) →
      policy.active (world.enter defining parameters arguments)
        world.nextScope

/-- The comparison of evaluations within a policy with themselves. -/
def diagonal : Simulation World where
  later := policy.Changes
  worlds stage world world' :=
    world = stage ∧ world' = stage ∧ policy.world stage
  forms stage form scope form' scope' :=
    form = form' ∧ scope = scope' ∧
      policy.form form ∧ policy.active stage scope
  names stage name scope name' scope' :=
    name = name' ∧ scope = scope' ∧
      policy.place name.position ∧ policy.active stage scope
  callables stage callable callable' :=
    callable = callable' ∧ policy.callable stage callable
  sites site site' := site = site' ∧ policy.place site.position
  causes cause cause' := cause = cause' ∧ cause.IsRuntime
  places position position' := position = position' ∧ policy.place position
  lockstep := False

end Changes

variable {policy : Policy}

/-- A change makes no scope unmade. -/
theorem Change.nextScope_le
    {before after : World} (change : policy.Change before after) :
    before.nextScope ≤ after.nextScope := by
  cases change with
  | recorded entry => exact Nat.le_refl _
  | printed active line => simp
  | assigned active allowed held => simp
  | entered allowed held => simp

/-- What a change stores was stored there before or is a value that may be held. -/
theorem Change.stored
    {before after : World} (change : policy.Change before after)
    {scope : ScopeId} {name : String} {value : Value}
    (bound : after.heap.local? scope name = some value) :
    before.heap.local? scope name = some value ∨
      policy.value before value := by
  cases change with
  | recorded entry => exact .inl bound
  | printed active line =>
      rw [World.heap_afterLine] at bound
      exact .inl bound
  | assigned active allowed held =>
      rcases World.local?_assign_cases bound with old | ⟨-, -, rfl⟩
      · exact .inl old
      · exact .inr held
  | entered allowed held =>
      rcases World.local?_enter_cases bound with old | ⟨-, member⟩
      · exact .inl old
      · exact .inr (held value member)

/-- Where a chain goes on, it did so before, or leads to where a closure was made. -/
theorem Change.goesOn
    {before after : World} (change : policy.Change before after)
    {scope outer : ScopeId} (goesOn : after.heap.outer? scope = some outer) :
    before.heap.outer? scope = some outer ∨
      ∃ parameters body,
        policy.callable before (.closure parameters body outer) := by
  cases change with
  | recorded entry => exact .inl goesOn
  | printed active line =>
      rw [World.heap_afterLine] at goesOn
      exact .inl goesOn
  | @assigned handle target form result active allowed held =>
      have hangs := before.heap.link?_assign handle scope target.text result
      rw [World.assign, Heap.outer?_congr hangs] at goesOn
      exact .inl goesOn
  | @entered parameters body defining arguments allowed held =>
      have hangs := before.link?_enter defining parameters arguments scope
      by_cases fresh : scope = before.nextScope
      · have links := ((Heap.outer?_eq_some_iff _ _ _).mp goesOn).1
        rw [hangs, if_pos fresh] at links
        cases links
        exact .inr ⟨parameters, body, allowed⟩
      · rw [if_neg fresh] at hangs
        rw [Heap.outer?_congr hangs] at goesOn
        exact .inl goesOn

namespace Lawful

theorem world_changes
    (lawful : policy.Lawful) {world world' : World}
    (allowed : policy.world world) (changes : policy.Changes world world') :
    policy.world world' := by
  induction changes with
  | refl => exact allowed
  | tail _ change ih => exact lawful.change ih change

theorem active_changes
    (lawful : policy.Lawful) {world world' : World} {scope : ScopeId}
    (changes : policy.Changes world world')
    (active : policy.active world scope) : policy.active world' scope := by
  induction changes with
  | refl => exact active
  | tail _ change ih => exact lawful.active_change change ih

theorem callable_changes
    (lawful : policy.Lawful) {world world' : World} {callable : Callable}
    (changes : policy.Changes world world')
    (allowed : policy.callable world callable) :
    policy.callable world' callable := by
  induction changes with
  | refl => exact allowed
  | tail _ change ih => exact lawful.callable_change change ih

end Lawful

theorem diagonal_values_iff {world : World} {value value' : Value} :
    policy.diagonal.values world value value' ↔
      value = value' ∧ policy.value world value :=
  Value.related_eq_iff

theorem diagonal_arguments_iff
    {world : World} {arguments arguments' : List Value} :
    List.Forall₂ (policy.diagonal.values world) arguments arguments' ↔
      arguments = arguments' ∧
        ∀ argument ∈ arguments, policy.value world argument := by
  constructor
  · intro same
    have equal : arguments = arguments' := by
      have each := same.imp fun _ _ both => (diagonal_values_iff.mp both).1
      exact List.forall₂_eq_eq_eq ▸ each
    subst equal
    refine ⟨rfl, ?_⟩
    intro argument member
    have related := List.forall₂_same.mp same argument member
    exact (diagonal_values_iff.mp related).2
  · rintro ⟨rfl, held⟩
    rw [List.forall₂_same]
    intro argument member
    exact diagonal_values_iff.mpr ⟨rfl, held argument member⟩

/-- A form within a policy corresponds to itself, part by part. -/
theorem Lawful.alongside
    (lawful : policy.Lawful) {stage : World} {form : Form} {scope : ScopeId}
    (allowed : policy.form form) (active : policy.active stage scope) :
    form.Alongside policy.diagonal.places
      (fun name name' => policy.diagonal.names stage name scope name' scope)
      (fun part part' => policy.diagonal.forms stage part scope part' scope)
      form := by
  have place := lawful.place allowed
  apply Form.alongside_self
  · exact ⟨rfl, place⟩
  · intro name same
    exact ⟨rfl, rfl, same ▸ place, active⟩
  · intro part member
    exact ⟨rfl, rfl, lawful.parts allowed member, active⟩

theorem Lawful.diagonal
    (lawful : policy.Lawful) : policy.diagonal.Lawful where
  refl _ := Relation.ReflTransGen.refl
  trans := Relation.ReflTransGen.trans
  forms_later := by
    rintro stage next form _ scope _ later ⟨rfl, rfl, allowed, active⟩
    exact ⟨rfl, rfl, allowed, lawful.active_changes later active⟩
  callables_later := by
    rintro stage next callable _ later ⟨rfl, allowed⟩
    exact ⟨rfl, lawful.callable_changes later allowed⟩
  alongside := by
    rintro stage form _ scope _ ⟨rfl, rfl, allowed, active⟩
    exact lawful.alongside allowed active
  sameKind := by
    rintro stage callable _ ⟨rfl, allowed⟩
    exact .refl callable
  runtime runtime := ⟨rfl, runtime⟩
  site := by
    rintro stage name _ scope _ ⟨rfl, rfl, place, active⟩
    exact ⟨rfl, place⟩
  sitePlace := by
    rintro site _ ⟨rfl, place⟩
    exact ⟨rfl, place⟩
  siteCause := by
    rintro site _ cause ⟨rfl, place⟩ runtime
    exact ⟨rfl, Cause.isRuntime_about site.name runtime⟩
  found := by
    rintro _ _ world name _ scope _ ⟨rfl, rfl, allowed⟩
      ⟨rfl, rfl, place, active⟩
    apply Value.optionRel_self
    intro value result
    exact diagonal_values_iff.mpr ⟨rfl, lawful.found allowed active result⟩
  captured := by
    rintro stage _ _ _ _ _ _ scope _ ⟨same, rfl, allowed, active⟩
    cases same
    exact ⟨rfl, lawful.captured allowed active⟩
  assigned := by
    rintro _ _ world _ _ _ _ scope _ _ _ ⟨rfl, rfl, allowed⟩
      ⟨same, rfl, assignment, active⟩ values
    cases same
    rcases diagonal_values_iff.mp values with ⟨rfl, held⟩
    have change := Change.assigned active assignment held
    exact ⟨_, .single change, rfl, rfl, lawful.change allowed change⟩
  printed := by
    rintro _ _ world _ _ _ _ scope _ line ⟨rfl, rfl, allowed⟩
      ⟨same, rfl, form, active⟩
    have change := Change.printed active line
    exact ⟨rfl, _, .single change, rfl, rfl, lawful.change allowed change⟩
  recorded := by
    rintro _ _ world _ _ ⟨rfl, rfl, allowed⟩ alongside
    rcases alongside with ⟨⟨rfl, place⟩, count⟩ | ⟨⟨rfl, place⟩, count⟩
    all_goals
      exact ⟨_, .single (.recorded world _), rfl, rfl,
        lawful.change allowed (.recorded world _)⟩
  entered := by
    rintro _ _ world _ _ _ _ _ _ arguments _ ⟨rfl, rfl, allowed⟩
      ⟨same, callable⟩ values enough
    cases same
    rcases diagonal_arguments_iff.mp values with ⟨rfl, held⟩
    have change := Change.entered callable held
    refine ⟨_, .single change, ⟨rfl, rfl, lawful.change allowed change⟩, ?_⟩
    exact ⟨rfl, rfl, lawful.body callable,
      lawful.fresh arguments allowed callable⟩

/-! ## How evaluation ends -/

/-- Ends that a policy allows an evaluation that starts from a world. -/
inductive Follows (policy : Policy) (before : World) : Outcome Value → Prop where
  | done {after : World} {value : Value}
      (changes : policy.Changes before after)
      (held : policy.value after value) :
      Follows policy before (.done value after)
  | failed {after : World} {cause : Cause} {position : Position}
      (changes : policy.Changes before after)
      (runtime : cause.IsRuntime) (place : policy.place position) :
      Follows policy before (.failed (.located cause position) after)
  | exhausted : Follows policy before .exhausted

theorem follows_of_outcomes
    {world : World} {outcome outcome' : Outcome Value}
    (same : policy.diagonal.Outcomes world policy.diagonal.values
      outcome outcome') :
    policy.Follows world outcome ∧
      (outcome ≠ .exhausted → outcome' = outcome) := by
  cases same with
  | done later worlds values =>
      rcases worlds with ⟨rfl, rfl, allowed⟩
      rcases diagonal_values_iff.mp values with ⟨rfl, held⟩
      exact ⟨.done later held, fun _ => rfl⟩
  | failed later worlds errors =>
      rcases worlds with ⟨rfl, rfl, allowed⟩
      rcases errors with ⟨⟨rfl, runtime⟩, ⟨rfl, place⟩⟩
      exact ⟨.failed later runtime place, fun _ => rfl⟩
  | exhausted both =>
      exact ⟨.exhausted, fun ended => absurd rfl ended⟩

/-- Evaluating an allowed form follows the policy, and more depth ends it alike. -/
theorem Lawful.evaluate_follows
    (lawful : policy.Lawful) {world : World} {form : Form} {scope : ScopeId}
    (allowed : policy.world world) (allowedForm : policy.form form)
    (active : policy.active world scope) {depth depth' : Nat}
    (enough : depth ≤ depth') :
    policy.Follows world (evaluate Host.none depth form scope world) ∧
      (evaluate Host.none depth form scope world ≠ .exhausted →
        evaluate Host.none depth' form scope world =
          evaluate Host.none depth form scope world) := by
  have evaluators := lawful.diagonal.evaluators enough False.elim
  exact follows_of_outcomes <| evaluators.evaluate
    ⟨rfl, rfl, allowedForm, active⟩ world world ⟨rfl, rfl, allowed⟩

/-- Calling an allowed callable follows the policy, and more depth ends it alike. -/
theorem Lawful.call_follows
    (lawful : policy.Lawful) {world : World} {callable : Callable}
    {site : CallSite} {arguments : List Value} (scope : ScopeId)
    (allowed : policy.world world)
    (allowedCallable : policy.callable world callable)
    (place : policy.place site.position)
    (held : ∀ argument ∈ arguments, policy.value world argument)
    {depth depth' : Nat} (enough : depth ≤ depth') :
    policy.Follows world
        (call Host.none depth callable site scope arguments world) ∧
      (call Host.none depth callable site scope arguments world ≠ .exhausted →
        call Host.none depth' callable site scope arguments world =
          call Host.none depth callable site scope arguments world) := by
  have evaluators := lawful.diagonal.evaluators enough False.elim
  exact follows_of_outcomes <| evaluators.call scope scope ⟨rfl, allowedCallable⟩
    ⟨rfl, place⟩ (diagonal_arguments_iff.mpr ⟨rfl, held⟩) world world
    ⟨rfl, rfl, allowed⟩

theorem Follows.after
    {before middle : World} {outcome : Outcome Value}
    (follows : policy.Follows middle outcome)
    (changes : policy.Changes before middle) :
    policy.Follows before outcome := by
  cases follows with
  | done further held => exact .done (changes.trans further) held
  | failed further runtime place =>
      exact .failed (changes.trans further) runtime place
  | exhausted => exact .exhausted

theorem Follows.changes
    {before after : World} {outcome : Outcome Value}
    (follows : policy.Follows before outcome)
    (ends : outcome.world? = some after) : policy.Changes before after := by
  cases follows with
  | done changes held =>
      cases ends
      exact changes
  | failed changes runtime place =>
      cases ends
      exact changes
  | exhausted => cases ends

theorem Lawful.call_changes
    (lawful : policy.Lawful) {world after : World} {depth : Nat}
    {callable : Callable} {site : CallSite} {scope : ScopeId}
    {arguments : List Value} (allowed : policy.world world)
    (allowedCallable : policy.callable world callable)
    (place : policy.place site.position)
    (held : ∀ argument ∈ arguments, policy.value world argument)
    (ends : (call Host.none depth callable site scope arguments
      world).world? = some after) :
    policy.Changes world after :=
  have follows := lawful.call_follows scope allowed allowedCallable place held
    (Nat.le_refl depth)
  follows.1.changes ends

end Policy

/-! ## Whole sources -/

/-- The one form that a source holds. -/
def Form.ofSource (source : String) : Except Error Form :=
  tokenize source >>= Form.ofTokens

section Interpret

variable {host : Host} {depth : Nat} {scope : ScopeId} {source : String}
variable {tokens : List Token} {world : World} {error : Error}

theorem interpret_of_unlexed (unlexed : tokenize source = .error error) :
    interpret host depth scope source world = .failed error world := by
  simp [interpret, Evaluator.interpret, unlexed, bind, Run.bind, Run.ofError,
    Run.fail]

theorem interpret_of_unparsed (lexed : tokenize source = .ok tokens)
    (unparsed : Form.ofTokens tokens = .error error) :
    interpret host depth scope source world =
      .failed error (world.record (.lexed tokens.length)) := by
  simp [interpret, Evaluator.interpret, lexed, unparsed, bind, Run.bind,
    Run.ofError, Run.fail, Run.pure, Run.record, Run.modify]

theorem interpret_of_parsed {form : Form} (lexed : tokenize source = .ok tokens)
    (parsed : Form.ofTokens tokens = .ok form) :
    interpret host depth scope source world =
      evaluate host depth form scope
        ((world.record (.lexed tokens.length)).record
          (.parsed form.position)) := by
  simp [interpret, Evaluator.interpret, lexed, parsed, bind, Run.bind,
    Run.ofError, Run.pure, Run.record, Run.modify, evaluator]

end Interpret

/-- A source is read whole before its form is evaluated; only the log sees the reading. -/
theorem interpret_cases
    (host : Host) (scope : ScopeId) (source : String) (world : World) :
    (∃ (error : Error) (entries : List LogRecord),
        Form.ofSource source = .error error ∧
        ∀ depth, interpret host depth scope source world =
          .failed error (entries.foldl World.record world)) ∨
      ∃ (form : Form) (entries : List LogRecord),
        Form.ofSource source = .ok form ∧
        ∀ depth, interpret host depth scope source world =
          evaluate host depth form scope (entries.foldl World.record world) := by
  rcases lexed : tokenize source with error | tokens
  · refine .inl ⟨error, [], ?_, fun depth => interpret_of_unlexed lexed⟩
    simp [Form.ofSource, lexed, bind, Except.bind]
  · rcases parsed : Form.ofTokens tokens with error | form
    · refine .inl ⟨error, [.lexed tokens.length], ?_,
        fun depth => interpret_of_unparsed lexed parsed⟩
      simp [Form.ofSource, lexed, parsed, bind, Except.bind]
    · refine .inr ⟨form, [.lexed tokens.length, .parsed form.position], ?_,
        fun depth => interpret_of_parsed lexed parsed⟩
      simp [Form.ofSource, lexed, parsed, bind, Except.bind]

theorem Policy.changes_records
    {policy : Policy} (world : World) (entries : List LogRecord) :
    policy.Changes world (entries.foldl World.record world) := by
  induction entries generalizing world with
  | nil => exact .refl
  | cons entry entries ih =>
      exact .head (.recorded world entry) (ih (world.record entry))

/-- Once a source is read, evaluating it follows the policy. -/
theorem Policy.Lawful.interpret_follows
    {policy : Policy} (lawful : policy.Lawful) {world : World}
    {scope : ScopeId} {source : String} {form : Form} (depth : Nat)
    (allowed : policy.world world) (active : policy.active world scope)
    (read : Form.ofSource source = .ok form)
    (allowedForm : policy.form form) :
    policy.Follows world (interpret Host.none depth scope source world) := by
  rcases interpret_cases Host.none scope source world with
    ⟨error, entries, refused, result⟩ | ⟨form, entries, read', result⟩
  · rw [read] at refused
    cases refused
  · rw [read] at read'
    cases read'
    have records : policy.Changes world (entries.foldl World.record world) :=
      changes_records world entries
    have follows := lawful.evaluate_follows
      (lawful.world_changes allowed records) allowedForm
      (lawful.active_changes records active) (Nat.le_refl depth)
    rw [result depth]
    exact follows.1.after records

theorem Policy.Lawful.interpret_changes
    {policy : Policy} (lawful : policy.Lawful) {world after : World}
    {depth : Nat} {scope : ScopeId} {source : String}
    (allowed : policy.world world) (active : policy.active world scope)
    (allowedForm : ∀ form, Form.ofSource source = .ok form →
      policy.form form)
    (ends : (interpret Host.none depth scope source world).world? =
      some after) :
    policy.Changes world after := by
  rcases interpret_cases Host.none scope source world with
    ⟨error, entries, refused, result⟩ | ⟨form, entries, read, result⟩
  · rw [result depth] at ends
    cases ends
    exact changes_records world entries
  · have follows := lawful.interpret_follows depth allowed active read
      (allowedForm form read)
    exact follows.changes ends

/-! ## More depth -/

/-- The policy that allows everything. -/
def Policy.unrestricted : Policy where
  world _ := True
  active _ _ := True
  callable _ _ := True
  form _ := True
  place _ := True

theorem Policy.unrestricted_lawful : Policy.unrestricted.Lawful where
  change _ _ := trivial
  active_change _ _ := trivial
  callable_change _ _ := trivial
  parts _ _ := trivial
  place _ := trivial
  found _ _ _ _ _ := trivial
  captured _ _ := trivial
  body _ := trivial
  fresh _ _ _ := trivial

theorem evaluate_of_le
    {depth depth' : Nat} {form : Form} {scope : ScopeId} {world : World}
    (enough : depth ≤ depth')
    (ends : evaluate Host.none depth form scope world ≠ .exhausted) :
    evaluate Host.none depth' form scope world =
      evaluate Host.none depth form scope world :=
  (Policy.unrestricted_lawful.evaluate_follows trivial trivial trivial
    enough).2 ends

/-- More depth does not change how reading and evaluating a source ends. -/
theorem interpret_of_le
    {depth depth' : Nat} {scope : ScopeId} {source : String} {world : World}
    (enough : depth ≤ depth')
    (ends : interpret Host.none depth scope source world ≠ .exhausted) :
    interpret Host.none depth' scope source world =
      interpret Host.none depth scope source world := by
  rcases interpret_cases Host.none scope source world with
    ⟨error, entries, refused, result⟩ | ⟨form, entries, read, result⟩
  · rw [result depth, result depth']
  · rw [result depth] at ends
    rw [result depth, result depth']
    exact evaluate_of_le enough ends

end ScopedLisp
