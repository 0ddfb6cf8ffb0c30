import ScopedLisp.Proofs.ScopeGrowth

/-!
# The worlds that sessions pass through

An embedding program makes roots and children, binds names, installs the
primitives and runs sources.  `SessionStep` is one of these, and where it runs
a source it stops at any point of the run: `PassesThrough` lists the worlds on
the way, those inside of calls included, of runs that end and of runs that do
not.

All these worlds come from the empty one by acts alone (`grows_reaches`), and
the tasks that are under way are about scopes that exist.
-/

namespace ScopedLisp

/-! ## Sessions and the worlds they pass through -/

/-- The tasks that are performed while a source is run in a scope, to a depth. -/
inductive Performs (depth : Nat) (scope : ScopeId) (source : String)
    (world : World) (left : Nat) (task : Task) (start : World) : Prop where
  | intro {tokens : List Token} {form : Form}
      (lexed : tokenize source = .ok tokens)
      (parsed : Form.ofTokens tokens = .ok form)
      (nested : Nested depth (.evaluate form scope)
        ((world.record (.lexed tokens.length)).record (.parsed form.position))
        left task start)

/--
The worlds that running a source passes through: once it is split into tokens,
wherever a task starts or ends, and while parameters of a closure are bound.
-/
inductive PassesThrough (depth : Nat) (scope : ScopeId) (source : String)
    (world : World) : World → Prop where
  | lexed {tokens : List Token} (lexed : tokenize source = .ok tokens) :
      PassesThrough depth scope source world
        (world.record (.lexed tokens.length))
  | starts {left : Nat} {task : Task} {start : World}
      (performs : Performs depth scope source world left task start) :
      PassesThrough depth scope source world start
  | binds {left : Nat} {parameters : List Identifier} {body : Form}
      {defining : ScopeId} {site : CallSite} {caller : ScopeId}
      {arguments : List Value} {start : World}
      (performs : Performs depth scope source world left
        (.call (.closure parameters body defining) site caller arguments) start)
      (enough : arguments.length = parameters.length) (count : Nat) :
      PassesThrough depth scope source world
        ((start.addChild defining).defineAll start.nextScope
          (parameters.take count) arguments)
  | ends {left : Nat} {task : Task} {start after : World}
      (performs : Performs depth scope source world left task start)
      (ends : ((evaluator Host.none left).perform task start).world? =
        some after) :
      PassesThrough depth scope source world after

/-- What an embedding program can do next, and the worlds this passes through. -/
inductive SessionStep (world : World) : World → Prop where
  | root (setup : RootSetup) : SessionStep world (world.createRoot setup)
  | sharedRoot {sink : SinkId} (present : sink < world.sinks.size) :
      SessionStep world (world.addRootTo sink)
  | child {parent : ScopeId} (present : parent < world.nextScope) :
      SessionStep world (world.addChild parent)
  | set {scope : ScopeId} (present : scope < world.nextScope) (name : String)
      {value : Value} (held : world.Holds value) :
      SessionStep world (world.assign scope name value)
  | define {scope : ScopeId} (present : scope < world.nextScope)
      (name : String) {value : Value} (held : world.Holds value) :
      SessionStep world (world.define scope name value)
  | install {scope : ScopeId} (present : scope < world.nextScope) :
      SessionStep world (world.install scope)
  | interpret {depth : Nat} {scope : ScopeId} {source : String} {after : World}
      (present : scope < world.nextScope)
      (passes : PassesThrough depth scope source world after) :
      SessionStep world after

/-- The worlds that a session gets to from a world. -/
abbrev Reaches : World → World → Prop :=
  Relation.ReflTransGen SessionStep

/-- Where running a source ends, the session gets to. -/
theorem reaches_interpret {depth : Nat} {scope : ScopeId} {source : String}
    {world after : World} (present : scope < world.nextScope)
    (ends : (interpret Host.none depth scope source world).world? =
      some after) :
    Reaches world after := by
  rcases lexed : tokenize source with error | tokens
  · have same : world = after := by
      simpa [interpret, Evaluator.interpret, lexed, bind, Run.bind,
        Run.ofError, Run.fail, Outcome.world?] using ends
    rw [same]
  · rcases parsed : Form.ofTokens tokens with error | form
    · have same : world.record (.lexed tokens.length) = after := by
        simpa [interpret, Evaluator.interpret, lexed, parsed, bind, Run.bind,
          Run.ofError, Run.fail, Run.pure, Run.record, Run.modify,
          Outcome.world?] using ends
      rw [← same]
      have passes : PassesThrough depth scope source world _ := .lexed lexed
      exact .single (.interpret present passes)
    · have evaluated : ((evaluator Host.none depth).perform
          (.evaluate form scope) ((world.record (.lexed tokens.length)).record
            (.parsed form.position))).world? = some after := by
        simpa [interpret, Evaluator.interpret, lexed, parsed, bind, Run.bind,
          Run.ofError, Run.pure, Run.record, Run.modify,
          Evaluator.perform] using ends
      have performs : Performs depth scope source world depth _ _ :=
        .intro lexed parsed (.here depth (.evaluate form scope) _)
      exact .single (.interpret present (.ends performs evaluated))

namespace World

/-- Whether a task is about existing scopes alone. -/
def HoldsTask (world : World) : Task → Prop
  | .evaluate _ scope => scope < world.nextScope
  | .call callable _ _ arguments =>
    callable.Within (· < world.nextScope) ∧
      ∀ argument ∈ arguments, world.Holds argument

theorem holdsTask_iff {world : World} {task : Task} :
    growthPolicy.task world task ↔ world.HoldsTask task := by
  cases task with
  | evaluate form scope => exact ⟨And.right, fun active => ⟨trivial, active⟩⟩
  | call callable site scope arguments =>
      exact ⟨fun allowed => ⟨allowed.1, allowed.2.2⟩,
        fun held => ⟨held.1, trivial, held.2⟩⟩

/-- A task nested in one about existing scopes is such a task, in a grown world. -/
theorem grows_nested {world start : World} {depth left : Nat}
    {task inner : Task} (sound : world.Sound) (held : world.HoldsTask task)
    (nested : Nested depth task world left inner start) :
    world.Grows start ∧ start.HoldsTask inner := by
  rcases growthPolicy_lawful.nested sound (holdsTask_iff.mpr held) nested with
    ⟨changes, allowed⟩
  exact ⟨growthPolicy_changes_grow changes, holdsTask_iff.mp allowed⟩

/-- A task about existing scopes ends in a grown world, with a value about such. -/
theorem grows_perform {world after : World} {depth : Nat} {task : Task}
    (sound : world.Sound) (held : world.HoldsTask task)
    (ends : ((evaluator Host.none depth).perform task world).world? =
      some after) :
    world.Grows after ∧
      ∀ value, (evaluator Host.none depth).perform task world =
        .done value after → after.Holds value := by
  have follows := growthPolicy_lawful.perform_follows sound
    (holdsTask_iff.mpr held) depth
  refine ⟨growthPolicy_changes_grow (follows.changes ends), ?_⟩
  intro value isDone
  rw [isDone] at follows
  cases follows with
  | done changes holds => exact holds

/-- A source that is run in an existing scope performs tasks about such scopes. -/
theorem grows_performs {world start : World} {depth left : Nat}
    {scope : ScopeId} {source : String} {task : Task} (sound : world.Sound)
    (present : scope < world.nextScope)
    (performs : Performs depth scope source world left task start) :
    world.Grows start ∧ start.HoldsTask task := by
  rcases performs with @⟨tokens, form, lexed, parsed, nested⟩
  have noted : world.Grows ((world.record (.lexed tokens.length)).record
      (.parsed form.position)) :=
    .tail (.single (.noted _)) (.noted _)
  have starts : ((world.record (.lexed tokens.length)).record
      (.parsed form.position)).HoldsTask (.evaluate form scope) := present
  rcases grows_nested (noted.sound sound) starts nested with ⟨grows, held⟩
  exact ⟨noted.trans grows, held⟩

theorem grows_passes {world after : World} {depth : Nat} {scope : ScopeId}
    {source : String} (sound : world.Sound)
    (present : scope < world.nextScope)
    (passes : PassesThrough depth scope source world after) :
    world.Grows after := by
  cases passes with
  | lexed lexed => exact .single (.noted _)
  | starts performs => exact (grows_performs sound present performs).1
  | binds performs enough count =>
      rcases grows_performs sound present performs with ⟨grows, held⟩
      exact grows.trans (grows_enter _ held.1 held.2)
  | ends performs ends =>
      rcases grows_performs sound present performs with ⟨grows, held⟩
      exact grows.trans (grows_perform (grows.sound sound) held ends).1

/-- One step of a session grows a sound world. -/
theorem grows_sessionStep {world after : World} (sound : world.Sound)
    (step : SessionStep world after) : world.Grows after := by
  cases step with
  | root setup => exact grows_createRoot world setup
  | sharedRoot present => exact .single (.rootShared present)
  | child present => exact .single (.childAdded present)
  | set present name held => exact grows_assign _ name held
  | define present name held => exact .single (.bound _ name held)
  | install present => exact grows_install world _
  | interpret present passes => exact grows_passes sound present passes

theorem grows_reaches {world after : World} (sound : world.Sound)
    (reaches : Reaches world after) : world.Grows after := by
  induction reaches with
  | refl => exact .refl
  | tail _ step ih => exact ih.trans (grows_sessionStep (ih.sound sound) step)

end World

end ScopedLisp
