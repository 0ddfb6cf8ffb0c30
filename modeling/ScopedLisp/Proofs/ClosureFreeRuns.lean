import Mathlib.Data.Prod.Lex
import ScopedLisp.Proofs.AccessibleScopes
import ScopedLisp.Proofs.LayoutIndependence
import ScopedLisp.Proofs.SessionWorlds
import ScopedLisp.Proofs.Sessions
import ScopedLisp.Proofs.SettledTasks

/-!
# Runs without closures

Where no closure can be got to, a form without lambdas makes none either, and
evaluation only calls natives.  Then every task that a task asks for narrows it
(`Task.Narrows`): evaluating a form goes on to its parts or to a call of a
native, and the one native that calls another one, `apply`, hands on the items
of a list that it was given.  What narrows is well-founded, forms before lists
(`Task.narrows_wellFounded`), and so all such tasks settle.
-/

namespace ScopedLisp

/-! ## Forms without lambdas -/

namespace Form

/-- Whether a form is no lambda and holds none, at any depth. -/
def isLambdaFree : Form → Bool
  | .literal _ _ | .variable _ => true
  | .assignment _ value => value.isLambdaFree
  | .conditional _ test consequent alternate =>
    test.isLambdaFree && consequent.isLambdaFree && alternate.isLambdaFree
  | .lambda _ _ _ => false
  | .sequence _ items => areLambdaFree items
  | .printLine _ value => value.isLambdaFree
  | .operation _ _ left right => left.isLambdaFree && right.isLambdaFree
  | .call _ _ arguments => areLambdaFree arguments
where
  /-- Whether forms hold no lambdas. -/
  areLambdaFree : List Form → Bool
    | [] => true
    | form :: forms => form.isLambdaFree && areLambdaFree forms

theorem areLambdaFree_eq_all (forms : List Form) :
    isLambdaFree.areLambdaFree forms = forms.all isLambdaFree := by
  induction forms with
  | nil => rfl
  | cons form forms ih => rw [isLambdaFree.areLambdaFree, ih, List.all_cons]

theorem isLambdaFree_of_part {form part : Form}
    (lambdaFree : form.isLambdaFree = true) (isPart : part ∈ form.parts) :
    part.isLambdaFree = true := by
  cases form with
  | sequence opening items =>
      rw [isLambdaFree, areLambdaFree_eq_all] at lambdaFree
      exact List.all_eq_true.mp lambdaFree part isPart
  | call name group arguments =>
      rw [isLambdaFree, areLambdaFree_eq_all] at lambdaFree
      exact List.all_eq_true.mp lambdaFree part isPart
  | _ =>
      simp only [parts, List.mem_cons, List.not_mem_nil, or_false] at isPart
        <;> grind [isLambdaFree]

theorem sizeOf_lt_of_part {form part : Form} (isPart : part ∈ form.parts) :
    sizeOf part < sizeOf form := by
  cases form with
  | sequence opening items =>
      have inside := List.sizeOf_lt_of_mem isPart
      rw [parts] at inside
      simp only [sequence.sizeOf_spec]
      omega
  | call name group arguments =>
      have inside := List.sizeOf_lt_of_mem isPart
      rw [parts] at inside
      simp only [call.sizeOf_spec]
      omega
  | _ =>
      simp only [parts, List.mem_cons, List.not_mem_nil, or_false] at isPart
        <;> grind

end Form

/-! ## Tasks that narrow -/

namespace Task

/--
One task narrows another: it evaluates a part of the form, or it calls a native
for the form, or it calls a native with the items of a list, for a call of
`apply` with the native and that list.
-/
inductive Narrows : Task → Task → Prop where
  | part {form part : Form} (isPart : part ∈ form.parts) (scope : ScopeId) :
      Narrows (.evaluate part scope) (.evaluate form scope)
  | called (name : Identifier) (group : Position) (arguments : List Form)
      (key : String) (native : Native) (scope : ScopeId)
      (values : List Value) :
      Narrows (.call (.native key native) (.ofIdentifier name) scope values)
        (.evaluate (.call name group arguments) scope)
  | applied (name key : String) (native : Native) (site : CallSite)
      (scope : ScopeId) (items : List Value) :
      Narrows (.call (.native key native) site scope items)
        (.call (.native name (.primitive .apply)) site scope
          [.callable (.native key native), .list items])

/-- The size of the form, and then that of the arguments. -/
noncomputable def extent : Task → Nat ×ₗ Nat
  | .evaluate form _ => toLex (sizeOf form, 0)
  | .call _ _ _ arguments => toLex (0, sizeOf arguments)

theorem Narrows.extent_lt {next task : Task} (narrows : next.Narrows task) :
    next.extent < task.extent := by
  cases narrows with
  | part isPart scope =>
      exact Prod.Lex.left _ _ (Form.sizeOf_lt_of_part isPart)
  | called name group arguments key native scope values =>
      exact Prod.Lex.left _ _ (by simp only [Form.call.sizeOf_spec]; omega)
  | applied name key native site scope items =>
      refine Prod.Lex.right _ ?_
      simp only [List.cons.sizeOf_spec, Value.list.sizeOf_spec]
      omega

theorem narrows_wellFounded : WellFounded Narrows :=
  Subrelation.wf Narrows.extent_lt (InvImage.wf extent wellFounded_lt)

end Task

/-! ## Regions without closures -/

/-- Whether a value holds no closure. -/
abbrev Value.HoldsNatives (value : Value) : Prop :=
  value.Within fun _ => False

namespace World

/-- Whether evaluation in a scope can get to no closure. -/
def LacksClosures (world : World) (start : ScopeId) : Prop :=
  ∀ scope, world.Accessible start scope → ∀ name value,
    world.heap.local? scope name = some value → value.HoldsNatives

/-- Whether no chain leads out of a region of scopes and no closure is bound there. -/
structure HoldsNatives (region : ScopeId → Prop) (world : World) : Prop where
  outer {scope outer : ScopeId} : region scope →
    world.heap.outer? scope = some outer → region outer
  stored {scope : ScopeId} {name : String} {value : Value} : region scope →
    world.heap.local? scope name = some value → value.HoldsNatives

variable {world : World} {start : ScopeId}

theorem LacksClosures.holdsNatives (lacks : world.LacksClosures start) :
    world.HoldsNatives (world.Accessible start) where
  outer := .outer
  stored inside bound := lacks _ inside _ _ bound

/-- Accessible scopes lie in every region without closures that the start lies in. -/
theorem HoldsNatives.lacksClosures {region : ScopeId → Prop}
    (natives : world.HoldsNatives region) (inside : region start) :
    world.LacksClosures start := by
  have within : ∀ scope, world.Accessible start scope → region scope := by
    intro scope accessible
    induction accessible with
    | start => exact inside
    | outer _ goesOn ih => exact natives.outer ih goesOn
    | captured _ bound member ih =>
        exact (natives.stored ih bound _ member).elim
  exact fun scope accessible name value bound =>
    natives.stored (within scope accessible) bound

end World

/-- Evaluation in a region without closures, of forms without lambdas. -/
def nativePolicy (region : ScopeId → Prop) : Policy where
  world := World.HoldsNatives region
  active _ scope := region scope
  callable _ callable := callable.Within fun _ => False
  form form := form.isLambdaFree = true
  place _ := True

section NativePolicy

variable {region : ScopeId → Prop}

theorem nativePolicy_change {before after : World}
    (natives : before.HoldsNatives region)
    (change : (nativePolicy region).Change before after) :
    after.HoldsNatives region where
  outer inside goesOn := by
    rcases change.goesOn goesOn with old | ⟨parameters, body, allowed⟩
    · exact natives.outer inside old
    · exact allowed.elim
  stored inside bound := by
    rcases change.stored bound with old | held
    · exact natives.stored inside old
    · exact held

theorem nativePolicy_lawful : (nativePolicy region).Lawful where
  change := nativePolicy_change
  active_change _ inside := inside
  callable_change _ native := native
  parts := Form.isLambdaFree_of_part
  place _ := trivial
  found natives inside found := by
    rcases Heap.value?_eq_some found with ⟨owner, owns, bound⟩
    exact natives.stored (Heap.owner?_inside natives.outer inside owns) bound
  captured lambdaFree _ := nomatch lambdaFree
  body native := native.elim
  fresh _ _ native := native.elim

end NativePolicy

/-! ## Tasks without closures -/

/-- Only `apply` goes on to a call, which is of what it is given with the list. -/
theorem Primitive.reply_eq_call {primitive : Primitive} {site : CallSite}
    {arguments items : List Value} {callable : Callable}
    (replies : primitive.reply site arguments = .ok (.call callable items)) :
    primitive = .apply ∧ arguments = [.callable callable, .list items] := by
  have noCall : ∀ {result : Except Error Value},
      result.map Reply.value ≠ .ok (.call callable items) := by
    rintro (error | value) <;> nofun
  cases primitive with
  | apply =>
      refine ⟨rfl, ?_⟩
      match arguments with
      | [target, sequence] =>
          cases target <;> cases sequence <;> cases replies
          rfl
      | [] | [_] | _ :: _ :: _ :: _ => cases replies
  | list | stringAppend => cases replies
  | _ => exact absurd replies noCall

section Tasks

variable {region : ScopeId → Prop} {world : World} {task : Task}
variable (natives : world.HoldsNatives region)
variable (allowed : (nativePolicy region).task world task)
include natives allowed

theorem nativePolicy_asks {depth : Nat} {next : Task} {middle : World}
    (asks : (evaluator Host.none depth).Asks task world next middle) :
    next.Narrows task := by
  have nextAllowed := (nativePolicy_lawful.asks natives allowed asks).2
  cases asks with
  | assigned | tested | printed | left | right | item | argument =>
      exact .part (by simp [Form.parts]) _
  | @chosen opening test consequent alternate scope _ _ holds tests =>
      refine .part ?_ scope
      cases holds <;> simp [Form.parts]
  | @called name group arguments scope callable values _ _ found before =>
      cases callable with
      | native key native =>
          exact .called name group arguments key native scope values
      | closure => exact nextAllowed.1.elim
  | @applied name primitive site scope callable arguments items _ replies =>
      rcases Primitive.reply_eq_call replies with ⟨rfl, rfl⟩
      cases callable with
      | native key native => exact .applied name key native site scope items
      | closure => exact nextAllowed.1.elim
  | entered => exact allowed.1.elim

/-- By induction along what narrows: what a task asks for settles, and so it does. -/
theorem nativePolicy_settles : task.Settles world := by
  induction task using Task.narrows_wellFounded.induction generalizing world with
  | _ task ih =>
      refine Task.settles_of_asked fun depth next middle asks => ?_
      rcases nativePolicy_lawful.asks natives allowed asks with
        ⟨changes, nextAllowed⟩
      exact ih next (nativePolicy_asks natives allowed asks)
        (nativePolicy_lawful.world_changes natives changes) nextAllowed

end Tasks

/-! ## Sources without lambdas -/

theorem Outcome.exists_reply? {α : Type} {outcome : Outcome α}
    (ended : outcome ≠ .exhausted) :
    ∃ result after, outcome.reply? = some (result, after) := by
  cases outcome with
  | done value after => exact ⟨.ok value, after, rfl⟩
  | failed error after => exact ⟨.error error, after, rfl⟩
  | exhausted => exact absurd rfl ended

section Sources

variable {region : ScopeId → Prop} {world : World} {scope : ScopeId}
variable {source : String}
variable (natives : world.HoldsNatives region) (inside : region scope)
variable (lambdaFree : ∀ form, Form.ofSource source = .ok form →
  form.isLambdaFree = true)
include natives inside lambdaFree

theorem nativePolicy_interpret_settles :
    Run.Settles (fun depth => interpret Host.none depth scope source)
      world := by
  rcases interpret_cases Host.none scope source world with
    ⟨error, entries, refused, result⟩ | ⟨form, entries, read, result⟩
  · exact .of_forall result nofun
  · have recorded := nativePolicy_lawful.world_changes natives
      (Policy.changes_records world entries)
    have settles : Task.Settles (.evaluate form scope) _ :=
      nativePolicy_settles recorded ⟨lambdaFree form read, inside⟩
    exact settles.of_eq result

theorem nativePolicy_performs {depth left : Nat} {task : Task} {start : World}
    (performs : Performs depth scope source world left task start) :
    start.HoldsNatives region ∧ (nativePolicy region).task start task := by
  rcases performs with @⟨tokens, form, lexed, parsed, nested⟩
  have recorded := nativePolicy_lawful.world_changes natives
    (Policy.changes_records world
      [.lexed tokens.length, .parsed form.position])
  have read := (Form.ofSource_of_tokenize lexed).trans parsed
  have readAllowed : (nativePolicy region).task
      ((world.record (.lexed tokens.length)).record (.parsed form.position))
      (.evaluate form scope) :=
    ⟨lambdaFree form read, inside⟩
  rcases nativePolicy_lawful.nested recorded readAllowed nested with
    ⟨changes, allowed⟩
  exact ⟨nativePolicy_lawful.world_changes recorded changes, allowed⟩

end Sources

/--
Where evaluation can get to no closure, running a source without lambdas ends:
from some depth on always with the same value or the same error, and in the same
world, in which there still is no closure to get to.

While it runs, to any depth, whatever a task asks for narrows that task.  So a
form asks for its own parts and for calls of natives, no call asks for a form,
and of the natives only `apply` asks for a call, with the items of the list that
it was given.  There is no endless chain of such tasks.
-/
theorem lambda_free_sources_end {world : World} {scope : ScopeId}
    {source : String} (lacks : world.LacksClosures scope)
    (lambdaFree : ∀ form, Form.ofSource source = .ok form →
      form.isLambdaFree = true) :
    (∃ depth result after, after.LacksClosures scope ∧
      ∀ more, depth ≤ more →
        (interpret Host.none more scope source world).reply? =
          some (result, after)) ∧
    WellFounded Task.Narrows ∧
    ∀ depth left task start next middle,
      Performs depth scope source world (left + 1) task start →
      (evaluator Host.none left).Asks task start next middle →
        next.Narrows task := by
  have natives := lacks.holdsNatives
  have inside : world.Accessible scope scope := .start
  refine ⟨?ends, Task.narrows_wellFounded, ?narrows⟩
  case ends =>
    rcases nativePolicy_interpret_settles natives inside lambdaFree with
      ⟨outcome, ended, settles⟩
    rcases Filter.eventually_atTop.mp settles with ⟨depth, ends⟩
    rcases Outcome.exists_reply? ended with ⟨result, after, replies⟩
    have changes : (nativePolicy (world.Accessible scope)).Changes world after :=
      nativePolicy_lawful.interpret_changes natives inside lambdaFree
        ((congrArg Outcome.world? (ends depth (Nat.le_refl depth))).trans
          (Outcome.world?_of_reply? replies))
    refine ⟨depth, result, after,
      (nativePolicy_lawful.world_changes natives changes).lacksClosures inside,
      fun more enough => ?_⟩
    exact (congrArg Outcome.reply? (ends more enough)).trans replies
  case narrows =>
    intro depth left task start next middle performs asks
    rcases nativePolicy_performs natives inside lambdaFree performs with
      ⟨startNatives, allowed⟩
    exact nativePolicy_asks startNatives allowed asks

/-- A chain of calls of `apply`, each through the list that the last one was given. -/
theorem lambda_free_sources_end_apply :
    let world := World.ofRoots [⟨true, .keeping⟩]
    let source := "(apply apply (list apply (list list (list nil))))"
    world.LacksClosures 0 ∧
      (∃ form, Form.ofSource source = .ok form ∧
        form.isLambdaFree = true) ∧
      (∃ depth result after, after.LacksClosures 0 ∧ ∀ more, depth ≤ more →
        (interpret Host.none more 0 source world).reply? =
          some (result, after)) ∧
      ∀ depth left task start next middle,
        Performs depth 0 source world (left + 1) task start →
        (evaluator Host.none left).Asks task start next middle →
          next.Narrows task := by
  intro world source
  have roots := World.ofRoots_rootsOnly [⟨true, .keeping⟩]
  have lacks : world.LacksClosures 0 := fun _ _ _ _ bound =>
    roots.natives bound
  have read : ∃ form, Form.ofSource source = .ok form ∧
      form.isLambdaFree = true := by
    refine ⟨?form, ?reads, ?lambdaFree⟩
    case reads =>
      cbv
      rfl
    case lambdaFree => rfl
  have lambdaFree : ∀ form, Form.ofSource source = .ok form →
      form.isLambdaFree = true := by
    rcases read with ⟨form, reads, free⟩
    intro other readsOther
    rw [reads] at readsOther
    cases readsOther
    exact free
  rcases lambda_free_sources_end lacks lambdaFree with ⟨ends, -, narrows⟩
  exact ⟨lacks, read, ends, narrows⟩

end ScopedLisp
