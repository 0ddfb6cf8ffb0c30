import Mathlib.Order.Filter.AtTopBot.Basic
import ScopedLisp.Proofs.EvaluationTasks

/-!
# Tasks that end

A run that is given a depth settles if from some depth on it ends, and always
in the same way.  Runs that settle may be put one after the other.

A task settles if all tasks settle that it asks for in the worlds in which it
asks for them (`Task.settles_of_asked`).  So to show that a task ends is to find
a well-founded order in which whatever a task asks for lies below it; nothing
else has to be known of how evaluation goes on from one task to the next.
-/

namespace ScopedLisp

open Filter

/-! ## Runs that settle -/

namespace Run

variable {α β : Type} {world : World}

/-- Whether from some depth on a run always ends, and in one way. -/
def Settles (run : Nat → Run α) (world : World) : Prop :=
  ∃ outcome, outcome ≠ .exhausted ∧
    ∀ᶠ depth in atTop, run depth world = outcome

/-- A run settles if it ends in one way at all depths. -/
theorem Settles.of_forall {run : Nat → Run α} {outcome : Outcome α}
    (ends : ∀ depth, run depth world = outcome)
    (ended : outcome ≠ .exhausted) : Settles run world :=
  ⟨outcome, ended, .of_forall ends⟩

theorem Settles.const {run : Run α} (ended : run world ≠ .exhausted) :
    Settles (fun _ => run) world :=
  .of_forall (fun _ => rfl) ended

/-- A run that goes on with another run settles if that one does. -/
theorem Settles.of_eq {run other : Nat → Run α} {middle : World}
    (settles : Settles other middle)
    (same : ∀ depth, run depth world = other depth middle) :
    Settles run world := by
  rcases settles with ⟨outcome, ended, ends⟩
  exact ⟨outcome, ended, ends.mono fun depth ends => (same depth).trans ends⟩

/-- The first levels of a run do not matter. -/
theorem Settles.of_succ {run : Nat → Run α}
    (settles : Settles (fun depth => run (depth + 1)) world) :
    Settles run world := by
  rcases settles with ⟨outcome, ended, ends⟩
  refine ⟨outcome, ended, ?_⟩
  rw [← map_add_atTop_eq_nat 1]
  exact eventually_map.mpr ends

theorem Settles.bind {first : Nat → Run α} {second : Nat → α → Run β}
    (settles : Settles first world)
    (goesOn : ∀ value middle,
      (∀ᶠ depth in atTop, first depth world = .done value middle) →
        Settles (second · value) middle) :
    Settles (fun depth => first depth >>= second depth) world := by
  rcases settles with ⟨outcome, ended, ends⟩
  cases outcome with
  | done value middle =>
      rcases goesOn value middle ends with ⟨last, lastEnded, lastEnds⟩
      refine ⟨last, lastEnded, ?_⟩
      filter_upwards [ends, lastEnds] with depth ends lastEnds
      rw [bind_eq_of_done ends, lastEnds]
  | failed error after =>
      refine ⟨.failed error after, nofun, ?_⟩
      filter_upwards [ends] with depth ends
      exact bind_eq_of_failed ends
  | exhausted => exact absurd rfl ended

theorem Settles.locate {run : Nat → Run α} (settles : Settles run world)
    (position : Position) :
    Settles (fun depth => (run depth).locate position) world := by
  rcases settles with ⟨outcome, ended, ends⟩
  refine ⟨Run.locate position (fun _ => outcome) world, ?_, ?_⟩
  · cases outcome with
    | done | failed => nofun
    | exhausted => exact absurd rfl ended
  · filter_upwards [ends] with depth ends
    simp only [Run.locate, ends]

/-! ### Steps that need no depth -/

theorem settles_get (scope : ScopeId) (name : String) :
    Settles (fun _ => get scope name) world := by
  refine .const ?_
  rw [get]
  split <;> simp

theorem settles_ofCause (result : Except Cause α) :
    Settles (fun _ => ofCause result) world := by
  refine .const ?_
  cases result <;> nofun

theorem settles_writeLine (scope : ScopeId) (line : String) :
    Settles (fun _ => writeLine scope line) world := by
  refine .const ?_
  rw [writeLine]
  split <;> simp

end Run

/-! ## Tasks that settle -/

/-- Whether a task ends, given enough depth. -/
def Task.Settles (task : Task) (world : World) : Prop :=
  Run.Settles (fun depth => (evaluator Host.none depth).perform task) world

/-- Whether every task that a task asks for settles. -/
def Task.AsksSettled (task : Task) (world : World) : Prop :=
  ∀ depth next middle,
    (evaluator Host.none depth).Asks task world next middle →
      next.Settles middle

/-- Forms evaluated from left to right settle if each of them does in its turn. -/
theorem settles_evaluateAll {scope : ScopeId} {items : List Form}
    {world : World}
    (inTurn : ∀ earlier item later values middle,
      items = earlier ++ item :: later →
      (∀ᶠ depth in atTop, (evaluator Host.none depth).evaluateAll scope
        earlier world = .done values middle) →
      Task.Settles (.evaluate item scope) middle) :
    Run.Settles
      (fun depth => (evaluator Host.none depth).evaluateAll scope items)
      world := by
  induction items generalizing world with
  | nil => exact .const nofun
  | cons item items ih =>
      have itemSettles : Task.Settles (.evaluate item scope) world :=
        inTurn [] item items [] world rfl (.of_forall fun _ => rfl)
      refine itemSettles.bind fun value middle itemEnds => ?_
      -- The turn of a later item comes when this item has ended, at large depths.
      have restSettles := @ih middle fun earlier other later values last same
          before => by
        refine inTurn (item :: earlier) other later (value :: values) last
          (congrArg (item :: ·) same) ?_
        filter_upwards [itemEnds, before] with depth itemEnds before
        exact Evaluator.evaluateAll_cons_eq_done_iff.mpr
          ⟨value, middle, values, itemEnds, before, rfl⟩
      exact restSettles.bind fun values last _ => .const nofun

section Forms

variable {scope : ScopeId} {world : World}

/-- A call by name looks the name up, goes through the arguments and calls. -/
theorem settles_evaluateWith_call {name : Identifier} {group : Position}
    {arguments : List Form}
    (asked : Task.AsksSettled (.evaluate (.call name group arguments) scope)
      world) :
    Run.Settles (fun depth => (evaluator Host.none depth).evaluateWith
      (.call name group arguments) scope) world := by
  refine ((Run.settles_get _ _).locate name.position).bind
    fun target middle looksUp => ?_
  rcases looksUp.exists with ⟨-, looksUp⟩
  rcases Run.get_locate_eq_done_iff.mp looksUp with ⟨found, same⟩
  subst middle
  refine ((Run.settles_ofCause _).locate name.position).bind
    fun callable middle checks => ?_
  rcases checks.exists with ⟨-, checks⟩
  rcases Run.ofCause_locate_eq_done_iff.mp checks with ⟨isCallable, same⟩
  subst middle
  rw [Value.eq_callable_of_asCallable isCallable] at found
  have argumentsSettle : Run.Settles (fun depth =>
      (evaluator Host.none depth).evaluateAll scope arguments) world := by
    refine settles_evaluateAll ?_
    rintro earlier argument later values last rfl before
    rcases before.exists with ⟨depth, before⟩
    exact asked depth _ _ (.argument group argument later found before)
  refine argumentsSettle.bind fun values last before => ?_
  rcases before.exists with ⟨depth, before⟩
  exact asked depth _ _ (.called group found before)

/-- The evaluation of a form settles if all that it asks for does. -/
theorem settles_evaluate {form : Form}
    (asked : Task.AsksSettled (.evaluate form scope) world) :
    Task.Settles (.evaluate form scope) world := by
  refine Run.Settles.of_succ ?_
  cases form with
  | literal token value => exact .const nofun
  | «variable» name => exact (Run.settles_get scope name.text).locate name.position
  | assignment target value =>
      have valueSettles := asked 0 _ _ (.assigned target value scope world)
      exact valueSettles.bind fun result middle _ => .const nofun
  | conditional opening test consequent alternate =>
      have testSettles :=
        asked 0 _ _ (.tested opening test consequent alternate scope world)
      refine testSettles.bind fun tested middle tests => ?_
      refine ((Run.settles_ofCause _).locate opening).bind
        fun holds last checks => ?_
      rcases (tests.and checks).exists with ⟨depth, tests, checks⟩
      rcases Run.ofCause_locate_eq_done_iff.mp checks with ⟨isBoolean, rfl⟩
      rw [Value.eq_boolean_of_asBoolean isBoolean] at tests
      have chosenSettles := asked depth _ _
        (.chosen opening consequent alternate tests)
      cases holds with
      | false => exact chosenSettles
      | true => exact chosenSettles
  | lambda opening parameters body => exact .const nofun
  | sequence opening items =>
      have itemsSettle : Run.Settles (fun depth =>
          (evaluator Host.none depth).evaluateAll scope items) world := by
        refine settles_evaluateAll ?_
        rintro earlier item later values middle rfl before
        rcases before.exists with ⟨depth, before⟩
        exact asked depth _ _ (.item opening item later before)
      exact itemsSettle.bind fun values middle _ => .const nofun
  | printLine opening value =>
      have valueSettles := asked 0 _ _ (.printed opening value scope world)
      refine valueSettles.bind fun result middle _ => ?_
      refine ((Run.settles_writeLine _ _).locate opening).bind
        fun _ last _ => .const nofun
  | operation operator word left right =>
      have leftSettles :=
        asked 0 _ _ (.left operator word left right scope world)
      refine leftSettles.bind fun leftValue middle leftEnds => ?_
      rcases leftEnds.exists with ⟨depth, leftEnds⟩
      have rightSettles :=
        asked depth _ _ (.right operator word right leftEnds)
      exact rightSettles.bind fun rightValue last _ =>
        (Run.settles_ofCause _).locate word.position
  | call name group arguments =>
      exact settles_evaluateWith_call asked

end Forms

/-- A call settles if all that it asks for does. -/
theorem settles_call {callable : Callable} {site : CallSite} {scope : ScopeId}
    {arguments : List Value} {world : World}
    (asked : Task.AsksSettled (.call callable site scope arguments) world) :
    Task.Settles (.call callable site scope arguments) world := by
  refine Run.Settles.of_succ ?_
  cases callable with
  | closure parameters body defining =>
      by_cases enough : arguments.length = parameters.length
      · have bodySettles :=
          asked 0 _ _ (.entered body defining site scope world enough)
        exact bodySettles.of_eq fun depth => Evaluator.callWith_closure_apply
          _ body defining site scope enough world
      · refine .of_forall (fun depth => Evaluator.Faults.failed
          (.wrongCount body defining site scope world enough)) ?_
        nofun
  | native name native =>
      cases native with
      | foreign key => exact .const nofun
      | primitive primitive =>
          have computes := fun depth =>
            (evaluator Host.none depth).callWith_native name primitive site
              scope arguments world
          rcases replies : primitive.reply site arguments with
            error | ⟨value⟩ | ⟨other, items⟩
          · rw [replies] at computes
            exact .of_forall computes nofun
          · rw [replies] at computes
            exact .of_forall computes nofun
          · rw [replies] at computes
            have otherSettles :=
              asked 0 _ _ (.applied name scope world replies)
            exact (otherSettles.locate site.position).of_eq computes

/-- A task settles if every task that it asks for does. -/
theorem Task.settles_of_asked {task : Task} {world : World}
    (asked : task.AsksSettled world) : task.Settles world := by
  cases task with
  | evaluate form scope => exact settles_evaluate asked
  | call callable site scope arguments => exact settles_call asked

end ScopedLisp
