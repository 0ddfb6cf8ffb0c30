import ScopedLisp.Proofs.EvaluationTasks

/-!
# Failures under any natives

An embedding program may supply natives that fail in ways of their own.  This
file says what can still be told about the failure of an evaluation then.  A
kind of errors that takes in every located error of running is left by no
task, as long as the natives keep to it when what they call back does
(`evaluator_failsOnly`).

There are two such kinds here.  Errors that have a place make up one, for a
call locates what its native leaves without a place; so this needs nothing of
the natives.  Errors with another code than a given code of reading make up
the other, for natives that do not come up with that code themselves.
-/

namespace ScopedLisp

/-! ## Faults of tasks are errors of running -/

theorem SameCause.isRuntime {α β : Type} {good : α → β → Prop} {cause : Cause}
    {other : Except Cause β} (same : SameCause good (.error cause) other) :
    cause.IsRuntime := by
  cases same with
  | error runtime => exact runtime

theorem Evaluator.Faults.isRuntime {evaluator : Evaluator} {task : Task}
    {world after : World} {cause : Cause} {position : Position}
    (faults : evaluator.Faults task world cause position after) :
    cause.IsRuntime := by
  have related : ∀ value : Value, Value.Related (fun _ _ => True) value value :=
    fun _ => Value.related_self fun _ _ => trivial
  cases faults with
  | unbound | unboundCallee | wrongCount | noSuchNative => nofun
  | @notCallable _ _ _ _ _ value _ _ refused =>
      have same := (related value).asCallable_sameCause
      rw [refused] at same
      exact same.isRuntime
  | @notBoolean _ _ _ _ _ _ _ value _ _ refused =>
      have same := (related value).asBoolean_sameCause
      rw [refused] at same
      exact same.isRuntime
  | @badOperands operator _ _ _ _ _ _ _ left right _ _ _ refused =>
      have same := operator.apply_sameCause (related left) (related right)
      rw [refused] at same
      exact same.isRuntime
  | unprinted opening ends refused => exact World.isRuntime_of_acceptance refused
  | refusedByPrimitive name scope world refused =>
      rcases Evaluator.reply_eq_error refused with ⟨_, same, runtime⟩
      cases same
      exact runtime

/-! ## Kinds of errors that no task leaves -/

/-- Whether all errors of an evaluator are of a kind. -/
def Evaluator.FailsOnly (evaluator : Evaluator) (kind : Error → Prop) : Prop :=
  ∀ task world error after,
    evaluator.perform task world = .failed error after → kind error

/-- A kind of located errors that takes in all located errors of running. -/
structure Error.IsKind (kind : Error → Prop) : Prop where
  placed : ∀ error, kind error → error.position?.isSome
  runtime : ∀ cause position, cause.IsRuntime → kind (.located cause position)

/--
Natives whose errors are of a kind, once the call locates them, if all errors
of what they call back are.
-/
def Host.FailsOnly (host : Host) (kind : Error → Prop) : Prop :=
  ∀ evaluator : Evaluator, evaluator.FailsOnly kind →
    ∀ key site scope arguments world error after,
      host key evaluator site scope arguments world = .failed error after →
        kind (error.locate site.position)

section Kind

variable {host : Host} {kind : Error → Prop} (isKind : Error.IsKind kind)
include isKind

theorem Evaluator.Origin.isOfKind {evaluator : Evaluator}
    (below : evaluator.FailsOnly kind) {task : Task} {world after : World}
    {error : Error} (origin : evaluator.Origin task world error after) :
    kind error := by
  cases origin with
  | fault isError faults =>
      rw [isError]
      exact isKind.runtime _ _ faults.isRuntime
  | asked asks fails => exact below _ _ _ _ fails

variable (natives : host.FailsOnly kind)
include natives

/-- One level of a call leaves errors of the kind only, if the levels below do. -/
theorem Evaluator.FailsOnly.callWith {evaluator : Evaluator}
    (below : evaluator.FailsOnly kind) {callable : Callable} {site : CallSite}
    {scope : ScopeId} {arguments : List Value} {world after : World}
    {error : Error}
    (fails : evaluator.callWith host callable site scope arguments world =
      .failed error after) : kind error := by
  have locates : evaluator.LocatesErrors := fun task world error after fails =>
    isKind.placed error (below task world error after fails)
  cases callable with
  | closure parameters body defining =>
      have fails : evaluator.callWith Host.none
          (.closure parameters body defining) site scope arguments world =
            .failed error after := fails
      exact (Evaluator.callWith_origin locates fails).isOfKind isKind below
  | native name native =>
      cases native with
      | primitive primitive =>
          have fails : evaluator.callWith Host.none
              (.native name (.primitive primitive)) site scope arguments world =
                .failed error after := fails
          exact (Evaluator.callWith_origin locates fails).isOfKind isKind below
      | foreign key =>
          rcases Run.locate_eq_failed_iff.mp fails with ⟨fault, hostFails, rfl⟩
          exact natives evaluator below key site scope arguments world fault
            after hostFails

/-- Whatever natives there are, a kind that they keep to is kept to throughout. -/
theorem evaluator_failsOnly (depth : Nat) :
    (evaluator host depth).FailsOnly kind := by
  induction depth with
  | zero =>
      intro task world error after fails
      cases task <;> cases fails
  | succ depth ih =>
      intro task world error after fails
      cases task with
      | evaluate form scope =>
          exact (Evaluator.evaluateWith_origin fails).isOfKind isKind ih
      | call callable site scope arguments =>
          exact ih.callWith isKind natives fails

end Kind

/-! ## Places, and codes of reading -/

/-- Whatever natives there are, evaluation fails with errors that have a place. -/
theorem evaluate_placed (host : Host) {depth : Nat} {form : Form}
    {scope : ScopeId} {world after : World} {error : Error}
    (fails : evaluate host depth form scope world = .failed error after) :
    error.position?.isSome := by
  have isKind : Error.IsKind fun error => error.position?.isSome :=
    ⟨fun _ placed => placed, fun _ _ _ => rfl⟩
  have natives : host.FailsOnly fun error => error.position?.isSome :=
    fun _ _ _ _ _ _ _ _ _ _ => rfl
  exact evaluator_failsOnly isKind natives depth (.evaluate form scope) world
    error after fails

/-- Natives that fail with a code only when something that they call back does. -/
def Host.Avoids (host : Host) (code : ErrorCode) : Prop :=
  ∀ evaluator : Evaluator,
    evaluator.FailsOnly (fun error => error.cause.code ≠ code) →
      ∀ key site scope arguments world error after,
        host key evaluator site scope arguments world = .failed error after →
          error.cause.code ≠ code

theorem Host.none_avoids {code : ErrorCode} (reading : code.kind = .syntaxError) :
    Host.none.Avoids code := by
  rintro evaluator - key site scope arguments world error after fails rfl
  cases fails
  contradiction

/-- Under such natives, evaluation does not fail with that code of reading. -/
theorem evaluate_code_ne {host : Host} {code : ErrorCode}
    (avoids : host.Avoids code) (reading : code.kind = .syntaxError)
    {depth : Nat} {form : Form} {scope : ScopeId} {world after : World}
    {error : Error}
    (fails : evaluate host depth form scope world = .failed error after) :
    error.cause.code ≠ code := by
  have isKind : Error.IsKind fun error =>
      error.position?.isSome ∧ error.cause.code ≠ code := by
    refine ⟨fun _ kept => kept.1, fun cause position runtime => ⟨rfl, ?_⟩⟩
    rintro rfl
    exact runtime reading
  have natives : host.FailsOnly fun error =>
      error.position?.isSome ∧ error.cause.code ≠ code := by
    intro evaluator below key site scope arguments world error after fails
    refine ⟨rfl, avoids evaluator ?_ key site scope arguments world error after
      fails⟩
    exact fun task world error after fails =>
      (below task world error after fails).2
  exact (evaluator_failsOnly isKind natives depth (.evaluate form scope) world
    error after fails).2

end ScopedLisp
