import ScopedLisp.Run

/-!
# How runs end

A run that goes on from another one ends as the first of them that fails, and
a run at a place gives its place to errors that have none.  For each step that
evaluation takes at a place this file says when it fails and with what.
-/

namespace ScopedLisp

/-- An error that has a place keeps it. -/
theorem Error.locate_of_isSome {error : Error}
    (placed : error.position?.isSome) (position : Position) :
    error.locate position = error := by
  rcases error with ⟨cause, _ | place⟩
  · contradiction
  · rfl

/-! ## One run after another -/

namespace Run

variable {α β : Type} {world after : World} {error : Error}

theorem bind_apply (first : Run α) (second : α → Run β) (world : World) :
    (first >>= second) world =
      match first world with
      | .done value middle => second value middle
      | .failed error middle => .failed error middle
      | .exhausted => .exhausted :=
  rfl

/-- A run fails if its first part does, or its second after the first. -/
theorem bind_eq_failed_iff {first : Run α} {second : α → Run β} :
    (first >>= second) world = .failed error after ↔
      first world = .failed error after ∨
        ∃ value middle, first world = .done value middle ∧
          second value middle = .failed error after := by
  rw [bind_apply]
  cases first world with
  | done value middle =>
      constructor
      · exact fun fails => .inr ⟨value, middle, rfl, fails⟩
      · rintro (⟨⟨⟩⟩ | ⟨_, _, ⟨⟩, fails⟩)
        exact fails
  | failed fault middle => simp
  | exhausted => simp

theorem bind_eq_done_iff {first : Run α} {second : α → Run β} {result : β} :
    (first >>= second) world = .done result after ↔
      ∃ value middle, first world = .done value middle ∧
        second value middle = .done result after := by
  rw [bind_apply]
  cases first world with
  | done value middle =>
      constructor
      · exact fun ends => ⟨value, middle, rfl, ends⟩
      · rintro ⟨_, _, ⟨⟩, ends⟩
        exact ends
  | failed fault middle => simp
  | exhausted => simp

theorem bind_eq_of_done {first : Run α} {second : α → Run β} {value : α}
    {middle : World} (ends : first world = .done value middle) :
    (first >>= second) world = second value middle := by
  rw [bind_apply, ends]

theorem bind_eq_of_failed {first : Run α} {second : α → Run β}
    (ends : first world = .failed error after) :
    (first >>= second) world = .failed error after :=
  bind_eq_failed_iff.mpr (.inl ends)

theorem locate_eq_failed_iff {run : Run α} {position : Position} :
    run.locate position world = .failed error after ↔
      ∃ fault, run world = .failed fault after ∧
        fault.locate position = error := by
  simp only [locate]
  cases run world with
  | done value middle => simp
  | failed fault middle =>
      simp only [Outcome.failed.injEq]
      constructor
      · rintro ⟨same, rfl⟩
        exact ⟨fault, ⟨rfl, rfl⟩, same⟩
      · rintro ⟨_, ⟨rfl, rfl⟩, same⟩
        exact ⟨same, rfl⟩
  | exhausted => simp

theorem locate_eq_done_iff {run : Run α} {position : Position} {value : α} :
    run.locate position world = .done value after ↔
      run world = .done value after := by
  simp only [locate]
  cases run world <;> simp

/-! ## Looking a name up -/

theorem get_eq_done_iff {scope : ScopeId} {name : String} {value : Value} :
    get scope name world = .done value after ↔
      world.heap.value? scope name = some value ∧ after = world := by
  simp only [get]
  cases world.heap.value? scope name <;> simp [eq_comm]

/-- A look-up fails if the name is not bound. -/
theorem get_eq_failed_iff {scope : ScopeId} {name : String} :
    get scope name world = .failed error after ↔
      world.heap.value? scope name = none ∧
        error = .unlocated (.unbound name) ∧ after = world := by
  simp only [get]
  cases world.heap.value? scope name <;> simp [eq_comm]

/-! ## Steps at a place -/

theorem ofCause_locate_eq_failed_iff {result : Except Cause α}
    {position : Position} :
    (ofCause result).locate position world = .failed error after ↔
      ∃ cause, result = .error cause ∧ error = .located cause position ∧
        after = world := by
  cases result with
  | ok value => exact ⟨nofun, nofun⟩
  | error cause =>
      constructor
      · intro fails
        cases fails
        exact ⟨cause, rfl, rfl, rfl⟩
      · rintro ⟨_, ⟨⟩, rfl, rfl⟩
        rfl

theorem ofCause_locate_eq_done_iff {result : Except Cause α}
    {position : Position} {value : α} :
    (ofCause result).locate position world = .done value after ↔
      result = .ok value ∧ after = world := by
  cases result with
  | ok value =>
      constructor
      · intro ends
        cases ends
        exact ⟨rfl, rfl⟩
      · rintro ⟨⟨⟩, rfl⟩
        rfl
  | error cause => exact ⟨nofun, nofun⟩

theorem get_locate_eq_failed_iff {scope : ScopeId} {name : Identifier} :
    (get scope name.text).locate name.position world = .failed error after ↔
      world.heap.value? scope name.text = none ∧
        error = .located (.unbound name.text) name.position ∧
        after = world := by
  rw [locate_eq_failed_iff]
  constructor
  · rintro ⟨fault, fails, rfl⟩
    rcases get_eq_failed_iff.mp fails with ⟨unbound, rfl, same⟩
    exact ⟨unbound, rfl, same⟩
  · rintro ⟨unbound, rfl, same⟩
    exact ⟨_, get_eq_failed_iff.mpr ⟨unbound, rfl, same⟩, rfl⟩

theorem get_locate_eq_done_iff {scope : ScopeId} {name : Identifier}
    {value : Value} :
    (get scope name.text).locate name.position world = .done value after ↔
      world.heap.value? scope name.text = some value ∧ after = world :=
  locate_eq_done_iff.trans get_eq_done_iff

/-- Printing at a place fails if the sink refuses the line. -/
theorem writeLine_locate_eq_failed_iff {scope : ScopeId} {line : String}
    {position : Position} :
    (writeLine scope line).locate position world = .failed error after ↔
      ∃ cause, world.acceptance scope line = .error cause ∧
        error = .located cause position ∧
        after = world.afterLine scope line := by
  simp only [locate, writeLine]
  cases world.acceptance scope line with
  | ok accepted => exact ⟨nofun, nofun⟩
  | error cause =>
      constructor
      · intro fails
        cases fails
        exact ⟨cause, rfl, rfl, rfl⟩
      · rintro ⟨_, ⟨⟩, rfl, rfl⟩
        rfl

end Run

/-! ## Values of a type -/

theorem Value.eq_boolean_of_asBoolean {value : Value} {holds : Bool}
    (isBoolean : value.asBoolean = .ok holds) : value = .boolean holds := by
  cases value <;> cases isBoolean
  rfl

theorem Value.eq_callable_of_asCallable {value : Value} {callable : Callable}
    (isCallable : value.asCallable = .ok callable) :
    value = .callable callable := by
  cases value <;> cases isCallable
  rfl

end ScopedLisp
