import ScopedLisp.Proofs.EvaluationTasks

/-!
# Nested tasks within a policy

A policy that allows a task allows all tasks nested in it.  In particular the
worlds in which they start come from the world of the outer task by allowed
changes alone, also while the outer task never ends (`Lawful.nested`).
-/

namespace ScopedLisp

namespace Policy

/-- Whether a policy allows a task in a world. -/
def task (policy : Policy) (world : World) : Task → Prop
  | .evaluate form scope => policy.form form ∧ policy.active world scope
  | .call callable site _ arguments =>
    policy.callable world callable ∧ policy.place site.position ∧
      ∀ argument ∈ arguments, policy.value world argument

namespace Lawful

variable {policy : Policy} {world after : World} {depth : Nat}

theorem value_changes (lawful : policy.Lawful)
    (changes : policy.Changes world after) {value : Value}
    (held : policy.value world value) : policy.value after value :=
  fun callable inside => lawful.callable_changes changes (held callable inside)

/-- An allowed task follows the policy. -/
theorem perform_follows (lawful : policy.Lawful)
    (allowed : policy.world world) {task : Task}
    (allowedTask : policy.task world task) (depth : Nat) :
    policy.Follows world ((evaluator Host.none depth).perform task world) := by
  cases task with
  | evaluate form scope =>
      exact (lawful.evaluate_follows allowed allowedTask.1 allowedTask.2
        (Nat.le_refl depth)).1
  | call callable site scope arguments =>
      exact (lawful.call_follows scope allowed allowedTask.1 allowedTask.2.1
        allowedTask.2.2 (Nat.le_refl depth)).1

theorem evaluate_done (lawful : policy.Lawful)
    (allowed : policy.world world) {form : Form} {scope : ScopeId}
    (allowedForm : policy.form form) (active : policy.active world scope)
    {value : Value}
    (ends : (evaluator Host.none depth).evaluate form scope world =
      .done value after) :
    policy.Changes world after ∧ policy.value after value := by
  have allowedTask : policy.task world (.evaluate form scope) :=
    ⟨allowedForm, active⟩
  have follows := lawful.perform_follows allowed allowedTask depth
  rw [Evaluator.perform, ends] at follows
  cases follows with
  | done changes held => exact ⟨changes, held⟩

theorem evaluateAll_done (lawful : policy.Lawful)
    (allowed : policy.world world) {items : List Form} {scope : ScopeId}
    (allowedItems : ∀ item ∈ items, policy.form item)
    (active : policy.active world scope) {values : List Value}
    (ends : (evaluator Host.none depth).evaluateAll scope items world =
      .done values after) :
    policy.Changes world after ∧
      ∀ value ∈ values, policy.value after value := by
  induction items generalizing world values with
  | nil =>
      cases ends
      exact ⟨.refl, nofun⟩
  | cons item items ih =>
      rcases Evaluator.evaluateAll_cons_eq_done_iff.mp ends with
        ⟨value, middle, others, itemEnds, restEnds, rfl⟩
      rcases lawful.evaluate_done allowed (allowedItems item List.mem_cons_self)
        active itemEnds with ⟨changes, held⟩
      rcases ih (lawful.world_changes allowed changes)
        (fun other member => allowedItems other (List.mem_cons_of_mem _ member))
        (lawful.active_changes changes active) restEnds with ⟨further, allHeld⟩
      refine ⟨changes.trans further, ?_⟩
      intro other member
      rcases List.mem_cons.mp member with rfl | member
      · exact lawful.value_changes further held
      · exact allHeld other member

end Lawful

/-- A primitive calls only what its arguments hold, and with what they hold. -/
theorem held_of_reply {policy : Policy} {world : World} {primitive : Primitive}
    {site : CallSite} {arguments : List Value}
    (held : ∀ argument ∈ arguments, policy.value world argument)
    {callable : Callable} {items : List Value}
    (replies : primitive.reply site arguments = .ok (.call callable items)) :
    policy.callable world callable ∧
      ∀ item ∈ items, policy.value world item := by
  have verdict : SameVerdict site site _ (primitive.reply site arguments) _ :=
    primitive.reply_sameVerdict (diagonal_arguments_iff.mpr ⟨rfl, held⟩)
  rw [replies] at verdict
  cases verdict with
  | ok related =>
      cases related with
      | call callables related =>
          exact ⟨callables.2, (diagonal_arguments_iff.mp related).2⟩

namespace Lawful

variable {policy : Policy} {world after : World} {depth : Nat}

/-- What an allowed task asks for is allowed, and asked for after allowed changes. -/
theorem asks (lawful : policy.Lawful) {task inner : Task}
    (allowed : policy.world world) (allowedTask : policy.task world task)
    (asks : (evaluator Host.none depth).Asks task world inner after) :
    policy.Changes world after ∧ policy.task after inner := by
  have ofPart : ∀ {form part : Form} {scope : ScopeId},
      policy.task world (.evaluate form scope) → part ∈ form.parts →
      policy.Changes world after →
        policy.Changes world after ∧
          policy.task after (.evaluate part scope) :=
    fun outer isPart changes => ⟨changes, lawful.parts outer.1 isPart,
      lawful.active_changes changes outer.2⟩
  have afterItems : ∀ {items : List Form} {form : Form} {scope : ScopeId}
      {values : List Value} {middle : World},
      policy.task world (.evaluate form scope) → items ⊆ form.parts →
      (evaluator Host.none depth).evaluateAll scope items world =
        .done values middle →
      policy.Changes world middle ∧
        ∀ value ∈ values, policy.value middle value :=
    fun outer areParts ends => lawful.evaluateAll_done allowed
      (fun item member => lawful.parts outer.1 (areParts member)) outer.2 ends
  cases asks with
  | assigned target value scope world =>
      exact ofPart allowedTask (by simp [Form.parts]) .refl
  | tested opening test consequent alternate scope world =>
      exact ofPart allowedTask (by simp [Form.parts]) .refl
  | @chosen opening test consequent alternate scope world after holds tests =>
      have testAllowed : policy.form test :=
        lawful.parts allowedTask.1 (by simp [Form.parts])
      have changes :=
        (lawful.evaluate_done allowed testAllowed allowedTask.2 tests).1
      apply ofPart allowedTask _ changes
      cases holds <;> simp [Form.parts]
  | item opening item later before =>
      have changes := (afterItems allowedTask
        (List.subset_append_left _ _) before).1
      exact ofPart allowedTask (by simp [Form.parts]) changes
  | printed opening value scope world =>
      exact ofPart allowedTask (by simp [Form.parts]) .refl
  | left operator word left right scope world =>
      exact ofPart allowedTask (by simp [Form.parts]) .refl
  | @right operator word left right scope value world after before =>
      have leftAllowed : policy.form left :=
        lawful.parts allowedTask.1 (by simp [Form.parts])
      have changes :=
        (lawful.evaluate_done allowed leftAllowed allowedTask.2 before).1
      exact ofPart allowedTask (by simp [Form.parts]) changes
  | argument group argument later found before =>
      have changes := (afterItems allowedTask
        (List.subset_append_left _ _) before).1
      exact ofPart allowedTask (by simp [Form.parts]) changes
  | @called name group arguments scope callable values world middle found
      before =>
      rcases afterItems allowedTask (List.Subset.refl _) before with
        ⟨changes, held⟩
      have noted : policy.Changes middle (middle.record
          (.called name.text name.position values.length)) :=
        .single (.recorded middle _)
      have callableAllowed := lawful.found allowed allowedTask.2 found callable
        List.mem_cons_self
      exact ⟨changes.trans noted,
        lawful.callable_changes (changes.trans noted) callableAllowed,
        lawful.place allowedTask.1,
        fun value member => lawful.value_changes noted (held value member)⟩
  | applied name scope world replies =>
      rcases held_of_reply allowedTask.2.2 replies with ⟨callable, held⟩
      exact ⟨.refl, callable, allowedTask.2.1, held⟩
  | @entered parameters body defining site scope arguments world enough =>
      have entered : policy.Changes world
          (world.enter defining parameters arguments) :=
        .single (.entered allowedTask.1 allowedTask.2.2)
      have noted : policy.Change _ _ := .recorded
        (world.enter defining parameters arguments)
        (.entered site.name parameters.length)
      have fresh : policy.active (world.enter defining parameters arguments)
          world.nextScope :=
        lawful.fresh arguments allowed allowedTask.1
      exact ⟨entered.tail noted, lawful.body allowedTask.1,
        lawful.active_change noted fresh⟩

/-- A task nested in an allowed one is allowed, and starts after allowed changes. -/
theorem nested (lawful : policy.Lawful) {left : Nat} {task inner : Task}
    {start : World} (allowed : policy.world world)
    (allowedTask : policy.task world task)
    (nested : Nested depth task world left inner start) :
    policy.Changes world start ∧ policy.task start inner := by
  induction nested with
  | here depth task world => exact ⟨.refl, allowedTask⟩
  | further asks nested ih =>
      rcases lawful.asks allowed allowedTask asks with ⟨changes, nextAllowed⟩
      rcases ih (lawful.world_changes allowed changes) nextAllowed with
        ⟨further, innerAllowed⟩
      exact ⟨changes.trans further, innerAllowed⟩

end Lawful

end Policy

end ScopedLisp
