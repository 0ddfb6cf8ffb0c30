import Mathlib
import ScopedLisp.Proofs.EvaluationPolicy

/-!
# Names do not leak

An assignment binds a new name only in the scope that it is evaluated in, and
while a form is evaluated in a scope, every other active scope is younger than
the evaluation.  So of the scopes that exist before a run, only the one that
the run starts in can get new names; no scope loses any; and a value can only
change under a name that the source or a stored closure assigns.
-/

namespace ScopedLisp

/-! ## Assigned names -/

namespace Form

/-- The names that the assignments inside a form write, bodies of lambdas included. -/
def targets : Form → List String
  | .literal _ _ | .variable _ => []
  | .assignment target value => target.text :: value.targets
  | .conditional _ test consequent alternate =>
    test.targets ++ consequent.targets ++ alternate.targets
  | .lambda _ _ body => body.targets
  | .sequence _ items => targetsOfAll items
  | .printLine _ value => value.targets
  | .operation _ _ left right => left.targets ++ right.targets
  | .call _ _ arguments => targetsOfAll arguments
where
  /-- The names that the assignments inside forms write. -/
  targetsOfAll : List Form → List String
    | [] => []
    | form :: forms => form.targets ++ targetsOfAll forms

theorem targetsOfAll_eq_flatMap (forms : List Form) :
    targets.targetsOfAll forms = forms.flatMap targets := by
  induction forms with
  | nil => rfl
  | cons form forms ih =>
      simp [targets.targetsOfAll, ih]

theorem mem_targets_of_part
    {form part : Form} {name : String} (isPart : part ∈ form.parts)
    (inPart : name ∈ part.targets) : name ∈ form.targets := by
  cases form with
  | sequence opening items =>
      rw [targets, targetsOfAll_eq_flatMap, List.mem_flatMap]
      exact ⟨part, isPart, inPart⟩
  | call head group arguments =>
      rw [targets, targetsOfAll_eq_flatMap, List.mem_flatMap]
      exact ⟨part, isPart, inPart⟩
  | _ =>
      simp only [parts, List.mem_cons, List.not_mem_nil, or_false] at isPart
        <;> grind [targets]

end Form

/-- The names that the assignments in a closure's body write. -/
def Callable.targets : Callable → List String
  | .native _ _ => []
  | .closure _ body _ => body.targets

/-- Whether some closure that a scope holds assigns a name in its body. -/
def World.StoresTarget (world : World) (name : String) : Prop :=
  ∃ scope key value, world.heap.local? scope key = some value ∧
    ∃ callable ∈ value.callables, name ∈ callable.targets

/-- Whether the form of a source assigns a name. -/
def AssignsIn (source name : String) : Prop :=
  ∃ form, Form.ofSource source = .ok form ∧ name ∈ form.targets

/-! ## What one change keeps -/

/--
What happens to the bindings of scopes below a number: they stay, they are
added at home only, and they change under given names only.
-/
structure World.Keeps
    (home : ScopeId → Prop) (names : String → Prop) (start : ScopeId)
    (before after : World) : Prop where
  stays {scope : ScopeId} (name : String) : scope < start →
    (before.heap.local? scope name).isSome →
      (after.heap.local? scope name).isSome
  added {scope : ScopeId} (name : String) : scope < start →
    (after.heap.local? scope name).isSome →
      (before.heap.local? scope name).isSome ∨ home scope
  changed {scope : ScopeId} (name : String) : scope < start →
    after.heap.local? scope name = before.heap.local? scope name ∨ names name

section Keeps

variable {home : ScopeId → Prop} {names : String → Prop} {start : ScopeId}

theorem World.Keeps.of_eq
    {before after : World}
    (same : ∀ scope < start, ∀ name,
      after.heap.local? scope name = before.heap.local? scope name) :
    World.Keeps home names start before after where
  stays name old bound := by rwa [same _ old name]
  added name old bound := by
    rw [same _ old name] at bound
    exact .inl bound
  changed name old := .inl (same _ old name)

theorem World.Keeps.trans
    {first second third : World}
    (keeps : World.Keeps home names start first second)
    (goesOn : World.Keeps home names start second third) :
    World.Keeps home names start first third where
  stays name old bound := goesOn.stays name old (keeps.stays name old bound)
  added name old bound := by
    rcases goesOn.added name old bound with before | isHome
    · exact keeps.added name old before
    · exact .inr isHome
  changed name old := by
    rcases goesOn.changed name old with same | named
    · rw [same]
      exact keeps.changed name old
    · exact .inr named

/-- An assignment keeps everything but the binding of its target. -/
theorem World.Keeps.assign
    (world : World) {scope : ScopeId} {target : String} (value : Value)
    (active : home scope ∨ start ≤ scope) (named : names target) :
    World.Keeps home names start world (world.assign scope target value) := by
  have cases : ∀ old < start, ∀ name,
      (world.assign scope target value).heap.local? old name =
          world.heap.local? old name ∨
        ((world.assign scope target value).heap.local? old name =
            some value ∧ target = name ∧
          ((world.heap.local? old name).isSome ∨ home old)) := by
    intro old isOld name
    rcases world.heap.local?_define_cases
      ((world.heap.owner? scope target).getD scope) old target name value with
      ⟨isOwner, sameName, bound⟩ | unchanged
    · refine .inr ⟨bound, sameName, ?_⟩
      subst sameName
      rcases owned : world.heap.owner? scope target with _ | owner
      · rw [owned, Option.getD_none] at isOwner
        subst isOwner
        rcases active with isHome | isYoung
        · exact .inr isHome
        · exact absurd isOld (Nat.not_lt_of_le isYoung)
      · rw [owned, Option.getD_some] at isOwner
        subst isOwner
        exact .inl (Heap.local?_owner owned)
    · exact .inl unchanged
  constructor
  · intro old name isOld bound
    rcases cases old isOld name with same | ⟨bound', -, -⟩
    · rwa [same]
    · rw [bound']
      rfl
  · intro old name isOld bound
    rcases cases old isOld name with same | ⟨-, -, allowed⟩
    · rw [same] at bound
      exact .inl bound
    · exact allowed
  · intro old name isOld
    rcases cases old isOld name with same | ⟨-, rfl, -⟩
    · exact .inl same
    · exact .inr named

/-- Scopes made later do not touch the bindings of older ones. -/
theorem World.Keeps.enter
    (world : World) (defining : ScopeId) (parameters : List Identifier)
    (arguments : List Value) (young : start ≤ world.nextScope) :
    World.Keeps home names start world
      (world.enter defining parameters arguments) := by
  apply World.Keeps.of_eq
  intro scope old name
  exact world.local?_enter defining parameters arguments name
    (Nat.lt_of_lt_of_le old young)

end Keeps

/-! ## Whole runs -/

/--
Forms run at home and in young scopes, and they and all closures assign given
names only.
-/
def namePolicy
    (home : ScopeId → Prop) (names : String → Prop) (start : ScopeId) :
    Policy where
  world world := start ≤ world.nextScope ∧
    ∀ name, world.StoresTarget name → names name
  active _ scope := home scope ∨ start ≤ scope
  callable _ callable := ∀ name ∈ callable.targets, names name
  form form := ∀ name ∈ form.targets, names name
  place _ := True

section NamePolicy

variable {home : ScopeId → Prop} {names : String → Prop} {start : ScopeId}

theorem namePolicy_change_keeps
    {before after : World} (young : start ≤ before.nextScope)
    (change : (namePolicy home names start).Change before after) :
    World.Keeps home names start before after := by
  cases change with
  | recorded entry => exact .of_eq fun _ _ _ => rfl
  | printed active line =>
      apply World.Keeps.of_eq
      intro scope old name
      rw [World.heap_afterLine]
  | assigned active allowed held =>
      exact .assign before _ active (allowed _ (by simp [Form.targets]))
  | entered allowed held => exact .enter before _ _ _ young

theorem namePolicy_lawful : (namePolicy home names start).Lawful where
  change := by
    rintro world world' ⟨young, stored⟩ change
    refine ⟨Nat.le_trans young change.nextScope_le, ?_⟩
    rintro name ⟨scope, key, value, bound, callable, inside, member⟩
    rcases change.stored bound with old | held
    · exact stored name ⟨scope, key, value, old, callable, inside, member⟩
    · exact held callable inside name member
  active_change _ active := active
  callable_change _ allowed := allowed
  parts allowed isPart name member :=
    allowed name (Form.mem_targets_of_part isPart member)
  place _ := trivial
  found := by
    rintro world scope name value ⟨young, stored⟩ - found callable inside target
      member
    rcases Heap.value?_eq_some found with ⟨owner, -, bound⟩
    exact stored target ⟨owner, name, value, bound, callable, inside, member⟩
  captured allowed _ := allowed
  body allowed := allowed
  fresh _ allowed _ := .inr allowed.1

theorem namePolicy_changes_keep
    {before after : World}
    (allowed : (namePolicy home names start).world before)
    (changes : (namePolicy home names start).Changes before after) :
    World.Keeps home names start before after := by
  induction changes with
  | refl => exact .of_eq fun _ _ _ => rfl
  | tail changes change ih =>
      have young := (namePolicy_lawful.world_changes allowed changes).1
      exact ih.trans (namePolicy_change_keeps young change)

end NamePolicy

/-- A call binds no new name in any scope that exists before it. -/
theorem call_adds_no_names
    {depth : Nat} {callable : Callable} {site : CallSite} {caller : ScopeId}
    {arguments : List Value} {before after : World}
    (ends : (call Host.none depth callable site caller arguments
      before).world? = some after)
    {old : ScopeId} (isOld : old < before.nextScope) {name : String}
    (bound : (after.heap.local? old name).isSome) :
    (before.heap.local? old name).isSome := by
  have allowed : (namePolicy (fun _ => False) (fun _ => True)
      before.nextScope).world before :=
    ⟨Nat.le_refl _, fun _ _ => trivial⟩
  have changes := namePolicy_lawful.call_changes allowed
    (fun _ _ => trivial) trivial (fun _ _ _ _ _ _ => trivial) ends
  have keeps := namePolicy_changes_keep allowed changes
  rcases keeps.added name isOld bound with before | impossible
  · exact before
  · exact impossible.elim

/--
Running a source in a scope, whether it succeeds or fails, unbinds nothing in
the scopes that existed before, binds new names in that one scope only, and
changes values only under names that the source or a stored closure assigns.
No call that happens on the way, or anywhere else, adds a name to a scope that
existed before the call.
-/
theorem names_do_not_leak
    {depth : Nat} {scope : ScopeId} {source : String} {before after : World}
    (ends : (interpret Host.none depth scope source before).world? =
      some after) :
    (∀ old < before.nextScope, ∀ name,
      ((before.heap.local? old name).isSome →
        (after.heap.local? old name).isSome) ∧
      ((after.heap.local? old name).isSome →
        (before.heap.local? old name).isSome ∨ old = scope) ∧
      (after.heap.local? old name = before.heap.local? old name ∨
        AssignsIn source name ∨ before.StoresTarget name)) ∧
    ∀ (depth : Nat) (callable : Callable) (site : CallSite)
      (caller : ScopeId) (arguments : List Value) (entry exit : World),
      (call Host.none depth callable site caller arguments entry).world? =
        some exit →
      ∀ old < entry.nextScope, ∀ name,
        (exit.heap.local? old name).isSome →
          (entry.heap.local? old name).isSome := by
  constructor
  · have allowed : (namePolicy (· = scope)
        (fun name => AssignsIn source name ∨ before.StoresTarget name)
        before.nextScope).world before :=
      ⟨Nat.le_refl _, fun _ stored => .inr stored⟩
    have changes := namePolicy_lawful.interpret_changes allowed (.inl rfl)
      (fun form read name member => .inl ⟨form, read, member⟩) ends
    have keeps := namePolicy_changes_keep allowed changes
    intro old isOld name
    exact ⟨keeps.stays name isOld, keeps.added name isOld,
      keeps.changed name isOld⟩
  · intro depth callable site caller arguments entry exit ends old isOld name
    exact call_adds_no_names ends isOld

/-- An assignment in a child of an empty root leaves the root empty. -/
theorem names_do_not_leak_to_parent :
    ∃ after,
      (interpret Host.none 3 1 "(set f (lambda (x) (set y x)))"
        ((World.empty.addRoot .keeping).addChild 0)).world? = some after ∧
      ∀ name, after.heap.local? 0 name = none := by
  have ended : (interpret Host.none 3 1 "(set f (lambda (x) (set y x)))"
      ((World.empty.addRoot .keeping).addChild 0)).world?.isSome = true := by
    cbv
  rcases Option.isSome_iff_exists.mp ended with ⟨after, ends⟩
  refine ⟨after, ends, ?_⟩
  intro name
  have frame := (names_do_not_leak ends).1 0 (by decide) name
  have unbound : ((World.empty.addRoot .keeping).addChild 0).heap.local? 0
      name = none := rfl
  rcases bound : after.heap.local? 0 name with _ | value
  · rfl
  · have added := frame.2.1 (by rw [bound]; rfl)
    simp [unbound] at added

end ScopedLisp
