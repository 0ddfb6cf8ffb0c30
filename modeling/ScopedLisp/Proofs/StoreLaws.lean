import ScopedLisp.Proofs.ScopeForest

/-!
# What storing a value changes

Storing a value under a name changes one binding of one scope, whichever way
the value is stored: `define` names the scope, and `assign` finds it, as the
nearest scope that binds the name or else the scope that it starts from.

Other scopes notice the change where they read the name and the changed scope
is the nearest to bind it, which a new binding may have made it.  The nearest
scope is found by a loop along parents; `Heap.Nearest` defines it by recursion,
and the two agree if parents are older than their children.
-/

namespace ScopedLisp

namespace Heap

/-! ## The nearest scope that binds a name -/

/-- The first scope that binds a name, from a scope on through its parents. -/
inductive Nearest (heap : Heap) (name : String) : ScopeId → ScopeId → Prop where
  | here {scope : ScopeId} (bound : (heap.local? scope name).isSome) :
      Nearest heap name scope scope
  | above {scope parent owner : ScopeId}
      (unbound : heap.local? scope name = none)
      (hasParent : heap.parent? scope = some parent)
      (nearest : Nearest heap name parent owner) :
      Nearest heap name scope owner

section Older

variable {heap : Heap}
variable (older : ∀ scope parent, heap.parent? scope = some parent →
  parent < scope)
include older

/-- The loop along parents stops at the nearest scope. -/
theorem owner?_eq_some_iff_nearest {name : String} {scope owner : ScopeId} :
    heap.owner? scope name = some owner ↔ heap.Nearest name scope owner := by
  constructor
  · induction scope using heap.outwardInduction with
    | step scope ih =>
        intro found
        rw [owner?_eq] at found
        split at found
        · rename_i bound
          cases found
          exact .here bound
        · rename_i unbound
          rcases Option.bind_eq_some_iff.mp found with ⟨outer, goesOn, found⟩
          have hasParent := (outer?_eq_parent? (older scope)).symm.trans goesOn
          exact .above (by simpa using unbound) hasParent (ih outer goesOn found)
  · intro nearest
    induction nearest with
    | here bound => rw [owner?_eq, if_pos bound]
    | @above scope parent owner unbound hasParent nearest ih =>
        have goesOn := (outer?_eq_parent? (older scope)).trans hasParent
        rw [owner?_eq, unbound, if_neg (by simp), goesOn]
        exact ih

theorem owner?_eq_none_iff_nearest {name : String} {scope : ScopeId} :
    heap.owner? scope name = none ↔
      ∀ owner, ¬ heap.Nearest name scope owner := by
  simp only [Option.eq_none_iff_forall_ne_some, ne_eq,
    owner?_eq_some_iff_nearest older]

/-- A name is read where the nearest scope binds it. -/
theorem value?_eq_some_iff_nearest {name : String} {scope : ScopeId}
    {value : Value} :
    heap.value? scope name = some value ↔
      ∃ owner, heap.Nearest name scope owner ∧
        heap.local? owner name = some value := by
  rw [value?, Option.bind_eq_some_iff]
  simp only [owner?_eq_some_iff_nearest older]

end Older

/-- The owner of a name is a scope that exists. -/
theorem owner?_lt_next {heap : Heap} {scope owner : ScopeId} {name : String}
    (found : heap.owner? scope name = some owner) : owner < heap.next := by
  rcases Option.isSome_iff_exists.mp (local?_owner found) with ⟨value, bound⟩
  exact lt_next_of_local? bound

theorem has_eq_isSome (heap : Heap) (scope : ScopeId) (name : String) :
    heap.has scope name = (heap.value? scope name).isSome := by
  rw [has, value?]
  rcases found : heap.owner? scope name with _ | owner
  · rfl
  · exact (local?_owner found).symm

/-! ## Reading after storing -/

/-- Only the scopes to which the changed one is the nearest read the new value. -/
theorem value?_define {heap : Heap} {target : ScopeId}
    (present : target < heap.next) (name : String) (value : Value)
    (handle : ScopeId) (key : String) :
    (heap.define target name value).value? handle key =
      if key = name ∧
          (heap.define target name value).owner? handle key = some target then
        some value
      else heap.value? handle key := by
  induction handle using heap.outwardInduction with
  | step handle ih =>
      have goesOn : (heap.define target name value).outer? handle =
          heap.outer? handle :=
        outer?_congr (link?_define heap target handle name value)
      rw [value?_eq, owner?_eq, goesOn, local?_define name value present]
      by_cases changed : target = handle ∧ name = key
      · rcases changed with ⟨rfl, rfl⟩
        simp
      rw [if_neg changed, value?_eq heap]
      rcases bound : heap.local? handle key with _ | old
      · rcases further : heap.outer? handle with _ | outer
        · simp
        · simpa using ih outer further
      · have apart : ¬ (key = name ∧ handle = target) := by
          rintro ⟨rfl, rfl⟩
          exact changed ⟨rfl, rfl⟩
        simp [apart]

end Heap

/-- What a name is read as depends on its value alone. -/
theorem Run.exists_result_of_value?_eq {world other : World} {handle : ScopeId}
    {key : String}
    (same : other.heap.value? handle key = world.heap.value? handle key) :
    ∃ result : Except Error Value,
      get handle key world = ofError result world ∧
        get handle key other = ofError result other := by
  simp only [get, same]
  cases world.heap.value? handle key with
  | none => exact ⟨.error (.unlocated (.unbound key)), rfl, rfl⟩
  | some found => exact ⟨.ok found, rfl, rfl⟩

/-! ## Storing a value -/

/-- What it means that a value has been stored under a name in one scope. -/
structure World.Stores (before : World) (target : ScopeId) (name : String)
    (value : Value) (after : World) : Prop where
  /-- The scope binds the name to the value. -/
  bound : after.heap.local? target name = some value
  /-- Every other name in every scope is bound as before. -/
  otherBindings : ∀ scope key, scope ≠ target ∨ key ≠ name →
    after.heap.local? scope key = before.heap.local? scope key
  /-- No scope is new, and none hangs on something else. -/
  links : after.nextScope = before.nextScope ∧
    ∀ scope, after.heap.link? scope = before.heap.link? scope
  /-- Nothing is printed or noted down. -/
  silent : after.sinks = before.sinks ∧ after.log = before.log
  /-- The value is read wherever the scope is the nearest to bind the name. -/
  readsValue : ∀ handle, after.heap.Nearest name handle target →
    Run.get handle name after = .done value after
  /-- Everything else is read as before, or not found as before. -/
  readsAsBefore : ∀ handle key,
    ¬ (key = name ∧ after.heap.Nearest name handle target) →
      ∃ result : Except Error Value,
        Run.get handle key before = Run.ofError result before ∧
          Run.get handle key after = Run.ofError result after

section Storing

variable {world : World}
variable (older : ∀ scope parent, world.heap.parent? scope = some parent →
  parent < scope)
include older

theorem World.stores_define {target : ScopeId}
    (present : target < world.nextScope) (name : String) (value : Value) :
    world.Stores target name value (world.define target name value) := by
  have olderAfter : ∀ scope parent,
      (world.define target name value).heap.parent? scope = some parent →
        parent < scope := by
    intro scope parent hasParent
    rw [World.define, Heap.parent?_define] at hasParent
    exact older scope parent hasParent
  have bindings := Heap.local?_define name value present
  have reads := Heap.value?_define present name value
  constructor
  case bound =>
    exact (bindings target name).trans (if_pos ⟨rfl, rfl⟩)
  case otherBindings =>
    intro scope key other
    refine (bindings scope key).trans (if_neg ?_)
    rintro ⟨rfl, rfl⟩
    exact other.elim (absurd rfl) (absurd rfl)
  case links =>
    exact ⟨Heap.next_define _ _ _ _, fun scope => Heap.link?_define _ _ _ _ _⟩
  case silent => exact ⟨rfl, rfl⟩
  case readsValue =>
    intro handle nearest
    have found := (Heap.owner?_eq_some_iff_nearest olderAfter).mpr nearest
    exact Run.get_eq_done_iff.mpr
      ⟨(reads handle name).trans (if_pos ⟨rfl, found⟩), rfl⟩
  case readsAsBefore =>
    intro handle key elsewhere
    refine Run.exists_result_of_value?_eq
      ((reads handle key).trans (if_neg ?_))
    rintro ⟨rfl, found⟩
    exact elsewhere
      ⟨rfl, (Heap.owner?_eq_some_iff_nearest olderAfter).mp found⟩

/--
Storing a value changes one binding.  `assign` stores it in the nearest scope
that binds the name, or in the scope itself if none does, and `define` always
in the scope itself.  Afterwards the scopes to which the changed one is the
nearest read the new value, and all else is read as before.  A name is read
just if it is bound somewhere, as what the nearest scope binds it to.
-/
theorem storing_changes_one_binding {scope : ScopeId}
    (present : scope < world.nextScope) (name : String) (value : Value) :
    (∃ target after, Run.assign scope name value world = .done () after ∧
      (world.heap.Nearest name scope target ∨
        (∀ owner, ¬ world.heap.Nearest name scope owner) ∧ target = scope) ∧
      world.Stores target name value after) ∧
    (∃ after, Run.define scope name value world = .done () after ∧
      world.Stores scope name value after) ∧
    ∀ handle key,
      (world.heap.has handle key = true ↔
        ∃ found, Run.get handle key world = .done found world) ∧
      (world.heap.has handle key = false ↔
        Run.get handle key world = .failed (.unlocated (.unbound key)) world) ∧
      ∀ found, Run.get handle key world = .done found world ↔
        ∃ owner, world.heap.Nearest key handle owner ∧
          world.heap.local? owner key = some found := by
  refine ⟨?_, ?_, ?_⟩
  · rcases found : world.heap.owner? scope name with _ | owner
    · refine ⟨scope, world.define scope name value, ?_, .inr ⟨?_, rfl⟩,
        World.stores_define older present name value⟩
      · rw [Run.assign, Run.modify, World.assign, Heap.assign, found]
        rfl
      · exact (Heap.owner?_eq_none_iff_nearest older).mp found
    · refine ⟨owner, world.define owner name value, ?_, .inl ?_,
        World.stores_define older (Heap.owner?_lt_next found) name value⟩
      · rw [Run.assign, Run.modify, World.assign, Heap.assign, found]
        rfl
      · exact (Heap.owner?_eq_some_iff_nearest older).mp found
  · exact ⟨world.define scope name value, rfl,
      World.stores_define older present name value⟩
  · intro handle key
    refine ⟨?_, ?_, fun found => ?_⟩
    · simp only [Run.get_eq_done_iff, and_true, Heap.has_eq_isSome,
        Option.isSome_iff_exists]
    · simp only [Run.get_eq_failed_iff, and_true, Heap.has_eq_isSome,
        Option.isSome_eq_false_iff, Option.isNone_iff_eq_none]
    · rw [Run.get_eq_done_iff, and_iff_left rfl]
      exact Heap.value?_eq_some_iff_nearest older

end Storing

/-- A new binding between a scope and the one that it read a name from so far. -/
theorem storing_changes_one_binding_between :
    ∃ world after : World,
      (∀ scope parent, world.heap.parent? scope = some parent →
        parent < scope) ∧
      1 < world.nextScope ∧
      Run.define 1 "x" (.boolean true) world = .done () after ∧
      Run.get 2 "x" world = .done .nil world ∧
      Run.get 2 "x" after = .done (.boolean true) after ∧
      Run.get 0 "x" after = .done .nil after := by
  let world := (((World.empty.createRoot ⟨false, .keeping⟩).addChild
    0).addChild 1).define 0 "x" .nil
  have reached : Reaches .empty world := by
    refine .tail (.tail (.tail (.single (.root _)) (.child ?_)) (.child ?_))
      (.define ?_ "x" nofun)
    all_goals decide
  have sound := (World.grows_reaches World.empty_sound reached).sound
    World.empty_sound
  have older : ∀ scope parent, world.heap.parent? scope = some parent →
      parent < scope := fun _ _ => sound.parentOlder
  have present : 1 < world.nextScope := by decide
  rcases (storing_changes_one_binding older present "x"
    (.boolean true)).2.1 with ⟨after, ends, stores⟩
  have unbound : world.heap.local? 2 "x" = none := by cbv
  have atRoot : Run.get 0 "x" world = .done .nil world := by cbv
  refine ⟨world, after, older, present, ends, by cbv, ?_, ?_⟩
  · apply stores.readsValue
    refine .above ?_ ?_ (.here ?_)
    · exact (stores.otherBindings 2 "x" (.inl (by decide))).trans unbound
    · rw [Heap.parent?, stores.links.2]
      rfl
    · rw [stores.bound]
      rfl
  · have elsewhere : ¬ ("x" = "x" ∧ after.heap.Nearest "x" 0 1) := by
      rintro ⟨-, nearest⟩
      cases nearest with
      | above unbound hasParent nearest =>
          rw [Heap.parent?, stores.links.2] at hasParent
          cases hasParent
    rcases stores.readsAsBefore 0 "x" elsewhere with ⟨result, before, now⟩
    rw [atRoot] at before
    cases result with
    | error error => cases before
    | ok found =>
        cases before
        exact now

end ScopedLisp
