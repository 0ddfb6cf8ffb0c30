import Mathlib.Order.Basic
import ScopedLisp.Run

/-!
# Looking names up along a chain

A scope's chain goes on at its parent, provided the parent is older.  Owner,
value and sink of a scope are each found in the scope itself or else where the
chain goes on; this file states these recursions, and what binding a name or
entering a closure does to every single scope.
-/

namespace ScopedLisp

namespace Heap

/-! ## The recursion along a chain -/

/-- The scope at which the chain of a scope goes on. -/
def outer? (heap : Heap) (scope : ScopeId) : Option ScopeId :=
  (heap.parent? scope).filter (· < scope)

theorem parent?_eq_some_iff
    (heap : Heap) (scope parent : ScopeId) :
    heap.parent? scope = some parent ↔
      heap.link? scope = some (.child parent) := by
  rw [parent?]
  rcases heap.link? scope with _ | _ | other <;> simp [Link.parent?]

theorem outer?_eq_some_iff
    (heap : Heap) (scope outer : ScopeId) :
    heap.outer? scope = some outer ↔
      heap.link? scope = some (.child outer) ∧ outer < scope := by
  simp [outer?, Option.filter_eq_some_iff, parent?_eq_some_iff]

theorem outer?_lt
    {heap : Heap} {scope outer : ScopeId}
    (goesOn : heap.outer? scope = some outer) : outer < scope :=
  ((heap.outer?_eq_some_iff scope outer).mp goesOn).2

/-- Induction along chains: from where a chain goes on to the scope itself. -/
theorem outwardInduction
    (heap : Heap) {motive : ScopeId → Prop}
    (step : ∀ scope,
      (∀ outer, heap.outer? scope = some outer → motive outer) →
        motive scope)
    (scope : ScopeId) : motive scope := by
  induction scope using Nat.strongRecOn with
  | _ scope ih =>
      apply step
      intro outer goesOn
      exact ih outer (outer?_lt goesOn)

theorem chain_eq (heap : Heap) (scope : ScopeId) :
    heap.chain scope =
      scope :: ((heap.outer? scope).map heap.chain).getD [] := by
  rw [chain, outer?]
  rcases heap.parent? scope with _ | parent
  · rfl
  · by_cases older : parent < scope
    · simp [older, Option.filter]
    · simp [older, Option.filter]

theorem owner?_eq (heap : Heap) (scope : ScopeId) (name : String) :
    heap.owner? scope name =
      if (heap.local? scope name).isSome then some scope
      else (heap.outer? scope).bind (heap.owner? · name) := by
  rw [owner?, chain_eq, List.find?_cons]
  rcases bound : heap.local? scope name with _ | value
  · rcases heap.outer? scope with _ | outer <;> simp [owner?]
  · simp

theorem value?_eq (heap : Heap) (scope : ScopeId) (name : String) :
    heap.value? scope name =
      (heap.local? scope name).or
        ((heap.outer? scope).bind (heap.value? · name)) := by
  rw [value?, owner?_eq]
  rcases bound : heap.local? scope name with _ | value
  · rcases heap.outer? scope with _ | outer <;> simp [value?]
  · simp [bound]

theorem sink?_eq (heap : Heap) (scope : ScopeId) :
    heap.sink? scope =
      ((heap.link? scope).bind Link.sink?).or
        ((heap.outer? scope).bind heap.sink?) := by
  rw [sink?, chain_eq, List.findSome?_cons]
  rcases (heap.link? scope).bind Link.sink? with _ | sink
  · rcases heap.outer? scope with _ | outer <;> simp [sink?]
  · simp

/-- The owner of a name binds it. -/
theorem local?_owner
    {heap : Heap} {scope owner : ScopeId} {name : String}
    (found : heap.owner? scope name = some owner) :
    (heap.local? owner name).isSome := by
  simpa using List.find?_some found

/-- A value is what the owner of the name binds it to. -/
theorem value?_eq_some
    {heap : Heap} {scope : ScopeId} {name : String} {value : Value}
    (found : heap.value? scope name = some value) :
    ∃ owner, heap.owner? scope name = some owner ∧
      heap.local? owner name = some value :=
  Option.bind_eq_some_iff.mp found

/-! ## Scopes that do not exist -/

theorem local?_of_next_le
    {heap : Heap} {scope : ScopeId} (absent : heap.next ≤ scope)
    (name : String) : heap.local? scope name = none := by
  have missing : heap.scopes[scope]? = none :=
    Array.getElem?_eq_none absent
  simp [local?, bindings, missing, Bindings.empty, Bindings.value?,
    Bindings.find?]

theorem link?_of_next_le
    {heap : Heap} {scope : ScopeId} (absent : heap.next ≤ scope) :
    heap.link? scope = none := by
  have missing : heap.scopes[scope]? = none :=
    Array.getElem?_eq_none absent
  simp [link?, missing]

/-- Only existing scopes bind names. -/
theorem lt_next_of_local?
    {heap : Heap} {scope : ScopeId} {name : String} {value : Value}
    (bound : heap.local? scope name = some value) : scope < heap.next := by
  by_contra absent
  rw [local?_of_next_le (Nat.le_of_not_lt absent)] at bound
  cases bound

/-- Only existing scopes hang on something. -/
theorem lt_next_of_link?
    {heap : Heap} {scope : ScopeId} {link : Link}
    (hangs : heap.link? scope = some link) : scope < heap.next := by
  by_contra absent
  rw [link?_of_next_le (Nat.le_of_not_lt absent)] at hangs
  cases hangs

/-- Existing scopes hang on something. -/
theorem exists_link
    {heap : Heap} {scope : ScopeId} (present : scope < heap.next) :
    ∃ link, heap.link? scope = some link := by
  have found : heap.scopes[scope]? = some heap.scopes[scope] :=
    Array.getElem?_eq_getElem present
  exact ⟨_, by rw [link?, found]; rfl⟩

/-! ## Binding a name -/

theorem define_of_next_le
    {heap : Heap} {scope : ScopeId} (absent : heap.next ≤ scope)
    (name : String) (value : Value) :
    heap.define scope name value = heap := by
  have unchanged : ∀ (index : Nat) (change : Scope → Scope),
      (heap.scopes.modify scope change)[index]? = heap.scopes[index]? := by
    intro index change
    rw [Array.getElem?_modify]
    by_cases same : scope = index
    · subst same
      simp [Array.getElem?_eq_none absent]
    · simp [same]
  simp only [define]
  congr 1
  exact Array.ext_getElem? fun index => unchanged index _

/-- A binding that another one leaves behind is the new one or an old one. -/
theorem local?_define_cases
    (heap : Heap) (scope other : ScopeId) (name key : String)
    (value : Value) :
    (scope = other ∧ name = key ∧
        (heap.define scope name value).local? other key = some value) ∨
      (heap.define scope name value).local? other key =
        heap.local? other key := by
  by_cases present : scope < heap.next
  · rw [local?_define name value present]
    by_cases same : scope = other ∧ name = key
    · exact Or.inl ⟨same.1, same.2, if_pos same⟩
    · exact Or.inr (if_neg same)
  · rw [define_of_next_le (Nat.le_of_not_lt present)]
    exact Or.inr rfl

@[simp]
theorem next_assign
    (heap : Heap) (scope : ScopeId) (name : String) (value : Value) :
    (heap.assign scope name value).next = heap.next := by
  simp [assign]

@[simp]
theorem link?_assign
    (heap : Heap) (scope other : ScopeId) (name : String) (value : Value) :
    (heap.assign scope name value).link? other = heap.link? other := by
  simp [assign]

@[simp]
theorem local?_add
    (heap : Heap) (link : Link) (scope : ScopeId) (name : String) :
    (heap.add link).local? scope name = heap.local? scope name := by
  simp [local?]

/-! ## Heaps with the same links -/

/-- Where a chain goes on depends on the link of the scope alone. -/
theorem outer?_congr
    {heap other : Heap} {scope : ScopeId}
    (same : heap.link? scope = other.link? scope) :
    heap.outer? scope = other.outer? scope := by
  simp [outer?, parent?, same]

/-- A chain depends on the links of scopes that are no younger than its start. -/
theorem chain_congr
    {heap other : Heap} {scope : ScopeId}
    (same : ∀ ancestor ≤ scope,
      heap.link? ancestor = other.link? ancestor) :
    heap.chain scope = other.chain scope := by
  induction scope using heap.outwardInduction with
  | step scope ih =>
      rw [chain_eq, chain_eq, ← outer?_congr (same scope (Nat.le_refl scope))]
      rcases goesOn : heap.outer? scope with _ | outer
      · rfl
      · have older := outer?_lt goesOn
        have sameBelow : heap.chain outer = other.chain outer := by
          apply ih outer goesOn
          intro ancestor below
          exact same ancestor (Nat.le_trans below (Nat.le_of_lt older))
        simp [sameBelow]

theorem sink?_congr
    {heap other : Heap}
    (same : ∀ scope, heap.link? scope = other.link? scope)
    (scope : ScopeId) : heap.sink? scope = other.sink? scope := by
  simp only [sink?, chain_congr fun ancestor _ => same ancestor, same]

end Heap

namespace World

/-! ## Entering a closure -/

/-- Binds names to values in a scope itself, as far as both last. -/
def defineAll (world : World) (scope : ScopeId) :
    List Identifier → List Value → World
  | name :: names, value :: values =>
    (world.define scope name.text value).defineAll scope names values
  | _, _ => world

/-- A new child of a scope that binds parameters to arguments. -/
def enter
    (world : World) (defining : ScopeId) (parameters : List Identifier)
    (arguments : List Value) : World :=
  (world.addChild defining).defineAll world.nextScope parameters arguments

end World

theorem Run.defineAll_apply
    (scope : ScopeId) (names : List Identifier) (values : List Value)
    (world : World) :
    Run.defineAll scope names values world =
      .done () (world.defineAll scope names values) := by
  induction names generalizing values world with
  | nil =>
      rfl
  | cons name names ih =>
      cases values with
      | nil =>
          rfl
      | cons value values =>
          exact ih values (world.define scope name.text value)

namespace World

/--
What holds of a world and is kept by binding any of the given values in a
scope holds once all parameters are bound there.
-/
theorem defineAll_induction
    {motive : World → Prop} {scope : ScopeId} {values : List Value}
    (names : List Identifier) (world : World)
    (kept : ∀ (world : World) (name : String), ∀ value ∈ values,
      motive world → motive (world.define scope name value))
    (holds : motive world) :
    motive (world.defineAll scope names values) := by
  induction names generalizing values world with
  | nil =>
      exact holds
  | cons name names ih =>
      cases values with
      | nil =>
          exact holds
      | cons value values =>
          apply ih
          · intro world name value member
            exact kept world name value (List.mem_cons_of_mem _ member)
          · exact kept world name.text value List.mem_cons_self holds

/-- Binding parameters changes bindings of one scope only. -/
theorem defineAll_frame
    (world : World) (scope : ScopeId) (names : List Identifier)
    (values : List Value) :
    let after := world.defineAll scope names values
    after.nextScope = world.nextScope ∧ after.sinks = world.sinks ∧
      (∀ other, after.heap.link? other = world.heap.link? other) ∧
      ∀ other name, other ≠ scope →
        after.heap.local? other name = world.heap.local? other name := by
  apply defineAll_induction
    (motive := fun after : World =>
      after.nextScope = world.nextScope ∧ after.sinks = world.sinks ∧
        (∀ other, after.heap.link? other = world.heap.link? other) ∧
        ∀ other name, other ≠ scope →
          after.heap.local? other name = world.heap.local? other name)
  · rintro middle key value - ⟨next, sinks, links, locals⟩
    refine ⟨?_, sinks, ?_, ?_⟩
    · simpa [nextScope, define] using next
    · intro other
      simpa [define] using links other
    · intro other name apart
      rcases middle.heap.local?_define_cases scope other key name value with
        ⟨same, -, -⟩ | unchanged
      · exact absurd same.symm apart
      · exact unchanged.trans (locals other name apart)
  · simp

/-- What a scope binds after parameters are bound is old or one of the arguments. -/
theorem local?_defineAll_cases
    {world : World} {scope other : ScopeId} {names : List Identifier}
    {values : List Value} {name : String} {value : Value}
    (bound : (world.defineAll scope names values).heap.local? other name =
      some value) :
    world.heap.local? other name = some value ∨
      other = scope ∧ value ∈ values := by
  revert other name value
  apply defineAll_induction
    (motive := fun after : World => ∀ {other : ScopeId} {name : String}
      {value : Value}, after.heap.local? other name = some value →
        world.heap.local? other name = some value ∨
          other = scope ∧ value ∈ values)
  · intro middle key argument member ih other name value bound
    rcases middle.heap.local?_define_cases scope other key name argument with
      ⟨rfl, -, isArgument⟩ | unchanged
    · have same : argument = value :=
        Option.some.inj (isArgument.symm.trans bound)
      exact .inr ⟨rfl, same ▸ member⟩
    · exact ih (unchanged ▸ bound)
  · intro other name value bound
    exact .inl bound

/-- What a scope binds after a closure is entered is old or one of the arguments. -/
theorem local?_enter_cases
    {world : World} {defining scope : ScopeId} {parameters : List Identifier}
    {arguments : List Value} {name : String} {value : Value}
    (bound : (world.enter defining parameters arguments).heap.local? scope
      name = some value) :
    world.heap.local? scope name = some value ∨
      scope = world.nextScope ∧ value ∈ arguments := by
  rcases local?_defineAll_cases bound with old | new
  · exact .inl ((world.heap.local?_add _ scope name).symm.trans old)
  · exact .inr new

/-- Scopes that exist before a closure is entered keep their bindings. -/
theorem local?_enter
    (world : World) (defining : ScopeId) (parameters : List Identifier)
    (arguments : List Value) {scope : ScopeId} (name : String)
    (old : scope < world.nextScope) :
    (world.enter defining parameters arguments).heap.local? scope name =
      world.heap.local? scope name := by
  have frame := (world.addChild defining).defineAll_frame world.nextScope
    parameters arguments
  rw [enter, frame.2.2.2 scope name (Nat.ne_of_lt old)]
  exact world.heap.local?_add _ scope name

@[simp]
theorem nextScope_enter
    (world : World) (defining : ScopeId) (parameters : List Identifier)
    (arguments : List Value) :
    (world.enter defining parameters arguments).nextScope =
      world.nextScope + 1 := by
  have frame := (world.addChild defining).defineAll_frame world.nextScope
    parameters arguments
  rw [enter, frame.1]
  exact world.heap.next_add _

@[simp]
theorem sinks_enter
    (world : World) (defining : ScopeId) (parameters : List Identifier)
    (arguments : List Value) :
    (world.enter defining parameters arguments).sinks = world.sinks :=
  ((world.addChild defining).defineAll_frame world.nextScope parameters
    arguments).2.1

theorem link?_enter
    (world : World) (defining : ScopeId) (parameters : List Identifier)
    (arguments : List Value) (scope : ScopeId) :
    (world.enter defining parameters arguments).heap.link? scope =
      if scope = world.nextScope then some (.child defining)
      else world.heap.link? scope := by
  have frame := (world.addChild defining).defineAll_frame world.nextScope
    parameters arguments
  rw [enter, frame.2.2.1 scope]
  exact world.heap.link?_add _ scope

/-! ### Parameters are bound -/

theorem isSome_local?_define
    {world : World} {scope owner : ScopeId} {key name : String} {value : Value}
    (bound : (world.heap.local? scope key).isSome) :
    ((world.define owner name value).heap.local? scope key).isSome := by
  rcases world.heap.local?_define_cases owner scope name key value with
    ⟨-, -, new⟩ | unchanged
  · exact new ▸ rfl
  · exact unchanged.symm ▸ bound

theorem isSome_local?_defineAll
    {world : World} {scope : ScopeId} {names : List Identifier}
    {values : List Value} {name : String}
    (made : scope < world.nextScope) (enough : values.length = names.length)
    (isName : name ∈ names.map (·.text)) :
    ((world.defineAll scope names values).heap.local? scope name).isSome := by
  induction names generalizing world values with
  | nil => cases isName
  | cons first names ih =>
      rcases values with _ | ⟨value, values⟩
      · cases enough
      · have enough := Nat.succ.inj enough
        rw [defineAll]
        rcases List.mem_cons.mp isName with rfl | isName
        · apply defineAll_induction
            (motive := fun after : World =>
              (after.heap.local? scope first.text).isSome)
          · exact fun _ _ _ _ => isSome_local?_define
          · have new := Heap.local?_define first.text value made scope
              first.text
            rw [if_pos ⟨rfl, rfl⟩] at new
            exact new ▸ rfl
        · have stillMade :
              scope < (world.define scope first.text value).nextScope := by
            simpa [nextScope, define] using made
          exact ih stillMade enough isName

/-- A closure that is entered binds all its parameters. -/
theorem isSome_local?_enter
    (world : World) (defining : ScopeId) {parameters : List Identifier}
    {arguments : List Value} {name : String}
    (enough : arguments.length = parameters.length)
    (isParameter : name ∈ parameters.map (·.text)) :
    ((world.enter defining parameters arguments).heap.local? world.nextScope
      name).isSome := by
  apply isSome_local?_defineAll _ enough isParameter
  simp [nextScope, addChild]

/-! ## Assigning and printing -/

@[simp]
theorem nextScope_assign
    (world : World) (scope : ScopeId) (name : String) (value : Value) :
    (world.assign scope name value).nextScope = world.nextScope :=
  world.heap.next_assign scope name value

/-- What a scope binds after an assignment is old, or the new value at the owner. -/
theorem local?_assign_cases
    {world : World} {scope other : ScopeId} {target name : String}
    {value found : Value}
    (bound : (world.assign scope target value).heap.local? other name =
      some found) :
    world.heap.local? other name = some found ∨
      (world.heap.owner? scope target).getD scope = other ∧
        target = name ∧ value = found := by
  rcases world.heap.local?_define_cases
    ((world.heap.owner? scope target).getD scope) other target name value with
    ⟨isOwner, sameName, new⟩ | unchanged
  · exact .inr ⟨isOwner, sameName, Option.some.inj (new.symm.trans bound)⟩
  · exact .inl (unchanged.symm.trans bound)

@[simp]
theorem heap_afterLine (world : World) (scope : ScopeId) (line : String) :
    (world.afterLine scope line).heap = world.heap := by
  unfold afterLine
  split <;> rfl

@[simp]
theorem nextScope_afterLine
    (world : World) (scope : ScopeId) (line : String) :
    (world.afterLine scope line).nextScope = world.nextScope := by
  simp [nextScope]

end World

end ScopedLisp
