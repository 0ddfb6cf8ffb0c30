import ScopedLisp.Proofs.EvaluationPolicy

/-!
# Trees of scopes

Every chain ends at a root, and the scopes whose chains end at one root form a
tree.  A world is closed over some trees if the closures stored in them were
made in them.  Evaluation in such a tree stays in it: it leaves the scopes of
all other trees and their sinks as they are, and every scope that it makes
belongs to the tree.

In a separate world, no tree reaches into another one.  Evaluation keeps
worlds separate.
-/

namespace ScopedLisp

namespace Heap

/-! ## Roots -/

/-- The root at which the chain of a scope ends. -/
def root (heap : Heap) (scope : ScopeId) : ScopeId :=
  (heap.chain scope).getLastD scope

theorem root_of_outer?_eq_none
    {heap : Heap} {scope : ScopeId} (ends : heap.outer? scope = none) :
    heap.root scope = scope := by
  rw [root, chain_eq, ends]
  rfl

theorem root_of_outer?_eq_some
    {heap : Heap} {scope outer : ScopeId}
    (goesOn : heap.outer? scope = some outer) :
    heap.root scope = heap.root outer := by
  have chain : heap.chain scope = scope :: heap.chain outer := by
    rw [chain_eq, goesOn]
    rfl
  rw [root, root, chain, heap.chain_eq outer]
  rfl

theorem outer?_root (heap : Heap) (scope : ScopeId) :
    heap.outer? (heap.root scope) = none := by
  induction scope using heap.outwardInduction with
  | step scope ih =>
      rcases goesOn : heap.outer? scope with _ | outer
      · rw [root_of_outer?_eq_none goesOn, goesOn]
      · rw [root_of_outer?_eq_some goesOn]
        exact ih outer goesOn

/-- The root of a scope depends on the links that its chain depends on. -/
theorem root_congr
    {heap other : Heap} {scope : ScopeId}
    (same : ∀ ancestor ≤ scope,
      heap.link? ancestor = other.link? ancestor) :
    heap.root scope = other.root scope := by
  rw [root, root, chain_congr same]

/-- The owner of a name belongs to the tree of the scope that looks it up. -/
theorem root_owner
    {heap : Heap} {scope owner : ScopeId} {name : String}
    (found : heap.owner? scope name = some owner) :
    heap.root owner = heap.root scope := by
  induction scope using heap.outwardInduction with
  | step scope ih =>
      rw [owner?_eq] at found
      split at found
      · cases found
        rfl
      · rcases Option.bind_eq_some_iff.mp found with ⟨outer, goesOn, further⟩
        rw [root_of_outer?_eq_some goesOn]
        exact ih outer goesOn further

/-- A scope prints to the sink of its root. -/
theorem sink?_eq_root (heap : Heap) (scope : ScopeId) :
    heap.sink? scope = (heap.link? (heap.root scope)).bind Link.sink? := by
  induction scope using heap.outwardInduction with
  | step scope ih =>
      rw [sink?_eq]
      rcases goesOn : heap.outer? scope with _ | outer
      · simp [root_of_outer?_eq_none goesOn]
      · have link := ((heap.outer?_eq_some_iff scope outer).mp goesOn).1
        rw [root_of_outer?_eq_some goesOn, ← ih outer goesOn, link]
        simp [Link.sink?]

end Heap

/-! ## Closed trees -/

/-- Whether a closure was made in one of the given scopes. -/
def Callable.Within (territory : ScopeId → Prop) : Callable → Prop
  | .native _ _ => True
  | .closure _ _ scope => territory scope

theorem Callable.Within.mono
    {territory larger : ScopeId → Prop}
    (included : ∀ scope, territory scope → larger scope)
    {callable : Callable} (within : callable.Within territory) :
    callable.Within larger := by
  cases callable with
  | native name native => trivial
  | closure parameters body scope => exact included scope within

/-- Whether all closures that a value holds were made in the given scopes. -/
def Value.Within (territory : ScopeId → Prop) (value : Value) : Prop :=
  ∀ callable ∈ value.callables, callable.Within territory

theorem Value.Within.mono
    {territory larger : ScopeId → Prop}
    (included : ∀ scope, territory scope → larger scope)
    {value : Value} (within : value.Within territory) :
    value.Within larger :=
  fun callable inside => (within callable inside).mono included

namespace World

/-- What holds of the links of all worlds that are built step by step. -/
structure WellScoped (world : World) : Prop where
  parentOlder {scope parent : ScopeId} :
    world.heap.link? scope = some (.child parent) → parent < scope
  sinkExists {scope : ScopeId} {sink : SinkId} :
    world.heap.link? scope = some (.root sink) → sink < world.sinks.size
  sinkOwned {scope other : ScopeId} {sink : SinkId} :
    world.heap.link? scope = some (.root sink) →
    world.heap.link? other = some (.root sink) → scope = other

/-- The existing scopes of the trees with the given roots. -/
def Territory
    (owned : ScopeId → Prop) (world : World) (scope : ScopeId) : Prop :=
  scope < world.nextScope ∧ owned (world.heap.root scope)

/-- Whether the closures stored in the given trees were made there. -/
def Closed (owned : ScopeId → Prop) (world : World) : Prop :=
  ∀ scope name value, owned (world.heap.root scope) →
    world.heap.local? scope name = some value →
      value.Within (world.Territory owned)

/--
What a world that comes from another one shares with it outside of the given
trees, and what they have gained.
-/
structure Spares
    (owned : ScopeId → Prop) (before after : World) : Prop where
  next : before.nextScope ≤ after.nextScope
  links {scope : ScopeId} : scope < before.nextScope →
    after.heap.link? scope = before.heap.link? scope
  locals {scope : ScopeId} (name : String) : scope < before.nextScope →
    ¬ owned (before.heap.root scope) →
      after.heap.local? scope name = before.heap.local? scope name
  sinkCount : after.sinks.size = before.sinks.size
  sinks {sink : SinkId} :
    (∀ scope, before.heap.link? scope = some (.root sink) → ¬ owned scope) →
      after.sinks[sink]? = before.sinks[sink]?
  fresh {scope : ScopeId} : before.nextScope ≤ scope →
    scope < after.nextScope →
      owned (after.heap.root scope) ∧
        ∃ parent < scope, after.heap.link? scope = some (.child parent)

namespace Spares

variable {owned : ScopeId → Prop} {before middle after : World}

theorem root
    (spares : Spares owned before after) {scope : ScopeId}
    (old : scope < before.nextScope) :
    after.heap.root scope = before.heap.root scope := by
  apply Heap.root_congr
  intro ancestor below
  exact spares.links (Nat.lt_of_le_of_lt below old)

theorem territory
    (spares : Spares owned before after) {others : ScopeId → Prop}
    {scope : ScopeId} (inside : before.Territory others scope) :
    after.Territory others scope := by
  rcases inside with ⟨old, owns⟩
  refine ⟨Nat.lt_of_lt_of_le old spares.next, ?_⟩
  rwa [spares.root old]

protected theorem refl (world : World) : Spares owned world world where
  next := Nat.le_refl _
  links _ := rfl
  locals _ _ _ := rfl
  sinkCount := rfl
  sinks _ := rfl
  fresh young old := absurd old (Nat.not_lt_of_le young)

protected theorem trans
    (first : Spares owned before middle)
    (second : Spares owned middle after) :
    Spares owned before after where
  next := Nat.le_trans first.next second.next
  links old := by
    rw [second.links (Nat.lt_of_lt_of_le old first.next), first.links old]
  locals {scope} name old foreign := by
    have stillForeign : ¬ owned (middle.heap.root scope) := by
      rwa [first.root old]
    rw [second.locals name (Nat.lt_of_lt_of_le old first.next) stillForeign,
      first.locals name old foreign]
  sinkCount := second.sinkCount.trans first.sinkCount
  sinks {sink} foreign := by
    have stillForeign : ∀ scope,
        middle.heap.link? scope = some (.root sink) → ¬ owned scope := by
      intro scope hangs
      by_cases old : scope < before.nextScope
      · rw [first.links old] at hangs
        exact foreign scope hangs
      · rcases first.fresh (Nat.le_of_not_lt old)
          (Heap.lt_next_of_link? hangs) with ⟨-, parent, -, isChild⟩
        rw [isChild] at hangs
        cases hangs
    rw [second.sinks stillForeign, first.sinks foreign]
  fresh {scope} young made := by
    by_cases early : scope < middle.nextScope
    · rw [second.root early, second.links early]
      exact first.fresh young early
    · exact second.fresh (Nat.le_of_not_lt early) made

/-- What was made in a territory stays within it as it grows. -/
theorem within
    (spares : Spares owned before after) {others : ScopeId → Prop}
    {value : Value} (within : value.Within (before.Territory others)) :
    value.Within (after.Territory others) :=
  within.mono fun _ => spares.territory

theorem wellScoped
    (spares : Spares owned before after) (wellScoped : before.WellScoped) :
    after.WellScoped := by
  have oldRoot : ∀ {scope sink},
      after.heap.link? scope = some (.root sink) →
        before.heap.link? scope = some (.root sink) := by
    intro scope sink hangs
    by_cases old : scope < before.nextScope
    · rwa [← spares.links old]
    · rcases spares.fresh (Nat.le_of_not_lt old)
        (Heap.lt_next_of_link? hangs) with ⟨-, parent, -, isChild⟩
      rw [isChild] at hangs
      cases hangs
  constructor
  · intro scope parent hangs
    by_cases old : scope < before.nextScope
    · rw [spares.links old] at hangs
      exact wellScoped.parentOlder hangs
    · rcases spares.fresh (Nat.le_of_not_lt old)
        (Heap.lt_next_of_link? hangs) with ⟨-, older, isOlder, isChild⟩
      rw [isChild] at hangs
      cases hangs
      exact isOlder
  · intro scope sink hangs
    rw [spares.sinkCount]
    exact wellScoped.sinkExists (oldRoot hangs)
  · intro scope other sink hangs hangsOther
    exact wellScoped.sinkOwned (oldRoot hangs) (oldRoot hangsOther)

end Spares

/-! ## Single changes -/

/-- Evaluation in the trees with the given roots. -/
def treePolicy (owned : ScopeId → Prop) : Policy where
  world world := world.WellScoped ∧ world.Closed owned
  active world scope := world.Territory owned scope
  callable world callable := callable.Within (world.Territory owned)
  form _ := True
  place _ := True

section TreePolicy

variable {owned : ScopeId → Prop} {before after : World}

theorem spares_record (world : World) (entry : LogRecord) :
    Spares owned world (world.record entry) where
  next := Nat.le_refl _
  links _ := rfl
  locals _ _ _ := rfl
  sinkCount := rfl
  sinks _ := rfl
  fresh young made := absurd made (Nat.not_lt_of_le young)

theorem spares_afterLine
    {scope : ScopeId} (active : before.Territory owned scope)
    (line : String) :
    Spares owned before (before.afterLine scope line) where
  next := by simp
  links _ := by simp
  locals _ _ _ := by simp
  sinkCount := by
    unfold afterLine
    split
    · simp [updateSink]
    · rfl
  sinks {sink} foreign := by
    unfold afterLine
    rcases prints : before.heap.sink? scope with _ | printed
    · rfl
    · have different : printed ≠ sink := by
        rintro rfl
        rw [Heap.sink?_eq_root] at prints
        rcases Option.bind_eq_some_iff.mp prints with ⟨link, hangs, leads⟩
        cases link with
        | child parent => cases leads
        | root other =>
            cases leads
            exact foreign _ hangs active.2
      simp [updateSink, Array.getElem?_modify, different]
  fresh young made := by
    rw [nextScope_afterLine] at made
    exact absurd made (Nat.not_lt_of_le young)

theorem spares_assign
    {scope : ScopeId} (active : before.Territory owned scope)
    (target : String) (value : Value) :
    Spares owned before (before.assign scope target value) where
  next := by simp
  links _ := before.heap.link?_assign scope _ target value
  locals {other} name old foreign := by
    rcases before.heap.local?_define_cases
      ((before.heap.owner? scope target).getD scope) other target name
      value with ⟨isOwner, -, -⟩ | unchanged
    · have sameTree : before.heap.root other = before.heap.root scope := by
        rcases found : before.heap.owner? scope target with _ | owner
        · rw [found, Option.getD_none] at isOwner
          rw [isOwner]
        · rw [found, Option.getD_some] at isOwner
          rw [← isOwner]
          exact Heap.root_owner found
      rw [sameTree] at foreign
      exact absurd active.2 foreign
    · exact unchanged
  sinkCount := rfl
  sinks _ := rfl
  fresh young made := by
    rw [nextScope_assign] at made
    exact absurd made (Nat.not_lt_of_le young)

theorem spares_enter
    {defining : ScopeId} (inside : before.Territory owned defining)
    (parameters : List Identifier) (arguments : List Value) :
    Spares owned before (before.enter defining parameters arguments) where
  next := by simp
  links {scope} old := by
    rw [link?_enter, if_neg (Nat.ne_of_lt old)]
  locals name old _ := before.local?_enter defining parameters arguments name old
  sinkCount := by simp
  sinks _ := by simp
  fresh {scope} young made := by
    rw [nextScope_enter] at made
    have isFresh : scope = before.nextScope :=
      Nat.le_antisymm (Nat.le_of_lt_succ made) young
    subst isFresh
    have hangs := link?_enter before defining parameters arguments
      before.nextScope
    rw [if_pos rfl] at hangs
    refine ⟨?_, defining, inside.1, hangs⟩
    rw [Heap.root_of_outer?_eq_some
      ((Heap.outer?_eq_some_iff _ _ _).mpr ⟨hangs, inside.1⟩)]
    have sameRoot : (before.enter defining parameters arguments).heap.root
        defining = before.heap.root defining := by
      apply Heap.root_congr
      intro ancestor below
      have old := Nat.lt_of_le_of_lt below inside.1
      rw [link?_enter, if_neg (Nat.ne_of_lt old)]
    rw [sameRoot]
    exact inside.2

theorem treePolicy_change_spares
    (change : (treePolicy owned).Change before after) :
    Spares owned before after := by
  cases change with
  | recorded entry => exact spares_record before entry
  | printed active line => exact spares_afterLine active line
  | assigned active allowed held => exact spares_assign active _ _
  | entered allowed held => exact spares_enter allowed _ _

theorem treePolicy_changes_spare
    (changes : (treePolicy owned).Changes before after) :
    Spares owned before after := by
  induction changes with
  | refl => exact .refl before
  | tail _ change ih => exact ih.trans (treePolicy_change_spares change)

theorem treePolicy_change_closed
    (change : (treePolicy owned).Change before after)
    (closed : before.Closed owned) : after.Closed owned := by
  have spares := treePolicy_change_spares change
  intro scope name value owns bound
  apply spares.within
  rcases change.stored bound with old | held
  · rw [spares.root (Heap.lt_next_of_local? old)] at owns
    exact closed scope name value owns old
  · exact held

theorem treePolicy_lawful : (treePolicy owned).Lawful where
  change allowed change :=
    ⟨(treePolicy_change_spares change).wellScoped allowed.1,
      treePolicy_change_closed change allowed.2⟩
  active_change change active :=
    (treePolicy_change_spares change).territory active
  callable_change change allowed :=
    allowed.mono fun _ => (treePolicy_change_spares change).territory
  parts _ _ := trivial
  place _ := trivial
  found {world scope name value} allowed active found := by
    rcases Heap.value?_eq_some found with ⟨owner, owned, bound⟩
    apply allowed.2 owner name value _ bound
    rw [Heap.root_owner owned]
    exact active.2
  captured _ active := active
  body _ := trivial
  fresh {world parameters body defining} arguments allowed inside := by
    have spares := spares_enter inside parameters arguments
    have made : world.nextScope <
        (world.enter defining parameters arguments).nextScope := by
      simp
    exact ⟨made, (spares.fresh (Nat.le_refl _) made).1⟩

end TreePolicy

/-! ## Separate trees -/

/-- A world in which no tree reaches into another one. -/
structure Separate (world : World) : Prop where
  wellScoped : world.WellScoped
  closed (root : ScopeId) : world.Closed (· = root)

theorem Separate.of_spares
    {before after : World} {root : ScopeId} (separate : before.Separate)
    (spares : Spares (· = root) before after)
    (closed : after.Closed (· = root)) : after.Separate where
  wellScoped := spares.wellScoped separate.wellScoped
  closed other := by
    by_cases same : other = root
    · subst same
      exact closed
    · intro scope name value owns bound
      have old : scope < before.nextScope := by
        by_contra young
        have fresh := spares.fresh (Nat.le_of_not_lt young)
          (Heap.lt_next_of_local? bound)
        exact same (owns.symm.trans fresh.1)
      rw [spares.root old] at owns
      have foreign : ¬ before.heap.root scope = root := by
        rwa [owns]
      rw [spares.locals name old foreign] at bound
      exact spares.within (separate.closed other scope name value owns bound)

/-- Running a source in a separate world touches the tree of its scope only. -/
theorem interpret_spares
    {before after : World} {depth : Nat} {scope : ScopeId} {source : String}
    (separate : before.Separate) (isOld : scope < before.nextScope)
    (ends : (interpret Host.none depth scope source before).world? =
      some after) :
    after.Separate ∧
      Spares (· = before.heap.root scope) before after := by
  have allowed : (treePolicy (· = before.heap.root scope)).world before :=
    ⟨separate.wellScoped, separate.closed _⟩
  have changes := treePolicy_lawful.interpret_changes allowed
    ⟨isOld, rfl⟩ (fun _ _ => trivial) ends
  have spares := treePolicy_changes_spare changes
  have stillAllowed := treePolicy_lawful.world_changes allowed changes
  exact ⟨separate.of_spares spares stillAllowed.2, spares⟩

/-- What running a source returns was made in the tree of its scope. -/
theorem interpret_within
    {before after : World} {depth : Nat} {scope : ScopeId} {source : String}
    {value : Value}
    (separate : before.Separate) (isOld : scope < before.nextScope)
    (ends : interpret Host.none depth scope source before =
      .done value after) :
    value.Within (after.Territory (· = before.heap.root scope)) := by
  have allowed : (treePolicy (· = before.heap.root scope)).world before :=
    ⟨separate.wellScoped, separate.closed _⟩
  rcases interpret_cases Host.none scope source before with
    ⟨error, entries, refused, result⟩ | ⟨form, entries, read, result⟩
  · rw [result depth] at ends
    cases ends
  · have follows := treePolicy_lawful.interpret_follows depth allowed
      ⟨isOld, rfl⟩ read trivial
    rw [ends] at follows
    cases follows with
    | done changes held => exact held

end World

end ScopedLisp
