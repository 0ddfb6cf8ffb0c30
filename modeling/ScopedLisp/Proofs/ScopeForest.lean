import Mathlib.Data.List.TakeWhile
import ScopedLisp.Proofs.SessionWorlds

/-!
# The forest of scopes

Whatever a session does, its scopes form a forest: a parent is older than its
children and stays their parent, so following parents ends at a root, although
closures that are stored in the scope that they capture make the graph of all
objects cyclic.  Looking a name up, finding the sink and showing a scope are
loops that follow parents and have no bound of their own; they end because of
this invariant, which holds in every world that a session passes through.

Links never change.  So a scope prints to the same sink for ever, and the body
of a lambda prints to the sink of the root above the scope where it was made,
wherever it is called.
-/

namespace ScopedLisp

/-! ## Loops along parents -/

/-- Finding a result is finding the first item that has one. -/
theorem findSome?_eq_bind_find? {α β : Type} (function : α → Option β)
    (items : List α) :
    items.findSome? function =
      (items.find? fun item => (function item).isSome).bind function := by
  induction items with
  | nil => rfl
  | cons item items ih =>
      rw [List.findSome?_cons, List.find?_cons]
      rcases result : function item with _ | value
      · exact ih
      · exact result.symm

namespace Heap

/--
The loop that follows parents from a scope until it stops or there is no
parent: the scopes that it visits and the one at which it stops.
-/
inductive Climbs (heap : Heap) (stops : ScopeId → Bool) :
    ScopeId → List ScopeId → Option ScopeId → Prop where
  | here {scope : ScopeId} (found : stops scope = true) :
      Climbs heap stops scope [scope] (some scope)
  | beyond {scope : ScopeId} (goesOn : stops scope = false)
      (isLast : heap.parent? scope = none) :
      Climbs heap stops scope [scope] none
  | up {scope parent : ScopeId} {visited : List ScopeId}
      {result : Option ScopeId} (goesOn : stops scope = false)
      (hasParent : heap.parent? scope = some parent)
      (rest : Climbs heap stops parent visited result) :
      Climbs heap stops scope (scope :: visited) result

/-- If parents are older, chains go on at parents. -/
theorem outer?_eq_parent? {heap : Heap} {scope : ScopeId}
    (older : ∀ parent, heap.parent? scope = some parent → parent < scope) :
    heap.outer? scope = heap.parent? scope := by
  rw [outer?]
  rcases hasParent : heap.parent? scope with _ | parent
  · rfl
  · simp [Option.filter, older parent hasParent]

/-- If parents are older, every loop along parents ends, and within the chain. -/
theorem climbs_chain {heap : Heap}
    (older : ∀ scope parent, heap.parent? scope = some parent → parent < scope)
    (stops : ScopeId → Bool) (scope : ScopeId) :
    heap.Climbs stops scope
      (((heap.chain scope).takeWhile fun ancestor => !stops ancestor) ++
        ((heap.chain scope).find? stops).toList)
      ((heap.chain scope).find? stops) := by
  induction scope using heap.outwardInduction with
  | step scope ih =>
      rw [chain_eq]
      rcases stopsHere : stops scope with _ | _
      · rcases goesOn : heap.outer? scope with _ | outer
        · have isLast := (outer?_eq_parent? (older scope)).symm.trans goesOn
          simpa [stopsHere] using Climbs.beyond stopsHere isLast
        · have hasParent := (outer?_eq_parent? (older scope)).symm.trans goesOn
          simpa [stopsHere] using .up stopsHere hasParent (ih outer goesOn)
      · simpa [stopsHere] using .here stopsHere

/-- The sink that a scope itself carries. -/
def ownSink? (heap : Heap) (scope : ScopeId) : Option SinkId :=
  (heap.link? scope).bind Link.sink?

/-- The loops that look names up, find the sink and show a scope end, with these results. -/
structure LoopsEnd (heap : Heap) (scope : ScopeId) : Prop where
  lookup (name : String) : ∃ visited owner,
    heap.Climbs (fun ancestor => (heap.local? ancestor name).isSome) scope
      visited owner ∧
    heap.owner? scope name = owner ∧
    heap.has scope name = owner.isSome ∧
    heap.value? scope name = owner.bind (heap.local? · name) ∧
    ∀ value, heap.assign scope name value =
      heap.define (owner.getD scope) name value
  output : ∃ visited carrier,
    heap.Climbs (fun ancestor => (heap.ownSink? ancestor).isSome) scope visited
      carrier ∧
    heap.sink? scope = carrier.bind heap.ownSink?
  display : ∃ visited,
    heap.Climbs (fun _ => false) scope visited none ∧
    heap.text scope = ", ".intercalate (visited.map fun ancestor =>
      (heap.bindings ancestor).text)

theorem loopsEnd {heap : Heap}
    (older : ∀ scope parent, heap.parent? scope = some parent → parent < scope)
    (scope : ScopeId) : heap.LoopsEnd scope where
  lookup name :=
    ⟨_, _, climbs_chain older _ scope, rfl, rfl, rfl, fun _ => rfl⟩
  output := ⟨_, _, climbs_chain older _ scope, findSome?_eq_bind_find? _ _⟩
  display := by
    have climbs := climbs_chain older (fun _ => false) scope
    have nowhere : (heap.chain scope).find? (fun _ => false) = none := by
      simp
    rw [nowhere] at climbs
    have everywhere : (heap.chain scope).takeWhile (fun _ => !false) =
        heap.chain scope :=
      List.takeWhile_eq_self_iff.mpr fun _ _ => rfl
    rw [everywhere] at climbs
    exact ⟨_, climbs, by simp [text]⟩

end Heap

namespace World

/-! ## Sound worlds are forests -/

/-- What holds of the scopes of every world that a session passes through. -/
structure IsForest (world : World) : Prop where
  /-- Parents are made before their children. -/
  parentOlder {scope parent : ScopeId} :
    world.heap.parent? scope = some parent →
      parent < scope ∧ scope < world.nextScope
  /-- Following parents never goes on for ever, and so never in a circle. -/
  acyclic : WellFounded fun parent scope =>
    world.heap.parent? scope = some parent
  /-- Only scopes without a parent carry a sink. -/
  sinksAtRoots {scope : ScopeId} {sink : SinkId} :
    world.heap.ownSink? scope = some sink → world.heap.parent? scope = none
  /-- Every scope prints to the sink that its root carries. -/
  printsAtRoot {scope : ScopeId} : scope < world.nextScope →
    ∃ sink < world.sinks.size,
      world.heap.sink? scope = some sink ∧
        world.heap.ownSink? (world.heap.root scope) = some sink
  /-- Stored closures were made in scopes that exist. -/
  captured {scope : ScopeId} {name : String} {value : Value} :
    world.heap.local? scope name = some value → world.Holds value
  /-- Looking names up, finding the sink and showing a scope end. -/
  loopsEnd (scope : ScopeId) : world.heap.LoopsEnd scope

theorem Sound.parentOlder {world : World} (sound : world.Sound)
    {scope parent : ScopeId}
    (hasParent : world.heap.parent? scope = some parent) : parent < scope := by
  cases sound.link ((world.heap.parent?_eq_some_iff scope parent).mp hasParent)
    with
  | child older => exact older

/-- The root of a scope in a sound world carries a sink. -/
theorem Sound.ownSink?_root {world : World} (sound : world.Sound)
    {scope : ScopeId} (present : scope < world.nextScope) :
    ∃ sink < world.sinks.size,
      world.heap.ownSink? (world.heap.root scope) = some sink := by
  have rootPresent : world.heap.root scope < world.nextScope :=
    Nat.lt_of_le_of_lt (world.heap.root_le scope) present
  rcases Heap.exists_link rootPresent with ⟨link, hangs⟩
  cases sound.link hangs with
  | root present =>
      rw [Heap.ownSink?, hangs]
      exact ⟨_, present, rfl⟩
  | child older =>
      have goesOn := (world.heap.outer?_eq_some_iff _ _).mpr ⟨hangs, older⟩
      rw [world.heap.outer?_root] at goesOn
      cases goesOn

theorem Sound.isForest {world : World} (sound : world.Sound) :
    world.IsForest where
  parentOlder {scope parent} hasParent := by
    have hangs := (world.heap.parent?_eq_some_iff scope parent).mp hasParent
    exact ⟨sound.parentOlder hasParent, Heap.lt_next_of_link? hangs⟩
  acyclic := Subrelation.wf (fun hasParent => sound.parentOlder hasParent)
    Nat.lt_wfRel.wf
  sinksAtRoots {scope sink} carries := by
    rcases Option.bind_eq_some_iff.mp carries with ⟨link, hangs, leads⟩
    cases link with
    | root own => simp [Heap.parent?, hangs, Link.parent?]
    | child parent => cases leads
  printsAtRoot {scope} present := by
    rcases sound.ownSink?_root present with ⟨sink, made, carries⟩
    refine ⟨sink, made, ?_, carries⟩
    rw [Heap.sink?_eq_root]
    exact carries
  captured := sound.stored
  loopsEnd := Heap.loopsEnd fun _ _ => sound.parentOlder

/-! ## Printing from the body of a lambda -/

/-- Whatever a sink makes of it, a print-line ends with its line written. -/
theorem world?_printLine {depth : Nat} {scope : ScopeId} {opening : Position}
    {value : Form} {result : Value} {start middle : World}
    (ends : (evaluator Host.none depth).evaluate value scope start =
      .done result middle) :
    ((evaluator Host.none (depth + 1)).evaluate (.printLine opening value) scope
      start).world? = some (middle.afterLine scope result.render) := by
  have evaluated : (evaluator Host.none (depth + 1)).evaluate
      (.printLine opening value) scope start =
        (do
          (Run.writeLine scope result.render).locate opening
          pure .nil : Run Value) middle :=
    Run.bind_eq_of_done ends
  rw [evaluated]
  simp only [bind, Run.bind, Run.locate, Run.writeLine]
  cases middle.acceptance scope result.render <;> rfl

/-- A child prints to the sink that its parent prints to. -/
theorem sink?_of_child {heap : Heap} {scope parent : ScopeId}
    (hangs : heap.link? scope = some (.child parent)) (older : parent < scope) :
    heap.sink? scope = heap.sink? parent := by
  have goesOn := (heap.outer?_eq_some_iff scope parent).mpr ⟨hangs, older⟩
  rw [Heap.sink?_eq_root, Heap.sink?_eq_root,
    Heap.root_of_outer?_eq_some goesOn]

/-- The scope of a call prints, for ever, where the scope of the closure prints. -/
theorem sink?_of_entered {world after : World} {defining : ScopeId}
    (present : defining < world.nextScope) (parameters : List Identifier)
    (arguments : List Value)
    (entered : world.Extends (world.enter defining parameters arguments))
    (later : (world.enter defining parameters arguments).Extends after) :
    after.heap.sink? world.nextScope = world.heap.sink? defining := by
  have made : world.nextScope <
      (world.enter defining parameters arguments).nextScope := by
    simp
  have hangs : after.heap.link? world.nextScope = some (.child defining) :=
    (later.links made).trans
      ((link?_enter _ _ _ _ _).trans (if_pos rfl))
  exact (sink?_of_child hangs present).trans
    ((entered.trans later).sink? present)

/--
A print-line that is evaluated in the scope of a call of a closure writes its
line to the sink at the root above the scope where the closure was made.
-/
theorem printLine_of_closure {world start middle : World} {depth left : Nat}
    {parameters : List Identifier} {body value : Form} {defining : ScopeId}
    {site : CallSite} {caller : ScopeId} {arguments : List Value}
    {opening : Position} {result : Value} (sound : world.Sound)
    (present : defining < world.nextScope)
    (held : ∀ argument ∈ arguments, world.Holds argument)
    (nested : Nested depth
      (.call (.closure parameters body defining) site caller arguments) world
      (left + 1) (.evaluate (.printLine opening value) world.nextScope) start)
    (ends : (evaluator Host.none left).evaluate value world.nextScope start =
      .done result middle) :
    ∃ sink, world.heap.ownSink? (world.heap.root defining) = some sink ∧
      ((evaluator Host.none (left + 1)).evaluate (.printLine opening value)
        world.nextScope start).world? =
          some (middle.updateSink sink (·.afterLine result.render)) := by
  cases nested with
  | further asks nested =>
      -- All that a call of a closure asks for is the body, in a fresh scope.
      cases asks with
      | entered body defining site scope world enough =>
          have entered : world.Grows
              (world.enter defining parameters arguments) :=
            grows_enter parameters present held
          have noted : Act (world.enter defining parameters arguments) _ :=
            .noted (.entered site.name parameters.length)
          have bodyHeld : HoldsTask ((world.enter defining parameters
              arguments).record (.entered site.name parameters.length))
              (.evaluate body world.nextScope) :=
            Nat.lt_of_lt_of_eq (Nat.lt_succ_self _)
              (world.nextScope_enter defining parameters arguments).symm
          have bodySound := noted.sound (entered.sound sound)
          rcases grows_nested bodySound bodyHeld nested with ⟨starts, active⟩
          have valueHeld : start.HoldsTask (.evaluate value world.nextScope) :=
            active
          have valueEnds : ((evaluator Host.none left).perform
              (.evaluate value world.nextScope) start).world? = some middle :=
            congrArg Outcome.world? ends
          have runs :=
            (grows_perform (starts.sound bodySound) valueHeld valueEnds).1
          have sameSink := sink?_of_entered present parameters arguments
            entered.extends
            (noted.extends.trans (Grows.extends (starts.trans runs)))
          rcases sound.isForest.printsAtRoot present with
            ⟨sink, -, prints, carries⟩
          refine ⟨sink, carries, ?_⟩
          rw [world?_printLine ends, afterLine, sameSink, prints]

end World

/-! ## Whole sessions -/

/--
In every world that a session passes through, inside of calls as well, the
scopes form a forest, and the tasks that are under way are about scopes that
exist.  No scope ever gets another parent or another sink.  A print-line in the
body of a closure, whoever calls it, writes to the sink at the root above the
scope that the closure was made in.
-/
theorem scopes_stay_a_forest {world later : World}
    (reached : Reaches .empty world) (goesOn : Reaches world later) :
    world.IsForest ∧
    (∀ scope < world.nextScope, scope < later.nextScope ∧
      later.heap.parent? scope = world.heap.parent? scope ∧
      later.heap.ownSink? scope = world.heap.ownSink? scope ∧
      later.heap.sink? scope = world.heap.sink? scope) ∧
    (∀ (depth : Nat) (scope : ScopeId) (source : String) (left : Nat)
      (task : Task) (start : World), scope < world.nextScope →
        Performs depth scope source world left task start →
          start.HoldsTask task ∧
          ∀ value after, (evaluator Host.none left).perform task start =
            .done value after → after.Holds value) ∧
    ∀ (parameters : List Identifier) (body : Form) (defining : ScopeId)
      (site : CallSite) (caller : ScopeId) (arguments : List Value)
      (depth left : Nat) (opening : Position) (value : Form) (result : Value)
      (start middle : World),
      defining < world.nextScope →
      (∀ argument ∈ arguments, world.Holds argument) →
      Nested depth
        (.call (.closure parameters body defining) site caller arguments) world
        (left + 1) (.evaluate (.printLine opening value) world.nextScope)
        start →
      (evaluator Host.none left).evaluate value world.nextScope start =
        .done result middle →
      ∃ sink, world.heap.ownSink? (world.heap.root defining) = some sink ∧
        ((evaluator Host.none (left + 1)).evaluate (.printLine opening value)
          world.nextScope start).world? =
            some (middle.updateSink sink (·.afterLine result.render)) := by
  have sound := (World.grows_reaches World.empty_sound reached).sound
    World.empty_sound
  have extension := (World.grows_reaches sound goesOn).extends
  refine ⟨sound.isForest, ?_, ?_, ?_⟩
  · intro scope present
    have sameLink := extension.links present
    refine ⟨Nat.lt_of_lt_of_le present extension.next, ?_, ?_,
      extension.sink? present⟩
    · rw [Heap.parent?, Heap.parent?, sameLink]
    · rw [Heap.ownSink?, Heap.ownSink?, sameLink]
  · intro depth scope source left task start present performs
    rcases World.grows_performs sound present performs with ⟨grows, held⟩
    refine ⟨held, ?_⟩
    intro value after isDone
    have ends := congrArg Outcome.world? isDone
    exact (World.grows_perform (grows.sound sound) held ends).2 value isDone
  · intro parameters body defining site caller arguments depth left opening
      value result start middle present held nested ends
    exact World.printLine_of_closure sound present held nested ends

/--
A closure that is stored in the scope it captures, given to another root and
called there, prints at its own root.
-/
theorem scopes_stay_a_forest_other_root :
    ∃ world later : World,
      Reaches .empty world ∧ Reaches world later ∧
      (∃ parameters body, world.heap.local? 0 "f" =
        some (.callable (.closure parameters body 0))) ∧
      later.sinks.toList.map (·.received) = ["a\n", ""] ∧
      world.IsForest ∧ later.heap.sink? 0 = world.heap.sink? 0 := by
  have ended : ∃ world parameters body later,
      (interpret Host.none 4 0 "(set f (lambda (x) (print-line x)))"
        ((World.empty.createRoot ⟨false, .keeping⟩).createRoot
          ⟨false, .keeping⟩)).world? = some world ∧
      world.heap.local? 0 "f" =
        some (.callable (.closure parameters body 0)) ∧
      1 < world.nextScope ∧
      (interpret Host.none 4 1 "(f \"a\")"
        (world.assign 1 "f" (.callable (.closure parameters body
          0)))).world? = some later ∧
      later.sinks.toList.map (·.received) = ["a\n", ""] := by
    refine ⟨?world, ?parameters, ?body, ?later, ?ends, ?stored, ?present,
      ?again, ?printed⟩
    case ends =>
      cbv
      rfl
    case stored =>
      cbv
      rfl
    case again =>
      cbv
      rfl
    all_goals cbv
  rcases ended with
    ⟨world, parameters, body, later, ends, stored, present, again, printed⟩
  have reached : Reaches .empty world := by
    refine .trans (.tail (.single (.root _)) (.root _))
      (reaches_interpret ?_ ends)
    decide
  have held := (scopes_stay_a_forest reached .refl).1.captured stored
  have goesOn : Reaches world later :=
    .trans (.single (.set present "f" held))
      (reaches_interpret (by simpa using present) again)
  have forest := scopes_stay_a_forest reached goesOn
  exact ⟨world, later, reached, goesOn, ⟨parameters, body, stored⟩, printed,
    forest.1, (forest.2.1 0 (Nat.lt_trans Nat.zero_lt_one present)).2.2.2⟩

end ScopedLisp
