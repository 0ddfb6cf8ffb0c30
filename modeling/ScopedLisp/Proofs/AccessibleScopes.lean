import ScopedLisp.Proofs.NestedTasks
import ScopedLisp.Proofs.ScopeTrees

/-!
# The scopes that evaluation can get to

From a scope, evaluation can look along its chain, and it can call closures
that are stored in the scopes that it looks at, which takes it on to the
scopes that these closures were made in.  `World.Accessible` is the least set
of scopes that is closed under both.  Evaluation stays among these scopes and
those that it makes itself (`confiningPolicy_lawful`), so that it prints to no
other sinks than those of accessible scopes.
-/

namespace ScopedLisp

/-! ## What sinks do with output -/

namespace Sink

/-- Whether the chosen ones of some sinks exist and keep what they get. -/
def AllKeep (sinks : Array Sink) (chosen : SinkId → Prop) : Prop :=
  ∀ sink, chosen sink → ∃ text, sinks[sink]? = some ⟨.keeping, text⟩

/-- Whether the chosen ones of some sinks exist and refuse what they get. -/
def AllRefuse (sinks : Array Sink) (chosen : SinkId → Prop) : Prop :=
  ∀ sink, chosen sink →
    ∃ reason text, sinks[sink]? = some ⟨.refusingWrites reason, text⟩

end Sink

/-! ## Accessible scopes and confining regions -/

/-- What owns a name lies in every region that the scope lies in and no chain leaves. -/
theorem Heap.owner?_inside {heap : Heap} {region : ScopeId → Prop}
    (outward : ∀ {scope outer : ScopeId}, region scope →
      heap.outer? scope = some outer → region outer)
    {scope owner : ScopeId} {name : String} (inside : region scope)
    (found : heap.owner? scope name = some owner) : region owner := by
  induction scope using heap.outwardInduction with
  | step scope ih =>
      rw [Heap.owner?_eq] at found
      split at found
      · cases found
        exact inside
      · rcases Option.bind_eq_some_iff.mp found with ⟨outer, goesOn, further⟩
        exact ih outer goesOn (outward inside goesOn) further

namespace World

/-- The existing scopes that evaluation in a scope can get to. -/
inductive Accessible (world : World) (start : ScopeId) : ScopeId → Prop where
  | start : Accessible world start start
  | outer {scope outer : ScopeId} (accessible : Accessible world start scope)
      (goesOn : world.heap.outer? scope = some outer) :
      Accessible world start outer
  | captured {scope defining : ScopeId} {name : String} {value : Value}
      {parameters : List Identifier} {body : Form}
      (accessible : Accessible world start scope)
      (bound : world.heap.local? scope name = some value)
      (inside : .closure parameters body defining ∈ value.callables) :
      Accessible world start defining

/-- The sinks that evaluation in a scope can print to. -/
def AccessibleSink (world : World) (start : ScopeId) (sink : SinkId) : Prop :=
  ∃ scope, world.Accessible start scope ∧ world.heap.sink? scope = some sink

/--
Whether nothing in a region of scopes leads out of it or prints to other sinks
than the given ones, which keep what they get.
-/
structure Confines (region : ScopeId → Prop) (sinks : SinkId → Prop)
    (world : World) : Prop where
  outer {scope outer : ScopeId} : region scope →
    world.heap.outer? scope = some outer → region outer
  stored {scope : ScopeId} {name : String} {value : Value} : region scope →
    world.heap.local? scope name = some value → value.Within region
  printsTo {scope : ScopeId} {sink : SinkId} : region scope →
    world.heap.link? scope = some (.root sink) → sinks sink
  unmade {scope : ScopeId} : world.nextScope ≤ scope → region scope
  keeping : Sink.AllKeep world.sinks sinks

namespace Confines

variable {region : ScopeId → Prop} {sinks : SinkId → Prop} {world : World}

/-- The closures in what a name means in a region were made there. -/
theorem found (confines : world.Confines region sinks) {scope : ScopeId}
    {name : String} {value : Value} (inside : region scope)
    (found : world.heap.value? scope name = some value) :
    value.Within region := by
  rcases Heap.value?_eq_some found with ⟨owner, owns, bound⟩
  exact confines.stored (Heap.owner?_inside confines.outer inside owns) bound

theorem sink? (confines : world.Confines region sinks) {scope : ScopeId}
    {sink : SinkId} (inside : region scope)
    (prints : world.heap.sink? scope = some sink) : sinks sink := by
  induction scope using world.heap.outwardInduction with
  | step scope ih =>
      rw [Heap.sink?_eq, Option.or_eq_some_iff] at prints
      rcases prints with own | ⟨-, further⟩
      · rcases Option.bind_eq_some_iff.mp own with ⟨link, hangs, leads⟩
        cases link with
        | root other =>
            cases leads
            exact confines.printsTo inside hangs
        | child parent => cases leads
      · rcases Option.bind_eq_some_iff.mp further with
          ⟨outer, goesOn, prints⟩
        exact ih outer goesOn (confines.outer inside goesOn) prints

end Confines

/-- Accessible scopes and unmade ones are confined to the sinks they print to. -/
theorem confines_accessible {world : World} {start : ScopeId}
    (keeping : Sink.AllKeep world.sinks (world.AccessibleSink start)) :
    world.Confines
      (fun scope => world.Accessible start scope ∨ world.nextScope ≤ scope)
      (world.AccessibleSink start) where
  outer {scope outer} inside goesOn := by
    rcases inside with accessible | unmade
    · exact .inl (accessible.outer goesOn)
    · have hangs := ((world.heap.outer?_eq_some_iff scope outer).mp goesOn).1
      rw [Heap.link?_of_next_le unmade] at hangs
      cases hangs
  stored {scope name value} inside bound callable member := by
    rcases inside with accessible | unmade
    · cases callable with
      | native key native => trivial
      | closure parameters body defining =>
          exact .inl (accessible.captured bound member)
    · rw [Heap.local?_of_next_le unmade] at bound
      cases bound
  printsTo {scope sink} inside hangs := by
    rcases inside with accessible | unmade
    · refine ⟨scope, accessible, ?_⟩
      rw [Heap.sink?_eq, hangs]
      rfl
    · rw [Heap.link?_of_next_le unmade] at hangs
      cases hangs
  unmade := .inr
  keeping := keeping

/-! ## Printing to sinks that keep what they get -/

theorem sinks_afterLine {world : World} {scope : ScopeId} {sink : SinkId}
    (prints : world.heap.sink? scope = some sink) (line : String) :
    (world.afterLine scope line).sinks =
      world.sinks.modify sink (·.afterLine line) := by
  rw [afterLine, prints]
  rfl

theorem afterLine_of_sink?_eq_none {world : World} {scope : ScopeId}
    (silent : world.heap.sink? scope = none) (line : String) :
    world.afterLine scope line = world := by
  rw [afterLine, silent]

/-- Sinks that keep what they get still do when something was printed. -/
theorem allKeep_afterLine {world : World} {chosen : SinkId → Prop}
    (keeping : Sink.AllKeep world.sinks chosen) (scope : ScopeId)
    (line : String) :
    Sink.AllKeep (world.afterLine scope line).sinks chosen := by
  rcases prints : world.heap.sink? scope with _ | other
  · rwa [afterLine_of_sink?_eq_none prints]
  · intro sink isChosen
    rcases keeping sink isChosen with ⟨text, keeps⟩
    rw [sinks_afterLine prints, Array.getElem?_modify, keeps]
    split
    · exact ⟨text ++ (line ++ "\n"), rfl⟩
    · exact ⟨text, rfl⟩

end World

/-! ## Evaluation within a region -/

section ConfiningPolicy

variable (region : ScopeId → Prop) (sinks : SinkId → Prop)

/-- Evaluation in a region, with closures that were made there. -/
def confiningPolicy : Policy where
  world := World.Confines region sinks
  active _ scope := region scope
  callable _ callable := callable.Within region
  form _ := True
  place _ := True

variable {region sinks}

theorem confiningPolicy_change {before after : World}
    (confines : before.Confines region sinks)
    (change : (confiningPolicy region sinks).Change before after) :
    after.Confines region sinks where
  outer inside goesOn := by
    rcases change.goesOn goesOn with old | ⟨parameters, body, allowed⟩
    · exact confines.outer inside old
    · exact allowed
  stored inside bound := by
    rcases change.stored bound with old | held
    · exact confines.stored inside old
    · exact held
  printsTo {scope sink} inside hangs := by
    cases change with
    | recorded entry => exact confines.printsTo inside hangs
    | printed active line =>
        rw [World.heap_afterLine] at hangs
        exact confines.printsTo inside hangs
    | assigned active allowed held =>
        rw [World.assign, Heap.link?_assign] at hangs
        exact confines.printsTo inside hangs
    | entered allowed held =>
        rw [World.link?_enter] at hangs
        split at hangs
        · cases hangs
        · exact confines.printsTo inside hangs
  unmade young := confines.unmade (Nat.le_trans change.nextScope_le young)
  keeping := by
    cases change with
    | recorded entry => exact confines.keeping
    | printed active line =>
        exact World.allKeep_afterLine confines.keeping _ line
    | assigned active allowed held => exact confines.keeping
    | entered allowed held =>
        rw [World.sinks_enter]
        exact confines.keeping

theorem confiningPolicy_lawful : (confiningPolicy region sinks).Lawful where
  change := confiningPolicy_change
  active_change _ inside := inside
  callable_change _ within := within
  parts _ _ := trivial
  place _ := trivial
  found confines inside found := confines.found inside found
  captured _ inside := inside
  body _ := trivial
  fresh _ confines _ := confines.unmade (Nat.le_refl _)

end ConfiningPolicy

end ScopedLisp
