import ScopedLisp.Proofs.ScopeTrees

/-!
# Sessions

An embedding program makes roots, each with a sink of its own and with or
without the primitives, and then runs sources in scopes, one after the other.
A `Session` is such a sequence in which every run ends, with the replies that
the program gets.  As more depth never changes a reply, the sources and scopes
of a session determine its replies and its last world.
-/

namespace ScopedLisp

/-! ## Roots -/

/-- How a root is made. -/
structure RootSetup where
  /-- Whether the primitives are installed. -/
  standard : Bool
  sink : Sink

namespace World

/-- Adds a root with a sink of its own, bare or with all primitives. -/
def createRoot (world : World) (setup : RootSetup) : World :=
  if setup.standard then (world.addRoot setup.sink).install world.nextScope
  else world.addRoot setup.sink

/-- What a scope binds after primitives are installed is old or a primitive. -/
theorem local?_install_cases
    {world : World} {scope other : ScopeId} {name : String} {value : Value}
    (bound : (world.install scope).heap.local? other name = some value) :
    world.heap.local? other name = some value ∨
      ∃ primitive : Primitive, value = primitive.toValue := by
  unfold World.install at bound
  generalize Primitive.all = primitives at bound
  induction primitives generalizing world with
  | nil => exact .inl bound
  | cons primitive primitives ih =>
      rcases ih bound with before | isPrimitive
      · rcases local?_assign_cases before with old | ⟨-, -, rfl⟩
        · exact .inl old
        · exact .inr ⟨primitive, rfl⟩
      · exact .inr isPrimitive

/-- What a scope binds after a root is made is old or a primitive. -/
theorem local?_createRoot_cases
    {world : World} {setup : RootSetup} {scope : ScopeId} {name : String}
    {value : Value}
    (bound : (world.createRoot setup).heap.local? scope name = some value) :
    world.heap.local? scope name = some value ∨
      ∃ primitive : Primitive, value = primitive.toValue := by
  have ofAdded : (world.addRoot setup.sink).heap.local? scope name =
      some value → world.heap.local? scope name = some value := by
    intro added
    rwa [addRoot, Heap.local?_add] at added
  unfold createRoot at bound
  split at bound
  · exact (local?_install_cases bound).imp ofAdded id
  · exact .inl (ofAdded bound)

/-- The world in which roots have been made and nothing else. -/
def ofRoots (setups : List RootSetup) : World :=
  setups.foldl createRoot empty

/-- A world of so many roots, each with the sink of its number, that bind natives alone. -/
structure RootsOnly (count : Nat) (world : World) : Prop where
  next : world.nextScope = count
  links {scope : ScopeId} : scope < count →
    world.heap.link? scope = some (.root scope)
  sinkCount : world.sinks.size = count
  natives {scope : ScopeId} {name : String} {value : Value} :
    world.heap.local? scope name = some value →
      value.Within fun _ => False

namespace RootsOnly

theorem assign
    {count : Nat} {world : World} (roots : RootsOnly count world)
    (scope : ScopeId) (name : String) {value : Value}
    (native : value.Within fun _ => False) :
    RootsOnly count (world.assign scope name value) where
  next := by simpa using roots.next
  links {other} made := by
    have sameLink := world.heap.link?_assign scope other name value
    exact sameLink.trans (roots.links made)
  sinkCount := roots.sinkCount
  natives bound := by
    rcases local?_assign_cases bound with old | ⟨-, -, rfl⟩
    · exact roots.natives old
    · exact native

theorem install
    {count : Nat} {world : World} (roots : RootsOnly count world)
    (scope : ScopeId) : RootsOnly count (world.install scope) := by
  unfold World.install
  induction Primitive.all generalizing world with
  | nil => exact roots
  | cons primitive primitives ih =>
      apply ih
      apply roots.assign
      intro callable inside
      rw [List.mem_singleton.mp inside]
      trivial

theorem addRoot
    {count : Nat} {world : World} (roots : RootsOnly count world)
    (sink : Sink) : RootsOnly (count + 1) (world.addRoot sink) where
  next := by
    rw [← roots.next]
    exact world.heap.next_add _
  links {scope} made := by
    rw [World.addRoot, Heap.link?_add]
    split
    · rename_i isNew
      have isNew : scope = count := isNew.trans roots.next
      rw [roots.sinkCount, isNew]
    · rename_i isOld
      have isOld : scope ≠ count := fun same => isOld (same.trans roots.next.symm)
      exact roots.links (Nat.lt_of_le_of_ne (Nat.le_of_lt_succ made) isOld)
  sinkCount := by
    simp [World.addRoot, roots.sinkCount]
  natives bound := by
    rw [World.addRoot, Heap.local?_add] at bound
    exact roots.natives bound

theorem createRoot
    {count : Nat} {world : World} (roots : RootsOnly count world)
    (setup : RootSetup) : RootsOnly (count + 1) (world.createRoot setup) := by
  unfold World.createRoot
  split
  · exact (roots.addRoot setup.sink).install _
  · exact roots.addRoot setup.sink

/-- Whatever hangs on something is a root with the sink of its number. -/
theorem link_eq
    {count : Nat} {world : World} (roots : RootsOnly count world)
    {scope : ScopeId} {link : Link}
    (hangs : world.heap.link? scope = some link) :
    scope < count ∧ link = .root scope := by
  have made : scope < count := roots.next ▸ Heap.lt_next_of_link? hangs
  rw [roots.links made] at hangs
  exact ⟨made, (Option.some.inj hangs).symm⟩

theorem separate
    {count : Nat} {world : World} (roots : RootsOnly count world) :
    world.Separate := by
  constructor
  · constructor
    · intro scope parent hangs
      cases (roots.link_eq hangs).2
    · intro scope sink hangs
      rcases roots.link_eq hangs with ⟨made, ⟨⟩⟩
      rwa [roots.sinkCount]
    · intro scope other sink hangs hangsOther
      cases (roots.link_eq hangs).2
      cases (roots.link_eq hangsOther).2
      rfl
  · intro root scope name value _ bound
    exact (roots.natives bound).mono fun _ => False.elim

/-- Printing goes to the sinks of the roots. -/
theorem sink?_lt
    {count : Nat} {world : World} (roots : RootsOnly count world)
    {scope : ScopeId} {sink : SinkId}
    (leads : world.heap.sink? scope = some sink) : sink < count := by
  rw [Heap.sink?_eq_root] at leads
  rcases Option.bind_eq_some_iff.mp leads with ⟨link, hangs, leads⟩
  rcases roots.link_eq hangs with ⟨made, rfl⟩
  cases leads
  exact made

theorem root
    {count : Nat} {world : World} (roots : RootsOnly count world)
    {scope : ScopeId} (made : scope < count) :
    world.heap.root scope = scope := by
  apply Heap.root_of_outer?_eq_none
  rw [Heap.outer?, Heap.parent?, roots.links made]
  rfl

end RootsOnly

theorem ofRoots_rootsOnly (setups : List RootSetup) :
    RootsOnly setups.length (ofRoots setups) := by
  have further : ∀ {count : Nat} {world : World}, RootsOnly count world →
      RootsOnly (count + setups.length) (setups.foldl createRoot world) := by
    induction setups with
    | nil =>
        intro count world roots
        exact roots
    | cons setup setups ih =>
        intro count world roots
        have rest := ih (roots.createRoot setup)
        rwa [Nat.add_assoc, Nat.add_comm 1] at rest
  have start : RootsOnly 0 empty := by
    refine ⟨rfl, fun made => absurd made (Nat.not_lt_zero _), rfl, ?_⟩
    intro scope name value bound
    rw [Heap.local?_of_next_le (Nat.zero_le scope)] at bound
    cases bound
  rw [ofRoots, ← Nat.zero_add setups.length]
  exact further start

end World

/-! ## Runs one after the other -/

/-- A source that was run in a scope, and what came back. -/
structure Exchange where
  scope : ScopeId
  source : String
  reply : Except Error Value

/-- What an exchange asks for. -/
def Exchange.request (exchange : Exchange) : ScopeId × String :=
  (exchange.scope, exchange.source)

/-- The runs that lead from one world to another, each of which ends. -/
inductive Session : World → List Exchange → World → Prop where
  | nil (world : World) : Session world [] world
  | cons {depth : Nat} {scope : ScopeId} {source : String}
      {reply : Except Error Value} {world next last : World}
      {exchanges : List Exchange}
      (ends : (interpret Host.none depth scope source world).reply? =
        some (reply, next))
      (rest : Session next exchanges last) :
      Session world (⟨scope, source, reply⟩ :: exchanges) last

/-- Serves requests one after the other, each to a depth. -/
def World.serve (depth : Nat) (world : World) :
    List (ScopeId × String) → Option (List Exchange × World)
  | [] => some ([], world)
  | (scope, source) :: requests =>
    match (interpret Host.none depth scope source world).reply? with
    | none => none
    | some (reply, next) =>
      match next.serve depth requests with
      | none => none
      | some (exchanges, last) =>
        some (⟨scope, source, reply⟩ :: exchanges, last)

/-- Requests that are served to their end make a session. -/
theorem session_of_serve
    {depth : Nat} {world last : World} {requests : List (ScopeId × String)}
    {exchanges : List Exchange}
    (served : world.serve depth requests = some (exchanges, last)) :
    Session world exchanges last ∧
      exchanges.map Exchange.request = requests := by
  induction requests generalizing world exchanges with
  | nil =>
      cases served
      exact ⟨.nil _, rfl⟩
  | cons request requests ih =>
      simp only [World.serve] at served
      split at served
      · cases served
      · rename_i reply next ends
        split at served
        · cases served
        · rename_i rest last rested
          cases served
          rcases ih rested with ⟨session, sameRequests⟩
          exact ⟨.cons ends session, congrArg (request :: ·) sameRequests⟩

/-- Runs of one source that end, end alike. -/
theorem interpret_unique
    {depth depth' : Nat} {scope : ScopeId} {source : String} {world : World}
    {result result' : Except Error Value × World}
    (ends : (interpret Host.none depth scope source world).reply? =
      some result)
    (ends' : (interpret Host.none depth' scope source world).reply? =
      some result') :
    result = result' := by
  have deeper := interpret_of_le (Nat.le_max_left depth depth')
    (Outcome.ne_exhausted_of_reply? ends)
  have deeper' := interpret_of_le (Nat.le_max_right depth depth')
    (Outcome.ne_exhausted_of_reply? ends')
  rw [← deeper] at ends
  rw [← deeper'] at ends'
  exact Option.some.inj (ends.symm.trans ends')

/-- The requests of a session determine its replies and where it ends. -/
theorem Session.unique
    {world last last' : World} {exchanges exchanges' : List Exchange}
    (session : Session world exchanges last)
    (session' : Session world exchanges' last')
    (sameRequests : exchanges.map Exchange.request =
      exchanges'.map Exchange.request) :
    exchanges = exchanges' ∧ last = last' := by
  induction session generalizing exchanges' with
  | nil world =>
      have none : exchanges' = [] := by simpa using sameRequests.symm
      subst none
      cases session'
      exact ⟨rfl, rfl⟩
  | cons ends rest ih =>
      cases session' with
      | nil => cases sameRequests
      | cons ends' rest' =>
          rcases List.cons.inj sameRequests with ⟨sameRequest, sameRest⟩
          rcases Prod.mk.inj sameRequest with ⟨rfl, rfl⟩
          rcases Prod.mk.inj (interpret_unique ends ends') with ⟨rfl, rfl⟩
          rcases ih rest' sameRest with ⟨rfl, rfl⟩
          exact ⟨rfl, rfl⟩

end ScopedLisp
