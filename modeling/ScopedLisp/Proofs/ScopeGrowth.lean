import ScopedLisp.Proofs.NestedTasks
import ScopedLisp.Proofs.ScopeTrees
import ScopedLisp.Proofs.Sessions

/-!
# How worlds grow

Whatever an embedding program or an evaluation does comes down to a few acts:
noting something down, printing, adding a root or a child, and binding a name.
Acts add scopes and never change what an existing scope hangs on.  They also
keep a world sound: parents are older than their children, roots print to
sinks that exist, and stored closures were made in scopes that exist.

So everything that is told in terms of acts, evaluation above all, keeps these
invariants, in the worlds on the way as in the last one.
-/

namespace ScopedLisp

theorem Heap.root_le (heap : Heap) (scope : ScopeId) :
    heap.root scope ≤ scope := by
  induction scope using heap.outwardInduction with
  | step scope ih =>
      rcases goesOn : heap.outer? scope with _ | outer
      · exact Nat.le_of_eq (root_of_outer?_eq_none goesOn)
      · rw [root_of_outer?_eq_some goesOn]
        exact Nat.le_trans (ih outer goesOn) (Nat.le_of_lt (outer?_lt goesOn))

namespace World

/-! ## Acts -/

/-- Adds a root that prints to a sink that some other root may have. -/
def addRootTo (world : World) (sink : SinkId) : World :=
  { world with heap := world.heap.add (.root sink) }

/-- Whether a value holds only closures that were made in existing scopes. -/
def Holds (world : World) (value : Value) : Prop :=
  value.Within (· < world.nextScope)

/-- The smallest steps in which a world changes. -/
inductive Act (world : World) : World → Prop where
  | noted (entry : LogRecord) : Act world (world.record entry)
  | printed (scope : ScopeId) (line : String) :
      Act world (world.afterLine scope line)
  | rootAdded (sink : Sink) : Act world (world.addRoot sink)
  | rootShared {sink : SinkId} (present : sink < world.sinks.size) :
      Act world (world.addRootTo sink)
  | childAdded {parent : ScopeId} (present : parent < world.nextScope) :
      Act world (world.addChild parent)
  | bound (scope : ScopeId) (name : String) {value : Value}
      (held : world.Holds value) : Act world (world.define scope name value)

/-- Any number of acts, one after the other. -/
abbrev Grows : World → World → Prop :=
  Relation.ReflTransGen Act

/-! ## What acts keep -/

/-- What a world keeps of an earlier one. -/
structure Extends (before after : World) : Prop where
  next : before.nextScope ≤ after.nextScope
  links {scope : ScopeId} : scope < before.nextScope →
    after.heap.link? scope = before.heap.link? scope
  sinkCount : before.sinks.size ≤ after.sinks.size

/-- A link to an older scope or to a sink that exists. -/
inductive GoodLink (world : World) (scope : ScopeId) : Link → Prop where
  | root {sink : SinkId} (present : sink < world.sinks.size) :
      GoodLink world scope (.root sink)
  | child {parent : ScopeId} (older : parent < scope) :
      GoodLink world scope (.child parent)

/-- Worlds whose scopes and closures refer to what was there before them. -/
structure Sound (world : World) : Prop where
  link {scope : ScopeId} {link : Link} :
    world.heap.link? scope = some link → world.GoodLink scope link
  stored {scope : ScopeId} {name : String} {value : Value} :
    world.heap.local? scope name = some value → world.Holds value

namespace Extends

variable {first second third : World}

protected theorem refl (world : World) : Extends world world where
  next := Nat.le_refl _
  links _ := rfl
  sinkCount := Nat.le_refl _

protected theorem trans (earlier : Extends first second)
    (later : Extends second third) : Extends first third where
  next := Nat.le_trans earlier.next later.next
  links old := (later.links (Nat.lt_of_lt_of_le old earlier.next)).trans
    (earlier.links old)
  sinkCount := Nat.le_trans earlier.sinkCount later.sinkCount

theorem holds (extension : Extends first second) {value : Value}
    (held : first.Holds value) : second.Holds value :=
  held.mono fun _ old => Nat.lt_of_lt_of_le old extension.next

theorem goodLink (extension : Extends first second) {scope : ScopeId}
    {link : Link} (good : first.GoodLink scope link) :
    second.GoodLink scope link := by
  cases good with
  | root present =>
      exact .root (Nat.lt_of_lt_of_le present extension.sinkCount)
  | child older => exact .child older

/-- Existing scopes keep their chains. -/
theorem chain (extension : Extends first second) {scope : ScopeId}
    (old : scope < first.nextScope) :
    second.heap.chain scope = first.heap.chain scope := by
  apply Heap.chain_congr
  intro ancestor below
  exact extension.links (Nat.lt_of_le_of_lt below old)

/-- Existing scopes keep their roots. -/
theorem root (extension : Extends first second) {scope : ScopeId}
    (old : scope < first.nextScope) :
    second.heap.root scope = first.heap.root scope := by
  rw [Heap.root, Heap.root, extension.chain old]

/-- Existing scopes keep their sinks. -/
theorem sink? (extension : Extends first second) {scope : ScopeId}
    (old : scope < first.nextScope) :
    second.heap.sink? scope = first.heap.sink? scope := by
  have rootOld : first.heap.root scope < first.nextScope :=
    Nat.lt_of_le_of_lt (first.heap.root_le scope) old
  rw [Heap.sink?_eq_root, Heap.sink?_eq_root, extension.root old,
    extension.links rootOld]

end Extends

/-- An added scope extends a world. -/
theorem extends_add {before after : World} {link : Link}
    (added : after.heap = before.heap.add link)
    (sinkCount : before.sinks.size ≤ after.sinks.size) :
    Extends before after where
  next := by
    rw [nextScope, nextScope, added, Heap.next_add]
    exact Nat.le_succ _
  links {scope} old := by
    have older : scope ≠ before.heap.next := Nat.ne_of_lt old
    rw [added, Heap.link?_add, if_neg older]
  sinkCount := sinkCount

theorem Act.extends {before after : World} (act : Act before after) :
    Extends before after := by
  cases act with
  | noted entry => exact ⟨Nat.le_refl _, fun _ => rfl, Nat.le_refl _⟩
  | printed scope line =>
      refine ⟨by simp, fun _ => by simp, ?_⟩
      unfold afterLine
      split
      · simp [updateSink]
      · exact Nat.le_refl _
  | rootAdded sink => exact extends_add rfl (by simp [addRoot])
  | rootShared present => exact extends_add rfl (Nat.le_refl _)
  | childAdded present => exact extends_add rfl (Nat.le_refl _)
  | bound scope name held =>
      exact ⟨by simp [nextScope, define], fun _ => by simp [define],
        Nat.le_refl _⟩

/-- What an act stores was stored before or holds existing scopes only. -/
theorem Act.stored {before after : World} (act : Act before after)
    {scope : ScopeId} {name : String} {value : Value}
    (bound : after.heap.local? scope name = some value) :
    before.heap.local? scope name = some value ∨ before.Holds value := by
  cases act with
  | noted entry => exact .inl bound
  | printed owner line =>
      rw [heap_afterLine] at bound
      exact .inl bound
  | rootAdded sink => exact .inl (Heap.local?_add _ _ _ _ ▸ bound)
  | rootShared present => exact .inl (Heap.local?_add _ _ _ _ ▸ bound)
  | childAdded present => exact .inl (Heap.local?_add _ _ _ _ ▸ bound)
  | @bound owner key result held =>
      rcases before.heap.local?_define_cases owner scope key name result with
        ⟨-, -, new⟩ | unchanged
      · cases new.symm.trans bound
        exact .inr held
      · exact .inl (unchanged.symm.trans bound)

/-- What a scope hangs on after an act, it hung on before, or it is new. -/
theorem Act.link?_cases {before after : World} (act : Act before after)
    {scope : ScopeId} {link : Link}
    (hangs : after.heap.link? scope = some link) :
    before.heap.link? scope = some link ∨ after.GoodLink scope link := by
  have ofAdded : ∀ {added : Link},
      (before.heap.add added).link? scope = some link →
      after.GoodLink before.nextScope added →
        before.heap.link? scope = some link ∨ after.GoodLink scope link := by
    intro added hangs good
    rw [Heap.link?_add] at hangs
    split at hangs
    · rename_i isNew
      cases hangs
      exact .inr (isNew ▸ good)
    · exact .inl hangs
  cases act with
  | noted entry => exact .inl hangs
  | printed scope line => exact .inl (by simpa using hangs)
  | rootAdded sink => exact ofAdded hangs (.root (by simp [addRoot]))
  | rootShared present => exact ofAdded hangs (.root present)
  | childAdded present => exact ofAdded hangs (.child present)
  | bound scope name held => exact .inl (by simpa [define] using hangs)

/-- Acts keep worlds sound. -/
theorem Act.sound {before after : World} (act : Act before after)
    (sound : before.Sound) : after.Sound where
  link hangs := by
    rcases act.link?_cases hangs with old | new
    · exact act.extends.goodLink (sound.link old)
    · exact new
  stored bound := by
    rcases act.stored bound with old | held
    · exact act.extends.holds (sound.stored old)
    · exact act.extends.holds held

/-! ## Growth -/

theorem Grows.extends {before after : World} (grows : Grows before after) :
    Extends before after := by
  induction grows with
  | refl => exact .refl before
  | tail _ act ih => exact ih.trans act.extends

theorem Grows.sound {before after : World} (grows : Grows before after)
    (sound : before.Sound) : after.Sound := by
  induction grows with
  | refl => exact sound
  | tail _ act ih => exact act.sound ih

theorem empty_sound : empty.Sound where
  link {scope link} hangs := by
    rw [Heap.link?_of_next_le (Nat.zero_le scope)] at hangs
    cases hangs
  stored {scope name value} bound := by
    rw [Heap.local?_of_next_le (Nat.zero_le scope)] at bound
    cases bound

/-! ### What embedding programs do -/

/-- Assigning a name is binding it in some scope. -/
theorem grows_assign {world : World} (scope : ScopeId) (name : String)
    {value : Value} (held : world.Holds value) :
    world.Grows (world.assign scope name value) :=
  .single (.bound _ name held)

theorem grows_install (world : World) (scope : ScopeId) :
    world.Grows (world.install scope) := by
  unfold World.install
  induction Primitive.all generalizing world with
  | nil => exact .refl
  | cons primitive primitives ih =>
      have held : world.Holds primitive.toValue := by
        intro callable inside
        rw [List.mem_singleton.mp inside]
        trivial
      exact (grows_assign scope primitive.name held).trans (ih _)

theorem grows_createRoot (world : World) (setup : RootSetup) :
    world.Grows (world.createRoot setup) := by
  have added : world.Grows (world.addRoot setup.sink) :=
    .single (.rootAdded setup.sink)
  unfold World.createRoot
  split
  · exact added.trans (grows_install _ _)
  · exact added

/-- Binding parameters to arguments is binding one after the other. -/
theorem grows_defineAll {world : World} (scope : ScopeId)
    (names : List Identifier) {values : List Value}
    (held : ∀ value ∈ values, world.Holds value) :
    world.Grows (world.defineAll scope names values) := by
  apply defineAll_induction (motive := fun after => world.Grows after)
  · intro middle name value member grows
    have stillHeld := grows.extends.holds (held value member)
    exact grows.tail (.bound scope name stillHeld)
  · exact .refl

theorem grows_enter {world : World} {defining : ScopeId}
    (parameters : List Identifier) {arguments : List Value}
    (present : defining < world.nextScope)
    (held : ∀ argument ∈ arguments, world.Holds argument) :
    world.Grows (world.enter defining parameters arguments) := by
  have added : Act world (world.addChild defining) := .childAdded present
  exact .head added (grows_defineAll _ parameters
    fun argument member => added.extends.holds (held argument member))

end World

/-! ## Evaluation grows worlds -/

/-- Evaluation in existing scopes, with closures that were made in such. -/
def growthPolicy : Policy where
  world := World.Sound
  active world scope := scope < world.nextScope
  callable world callable := callable.Within (· < world.nextScope)
  form _ := True
  place _ := True

theorem growthPolicy_change_grows {before after : World}
    (change : growthPolicy.Change before after) : before.Grows after := by
  cases change with
  | recorded entry => exact .single (.noted entry)
  | printed active line => exact .single (.printed _ line)
  | assigned active allowed held => exact World.grows_assign _ _ held
  | entered allowed held => exact World.grows_enter _ allowed held

theorem growthPolicy_changes_grow {before after : World}
    (changes : growthPolicy.Changes before after) : before.Grows after := by
  induction changes with
  | refl => exact .refl
  | tail _ change ih => exact ih.trans (growthPolicy_change_grows change)

theorem growthPolicy_lawful : growthPolicy.Lawful where
  change sound change := (growthPolicy_change_grows change).sound sound
  active_change change active := Nat.lt_of_lt_of_le active
    (growthPolicy_change_grows change).extends.next
  callable_change change within := within.mono fun _ old =>
    Nat.lt_of_lt_of_le old (growthPolicy_change_grows change).extends.next
  parts _ _ := trivial
  place _ := trivial
  found sound _ found := by
    rcases Heap.value?_eq_some found with ⟨owner, -, bound⟩
    exact sound.stored bound
  captured _ active := active
  body _ := trivial
  fresh {world parameters body defining} arguments _ _ := by
    have next := world.nextScope_enter defining parameters arguments
    exact Nat.lt_of_lt_of_eq (Nat.lt_succ_self _) next.symm

end ScopedLisp
