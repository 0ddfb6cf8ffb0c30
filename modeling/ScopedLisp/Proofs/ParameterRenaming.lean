import ScopedLisp.Proofs.FormRenaming
import ScopedLisp.Proofs.Sessions

/-!
# Parameters can be renamed

A parameter of a lambda may be given another name if neither the lambda's
parameter list nor its body mentions that name: the renamed program behaves
like the given one.

The two runs make the same scopes in the same order.  Those in which the body
of the lambda runs, and the scopes made inside of them, are its *frames*: there
the second run binds and looks up the new name for the old one.  All other
scopes are the same in both runs.  A search that starts in a frame mentions a
name of the body, hence not the new name, and it cannot leave the frames for
the old name, as every innermost frame of the lambda binds it.
-/

namespace ScopedLisp

/-- A lambda with one of its parameters and another name for it, which the lambda does not use. -/
structure ParameterChange where
  opening : Position
  parameters : List Identifier
  body : Form
  old : String
  new : String
  isParameter : old ∈ parameters.map (·.text)
  notParameter : new ∉ parameters.map (·.text)
  notInBody : new ∉ body.names

/-- The scopes that have been made, and those among them in which a lambda's body runs. -/
structure Frames where
  count : ScopeId
  members : ScopeId → Prop
  made {frame : ScopeId} : members frame → frame < count

namespace Frames

/-- No scope is a frame yet. -/
def none (count : ScopeId) : Frames :=
  ⟨count, fun _ => False, False.elim⟩

/-- One more scope, a frame or not. -/
def grow (frames : Frames) (isFrame : Prop) : Frames where
  count := frames.count + 1
  members scope := frames.members scope ∨ scope = frames.count ∧ isFrame
  made := by
    rintro frame (member | ⟨rfl, -⟩)
    · exact Nat.lt_succ_of_lt (frames.made member)
    · exact Nat.lt_succ_self _

/-- More scopes have been made, and the old ones are frames as before. -/
structure Later (frames next : Frames) : Prop where
  count : frames.count ≤ next.count
  members {scope : ScopeId} : scope < frames.count →
    (next.members scope ↔ frames.members scope)

theorem Later.refl (frames : Frames) : frames.Later frames :=
  ⟨Nat.le_refl _, fun _ => Iff.rfl⟩

theorem Later.trans
    {first second third : Frames} (later : first.Later second)
    (later' : second.Later third) : first.Later third where
  count := Nat.le_trans later.count later'.count
  members old :=
    (later'.members (Nat.lt_of_lt_of_le old later.count)).trans
      (later.members old)

theorem later_grow (frames : Frames) (isFrame : Prop) :
    frames.Later (frames.grow isFrame) where
  count := Nat.le_succ _
  members := by
    intro scope old
    constructor
    · rintro (member | ⟨rfl, -⟩)
      · exact member
      · exact absurd old (Nat.lt_irrefl _)
    · exact .inl

end Frames

namespace ParameterChange

section Relations

variable (change : ParameterChange)

theorem old_ne_new : change.old ≠ change.new := by
  intro same
  exact change.notParameter (same ▸ change.isParameter)

/-- The lambda as it was given. -/
abbrev given : Form :=
  .lambda change.opening change.parameters change.body

/-- The lambda with its parameter renamed, in its parameter list and throughout its body. -/
abbrev renamed : Form :=
  .lambda change.opening
    (change.parameters.map (·.rename change.old change.new))
    (change.body.rename change.old change.new)

/-! ## What corresponds -/

/-- What a name of the given program is called in the renamed one, by scope. -/
inductive Called
    (frames : Frames) (scope : ScopeId) (name name' : String) : Prop where
  | outside (notFrame : ¬ frames.members scope) (same : name' = name)
  | inside (frame : frames.members scope) (notNew : name ≠ change.new)
      (same : name' = renamedText change.old change.new name)

/-- Forms that the two programs evaluate in one scope. -/
inductive Forms
    (frames : Frames) (scope : ScopeId) (form form' : Form) : Prop where
  | outside (notFrame : ¬ frames.members scope)
      (replaced : Form.Replacing change.given change.renamed form form')
  | inside (frame : frames.members scope) (notNew : change.new ∉ form.names)
      (same : form' = form.rename change.old change.new)

/--
Callables of the two programs: natives, closures outside of all frames in whose
bodies the lambda may be renamed, closures of the lambda itself, and closures
that were made in its frames.
-/
inductive Callables (frames : Frames) : Callable → Callable → Prop where
  | native (name : String) (native : Native) :
      Callables frames (.native name native) (.native name native)
  | outside (parameters : List Identifier) {body body' : Form}
      {scope : ScopeId} (made : scope < frames.count)
      (notFrame : ¬ frames.members scope)
      (replaced : Form.Replacing change.given change.renamed body body') :
      Callables frames (.closure parameters body scope)
        (.closure parameters body' scope)
  | itself {scope : ScopeId} (made : scope < frames.count)
      (notFrame : ¬ frames.members scope) :
      Callables frames (.closure change.parameters change.body scope)
        (.closure
          (change.parameters.map (·.rename change.old change.new))
          (change.body.rename change.old change.new) scope)
  | inside {parameters : List Identifier} {body : Form} {scope : ScopeId}
      (frame : frames.members scope)
      (notParameter : change.new ∉ parameters.map (·.text))
      (notInBody : change.new ∉ body.names) :
      Callables frames (.closure parameters body scope)
        (.closure (parameters.map (·.rename change.old change.new))
          (body.rename change.old change.new) scope)

/-- Values that differ in their callables only as the two programs do. -/
abbrev Values (frames : Frames) : Value → Value → Prop :=
  Value.Related (change.Callables frames)

/-- Causes that agree but for the name of the callee, which may be the renamed parameter. -/
inductive Causes : Cause → Cause → Prop where
  | same (cause : Cause) : Causes cause cause
  | renamed (cause : Cause) :
      Causes (cause.about change.old) (cause.about change.new)

/-- Call sites at one place that agree in the name or call the renamed parameter. -/
inductive Sites : CallSite → CallSite → Prop where
  | same (site : CallSite) : Sites site site
  | renamed (position : Position) :
      Sites ⟨change.old, position⟩ ⟨change.new, position⟩

/--
Worlds with the same scopes and sinks.  Scopes that are no frames bind the same
names to corresponding values; frames bind the new name for the old one.
-/
structure Matches (frames : Frames) (world world' : World) : Prop where
  count : world.nextScope = frames.count
  count' : world'.nextScope = frames.count
  links (scope : ScopeId) : world.heap.link? scope = world'.heap.link? scope
  sinks : world.sinks = world'.sinks
  locals {scope : ScopeId} {name name' : String} :
    change.Called frames scope name name' →
      Option.Rel (change.Values frames) (world.heap.local? scope name)
        (world'.heap.local? scope name')
  unused {frame : ScopeId} : frames.members frame →
    world.heap.local? frame change.new = none ∧
      world'.heap.local? frame change.old = none
  outward {scope outer : ScopeId} : ¬ frames.members scope →
    world.heap.outer? scope = some outer → ¬ frames.members outer

/-- Worlds that match and whose frames lie in one that binds the old name. -/
structure Worlds (frames : Frames) (world world' : World) : Prop
    extends change.Matches frames world world' where
  anchored {frame : ScopeId} : frames.members frame →
    (world.heap.local? frame change.old).isSome ∨
      ∃ outer, world.heap.outer? frame = some outer ∧ frames.members outer

/-- Evaluations of the two programs. -/
def simulation : Simulation Frames where
  later := Frames.Later
  worlds := change.Worlds
  forms frames form scope form' scope' :=
    scope = scope' ∧ scope < frames.count ∧
      change.Forms frames scope form form'
  names frames name scope name' scope' :=
    scope = scope' ∧ name.position = name'.position ∧
      change.Called frames scope name.text name'.text
  callables := change.Callables
  sites := change.Sites
  causes := change.Causes
  places := Eq
  lockstep := True

end Relations

variable {change : ParameterChange} {frames next : Frames}
variable {world world' : World} {scope : ScopeId} {name name' : String}

/-! ## Later stages -/

theorem Callables.later
    {callable callable' : Callable} (later : frames.Later next)
    (related : change.Callables frames callable callable') :
    change.Callables next callable callable' := by
  cases related with
  | native name native => exact .native name native
  | outside parameters made notFrame replaced =>
      exact .outside parameters (Nat.lt_of_lt_of_le made later.count)
        (mt (later.members made).mp notFrame) replaced
  | itself made notFrame =>
      exact .itself (Nat.lt_of_lt_of_le made later.count)
        (mt (later.members made).mp notFrame)
  | inside frame notParameter notInBody =>
      exact .inside ((later.members (frames.made frame)).mpr frame)
        notParameter notInBody

theorem Forms.later
    {form form' : Form} (later : frames.Later next)
    (made : scope < frames.count)
    (related : change.Forms frames scope form form') :
    change.Forms next scope form form' := by
  cases related with
  | outside notFrame replaced =>
      exact .outside (mt (later.members made).mp notFrame) replaced
  | inside frame notNew same =>
      exact .inside ((later.members made).mpr frame) notNew same

/-- In a scope that was there before, names are called what they were called. -/
theorem Called.earlier
    (later : frames.Later next) (made : scope < frames.count)
    (called : change.Called next scope name name') :
    change.Called frames scope name name' := by
  cases called with
  | outside notFrame same =>
      exact .outside (mt (later.members made).mpr notFrame) same
  | inside frame notNew same =>
      exact .inside ((later.members made).mp frame) notNew same

/-! ## Lookup -/

/-- A name is called the same or is the renamed parameter. -/
theorem Called.eq_or_renamed
    (called : change.Called frames scope name name') :
    name' = name ∨ name = change.old ∧ name' = change.new := by
  cases called with
  | outside notFrame same => exact .inl same
  | inside frame notNew same =>
      by_cases isOld : name = change.old
      · exact .inr ⟨isOld, by rw [same, isOld, renamedText_self]⟩
      · exact .inl (same.trans (renamedText_of_ne isOld))

/-- Different names are called differently. -/
theorem Called.oneToOne
    {other other' : String} (called : change.Called frames scope name name')
    (called' : change.Called frames scope other other') :
    name = other ↔ name' = other' := by
  rcases called with ⟨notFrame, rfl⟩ | ⟨frame, notNew, rfl⟩
  · rcases called' with ⟨-, rfl⟩ | ⟨frame, -, -⟩
    · exact Iff.rfl
    · exact absurd frame notFrame
  · rcases called' with ⟨notFrame, -⟩ | ⟨-, notNew', rfl⟩
    · exact absurd frame notFrame
    · exact (renamedText_inj notNew notNew').symm

namespace Worlds

/-- A search that goes on in the next scope of a chain goes on for the same names. -/
theorem called_outer
    (worlds : change.Worlds frames world world')
    (called : change.Called frames scope name name')
    (unbound : world.heap.local? scope name = none) {outer : ScopeId}
    (goesOn : world.heap.outer? scope = some outer) :
    change.Called frames outer name name' := by
  cases called with
  | outside notFrame same =>
      exact .outside (worlds.outward notFrame goesOn) same
  | inside frame notNew same =>
      by_cases outerFrame : frames.members outer
      · exact .inside outerFrame notNew same
      · have notOld : name ≠ change.old := by
          rintro rfl
          rcases worlds.anchored frame with bound | ⟨_, sameOuter, member⟩
          · simp [unbound] at bound
          · rw [goesOn] at sameOuter
            cases sameOuter
            exact outerFrame member
        exact .outside outerFrame (same.trans (renamedText_of_ne notOld))

theorem outer?
    (worlds : change.Worlds frames world world') (scope : ScopeId) :
    world.heap.outer? scope = world'.heap.outer? scope :=
  Heap.outer?_congr (worlds.links scope)

theorem value?
    (worlds : change.Worlds frames world world')
    (called : change.Called frames scope name name') :
    Option.Rel (change.Values frames) (world.heap.value? scope name)
      (world'.heap.value? scope name') := by
  induction scope using world.heap.outwardInduction with
  | step scope ih =>
      rw [Heap.value?_eq, Heap.value?_eq, ← worlds.outer? scope]
      have locals := worlds.locals called
      generalize bound : world.heap.local? scope name = found at locals
      generalize world'.heap.local? scope name' = found' at locals
      cases locals with
      | some related => exact .some related
      | none =>
          rcases goesOn : world.heap.outer? scope with _ | outer
          · exact .none
          · exact ih outer goesOn (worlds.called_outer called bound goesOn)

/-- Both programs find the owner of a name in one scope. -/
theorem owner?
    (worlds : change.Worlds frames world world')
    (called : change.Called frames scope name name') :
    Option.Rel
      (fun owner owner' => owner = owner' ∧
        change.Called frames owner name name')
      (world.heap.owner? scope name) (world'.heap.owner? scope name') := by
  induction scope using world.heap.outwardInduction with
  | step scope ih =>
      rw [Heap.owner?_eq, Heap.owner?_eq, ← worlds.outer? scope]
      have locals := worlds.locals called
      generalize bound : world.heap.local? scope name = found at locals
      generalize world'.heap.local? scope name' = found' at locals
      cases locals with
      | some related => exact .some ⟨rfl, called⟩
      | none =>
          rcases goesOn : world.heap.outer? scope with _ | outer
          · exact .none
          · exact ih outer goesOn (worlds.called_outer called bound goesOn)

end Worlds

/-! ## Changes -/

theorem Matches.unbound
    (same : change.Matches frames world world') (absent : frames.count ≤ scope)
    (name : String) : world.heap.local? scope name = none := by
  have absent : world.nextScope ≤ scope := same.count.symm ▸ absent
  exact Heap.local?_of_next_le absent name

theorem Matches.unbound'
    (same : change.Matches frames world world') (absent : frames.count ≤ scope)
    (name : String) : world'.heap.local? scope name = none := by
  have absent : world'.nextScope ≤ scope := same.count'.symm ▸ absent
  exact Heap.local?_of_next_le absent name

theorem Matches.define
    (same : change.Matches frames world world')
    (called : change.Called frames scope name name') {value value' : Value}
    (related : change.Values frames value value') :
    change.Matches frames (world.define scope name value)
      (world'.define scope name' value') where
  count := by simpa [World.nextScope, World.define] using same.count
  count' := by simpa [World.nextScope, World.define] using same.count'
  links other := by simpa [World.define] using same.links other
  sinks := same.sinks
  locals {other key key'} calledKey := by
    have locals := same.locals calledKey
    by_cases made : scope < frames.count
    · have isOld : scope < world.nextScope := same.count.symm ▸ made
      have isOld' : scope < world'.nextScope := same.count'.symm ▸ made
      simp only [World.define]
      rw [Heap.local?_define name value isOld,
        Heap.local?_define name' value' isOld']
      have sameKey : scope = other ∧ name = key ↔
          scope = other ∧ name' = key' := by
        apply and_congr_right
        rintro rfl
        exact called.oneToOne calledKey
      simp only [sameKey]
      split
      · exact .some related
      · exact locals
    · have absent : world.nextScope ≤ scope :=
        same.count.symm ▸ Nat.le_of_not_lt made
      have absent' : world'.nextScope ≤ scope :=
        same.count'.symm ▸ Nat.le_of_not_lt made
      simp only [World.define]
      rw [Heap.define_of_next_le absent, Heap.define_of_next_le absent']
      exact locals
  unused {frame} member := by
    rcases same.unused member with ⟨unused, unused'⟩
    simp only [World.define]
    constructor
    · rcases world.heap.local?_define_cases scope frame name change.new value
        with ⟨rfl, isNew, -⟩ | unchanged
      · rcases called with ⟨notFrame, -⟩ | ⟨-, notNew, -⟩
        · exact absurd member notFrame
        · exact absurd isNew notNew
      · rw [unchanged, unused]
    · rcases world'.heap.local?_define_cases scope frame name' change.old
        value' with ⟨rfl, isOld, -⟩ | unchanged
      · rcases called with ⟨notFrame, -⟩ | ⟨-, -, rfl⟩
        · exact absurd member notFrame
        · exact absurd isOld (renamedText_ne_old change.old_ne_new name)
      · rw [unchanged, unused']
  outward {other outer} notFrame goesOn := by
    apply same.outward notFrame
    rw [← goesOn]
    apply Heap.outer?_congr
    simp [World.define]

theorem Worlds.define
    (worlds : change.Worlds frames world world')
    (called : change.Called frames scope name name') {value value' : Value}
    (related : change.Values frames value value') :
    change.Worlds frames (world.define scope name value)
      (world'.define scope name' value') where
  toMatches := worlds.toMatches.define called related
  anchored {frame} member := by
    have sameOuter : (world.define scope name value).heap.outer? frame =
        world.heap.outer? frame := by
      apply Heap.outer?_congr
      simp [World.define]
    rw [sameOuter]
    exact (worlds.anchored member).imp_left World.isSome_local?_define

theorem Worlds.assign
    (worlds : change.Worlds frames world world')
    (called : change.Called frames scope name name') {value value' : Value}
    (related : change.Values frames value value') :
    change.Worlds frames (world.assign scope name value)
      (world'.assign scope name' value') := by
  have owners := worlds.owner? called
  simp only [World.assign, Heap.assign]
  generalize world.heap.owner? scope name = owner at owners
  generalize world'.heap.owner? scope name' = owner' at owners
  cases owners with
  | none => exact worlds.define called related
  | some both =>
      rcases both with ⟨rfl, calledOwner⟩
      exact worlds.define calledOwner related

theorem Worlds.record
    (worlds : change.Worlds frames world world') (entry entry' : LogRecord) :
    change.Worlds frames (world.record entry) (world'.record entry') :=
  ⟨⟨worlds.count, worlds.count', worlds.links, worlds.sinks, worlds.locals,
    worlds.unused, worlds.outward⟩, worlds.anchored⟩

theorem Worlds.acceptance
    (worlds : change.Worlds frames world world') (scope : ScopeId)
    (line : String) :
    world.acceptance scope line = world'.acceptance scope line := by
  simp only [World.acceptance, World.sinkOf?,
    Heap.sink?_congr worlds.links scope, worlds.sinks]

theorem Worlds.afterLine
    (worlds : change.Worlds frames world world') (scope : ScopeId)
    (line : String) :
    change.Worlds frames (world.afterLine scope line)
      (world'.afterLine scope line) where
  count := by simpa using worlds.count
  count' := by simpa using worlds.count'
  links other := by simpa using worlds.links other
  sinks := by
    simp only [World.afterLine, Heap.sink?_congr worlds.links scope]
    split
    · simp only [World.updateSink, worlds.sinks]
    · exact worlds.sinks
  locals called := by simpa using worlds.locals called
  unused member := by simpa using worlds.unused member
  outward notFrame goesOn :=
    worlds.outward notFrame (by simpa using goesOn)
  anchored member := by simpa using worlds.anchored member

/-! ### Entering a closure -/

theorem Matches.addChild
    (same : change.Matches frames world world') {defining : ScopeId}
    {isFrame : Prop} (inherits : frames.members defining → isFrame) :
    change.Matches (frames.grow isFrame) (world.addChild defining)
      (world'.addChild defining) where
  count := by
    simpa [World.nextScope, World.addChild, Frames.grow] using same.count
  count' := by
    simpa [World.nextScope, World.addChild, Frames.grow] using same.count'
  links other := by
    have next : world.heap.next = world'.heap.next :=
      same.count.trans same.count'.symm
    simp only [World.addChild, Heap.link?_add, next, same.links other]
  sinks := same.sinks
  locals {other key key'} called := by
    simp only [World.addChild, Heap.local?_add]
    by_cases made : other < frames.count
    · have later := frames.later_grow isFrame
      have locals := same.locals (called.earlier later made)
      generalize world.heap.local? other key = found at locals ⊢
      generalize world'.heap.local? other key' = found' at locals ⊢
      cases locals with
      | none => exact .none
      | some related =>
          exact .some (related.mono fun _ _ => Callables.later later)
    · rw [same.unbound (Nat.le_of_not_lt made),
        same.unbound' (Nat.le_of_not_lt made)]
      exact .none
  unused {frame} member := by
    simp only [World.addChild, Heap.local?_add]
    rcases member with old | ⟨rfl, -⟩
    · exact same.unused old
    · exact ⟨same.unbound (Nat.le_refl _) _, same.unbound' (Nat.le_refl _) _⟩
  outward {other outer} notFrame goesOn := by
    rcases (Heap.outer?_eq_some_iff _ _ _).mp goesOn with ⟨hangs, older⟩
    rw [World.addChild, Heap.link?_add] at hangs
    split at hangs
    · rename_i isNew
      have isNew : other = frames.count := isNew.trans same.count
      cases hangs
      rintro (old | ⟨isFresh, -⟩)
      · exact notFrame (.inr ⟨isNew, inherits old⟩)
      · exact absurd older (isNew ▸ isFresh ▸ Nat.lt_irrefl _)
    · have wasOuter : world.heap.outer? other = some outer :=
        (Heap.outer?_eq_some_iff _ _ _).mpr ⟨hangs, older⟩
      have made : other < frames.count :=
        same.count ▸ Heap.lt_next_of_link? hangs
      rintro (old | ⟨isFresh, -⟩)
      · exact same.outward (fun member => notFrame (.inl member)) wasOuter old
      · exact absurd (Nat.lt_trans older made) (isFresh ▸ Nat.lt_irrefl _)

theorem Matches.defineAll
    (same : change.Matches frames world world')
    {names names' : List Identifier} {values values' : List Value}
    (called : List.Forall₂
      (fun name name' => change.Called frames scope name.text name'.text)
      names names')
    (related : List.Forall₂ (change.Values frames) values values') :
    change.Matches frames (world.defineAll scope names values)
      (world'.defineAll scope names' values') := by
  induction called generalizing values values' world world' with
  | nil => exact same
  | cons head tail ih =>
      cases related with
      | nil => exact same
      | cons value rest => exact ih (same.define head value) rest

/-- Both programs make a new scope, which is a frame if it is made inside of one. -/
theorem Worlds.enter
    (worlds : change.Worlds frames world world') {defining : ScopeId}
    {parameters parameters' : List Identifier}
    {arguments arguments' : List Value} {isFrame : Prop}
    (made : defining < frames.count)
    (inherits : frames.members defining → isFrame)
    (anchors : isFrame →
      frames.members defining ∨ change.old ∈ parameters.map (·.text))
    (called : List.Forall₂
      (fun name name' =>
        change.Called (frames.grow isFrame) frames.count name.text name'.text)
      parameters parameters')
    (related : List.Forall₂ (change.Values frames) arguments arguments')
    (enough : arguments.length = parameters.length) :
    change.Worlds (frames.grow isFrame)
      (world.enter defining parameters arguments)
      (world'.enter defining parameters' arguments') where
  toMatches := by
    have later := frames.later_grow isFrame
    have relatedLater := related.imp fun _ _ values =>
      values.mono fun _ _ => Callables.later later
    rw [World.enter, World.enter, worlds.count, worlds.count']
    exact (worlds.toMatches.addChild inherits).defineAll called relatedLater
  anchored {frame} member := by
    have links := world.link?_enter defining parameters arguments
    rcases member with old | ⟨rfl, isFrame⟩
    · have isOld : frame < world.nextScope :=
        worlds.count.symm ▸ frames.made old
      have sameOuter := Heap.outer?_congr
        ((links frame).trans (if_neg (Nat.ne_of_lt isOld)))
      rw [world.local?_enter defining parameters arguments _ isOld, sameOuter]
      apply (worlds.anchored old).imp_right
      rintro ⟨outer, goesOn, outerFrame⟩
      exact ⟨outer, goesOn, .inl outerFrame⟩
    · rcases anchors isFrame with inFrame | isParameter
      · have hangs := links world.nextScope
        rw [if_pos rfl, worlds.count] at hangs
        exact .inr ⟨defining, (Heap.outer?_eq_some_iff _ _ _).mpr
          ⟨hangs, made⟩, .inl inFrame⟩
      · have bound := world.isSome_local?_enter defining enough isParameter
        rw [worlds.count] at bound
        exact .inl bound

/-! ## Evaluation -/

/-- The parameters of a closure whose body runs in a frame. -/
theorem called_parameters
    (frame : frames.members scope) {parameters : List Identifier}
    (notParameter : change.new ∉ parameters.map (·.text)) :
    List.Forall₂
      (fun name name' => change.Called frames scope name.text name'.text)
      parameters (parameters.map (·.rename change.old change.new)) := by
  rw [List.forall₂_map_right_iff, List.forall₂_same]
  intro parameter member
  refine .inside frame ?_ rfl
  rintro isNew
  exact notParameter (isNew ▸ List.mem_map_of_mem member)

theorem Forms.alongside
    {form form' : Form} (made : scope < frames.count)
    (related : change.Forms frames scope form form') :
    form.Alongside Eq
      (fun name name' => change.simulation.names frames name scope name' scope)
      (fun part part' => change.simulation.forms frames part scope part' scope)
      form' := by
  have sameName : ¬ frames.members scope → ∀ name : Identifier,
      change.simulation.names frames name scope name scope :=
    fun notFrame name => ⟨rfl, rfl, .outside notFrame rfl⟩
  have part {form form' : Form} (notFrame : ¬ frames.members scope)
      (replaced : Form.Replacing change.given change.renamed form form') :
      change.simulation.forms frames form scope form' scope :=
    ⟨rfl, made, .outside notFrame replaced⟩
  rcases related with ⟨notFrame, replaced⟩ | ⟨frame, notNew, rfl⟩
  · cases replaced with
    | same form =>
        apply Form.alongside_self rfl
        · exact fun name _ => sameName notFrame name
        · exact fun _ _ => part notFrame (.same _)
    | here => exact .lambda _ _ _ _ _ _
    | assignment target replaced => exact .assignment (part notFrame replaced)
    | conditional opening tested chosen otherwise =>
        exact .conditional rfl (part notFrame tested) (part notFrame chosen)
          (part notFrame otherwise)
    | lambda opening parameters replaced => exact .lambda _ _ _ _ _ _
    | sequence opening replaced =>
        exact .sequence _ _ (replaced.imp fun _ _ => part notFrame)
    | printLine opening replaced =>
        exact .printLine rfl (part notFrame replaced)
    | operation operator word first second =>
        exact .operation operator rfl (part notFrame first)
          (part notFrame second)
    | call name group replaced =>
        exact .call _ _ (sameName notFrame name)
          (replaced.imp fun _ _ => part notFrame)
  · apply Form.alongside_rename rfl
    · intro name mentioned
      refine ⟨rfl, rfl, .inside frame ?_ rfl⟩
      rintro isNew
      exact notNew (isNew ▸ mentioned)
    · intro part isPart
      refine ⟨rfl, made, .inside frame ?_ rfl⟩
      exact mt (Form.mem_names_of_part isPart) notNew

theorem Forms.captured
    {opening opening' : Position} {parameters parameters' : List Identifier}
    {body body' : Form} (made : scope < frames.count)
    (related : change.Forms frames scope (.lambda opening parameters body)
      (.lambda opening' parameters' body')) :
    change.Callables frames (.closure parameters body scope)
      (.closure parameters' body' scope) := by
  rcases related with ⟨notFrame, replaced⟩ | ⟨frame, notNew, same⟩
  · cases replaced with
    | same => exact .outside parameters made notFrame (.same body)
    | here => exact .itself made notFrame
    | lambda _ _ replaced => exact .outside parameters made notFrame replaced
  · cases same
    simp only [Form.names, List.mem_append, not_or] at notNew
    exact .inside frame notNew.1 notNew.2

theorem Forms.target
    {target target' : Identifier} {value value' : Form}
    (related : change.Forms frames scope (.assignment target value)
      (.assignment target' value')) :
    change.Called frames scope target.text target'.text := by
  rcases related with ⟨notFrame, replaced⟩ | ⟨frame, notNew, same⟩
  · cases replaced <;> exact .outside notFrame rfl
  · cases same
    simp only [Form.names, List.mem_cons, not_or] at notNew
    exact .inside frame (Ne.symm notNew.1) rfl

theorem simulation_lawful (change : ParameterChange) :
    change.simulation.Lawful where
  refl := Frames.Later.refl
  trans := Frames.Later.trans
  forms_later := by
    rintro frames next form form' scope _ later ⟨rfl, made, related⟩
    exact ⟨rfl, Nat.lt_of_lt_of_le made later.count, related.later later made⟩
  callables_later later related := related.later later
  alongside := by
    rintro frames form form' scope _ ⟨rfl, made, related⟩
    exact related.alongside made
  sameKind related := by
    cases related with
    | native name native => exact .native name native
    | outside | itself | inside => exact .closure _ _ _ _ (by simp)
  runtime {cause} _ := .same cause
  site := by
    rintro frames ⟨text, place⟩ ⟨text', _⟩ scope _ ⟨rfl, rfl, called⟩
    rcases called.eq_or_renamed with same | ⟨isOld, isNew⟩
    · cases same
      exact .same _
    · cases isOld
      cases isNew
      exact .renamed place
  sitePlace sites := by
    cases sites <;> rfl
  siteCause {site site' cause} sites _ := by
    cases sites with
    | same site => exact .same _
    | renamed position => exact .renamed cause
  found := by
    rintro frames world world' name name' scope _ worlds ⟨rfl, -, called⟩
    exact worlds.value? called
  captured := by
    rintro frames _ _ _ _ _ _ scope _ ⟨rfl, made, related⟩
    exact related.captured made
  assigned := by
    rintro frames world world' _ _ _ _ scope _ _ _ worlds ⟨rfl, -, related⟩
      values
    exact ⟨frames, .refl frames, worlds.assign related.target values⟩
  printed := by
    rintro frames world world' _ _ _ _ scope _ line worlds ⟨rfl, -, -⟩
    exact ⟨worlds.acceptance scope line, frames, .refl frames,
      worlds.afterLine scope line⟩
  recorded {frames world world' entry entry'} worlds _ :=
    ⟨frames, .refl frames, worlds.record entry entry'⟩
  entered := by
    intro frames world world' parameters parameters' body body' scope scope'
      arguments arguments' worlds callables related enough
    have freshFrame : (frames.grow True).members frames.count :=
      .inr ⟨rfl, trivial⟩
    have made : frames.count < frames.count + 1 := Nat.lt_succ_self _
    rw [worlds.count, worlds.count']
    cases callables with
    | outside _ isOld notFrame replaced =>
        have notFresh : ¬ (frames.grow False).members frames.count := by
          rintro (member | ⟨-, false⟩)
          · exact Nat.lt_irrefl _ (frames.made member)
          · exact false
        refine ⟨_, frames.later_grow False, ?_, rfl, made,
          .outside notFresh replaced⟩
        apply worlds.enter isOld notFrame False.elim _ related enough
        exact List.forall₂_same.mpr fun _ _ => .outside notFresh rfl
    | itself isOld notFrame =>
        refine ⟨_, frames.later_grow True, ?_, rfl, made,
          .inside freshFrame change.notInBody rfl⟩
        exact worlds.enter isOld (fun _ => trivial)
          (fun _ => .inr change.isParameter)
          (called_parameters freshFrame change.notParameter) related enough
    | inside frame notParameter notInBody =>
        refine ⟨_, frames.later_grow True, ?_, rfl, made,
          .inside freshFrame notInBody rfl⟩
        exact worlds.enter (frames.made frame) (fun _ => trivial)
          (fun _ => .inl frame) (called_parameters freshFrame notParameter)
          related enough

end ParameterChange

/-! ## Whole programs -/

/-- Whether all stored closures were made in scopes that exist. -/
def World.ClosuresExist (world : World) : Prop :=
  ∀ scope name value, world.heap.local? scope name = some value →
    value.Within (· < world.nextScope)

/-- In worlds that programs get to, closures were made in existing scopes. -/
theorem World.Separate.closuresExist
    {world : World} (separate : world.Separate) : world.ClosuresExist := by
  intro scope name value bound
  have within := separate.closed (world.heap.root scope) scope name value rfl
    bound
  exact within.mono fun _ inside => inside.1

namespace ParameterChange

/-- Before a run, when there are no frames, a world corresponds to itself. -/
theorem worlds_none
    (change : ParameterChange) {world : World}
    (closuresExist : world.ClosuresExist) :
    change.Worlds (.none world.nextScope) world world where
  count := rfl
  count' := rfl
  links _ := rfl
  sinks := rfl
  locals {scope name name'} called := by
    rcases called with ⟨-, rfl⟩ | ⟨⟨⟩, -, -⟩
    apply Value.optionRel_self
    intro value bound
    apply Value.related_self
    intro callable inside
    have exists' := closuresExist scope name' value bound callable inside
    cases callable with
    | native name native => exact .native name native
    | closure parameters body scope =>
        exact .outside parameters exists' False.elim (.same body)
  unused := False.elim
  outward _ _ := False.elim
  anchored := False.elim

end ParameterChange

/--
Two programs that differ in the name of a parameter of a lambda run alike, from
every world and in every scope, to every depth.  They end alike or neither
ends; all sinks have received the same text; scopes that existed before the
run bind the same names, and values differ only in closures of the renamed
lambda and in those made in its frames; an error has the same place and the
same code, and its message has at most the new name in place of the old one.
-/
theorem parameters_are_renamable
    (change : ParameterChange) {form form' : Form}
    (replaced : Form.Replacing change.given change.renamed form form')
    {world : World} (closuresExist : world.ClosuresExist) {scope : ScopeId}
    (made : scope < world.nextScope) (depth : Nat) :
    ∃ frames : Frames,
      (∀ frame, frames.members frame → world.nextScope ≤ frame) ∧
      Outcome.Related (change.Worlds frames) (change.Values frames)
        (fun error error' => error.position? = error'.position? ∧
          error.cause.code = error'.cause.code ∧
          change.Causes error.cause error'.cause)
        (evaluate Host.none depth form scope world)
        (evaluate Host.none depth form' scope world) := by
  have evaluators := change.simulation_lawful.evaluators (Nat.le_refl depth)
    fun _ => rfl
  have sameForms : change.simulation.forms (.none world.nextScope)
      form scope form' scope :=
    ⟨rfl, made, .outside False.elim replaced⟩
  have outcomes := evaluators.evaluate sameForms world world
    (change.worlds_none closuresExist)
  rcases outcomes.exists_related change.simulation_lawful trivial with
    ⟨frames, later, related⟩
  refine ⟨frames, ?_, ?_⟩
  · intro frame member
    by_contra old
    exact (later.members (Nat.lt_of_not_le old)).mp member
  · apply related.imp
    · exact fun _ _ worlds => worlds
    · exact fun _ _ values => values
    · rintro _ _ ⟨sameCause, rfl⟩
      refine ⟨rfl, ?_, sameCause⟩
      cases sameCause with
      | same cause => rfl
      | renamed cause => cases cause <;> rfl

/-- A closure escapes and then calls the renamed parameter, which fails under either name. -/
theorem parameters_are_renamable_escaping :
    let place : Position := .start
    let name (text : String) : Identifier := ⟨text, place⟩
    let inner : Form := .lambda place [name "z"]
      (.call (name "g") place [.variable (name "z")])
    let change : ParameterChange :=
      ⟨place, [name "g"], inner, "g", "k", by decide, by decide, by decide⟩
    let program (lambda : Form) : Form := .sequence place
      [.assignment (name "f") lambda,
        .assignment (name "h")
          (.call (name "f") place [.variable (name "first")]),
        .call (name "h") place [.literal ⟨⟨.nil, "nil"⟩, place⟩ .nil]]
    let world := World.ofRoots [⟨true, .keeping⟩]
    Form.Replacing change.given change.renamed (program change.given)
        (program change.renamed) ∧
      world.ClosuresExist ∧ 0 < world.nextScope ∧
      ∃ frames : Frames,
        (∀ frame, frames.members frame → world.nextScope ≤ frame) ∧
        Outcome.Related (change.Worlds frames) (change.Values frames)
          (fun error error' => error.position? = error'.position? ∧
            error.cause.code = error'.cause.code ∧
            change.Causes error.cause error'.cause)
          (evaluate Host.none 8 (program change.given) 0 world)
          (evaluate Host.none 8 (program change.renamed) 0 world) := by
  intro place name inner change program world
  have replaced : Form.Replacing change.given change.renamed
      (program change.given) (program change.renamed) :=
    .sequence place
      (.cons (.assignment _ .here) (.cons (.same _) (.cons (.same _) .nil)))
  have roots := World.ofRoots_rootsOnly [⟨true, .keeping⟩]
  have closuresExist : world.ClosuresExist := roots.separate.closuresExist
  have made : 0 < world.nextScope := by
    rw [roots.next]
    decide
  exact ⟨replaced, closuresExist, made,
    parameters_are_renamable change replaced closuresExist made 8⟩

end ScopedLisp
