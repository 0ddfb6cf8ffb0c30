import Mathlib
import ScopedLisp.Proofs.Sessions
import ScopedLisp.Proofs.WorldComparison

/-!
# Roots are isolated from each other

What happens in the tree of one root does not depend on the runs in the trees
of others.  A session is compared with the session of the runs on one root
alone: runs on that root are matched step by step, and runs on other roots
change nothing that matters, except that they use up numbers of scopes.  So the
two worlds are compared up to a matching of scopes, and the matching is shifted
whenever a run on another root has made scopes.
-/

namespace ScopedLisp

/-! ## Values and trees up to a matching of scopes -/

/-- Callables that differ at most in the numbers of matched scopes. -/
inductive Callable.Matches (matching : ScopeId → ScopeId → Prop) :
    Callable → Callable → Prop where
  | native (name : String) (native : Native) :
      Matches matching (.native name native) (.native name native)
  | closure (parameters : List Identifier) (body : Form)
      {scope scope' : ScopeId} (matched : matching scope scope') :
      Matches matching (.closure parameters body scope)
        (.closure parameters body scope')

/-- Values that differ at most in the numbers of matched scopes. -/
abbrev Value.Matches (matching : ScopeId → ScopeId → Prop) :
    Value → Value → Prop :=
  Value.Related (Callable.Matches matching)

/-- The same request with the same error or with values that match. -/
inductive Exchange.Matches (matching : ScopeId → ScopeId → Prop) :
    Exchange → Exchange → Prop where
  | answered (scope : ScopeId) (source : String) {value value' : Value}
      (related : value.Matches matching value') :
      Matches matching ⟨scope, source, .ok value⟩ ⟨scope, source, .ok value'⟩
  | refused (scope : ScopeId) (source : String) (error : Error) :
      Matches matching ⟨scope, source, .error error⟩
        ⟨scope, source, .error error⟩

/-- The trees of one root in two worlds, scope by scope. -/
structure World.TreesMatch
    (root : ScopeId) (matching : ScopeId → ScopeId → Prop)
    (world world' : World) : Prop where
  roots : matching root root
  oneToOne {scope scope' other other' : ScopeId} :
    matching scope scope' → matching other other' →
      (scope = other ↔ scope' = other')
  inTree {scope scope' : ScopeId} : matching scope scope' →
    world.Territory (· = root) scope ∧ world'.Territory (· = root) scope'
  covers {scope : ScopeId} : world.Territory (· = root) scope →
    ∃ scope', matching scope scope'
  covers' {scope' : ScopeId} : world'.Territory (· = root) scope' →
    ∃ scope, matching scope scope'
  parents {scope scope' : ScopeId} : matching scope scope' →
    Option.Rel matching (world.heap.parent? scope)
      (world'.heap.parent? scope')
  bindings {scope scope' : ScopeId} (name : String) :
    matching scope scope' →
      Option.Rel (Value.Matches matching) (world.heap.local? scope name)
        (world'.heap.local? scope' name)

/-! ## Shifting a matching -/

namespace Comparison

/--
The comparison of a world with scopes that the other world lacks: scopes that
exist stay matched, and those still to come are matched anew.
-/
def shift
    (comparison : Comparison) (old next next' : ScopeId)
    (grows : old ≤ next)
    (made : ∀ {scope scope'}, comparison.scopes scope scope' →
      scope < old → scope' < next') : Comparison where
  view := comparison.view
  scopes scope scope' :=
    comparison.scopes scope scope' ∧ scope < old ∨
      ∃ index, scope = next + index ∧ scope' = next' + index
  sinks := comparison.sinks
  oneToOne := by
    -- a scope that exists is none of those still to come, on either side
    have apart : ∀ {low high low' high' index : Nat}, low < high →
        low' < high' → (low = high + index ↔ low' = high' + index) := by
      omega
    have shifted : ∀ {low low' index index' : Nat},
        low + index = low + index' ↔ low' + index = low' + index' := by
      omega
    rintro scope scope' other other' (⟨matched, isOld⟩ | ⟨index, rfl, rfl⟩)
      (⟨matchedOther, otherOld⟩ | ⟨index', rfl, rfl⟩)
    · exact comparison.oneToOne matched matchedOther
    · exact apart (Nat.lt_of_lt_of_le isOld grows) (made matched isOld)
    · rw [eq_comm, @eq_comm _ (next' + index)]
      exact apart (Nat.lt_of_lt_of_le otherOld grows)
        (made matchedOther otherOld)
    · exact shifted

/-- Closures made in scopes that exist stay matched by a shift. -/
theorem related_shift
    {comparison : Comparison} {old next next' : ScopeId} {grows : old ≤ next}
    {made : ∀ {scope scope'}, comparison.scopes scope scope' →
      scope < old → scope' < next'}
    {value value' : Value}
    (related : Value.Related comparison.Callables value value')
    (exist : value.Within (· < old)) :
    Value.Related (comparison.shift old next next' grows made).Callables
      value value' := by
  apply related.mono_mem
  intro callable inside callable' relation
  cases relation with
  | native name native => exact .native name native
  | closure sameParameters sameBody matched =>
      exact .closure sameParameters sameBody
        (.inl ⟨matched, exist _ inside⟩)

/-- A world may change outside of what is compared, and make scopes there. -/
theorem Worlds.shift
    {comparison : Comparison} {owned : ScopeId → Prop}
    {before after other : World} (worlds : comparison.Worlds before other)
    (separate : before.Separate) (spares : World.Spares owned before after)
    (foreign : ∀ {scope scope'}, comparison.scopes scope scope' →
      scope < before.nextScope → ¬ owned (before.heap.root scope))
    (foreignSinks : ∀ {sink scope}, comparison.sinks sink →
      before.heap.link? scope = some (.root sink) → ¬ owned scope) :
    (comparison.shift before.nextScope after.nextScope other.nextScope
      spares.next fun matched => (worlds.made matched).mp).Worlds
        after other where
  fresh index := .inr ⟨index, rfl, rfl⟩
  made := by
    have notBelow : ∀ {low index : Nat}, ¬ low + index < low := by omega
    rintro scope scope' (⟨matched, isOld⟩ | ⟨index, rfl, rfl⟩)
    · exact iff_of_true (Nat.lt_of_lt_of_le isOld spares.next)
        ((worlds.made matched).mp isOld)
    · exact iff_of_false notBelow notBelow
  links := by
    rintro scope scope' (⟨matched, isOld⟩ | ⟨index, rfl, rfl⟩)
    · rw [spares.links isOld]
      have links := worlds.links matched
      generalize hangs : before.heap.link? scope = link at links
      generalize other.heap.link? scope' = link' at links
      cases links with
      | none => exact .none
      | root shared => exact .root shared
      | child matchedParents order =>
          have older := separate.wellScoped.parentOlder hangs
          exact .child (.inl ⟨matchedParents, Nat.lt_trans older isOld⟩) order
    · have absent : ∀ world : World,
          world.heap.link? (world.nextScope + index) = none := fun world =>
        Heap.link?_of_next_le (Nat.le_add_right world.nextScope index)
      rw [absent after, absent other]
      exact .none
  locals := by
    rintro scope scope' name (⟨matched, isOld⟩ | ⟨index, rfl, rfl⟩)
    · rw [spares.locals name isOld (foreign matched isOld)]
      have locals := worlds.locals name matched
      generalize bound : before.heap.local? scope name = value at locals
      generalize other.heap.local? scope' name = value' at locals
      cases locals with
      | none => exact .none
      | some related =>
          have within := separate.closed _ scope name _ rfl bound
          exact .some (related_shift related
            (within.mono fun _ inside => inside.1))
    · have absent : ∀ world : World,
          world.heap.local? (world.nextScope + index) name = none :=
        fun world => Heap.local?_of_next_le
          (Nat.le_add_right world.nextScope index) name
      rw [absent after, absent other]
      exact .none
  sinks shared :=
    (spares.sinks fun _ => foreignSinks shared).trans (worlds.sinks shared)

end Comparison

/-! ## A world beside one without the other runs -/

/-- What relates a world to the one in which only runs on one root took place. -/
structure Joint
    (root : ScopeId) (comparison : Comparison) (world alone : World) :
    Prop where
  exact : comparison.view = id
  worlds : comparison.Worlds world alone
  separate : world.Separate
  separateAlone : alone.Separate
  roots : comparison.scopes root root
  made : root < world.nextScope
  isRoot : world.heap.link? root = some (.root root)
  sink {sink : SinkId} : comparison.sinks sink ↔ sink = root
  inTree {scope scope' : ScopeId} : comparison.scopes scope scope' →
    scope < world.nextScope →
      world.heap.root scope = root ∧ alone.heap.root scope' = root
  covers {scope : ScopeId} : world.Territory (· = root) scope →
    ∃ scope', comparison.scopes scope scope'
  covers' {scope' : ScopeId} : alone.Territory (· = root) scope' →
    ∃ scope, comparison.scopes scope scope'

/-- The part of a comparison that is about scopes that exist. -/
def Comparison.existing
    (comparison : Comparison) (world : World) (scope scope' : ScopeId) : Prop :=
  comparison.scopes scope scope' ∧ scope < world.nextScope

theorem Comparison.matches_of_related
    {comparison : Comparison} (exact' : comparison.view = id) {world : World}
    {value value' : Value}
    (related : Value.Related comparison.Callables value value')
    (exist : value.Within (· < world.nextScope)) :
    value.Matches (comparison.existing world) value' := by
  apply related.mono_mem
  intro callable inside callable' relation
  cases relation with
  | native name native => exact .native name native
  | closure sameParameters sameBody matched =>
      have names : Identifier.mapPosition id = id := rfl
      simp only [exact', Form.mapPositions_id] at sameBody
      simp only [exact', names, List.map_id] at sameParameters
      subst sameParameters sameBody
      exact .closure _ _ ⟨matched, exist _ inside⟩

namespace Joint

variable {root : ScopeId} {comparison : Comparison} {world alone : World}

theorem root_eq (joint : Joint root comparison world alone) :
    world.heap.root root = root :=
  (joint.inTree joint.roots joint.made).1

theorem root_eq' (joint : Joint root comparison world alone) :
    alone.heap.root root = root :=
  (joint.inTree joint.roots joint.made).2

/-- Runs on the root in both worlds keep them beside each other. -/
theorem own
    (joint : Joint root comparison world alone) {next nextAlone : World}
    (worlds : comparison.Worlds next nextAlone)
    (separate : next.Separate) (separateAlone : nextAlone.Separate)
    (spares : World.Spares (· = root) world next)
    (sparesAlone : World.Spares (· = root) alone nextAlone) :
    Joint root comparison next nextAlone where
  exact := joint.exact
  worlds := worlds
  separate := separate
  separateAlone := separateAlone
  roots := joint.roots
  made := Nat.lt_of_lt_of_le joint.made spares.next
  isRoot := (spares.links joint.made).trans joint.isRoot
  sink := joint.sink
  inTree {scope scope'} matched made := by
    by_cases isOld : scope < world.nextScope
    · rw [spares.root isOld,
        sparesAlone.root ((joint.worlds.made matched).mp isOld)]
      exact joint.inTree matched isOld
    · have isYoung : ¬ scope' < alone.nextScope :=
        isOld ∘ (joint.worlds.made matched).mpr
      have made' := (worlds.made matched).mp made
      exact ⟨(spares.fresh (Nat.le_of_not_lt isOld) made).1,
        (sparesAlone.fresh (Nat.le_of_not_lt isYoung) made').1⟩
  covers {scope} inside := by
    by_cases isOld : scope < world.nextScope
    · exact joint.covers ⟨isOld, (spares.root isOld).symm.trans inside.2⟩
    · rcases Nat.exists_eq_add_of_le (Nat.le_of_not_lt isOld) with
        ⟨index, rfl⟩
      exact ⟨_, joint.worlds.fresh index⟩
  covers' {scope'} inside := by
    by_cases isOld : scope' < alone.nextScope
    · exact joint.covers'
        ⟨isOld, (sparesAlone.root isOld).symm.trans inside.2⟩
    · rcases Nat.exists_eq_add_of_le (Nat.le_of_not_lt isOld) with
        ⟨index, rfl⟩
      exact ⟨_, joint.worlds.fresh index⟩

/-- Runs on other roots keep a world beside the one without them. -/
theorem other
    (joint : Joint root comparison world alone) {another : ScopeId}
    {next : World} (different : another ≠ root) (separate : next.Separate)
    (spares : World.Spares (· = another) world next) :
    Joint root
      (comparison.shift world.nextScope next.nextScope alone.nextScope
        spares.next fun matched => (joint.worlds.made matched).mp)
      next alone where
  exact := joint.exact
  worlds := by
    apply joint.worlds.shift joint.separate spares
    · intro scope scope' matched isOld same
      exact different (same.symm.trans (joint.inTree matched isOld).1)
    · rintro sink scope shared hangs rfl
      cases joint.sink.mp shared
      exact different
        (joint.separate.wellScoped.sinkOwned hangs joint.isRoot)
  separate := separate
  separateAlone := joint.separateAlone
  roots := .inl ⟨joint.roots, joint.made⟩
  made := Nat.lt_of_lt_of_le joint.made spares.next
  isRoot := (spares.links joint.made).trans joint.isRoot
  sink := joint.sink
  inTree := by
    rintro scope scope' (⟨matched, isOld⟩ | ⟨index, rfl, rfl⟩) made
    · rw [spares.root isOld]
      exact joint.inTree matched isOld
    · exact absurd made (Nat.not_lt_of_le (Nat.le_add_right _ _))
  covers {scope} inside := by
    by_cases isOld : scope < world.nextScope
    · rcases joint.covers
        ⟨isOld, (spares.root isOld).symm.trans inside.2⟩ with
        ⟨scope', matched⟩
      exact ⟨scope', .inl ⟨matched, isOld⟩⟩
    · have foreign := spares.fresh (Nat.le_of_not_lt isOld) inside.1
      exact absurd (foreign.1.symm.trans inside.2) different
  covers' {scope'} inside := by
    rcases joint.covers' inside with ⟨scope, matched⟩
    exact ⟨scope, .inl ⟨matched, (joint.worlds.made matched).mpr inside.1⟩⟩

/-- A run on the root has its counterpart in the world beside. -/
theorem run_own
    (joint : Joint root comparison world alone) {depth : Nat}
    {source : String} {reply : Except Error Value} {next : World}
    (ends : (interpret Host.none depth root source world).reply? =
      some (reply, next)) :
    ∃ reply' nextAlone,
      (interpret Host.none depth root source alone).reply? =
        some (reply', nextAlone) ∧
      Joint root comparison next nextAlone ∧
      Exchange.Matches (comparison.existing next)
        ⟨root, source, reply⟩ ⟨root, source, reply'⟩ := by
  have made := (joint.worlds.made joint.roots).mp joint.made
  have step : ∀ {nextAlone}, comparison.Worlds next nextAlone →
      (interpret Host.none depth root source alone).world? =
        some nextAlone →
      Joint root comparison next nextAlone := by
    intro nextAlone worlds endsAlone
    have after := World.interpret_spares joint.separate joint.made
      (Outcome.world?_of_reply? ends)
    have afterAlone := World.interpret_spares joint.separateAlone made
      endsAlone
    rw [joint.root_eq] at after
    rw [joint.root_eq'] at afterAlone
    exact joint.own worlds after.1 afterAlone.1 after.2 afterAlone.2
  have alike := comparison.interpret_ends joint.worlds joint.roots depth source
  generalize result : interpret Host.none depth root source world = outcome
    at alike ends
  generalize interpret Host.none depth root source alone = outcome'
    at alike step ⊢
  cases alike with
  | done worlds related =>
      cases ends
      have within := World.interpret_within joint.separate joint.made result
      refine ⟨_, _, rfl, step worlds rfl, .answered root source ?_⟩
      exact Comparison.matches_of_related joint.exact related
        (within.mono fun _ inside => inside.1)
  | @failed error error' _ _ worlds sameCause samePlace =>
      cases ends
      have sameError : error = error' := by
        rw [joint.exact, Option.map_id] at samePlace
        rcases error with ⟨cause, position⟩
        rcases error' with ⟨cause', position'⟩
        cases sameCause
        cases samePlace
        rfl
      subst sameError
      exact ⟨_, _, rfl, step worlds rfl, .refused root source error⟩
  | exhausted => cases ends

end Joint

theorem Value.Matches.mono
    {matching larger : ScopeId → ScopeId → Prop}
    (included : ∀ scope scope', matching scope scope' → larger scope scope')
    {value value' : Value} (related : value.Matches matching value') :
    value.Matches larger value' := by
  apply Value.Related.mono related
  rintro - - (⟨name, native⟩ | ⟨parameters, body, matched⟩)
  · exact .native name native
  · exact .closure parameters body (included _ _ matched)

theorem Exchange.Matches.mono
    {matching larger : ScopeId → ScopeId → Prop}
    (included : ∀ scope scope', matching scope scope' → larger scope scope')
    {exchange exchange' : Exchange}
    (alike : exchange.Matches matching exchange') :
    exchange.Matches larger exchange' := by
  cases alike with
  | answered scope source related =>
      exact .answered scope source (related.mono included)
  | refused scope source error => exact .refused scope source error

/-- A session has a session of its runs on one root beside it. -/
theorem Joint.session
    {root : ScopeId} {comparison : Comparison} {world alone last : World}
    {exchanges : List Exchange}
    (joint : Joint root comparison world alone)
    (session : Session world exchanges last)
    (apart : ∀ exchange ∈ exchanges, exchange.scope ≠ root →
      exchange.scope < world.nextScope ∧
        world.heap.root exchange.scope ≠ root) :
    ∃ own lastAlone final,
      Session alone own lastAlone ∧ Joint root final last lastAlone ∧
      (∀ scope scope', comparison.existing world scope scope' →
        final.existing last scope scope') ∧
      List.Forall₂ (Exchange.Matches (final.existing last))
        (exchanges.filter (·.scope = root)) own := by
  induction session generalizing comparison alone with
  | nil world =>
      exact ⟨[], alone, comparison, .nil alone, joint,
        fun _ _ matched => matched, .nil⟩
  | @cons depth scope source reply world next last exchanges ends rest ih =>
      have made : scope < world.nextScope := by
        by_cases same : scope = root
        · rw [same]
          exact joint.made
        · exact (apart _ List.mem_cons_self same).1
      rcases World.interpret_spares joint.separate made
        (Outcome.world?_of_reply? ends) with ⟨separate, spares⟩
      have stillApart : ∀ exchange ∈ exchanges, exchange.scope ≠ root →
          exchange.scope < next.nextScope ∧
            next.heap.root exchange.scope ≠ root := by
        intro exchange member different
        rcases apart exchange (List.mem_cons_of_mem _ member) different with
          ⟨isOld, foreign⟩
        rw [spares.root isOld]
        exact ⟨Nat.lt_of_lt_of_le isOld spares.next, foreign⟩
      by_cases same : scope = root
      · subst same
        rcases joint.run_own ends with
          ⟨reply', nextAlone, endsAlone, jointNext, alike⟩
        rcases ih jointNext stillApart with
          ⟨own, lastAlone, final, sessionAlone, jointLast, grows, replies⟩
        refine ⟨_, lastAlone, final, .cons endsAlone sessionAlone, jointLast,
          ?_, ?_⟩
        · intro inner inner' matched
          exact grows _ _
            ⟨matched.1, Nat.lt_of_lt_of_le matched.2 spares.next⟩
        · rw [List.filter_cons_of_pos (by simp)]
          exact .cons (alike.mono grows) replies
      · have foreign := (apart _ List.mem_cons_self same).2
        have jointNext := joint.other foreign separate spares
        rcases ih jointNext stillApart with
          ⟨own, lastAlone, final, sessionAlone, jointLast, grows, replies⟩
        refine ⟨own, lastAlone, final, sessionAlone, jointLast, ?_, ?_⟩
        · intro inner inner' matched
          exact grows _ _
            ⟨.inl matched, Nat.lt_of_lt_of_le matched.2 spares.next⟩
        · rw [List.filter_cons_of_neg (by simpa using same)]
          exact replies

/-! ## Isolation -/

theorem Joint.treesMatch
    {root : ScopeId} {comparison : Comparison} {world alone : World}
    (joint : Joint root comparison world alone) :
    World.TreesMatch root (comparison.existing world) world alone where
  roots := ⟨joint.roots, joint.made⟩
  oneToOne matched matchedOther :=
    comparison.oneToOne matched.1 matchedOther.1
  inTree matched := by
    have roots := joint.inTree matched.1 matched.2
    exact ⟨⟨matched.2, roots.1⟩,
      (joint.worlds.made matched.1).mp matched.2, roots.2⟩
  covers inside := by
    rcases joint.covers inside with ⟨scope', matched⟩
    exact ⟨scope', matched, inside.1⟩
  covers' inside := by
    rcases joint.covers' inside with ⟨scope, matched⟩
    exact ⟨scope, matched, (joint.worlds.made matched).mpr inside.1⟩
  parents {scope scope'} matched := by
    have links := joint.worlds.links matched.1
    unfold Heap.parent?
    generalize hangs : world.heap.link? scope = link at links
    generalize alone.heap.link? scope' = link' at links
    cases links with
    | none => exact .none
    | root shared => exact .none
    | child matchedParents order =>
        have older := joint.separate.wellScoped.parentOlder hangs
        exact .some ⟨matchedParents, Nat.lt_trans older matched.2⟩
  bindings {scope scope'} name matched := by
    have locals := joint.worlds.locals name matched.1
    generalize bound : world.heap.local? scope name = value at locals
    generalize alone.heap.local? scope' name = value' at locals
    cases locals with
    | none => exact .none
    | some related =>
        have within := joint.separate.closed _ scope name _ rfl bound
        exact .some (Comparison.matches_of_related joint.exact related
          (within.mono fun _ inside => inside.1))

theorem Joint.sinkOf?_eq
    {root : ScopeId} {comparison : Comparison} {world alone : World}
    (joint : Joint root comparison world alone) :
    world.sinkOf? root = alone.sinkOf? root := by
  have sinks := joint.worlds.sink? joint.roots
  rw [World.sinkOf?, World.sinkOf?, ← sinks.1]
  rcases found : world.heap.sink? root with _ | sink
  · rfl
  · exact joint.worlds.sinks (sinks.2 sink found)

/-- Every scope of one root's tree, and those still to come, matched with itself. -/
def Comparison.ofRoot (root count : ScopeId) : Comparison where
  view := id
  scopes scope scope' :=
    scope = scope' ∧ (scope = root ∨ count ≤ scope)
  sinks := (· = root)
  oneToOne := by
    rintro scope _ other _ ⟨rfl, -⟩ ⟨rfl, -⟩
    exact Iff.rfl

/-- A world of roots that bind natives alone compares with itself. -/
theorem World.RootsOnly.worlds
    {count : Nat} {world : World} (roots : World.RootsOnly count world)
    {root : ScopeId} (isRoot : root < count) :
    (Comparison.ofRoot root count).Worlds world world where
  fresh index := by
    rw [roots.next]
    exact ⟨rfl, .inr (Nat.le_add_right _ _)⟩
  made := by
    rintro scope _ ⟨rfl, -⟩
    exact Iff.rfl
  links := by
    rintro scope _ ⟨rfl, same | young⟩
    · rw [same, roots.links isRoot]
      exact .root rfl
    · have absent := Nat.le_trans (Nat.le_of_eq roots.next) young
      rw [Heap.link?_of_next_le absent]
      exact .none
  locals := by
    rintro scope _ name ⟨rfl, -⟩
    apply Value.optionRel_self
    intro value bound
    apply Value.related_self
    intro callable inside
    have isNative := roots.natives bound callable inside
    cases callable with
    | native name native => exact .native name native
    | closure parameters body scope => exact isNative.elim
  sinks _ := rfl

/-- Roots are beside themselves before anything is run. -/
theorem joint_ofRoots
    (setups : List RootSetup) {root : ScopeId}
    (isRoot : root < setups.length) :
    Joint root (.ofRoot root setups.length) (World.ofRoots setups)
      (World.ofRoots setups) := by
  have roots := World.ofRoots_rootsOnly setups
  have covers : ∀ {scope},
      (World.ofRoots setups).Territory (· = root) scope →
        (Comparison.ofRoot root setups.length).scopes scope scope := by
    rintro scope ⟨made, inTree⟩
    rw [roots.root (roots.next ▸ made)] at inTree
    exact ⟨rfl, .inl inTree⟩
  constructor
  case exact => rfl
  case worlds => exact roots.worlds isRoot
  case separate => exact roots.separate
  case separateAlone => exact roots.separate
  case roots => exact ⟨rfl, .inl rfl⟩
  case made => exact roots.next ▸ isRoot
  case isRoot => exact roots.links isRoot
  case sink => exact Iff.rfl
  case inTree =>
    rintro scope _ ⟨rfl, same | young⟩ made
    · rw [same]
      exact ⟨roots.root isRoot, roots.root isRoot⟩
    · exact absurd (roots.next ▸ made) (Nat.not_lt_of_le young)
  case covers => exact fun inside => ⟨_, covers inside⟩
  case covers' => exact fun inside => ⟨_, covers inside⟩

theorem requests_eq_of_matches
    {matching : ScopeId → ScopeId → Prop} {exchanges own : List Exchange}
    (replies : List.Forall₂ (Exchange.Matches matching) exchanges own) :
    own.map Exchange.request = exchanges.map Exchange.request := by
  induction replies with
  | nil => rfl
  | cons alike _ ih =>
      rw [List.map_cons, List.map_cons, ih]
      cases alike <;> rfl

/--
Runs on other roots do not matter to a root.  Of every session on separately
made roots, the runs on one root make a session of their own, and in any such
session they get the same errors and matching values, the sink of the root has
received the same, and the trees of the root match scope by scope.
-/
theorem roots_are_isolated
    {setups : List RootSetup} {exchanges : List Exchange} {last : World}
    (session : Session (World.ofRoots setups) exchanges last)
    (onRoots : ∀ exchange ∈ exchanges, exchange.scope < setups.length)
    {root : ScopeId} (isRoot : root < setups.length) :
    (∃ own lastAlone, Session (World.ofRoots setups) own lastAlone ∧
      own.map Exchange.request =
        (exchanges.map Exchange.request).filter (·.1 = root)) ∧
    ∀ own lastAlone, Session (World.ofRoots setups) own lastAlone →
      own.map Exchange.request =
        (exchanges.map Exchange.request).filter (·.1 = root) →
      ∃ matching,
        List.Forall₂ (Exchange.Matches matching)
          (exchanges.filter (·.scope = root)) own ∧
        last.sinkOf? root = lastAlone.sinkOf? root ∧
        World.TreesMatch root matching last lastAlone := by
  have roots := World.ofRoots_rootsOnly setups
  have joint := joint_ofRoots setups isRoot
  have apart : ∀ exchange ∈ exchanges, exchange.scope ≠ root →
      exchange.scope < (World.ofRoots setups).nextScope ∧
        (World.ofRoots setups).heap.root exchange.scope ≠ root := by
    intro exchange member different
    have made := onRoots exchange member
    rw [roots.next, roots.root made]
    exact ⟨made, different⟩
  rcases joint.session session apart with
    ⟨own, lastAlone, final, sessionAlone, jointLast, -, replies⟩
  have sameRequests : own.map Exchange.request =
      (exchanges.map Exchange.request).filter (·.1 = root) := by
    rw [requests_eq_of_matches replies, List.filter_map]
    rfl
  constructor
  · exact ⟨own, lastAlone, sessionAlone, sameRequests⟩
  · intro own' lastAlone' session' sameRequests'
    rcases sessionAlone.unique session'
      (sameRequests.trans sameRequests'.symm) with ⟨rfl, rfl⟩
    exact ⟨final.existing last, replies, jointLast.sinkOf?_eq,
      jointLast.treesMatch⟩

/-- Two roots bind one name; what the first prints does not depend on the second. -/
theorem roots_are_isolated_two :
    let setups : List RootSetup := [⟨true, .keeping⟩, ⟨false, .keeping⟩]
    ∃ exchanges last own lastAlone,
      Session (World.ofRoots setups) exchanges last ∧
      exchanges.map Exchange.request =
        [(0, "(set x \"a\")"), (1, "(set x \"b\")"), (0, "(print-line x)")] ∧
      Session (World.ofRoots setups) own lastAlone ∧
      own.map Exchange.request =
        [(0, "(set x \"a\")"), (0, "(print-line x)")] ∧
      last.sinkOf? 0 = lastAlone.sinkOf? 0 := by
  intro setups
  have served : ((World.ofRoots setups).serve 4
      [(0, "(set x \"a\")"), (1, "(set x \"b\")"),
        (0, "(print-line x)")]).isSome = true := by
    cbv
  rcases Option.isSome_iff_exists.mp served with ⟨⟨exchanges, last⟩, result⟩
  rcases session_of_serve result with ⟨session, requests⟩
  have onRoots : ∀ exchange ∈ exchanges, exchange.scope < setups.length := by
    intro exchange member
    have asked : exchange.request ∈ exchanges.map Exchange.request :=
      List.mem_map_of_mem member
    rw [requests] at asked
    simp only [List.mem_cons, List.not_mem_nil, or_false,
      Exchange.request, Prod.mk.injEq] at asked
    show exchange.scope < 2
    rcases asked with ⟨same, -⟩ | ⟨same, -⟩ | ⟨same, -⟩ <;> rw [same] <;> decide
  have isolated := roots_are_isolated session onRoots
    (show 0 < setups.length by decide)
  rcases isolated.1 with ⟨own, lastAlone, sessionAlone, sameRequests⟩
  rcases isolated.2 own lastAlone sessionAlone sameRequests with
    ⟨matching, -, sameSink, -⟩
  rw [requests] at sameRequests
  exact ⟨exchanges, last, own, lastAlone, session, requests, sessionAlone,
    sameRequests, sameSink⟩

end ScopedLisp
