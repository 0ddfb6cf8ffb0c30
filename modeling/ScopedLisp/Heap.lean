import ScopedLisp.Value

/-!
# Scopes

A scope binds names and either is a root or has a parent.  The heap holds all
scopes ever made, numbered in the order of their creation, so a parent has a
smaller number than its children.  The chain of a scope leads from it through
its parents to a root; it is followed only to smaller numbers and hence ends.

A name means what the first scope of the chain that binds it says.  `assign`
overwrites that binding and makes a new one only if the whole chain has none;
`define` always binds in the scope itself.
-/

namespace ScopedLisp

/-- Output sinks are numbered in the order of their creation. -/
abbrev SinkId := Nat

/-! ## Bindings -/

/-- The names bound in one scope with their values, sorted by name. -/
structure Bindings where
  entries : List (String × Value)

namespace Bindings

/-- No bindings. -/
def empty : Bindings :=
  ⟨[]⟩

/-- The value that a list of entries gives a name. -/
def find? (name : String) : List (String × Value) → Option Value
  | [] => none
  | (bound, value) :: entries =>
    if bound = name then some value else find? name entries

/-- Gives a name a value, in place of the old one or where the name belongs. -/
def put (name : String) (value : Value) :
    List (String × Value) → List (String × Value)
  | [] => [(name, value)]
  | (bound, old) :: entries =>
    if bound = name then (name, value) :: entries
    else if name < bound then (name, value) :: (bound, old) :: entries
    else (bound, old) :: put name value entries

/-- The value of a name. -/
def value? (bindings : Bindings) (name : String) : Option Value :=
  find? name bindings.entries

/-- The bindings with one more or one changed. -/
def bind (bindings : Bindings) (name : String) (value : Value) : Bindings :=
  ⟨put name value bindings.entries⟩

/-- The bound names, sorted. -/
def names (bindings : Bindings) : List String :=
  bindings.entries.map (·.1)

theorem find?_put (name other : String) (value : Value)
    (entries : List (String × Value)) :
    find? other (put name value entries) =
      if name = other then some value else find? other entries := by
  induction entries with
  | nil => rfl
  | cons entry entries ih =>
    obtain ⟨bound, old⟩ := entry
    simp only [put]
    split
    · rename_i same
      subst same
      simp only [find?]
      split <;> rfl
    · split
      · rfl
      · rename_i different _
        simp only [find?, ih]
        by_cases isBound : bound = other
        · subst isBound
          simp [Ne.symm different]
        · simp [isBound]

/-- A binding changes what its own name means and nothing else. -/
@[simp]
theorem value?_bind (bindings : Bindings) (name other : String) (value : Value) :
    (bindings.bind name value).value? other =
      if name = other then some value else bindings.value? other :=
  find?_put name other value bindings.entries

/-- `{a=1, b=2}` -/
def text (bindings : Bindings) : String :=
  let shown := bindings.entries.map fun (name, value) =>
    name ++ "=" ++ value.render
  "\x7b" ++ ", ".intercalate shown ++ "\x7d"

end Bindings

/-! ## Scopes and chains -/

/-- What a scope hangs on. -/
inductive Link where
  /-- The scope is a root and prints to a sink. -/
  | root (sink : SinkId)
  /-- The scope has a parent. -/
  | child (parent : ScopeId)
  deriving DecidableEq, Inhabited

namespace Link

/-- The parent a link leads to. -/
def parent? : Link → Option ScopeId
  | .root _ => none
  | .child parent => some parent

/-- The sink a link leads to. -/
def sink? : Link → Option SinkId
  | .root sink => some sink
  | .child _ => none

end Link

/-- Bindings and what they hang on. -/
structure Scope where
  bindings : Bindings
  link : Link

/-- All scopes, at their numbers. -/
structure Heap where
  scopes : Array Scope

namespace Heap

/-- No scopes. -/
def empty : Heap :=
  ⟨#[]⟩

/-- The number of the next scope. -/
def next (heap : Heap) : ScopeId :=
  heap.scopes.size

/-- What a scope itself binds. -/
def bindings (heap : Heap) (scope : ScopeId) : Bindings :=
  (heap.scopes[scope]?.map (·.bindings)).getD .empty

/-- What a scope hangs on. -/
def link? (heap : Heap) (scope : ScopeId) : Option Link :=
  heap.scopes[scope]?.map (·.link)

/-- A scope's parent, if it has one. -/
def parent? (heap : Heap) (scope : ScopeId) : Option ScopeId :=
  (heap.link? scope).bind Link.parent?

/-- A scope, its parent, that one's parent and so on, up to the root. -/
def chain (heap : Heap) (scope : ScopeId) : List ScopeId :=
  match heap.parent? scope with
  | none => [scope]
  | some parent =>
    if parent < scope then scope :: heap.chain parent else [scope]
termination_by scope

/-- What a scope itself binds a name to. -/
def local? (heap : Heap) (scope : ScopeId) (name : String) : Option Value :=
  (heap.bindings scope).value? name

/-- The first scope of the chain that binds a name. -/
def owner? (heap : Heap) (scope : ScopeId) (name : String) : Option ScopeId :=
  (heap.chain scope).find? fun ancestor => (heap.local? ancestor name).isSome

/-- Whether any scope of the chain binds a name. -/
def has (heap : Heap) (scope : ScopeId) (name : String) : Bool :=
  (heap.owner? scope name).isSome

/-- What a name means in a scope. -/
def value? (heap : Heap) (scope : ScopeId) (name : String) : Option Value :=
  (heap.owner? scope name).bind fun owner => heap.local? owner name

/-- The sink at the root of a scope's chain. -/
def sink? (heap : Heap) (scope : ScopeId) : Option SinkId :=
  (heap.chain scope).findSome? fun ancestor =>
    (heap.link? ancestor).bind Link.sink?

/-- The names that a scope itself binds, sorted. -/
def localNames (heap : Heap) (scope : ScopeId) : List String :=
  (heap.bindings scope).names

/-- The bindings of a chain, the innermost scope first. -/
def text (heap : Heap) (scope : ScopeId) : String :=
  ", ".intercalate ((heap.chain scope).map fun ancestor =>
    (heap.bindings ancestor).text)

/-! ## Operations on the heap -/

/-- Adds a scope without bindings. -/
def add (heap : Heap) (link : Link) : Heap :=
  ⟨heap.scopes.push ⟨.empty, link⟩⟩

/-- Binds a name in a scope itself. -/
def define (heap : Heap) (scope : ScopeId) (name : String) (value : Value) :
    Heap :=
  ⟨heap.scopes.modify scope fun scope =>
    { scope with bindings := scope.bindings.bind name value }⟩

/-- Binds a name where it is bound already, or else in the scope itself. -/
def assign (heap : Heap) (scope : ScopeId) (name : String) (value : Value) :
    Heap :=
  heap.define ((heap.owner? scope name).getD scope) name value

/-! ### What the operations change -/

@[simp]
theorem next_add (heap : Heap) (link : Link) :
    (heap.add link).next = heap.next + 1 := by
  simp [next, add]

@[simp]
theorem next_define (heap : Heap) (scope : ScopeId) (name : String)
    (value : Value) :
    (heap.define scope name value).next = heap.next := by
  simp [next, define]

/-- A new scope hangs on what it was made with, and no other link changes. -/
theorem link?_add (heap : Heap) (link : Link) (scope : ScopeId) :
    (heap.add link).link? scope =
      if scope = heap.next then some link else heap.link? scope := by
  simp only [link?, add, next, Array.getElem?_push]
  by_cases fresh : scope = heap.scopes.size
  · simp [fresh]
  · simp [fresh]

/-- A new scope binds nothing, and no other bindings change. -/
@[simp]
theorem bindings_add (heap : Heap) (link : Link) (scope : ScopeId) :
    (heap.add link).bindings scope = heap.bindings scope := by
  simp only [bindings, add, Array.getElem?_push]
  split
  · rename_i fresh
    subst fresh
    simp
  · rfl

/-- Binding a name leaves all links as they are. -/
@[simp]
theorem link?_define (heap : Heap) (scope other : ScopeId) (name : String)
    (value : Value) :
    (heap.define scope name value).link? other = heap.link? other := by
  simp only [link?, define, Array.getElem?_modify]
  split
  · cases heap.scopes[other]? <;> rfl
  · rfl

@[simp]
theorem parent?_define (heap : Heap) (scope other : ScopeId) (name : String)
    (value : Value) :
    (heap.define scope name value).parent? other = heap.parent? other := by
  simp [parent?]

/-- Binding a name leaves all chains as they are. -/
@[simp]
theorem chain_define (heap : Heap) (scope other : ScopeId) (name : String)
    (value : Value) :
    (heap.define scope name value).chain other = heap.chain other := by
  induction other using Nat.strongRecOn with
  | _ other ih =>
    rw [chain, chain, parent?_define]
    split
    · rfl
    · split
      · rw [ih _ (by assumption)]
      · rfl

/-- Binding a name in an existing scope changes that one binding. -/
theorem local?_define {heap : Heap} {scope : ScopeId} (name : String)
    (value : Value) (present : scope < heap.next) (other : ScopeId)
    (key : String) :
    (heap.define scope name value).local? other key =
      if scope = other ∧ name = key then some value
      else heap.local? other key := by
  simp only [local?, bindings, define, Array.getElem?_modify]
  by_cases same : scope = other
  · subst same
    have found : heap.scopes[scope]? = some heap.scopes[scope] :=
      Array.getElem?_eq_getElem present
    simp [found]
  · simp [same]

end Heap

end ScopedLisp
