import ScopedLisp.Value

/-!
# Native procedures of the language

Each primitive but `apply` is a function of its arguments.  It checks their
number first and then their types from left to right; what it finds wrong it
reports at the place of the call and under the name that the call used, which
need not be the primitive's own.
-/

namespace ScopedLisp

/-- The name a callable is called by, and where. -/
structure CallSite where
  name : String
  position : Position
  deriving DecidableEq, Inhabited

namespace CallSite

/-- The place of a call by name. -/
def ofIdentifier (name : Identifier) : CallSite :=
  ⟨name.text, name.position⟩

/-- An error at the place of the call. -/
def error {α : Type} (site : CallSite) (cause : Cause) : Except Error α :=
  .error (.located cause site.position)

/-- Fails unless there are exactly so many arguments. -/
def checkCount (site : CallSite) (arguments : List Value) (count : Nat) :
    Except Error Unit :=
  if arguments.length = count then .ok ()
  else site.error (.arityMismatch site.name count arguments.length)

/-- The only argument. -/
def one (site : CallSite) : List Value → Except Error Value
  | [argument] => .ok argument
  | arguments => site.error (.arityMismatch site.name 1 arguments.length)

/-- The two arguments. -/
def two (site : CallSite) : List Value → Except Error (Value × Value)
  | [first, second] => .ok (first, second)
  | arguments => site.error (.arityMismatch site.name 2 arguments.length)

/-- The error of an argument of the wrong type; arguments count from one. -/
def mismatch {α : Type} (site : CallSite) (argument : Nat) (wanted : String)
    (found : Value) : Except Error α :=
  site.error (.argumentMismatch site.name argument wanted found.typeName)

/-- The number that an argument is. -/
def numberArgument (site : CallSite) (argument : Nat) :
    Value → Except Error Number
  | .number value => .ok value
  | other => site.mismatch argument "number" other

/-- The boolean that an argument is. -/
def booleanArgument (site : CallSite) (argument : Nat) :
    Value → Except Error Bool
  | .boolean value => .ok value
  | other => site.mismatch argument "boolean" other

/-- The items of the list that an argument is. -/
def listArgument (site : CallSite) (argument : Nat) :
    Value → Except Error (List Value)
  | .list items => .ok items
  | other => site.mismatch argument "list" other

end CallSite

/-! ## Looking into a list -/

/-- What a look into a list at an index comes to. -/
inductive Access (α : Type) where
  /-- The item that is there. -/
  | item (found : α)
  /-- The index is refused before the list is looked into. -/
  | refused
  /-- The list is looked into behind its end, where the program would stop. -/
  | outOfBounds
  deriving DecidableEq

namespace Access

variable {α : Type}

/-- Looks into a list at a place, which nothing keeps below its length. -/
def atPlace (items : List α) (place : USize) : Access α :=
  match items[place.toNat]? with
  | some found => .item found
  | none => .outOfBounds

/--
The test of an index before so many items are looked into.  The cast to a
machine word cuts off fractions, takes what is below zero or no number to zero
and what is too large to the greatest word.
-/
def IsOutside (length : Nat) (index : Number) : Prop :=
  index < 0 ∨ index.fract != 0 ∨ length ≤ index.toUSize.toNat

instance (length : Nat) (index : Number) : Decidable (IsOutside length index) :=
  inferInstanceAs (Decidable (_ ∨ _ ∨ _))

/-- Looks into a list at a number, cast to a machine word, unless the test fails. -/
def atIndex (items : List α) (index : Number) : Access α :=
  if IsOutside items.length index then .refused
  else atPlace items index.toUSize

/-- What passes the test is looked up in bounds. -/
theorem atIndex_of_not_isOutside {items : List α} {index : Number}
    (inside : ¬ IsOutside items.length index) :
    ∃ below : index.toUSize.toNat < items.length,
      atIndex items index = .item items[index.toUSize.toNat] := by
  have below : index.toUSize.toNat < items.length :=
    Nat.lt_of_not_le fun behind => inside (.inr (.inr behind))
  refine ⟨below, ?_⟩
  rw [atIndex, if_neg inside, atPlace, List.getElem?_eq_getElem below]

theorem atIndex_ne_outOfBounds (items : List α) (index : Number) :
    atIndex items index ≠ .outOfBounds := by
  by_cases outside : IsOutside items.length index
  · rw [atIndex, if_pos outside]
    nofun
  · rcases atIndex_of_not_isOutside outside with ⟨_, found⟩
    rw [found]
    nofun

/-- The item of an access that stays in bounds, unless it is refused. -/
def itemOr (refusal : Except Error α) :
    (access : Access α) → access ≠ .outOfBounds → Except Error α
  | .item found, _ => .ok found
  | .refused, _ => refusal
  | .outOfBounds, inBounds => absurd rfl inBounds

end Access

namespace Primitive

/-- The name a primitive is bound to at first. -/
def name : Primitive → String
  | .list => "list"
  | .length => "length"
  | .first => "first"
  | .rest => "rest"
  | .nth => "nth"
  | .not => "not"
  | .abs => "abs"
  | .sqrt => "sqrt"
  | .floor => "floor"
  | .min => "min"
  | .max => "max"
  | .stringAppend => "string-append"
  | .numberToString => "number->string"
  | .apply => "apply"

/-- All primitives, in the order in which they are installed. -/
def all : List Primitive :=
  [.list, .length, .first, .rest, .nth, .not, .abs, .sqrt, .floor, .min, .max,
    .stringAppend, .numberToString, .apply]

/-- A primitive as a value, under its own name. -/
def toValue (primitive : Primitive) : Value :=
  .callable (.native primitive.name (.primitive primitive))

/-! ## What the primitives compute -/

/-- The number of items of a list or of characters of a string. -/
def lengthOf (site : CallSite) (arguments : List Value) :
    Except Error Value := do
  match ← site.one arguments with
  | .list items => .ok (.number (.ofNat items.length))
  | .string text => .ok (.number (.ofNat text.length))
  | other => site.mismatch 1 "list or string" other

/-- The first item of a list. -/
def firstOf (site : CallSite) (arguments : List Value) :
    Except Error Value := do
  match ← site.listArgument 1 (← site.one arguments) with
  | item :: _ => .ok item
  | [] => site.error (.emptyList site.name)

/-- A list without its first item. -/
def restOf (site : CallSite) (arguments : List Value) :
    Except Error Value := do
  match ← site.listArgument 1 (← site.one arguments) with
  | _ :: items => .ok (.list items)
  | [] => site.error (.emptyList site.name)

/-- The item of a list at an index that counts from zero. -/
def nthOf (site : CallSite) (arguments : List Value) :
    Except Error Value := do
  let (sequence, position) ← site.two arguments
  let items ← site.listArgument 1 sequence
  let index ← site.numberArgument 2 position
  (Access.atIndex items index).itemOr
    (site.error (.indexOutOfRange site.name index items.length))
    (Access.atIndex_ne_outOfBounds items index)

/-- The opposite of a boolean. -/
def notOf (site : CallSite) (arguments : List Value) :
    Except Error Value := do
  let value ← site.booleanArgument 1 (← site.one arguments)
  .ok (.boolean !value)

/-- A function of one number. -/
def unary (function : Number → Number) (site : CallSite)
    (arguments : List Value) : Except Error Value := do
  let value ← site.numberArgument 1 (← site.one arguments)
  .ok (.number (function value))

/-- A function of two numbers. -/
def binary (function : Number → Number → Number) (site : CallSite)
    (arguments : List Value) : Except Error Value := do
  let (one, other) ← site.two arguments
  let left ← site.numberArgument 1 one
  let right ← site.numberArgument 2 other
  .ok (.number (function left right))

/-- The texts of all arguments one after the other. -/
def appendAll (arguments : List Value) : Value :=
  .string (String.join (arguments.map Value.render))

/-- The text of a number. -/
def textOf (site : CallSite) (arguments : List Value) :
    Except Error Value := do
  let value ← site.numberArgument 1 (← site.one arguments)
  .ok (.string value.render)

/-- The callable and the argument list that `apply` is given. -/
def applied (site : CallSite) (arguments : List Value) :
    Except Error (Callable × List Value) := do
  let (target, items) ← site.two arguments
  match target.asCallable with
  | .ok callable => .ok (callable, ← site.listArgument 2 items)
  | .error cause => site.error cause

/-- What a primitive asks for once it has looked at its arguments. -/
inductive Reply where
  /-- It has computed its value. -/
  | value (value : Value)
  /-- The value is that of calling something else from the same place. -/
  | call (callable : Callable) (arguments : List Value)

/-- Runs a primitive on its arguments. -/
def reply (primitive : Primitive) (site : CallSite) (arguments : List Value) :
    Except Error Reply :=
  match primitive with
  | .list => .ok (.value (.list arguments))
  | .length => (lengthOf site arguments).map .value
  | .first => (firstOf site arguments).map .value
  | .rest => (restOf site arguments).map .value
  | .nth => (nthOf site arguments).map .value
  | .not => (notOf site arguments).map .value
  | .abs => (unary Float.abs site arguments).map .value
  | .sqrt => (unary Float.sqrt site arguments).map .value
  | .floor => (unary Number.floor site arguments).map .value
  | .min => (binary Number.least site arguments).map .value
  | .max => (binary Number.greatest site arguments).map .value
  | .stringAppend => .ok (.value (appendAll arguments))
  | .numberToString => (textOf site arguments).map .value
  | .apply =>
    (applied site arguments).map fun (callable, items) => .call callable items

end Primitive

end ScopedLisp
