import ScopedLisp.Form

/-!
# Values

What evaluation computes with: nothing, numbers, strings, booleans, lists and
callables.  A callable is either native or the closure of a `lambda`, which
keeps the scope it was written in by that scope's number.

Equality of values is equality of shape with some tolerance at the leaves:
numbers may differ a little, and any callable equals any other.  It is not
transitive, for the tolerance adds up.
-/

namespace ScopedLisp

/-- Scopes are numbered in the order of their creation. -/
abbrev ScopeId := Nat

/-- The native procedures that belong to the language. -/
inductive Primitive where
  | list
  | length
  | first
  | rest
  | nth
  | not
  | abs
  | sqrt
  | floor
  | min
  | max
  | stringAppend
  | numberToString
  | apply
  deriving DecidableEq, Inhabited

/-- A native procedure: one of the language, or one that an embedding program supplies. -/
inductive Native where
  | primitive (procedure : Primitive)
  | foreign (key : String)
  deriving DecidableEq, Inhabited

/-- What can be called. -/
inductive Callable where
  | native (name : String) (native : Native)
  | closure (parameters : List Identifier) (body : Form) (scope : ScopeId)
  deriving Inhabited

/-- The values of the language. -/
inductive Value where
  | nil
  | number (value : Number)
  | string (value : String)
  | boolean (value : Bool)
  | list (items : List Value)
  | callable (procedure : Callable)
  deriving Inhabited

/-- The value of a literal. -/
def Literal.toValue : Literal → Value
  | .nil => .nil
  | .number value => .number value
  | .string value => .string value
  | .boolean value => .boolean value

/-- A native with its name, or a closure with the names of its parameters. -/
def Callable.description : Callable → String
  | .native name _ => s!"Native({name})"
  | .closure parameters _ _ =>
    "Lambda(" ++ " ".intercalate (parameters.map (·.text)) ++ ")"

namespace Value

/-- What messages call the type of a value. -/
def typeName : Value → String
  | .nil => "nil"
  | .number _ => "number"
  | .string _ => "string"
  | .boolean _ => "boolean"
  | .list _ => "list"
  | .callable _ => "function"

/-- Whether a value is the absence of a value. -/
def isNil : Value → Bool
  | .nil => true
  | _ => false

/-- The text that printing a value shows. -/
def render : Value → String
  | .nil => "nil"
  | .number value => value.render
  | .string value => value
  | .boolean true => "true"
  | .boolean false => "false"
  | .list _ => "[list]"
  | .callable _ => "[function]"

/-! ## Access by type -/

/-- The number that a value is. -/
def asNumber : Value → Except Cause Number
  | .number value => .ok value
  | other => .error (.typeMismatch "number" other.typeName)

/-- The string that a value is. -/
def asString : Value → Except Cause String
  | .string value => .ok value
  | other => .error (.typeMismatch "string" other.typeName)

/-- The boolean that a value is. -/
def asBoolean : Value → Except Cause Bool
  | .boolean value => .ok value
  | other => .error (.typeMismatch "boolean" other.typeName)

/-- The items of the list that a value is. -/
def asList : Value → Except Cause (List Value)
  | .list items => .ok items
  | other => .error (.typeMismatch "list" other.typeName)

/-- The callable that a value is. -/
def asCallable : Value → Except Cause Callable
  | .callable procedure => .ok procedure
  | other => .error (.typeMismatch "function" other.typeName)

/-! ## Equality -/

/-- Whether two values count as equal. -/
def alike : Value → Value → Bool
  | .nil, .nil => true
  | .number left, .number right => left.alike right
  | .string left, .string right => left == right
  | .boolean left, .boolean right => left == right
  | .list left, .list right => allAlike left right
  | .callable _, .callable _ => true
  | _, _ => false
where
  /-- Whether two lists are equally long and equal item by item. -/
  allAlike : List Value → List Value → Bool
    | [], [] => true
    | left :: lefts, right :: rights => left.alike right && allAlike lefts rights
    | _, _ => false

end Value

/-! ## Operators on values -/

namespace Operator

/-- Applies an operator to numbers; only division can fail. -/
def onNumbers (operator : Operator) (left right : Number) : Except Cause Value :=
  match operator with
  | .add => .ok (.number (left + right))
  | .subtract => .ok (.number (left - right))
  | .multiply => .ok (.number (left * right))
  | .divide =>
    if right == 0 then .error .divisionByZero
    else .ok (.number (left / right))
  | .less => .ok (.boolean (decide (left < right)))
  | .greater => .ok (.boolean (decide (right < left)))
  | .lessOrEqual => .ok (.boolean (decide (left ≤ right)))
  | .greaterOrEqual => .ok (.boolean (decide (right ≤ left)))
  | .equal => .ok (.boolean (left.alike right))

/-- Applies an operator: equality takes any two values, the others take numbers. -/
def apply (operator : Operator) (left right : Value) : Except Cause Value :=
  match operator, left, right with
  | .equal, left, right => .ok (.boolean (left.alike right))
  | operator, .number left, .number right => operator.onNumbers left right
  | operator, left, right =>
    .error (.operandMismatch operator left.typeName right.typeName)

end Operator

end ScopedLisp
