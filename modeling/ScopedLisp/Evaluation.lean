import ScopedLisp.Form.Reader
import ScopedLisp.Primitive
import ScopedLisp.Run
import ScopedLisp.Token.Stream

/-!
# Evaluation

A form is evaluated in a scope.  Evaluation is given a depth, the number of
evaluations and calls that may be nested in each other; one level deeper it is
one less, so evaluation always ends, possibly exhausted.  `evaluateWith` and
`callWith` say what happens on one level in terms of an `Evaluator` for the
levels below.

A closure runs in a fresh child of the scope it was made in, never in the
scope of its caller.  An embedding program may supply native procedures of its
own; they get the evaluator too and so can call back.
-/

namespace ScopedLisp

/-- How nested forms are evaluated and callables called. -/
structure Evaluator where
  evaluate : Form → ScopeId → Run Value
  call : Callable → CallSite → ScopeId → List Value → Run Value

/-- The native procedures that an embedding program supplies, by key. -/
abbrev Host :=
  String → Evaluator → CallSite → ScopeId → List Value → Run Value

/-- The embedding program that supplies nothing. -/
def Host.none : Host := fun key _ _ _ _ =>
  Run.fail (.unlocated (.unbound key))

namespace Evaluator

/-- Evaluates forms from left to right and collects their values. -/
def evaluateAll (evaluator : Evaluator) (scope : ScopeId) :
    List Form → Run (List Value)
  | [] => pure []
  | form :: forms => do
    let value ← evaluator.evaluate form scope
    let values ← evaluator.evaluateAll scope forms
    pure (value :: values)

/-- One level of the evaluation of a form. -/
def evaluateWith (evaluator : Evaluator) (form : Form) (scope : ScopeId) :
    Run Value :=
  match form with
  | .literal _ value => pure value.toValue
  | .variable name => (Run.get scope name.text).locate name.position
  | .assignment target value => do
    let value ← evaluator.evaluate value scope
    Run.assign scope target.text value
    pure .nil
  | .conditional opening test consequent alternate => do
    let tested ← evaluator.evaluate test scope
    let holds ← (Run.ofCause tested.asBoolean).locate opening
    if holds then evaluator.evaluate consequent scope
    else evaluator.evaluate alternate scope
  | .lambda _ parameters body =>
    pure (.callable (.closure parameters body scope))
  | .sequence _ items => do
    let values ← evaluator.evaluateAll scope items
    pure (.list values)
  | .printLine opening value => do
    let value ← evaluator.evaluate value scope
    (Run.writeLine scope value.render).locate opening
    pure .nil
  | .operation operator word left right => do
    let left ← evaluator.evaluate left scope
    let right ← evaluator.evaluate right scope
    (Run.ofCause (operator.apply left right)).locate word.position
  | .call name _ arguments => do
    let target ← (Run.get scope name.text).locate name.position
    let callable ← (Run.ofCause target.asCallable).locate name.position
    let values ← evaluator.evaluateAll scope arguments
    Run.record (.called name.text name.position values.length)
    evaluator.call callable (.ofIdentifier name) scope values

/-- One level of a call. -/
def callWith (host : Host) (evaluator : Evaluator) (callable : Callable)
    (site : CallSite) (scope : ScopeId) (arguments : List Value) : Run Value :=
  match callable with
  | .native _ (.primitive primitive) =>
    Run.locate site.position do
      match ← Run.ofError (primitive.reply site arguments) with
      | .value value => pure value
      | .call callable arguments => evaluator.call callable site scope arguments
  | .native _ (.foreign key) =>
    (host key evaluator site scope arguments).locate site.position
  | .closure parameters body defining => do
    Run.ofError (site.checkCount arguments parameters.length)
    let fresh ← Run.newChild defining
    Run.defineAll fresh parameters arguments
    Run.record (.entered site.name parameters.length)
    evaluator.evaluate body fresh

/-- Reads a source that holds one form and evaluates it. -/
def interpret (evaluator : Evaluator) (scope : ScopeId) (source : String) :
    Run Value := do
  let tokens ← Run.ofError (tokenize source)
  Run.record (.lexed tokens.length)
  let form ← Run.ofError (Form.ofTokens tokens)
  Run.record (.parsed form.position)
  evaluator.evaluate form scope

end Evaluator

mutual

/-- Evaluates a form in a scope, to a depth. -/
def evaluate (host : Host) : Nat → Form → ScopeId → Run Value
  | 0, _, _ => Run.exhausted
  | depth + 1, form, scope =>
    Evaluator.evaluateWith ⟨evaluate host depth, call host depth⟩ form scope

/-- Calls a callable from a scope, to a depth. -/
def call (host : Host) :
    Nat → Callable → CallSite → ScopeId → List Value → Run Value
  | 0, _, _, _, _ => Run.exhausted
  | depth + 1, callable, site, scope, arguments =>
    Evaluator.callWith host ⟨evaluate host depth, call host depth⟩ callable site
      scope arguments

end

/-- Evaluation and calls to a depth. -/
def evaluator (host : Host) (depth : Nat) : Evaluator :=
  ⟨evaluate host depth, call host depth⟩

/-- Reads a source that holds one form and evaluates it, to a depth. -/
def interpret (host : Host) (depth : Nat) (scope : ScopeId) (source : String) :
    Run Value :=
  (evaluator host depth).interpret scope source

/-- Binds every primitive to its name, as assignments in a scope. -/
def World.install (world : World) (scope : ScopeId) : World :=
  Primitive.all.foldl
    (fun world primitive => world.assign scope primitive.name primitive.toValue)
    world

end ScopedLisp
