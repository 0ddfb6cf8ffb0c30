import ScopedLisp.World

/-!
# Runs

A run changes the world and ends with a value or an error, or it does not end
within the depth it was given.  The last outcome is kept apart from errors: it
says nothing about the program, only that more depth is needed.  A run that
fails keeps all it did before.
-/

namespace ScopedLisp

/-- How a run ends. -/
inductive Outcome (α : Type) where
  | done (value : α) (world : World)
  | failed (error : Error) (world : World)
  | exhausted

/-- A computation on the world. -/
def Run (α : Type) : Type :=
  World → Outcome α

namespace Run

variable {α β : Type}

/-- Does nothing. -/
protected def pure (value : α) : Run α := fun world =>
  .done value world

/-- Goes on with the value of a run that succeeds. -/
protected def bind (first : Run α) (second : α → Run β) : Run β := fun world =>
  match first world with
  | .done value world => second value world
  | .failed error world => .failed error world
  | .exhausted => .exhausted

instance : Monad Run where
  pure := Run.pure
  bind := Run.bind

/-- Fails with an error. -/
def fail (error : Error) : Run α := fun world =>
  .failed error world

/-- Does not end within its depth. -/
def exhausted : Run α := fun _ =>
  .exhausted

/-- Changes the world. -/
def modify (change : World → World) : Run Unit := fun world =>
  .done () (change world)

/-- Looks at the world. -/
def inspect (view : World → α) : Run α := fun world =>
  .done (view world) world

/-- Takes a value over, or fails without a position. -/
def ofCause (result : Except Cause α) : Run α :=
  match result with
  | .ok value => Run.pure value
  | .error cause => fail (.unlocated cause)

/-- Takes a value over, or fails. -/
def ofError (result : Except Error α) : Run α :=
  match result with
  | .ok value => Run.pure value
  | .error error => fail error

/-- Reports the errors of a run at a position, unless they have one already. -/
def locate (position : Position) (run : Run α) : Run α := fun world =>
  match run world with
  | .done value world => .done value world
  | .failed error world => .failed (error.locate position) world
  | .exhausted => .exhausted

/-! ## Steps on scopes -/

/-- What a name means in a scope. -/
def get (scope : ScopeId) (name : String) : Run Value := fun world =>
  match world.heap.value? scope name with
  | some value => .done value world
  | none => .failed (.unlocated (.unbound name)) world

/-- Binds a name where it is bound already, or else in the scope itself. -/
def assign (scope : ScopeId) (name : String) (value : Value) : Run Unit :=
  modify fun world => world.assign scope name value

/-- Binds a name in a scope itself. -/
def define (scope : ScopeId) (name : String) (value : Value) : Run Unit :=
  modify fun world => world.define scope name value

/-- Binds names to values, one after the other, as far as both last. -/
def defineAll (scope : ScopeId) : List Identifier → List Value → Run Unit
  | name :: names, value :: values =>
    Run.bind (define scope name.text value) fun _ =>
      defineAll scope names values
  | _, _ => Run.pure ()

/-- Makes a child of a scope. -/
def newChild (parent : ScopeId) : Run ScopeId := fun world =>
  .done world.nextScope (world.addChild parent)

/-- Notes something down. -/
def record (entry : LogRecord) : Run Unit :=
  modify fun world => world.record entry

/-- Prints a line from a scope. -/
def writeLine (scope : ScopeId) (line : String) : Run Unit := fun world =>
  match world.acceptance scope line with
  | .ok _ => .done () (world.afterLine scope line)
  | .error cause => .failed (.unlocated cause) (world.afterLine scope line)

end Run

end ScopedLisp
