import ScopedLisp.Evaluation

/-!
# The shell around the interpreter

A shell keeps a world with one root, whose sink is the standard output.  It
interprets sources on that root one after the other and words what it has to
report.

The records that the command makes for a logger are left out: one for each error
reported, with its kind and text, and some about the course of the command.  The
settings of the logger decide whether they appear on the standard error, and
with which times.
-/

namespace ScopedLisp

/-- What was written to the standard output and to the standard error. -/
structure Output where
  stdout : String
  stderr : String
  deriving DecidableEq, Inhabited

namespace Output

/-- Nothing written. -/
def silent : Output :=
  ⟨"", ""⟩

/-- A line on the standard error. -/
def complaint (line : String) : Output :=
  ⟨"", line ++ "\n"⟩

/-- One output and then another. -/
def append (first second : Output) : Output :=
  ⟨first.stdout ++ second.stdout, first.stderr ++ second.stderr⟩

instance : Append Output :=
  ⟨append⟩

end Output

/-- A world with a root to run sources on. -/
structure Shell where
  world : World
  root : ScopeId

/-- How the interpretation of a source went. -/
inductive Verdict where
  | value (value : Value)
  | error (error : Error)
  | tooDeep

namespace Shell

/-- A shell whose root binds the primitives, or nothing if it is bare. -/
def start (bare : Bool) : Shell :=
  let world := World.empty.addRoot .keeping
  ⟨if bare then world else world.install 0, 0⟩

/-- Takes what has been printed so far. -/
def takeOutput (shell : Shell) : Shell × String :=
  match shell.world.heap.sink? shell.root with
  | some sink =>
    let received := (shell.world.sinks[sink]?.map (·.received)).getD ""
    let world := shell.world.updateSink sink ({ · with received := "" })
    ({ shell with world }, received)
  | none => (shell, "")

/-- Interprets a source on the root. -/
def interpret (shell : Shell) (depth : Nat) (source : String) :
    Shell × Verdict :=
  match ScopedLisp.interpret Host.none depth shell.root source shell.world with
  | .done value world => ({ shell with world }, .value value)
  | .failed error world => ({ shell with world }, .error error)
  | .exhausted => (shell, .tooDeep)

/--
What is written about an error in something of a given name, without the record
of it that goes to a logger.
-/
def report (origin : String) (error : Error) : Output :=
  .complaint s!"{origin}: {error.text}"

/-- What is written about a form that nests too deeply. -/
def reportDepth (origin : String) : Output :=
  .complaint s!"{origin}: evaluation is nested too deeply"

/-- A value on a line of its own, unless it is nil. -/
def showValue (value : Value) : Output :=
  if value.isNil then .silent else ⟨value.render ++ "\n", ""⟩

/--
Interprets a source of a given name: what is written, and whether it succeeded.
The value is shown after all that the source printed.
-/
def perform (shell : Shell) (depth : Nat) (showsValue : Bool)
    (origin source : String) : Shell × Output × Bool :=
  let (shell, verdict) := shell.interpret depth source
  let (shell, printed) := shell.takeOutput
  let printed : Output := ⟨printed, ""⟩
  match verdict with
  | .value value =>
    (shell, printed ++ if showsValue then showValue value else .silent, true)
  | .error error => (shell, printed ++ report origin error, false)
  | .tooDeep => (shell, printed ++ reportDepth origin, false)

/-- The bindings of the root, on a line. -/
def dump (shell : Shell) : Output :=
  ⟨shell.world.heap.text shell.root ++ "\n", ""⟩

end Shell

end ScopedLisp
