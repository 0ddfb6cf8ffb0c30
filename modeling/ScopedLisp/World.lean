import ScopedLisp.Heap

/-!
# The world of a running program

Everything a run can change: the heap of scopes, the sinks that printing
writes to, and a log of what the interpreter did.  Only roots carry sinks;
every other scope prints to the sink at the root of its chain.
-/

namespace ScopedLisp

/-! ## Sinks -/

/-- What becomes of a line: the text that is kept, and why it is refused if it is. -/
structure LineAnswer where
  kept : String
  refusal : Option String
  deriving DecidableEq, Inhabited

/-- What a sink does with what is written to it. -/
inductive SinkMode where
  /-- It keeps everything. -/
  | keeping
  /-- It refuses to take anything. -/
  | refusingWrites (reason : String)
  /-- It takes what is written and then fails to flush. -/
  | refusingFlushes (reason : String)
  /--
  It answers as it likes, by the line and by the lines it was offered before it,
  the last one first: it may keep a part, and it may change its mind.
  -/
  | answering (answer : List String → String → LineAnswer)
    (offered : List String)
  deriving Inhabited

/-- A destination of printed text. -/
structure Sink where
  mode : SinkMode
  received : String
  deriving Inhabited

namespace Sink

/-- A sink that keeps what it gets and has nothing yet. -/
def keeping : Sink :=
  ⟨.keeping, ""⟩

/-- A sink with a text added to what it received. -/
def receive (sink : Sink) (text : String) : Sink :=
  { sink with received := sink.received ++ text }

/-- A sink once a line is written to it, as far as it takes the line. -/
def afterLine (sink : Sink) (line : String) : Sink :=
  match sink.mode with
  | .keeping | .refusingFlushes _ => sink.receive (line ++ "\n")
  | .refusingWrites _ => sink
  | .answering answer offered =>
    { sink.receive (answer offered line).kept with
      mode := .answering answer (line :: offered) }

/-- Whether a line can be written to a sink, and why not. -/
def acceptance (sink : Sink) (line : String) : Except Cause Unit :=
  match sink.mode with
  | .keeping => .ok ()
  | .refusingWrites reason | .refusingFlushes reason => .error (.io reason)
  | .answering answer offered =>
    match (answer offered line).refusal with
    | some reason => .error (.io reason)
    | none => .ok ()

end Sink

/-! ## The log -/

/-- What the interpreter notes down while it runs. -/
inductive LogRecord where
  /-- A source was read into so many tokens. -/
  | lexed (count : Nat)
  /-- A form was read that is reported at a position. -/
  | parsed (position : Position)
  /-- A name is called with so many arguments. -/
  | called (name : String) (position : Position) (count : Nat)
  /-- A closure called under a name is entered, with so many parameters. -/
  | entered (name : String) (count : Nat)
  deriving DecidableEq, Inhabited

/-- A record with its level. -/
def LogRecord.text : LogRecord → String
  | .lexed count => s!"DEBUG lexed {count} tokens"
  | .parsed position => s!"DEBUG parsed top-level form at {position.text}"
  | .called name position count =>
    s!"TRACE call `{name}` at {position.text} with {count} args"
  | .entered name count =>
    s!"TRACE enter `{name}` with fresh scope of {count} params"

/-! ## The world -/

/-- The state of a running program. -/
structure World where
  heap : Heap
  sinks : Array Sink
  log : Array LogRecord

namespace World

/-- The world before anything exists. -/
def empty : World :=
  ⟨.empty, #[], #[]⟩

/-- The number of the next scope. -/
def nextScope (world : World) : ScopeId :=
  world.heap.next

/-- Adds a root with a sink of its own. -/
def addRoot (world : World) (sink : Sink) : World :=
  { world with
    heap := world.heap.add (.root world.sinks.size)
    sinks := world.sinks.push sink }

/-- Adds a child of a scope. -/
def addChild (world : World) (parent : ScopeId) : World :=
  { world with heap := world.heap.add (.child parent) }

/-- Binds a name in a scope itself. -/
def define (world : World) (scope : ScopeId) (name : String) (value : Value) :
    World :=
  { world with heap := world.heap.define scope name value }

/-- Binds a name where it is bound already, or else in the scope itself. -/
def assign (world : World) (scope : ScopeId) (name : String) (value : Value) :
    World :=
  { world with heap := world.heap.assign scope name value }

/-- Notes something down. -/
def record (world : World) (entry : LogRecord) : World :=
  { world with log := world.log.push entry }

/-- Changes one sink. -/
def updateSink (world : World) (sink : SinkId) (change : Sink → Sink) : World :=
  { world with sinks := world.sinks.modify sink change }

/-- The sink that a scope prints to. -/
def sinkOf? (world : World) (scope : ScopeId) : Option Sink :=
  (world.heap.sink? scope).bind fun sink => world.sinks[sink]?

/-- The world once a line is printed from a scope. -/
def afterLine (world : World) (scope : ScopeId) (line : String) : World :=
  match world.heap.sink? scope with
  | some sink => world.updateSink sink (·.afterLine line)
  | none => world

/-- Whether a line can be printed from a scope, and why not. -/
def acceptance (world : World) (scope : ScopeId) (line : String) :
    Except Cause Unit :=
  match world.sinkOf? scope with
  | some sink => sink.acceptance line
  | none => .ok ()

end World

end ScopedLisp
