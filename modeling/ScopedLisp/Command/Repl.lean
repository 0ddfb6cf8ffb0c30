import ScopedLisp.Command.Batch
import ScopedLisp.Text.WhiteSpace

/-!
# Reading forms line by line

The dialogue collects lines until no parenthesis is open and then interprets
what it has collected.  `parenDepth` counts parentheses on its own, passing
over strings and comments; it does not need the text to hold whole tokens.
Blank input is dropped.  An error is reported and the dialogue goes on.
-/

namespace ScopedLisp

/-! ## Counting parentheses -/

/-- What a character of a source belongs to. -/
inductive Region where
  | code
  | comment
  | string
  | escaped
  deriving DecidableEq, Inhabited

/-- Opening minus closing parentheses of a text that starts inside a region. -/
def parenDepthFrom : Region → List Char → Int
  | _, [] => 0
  | .code, character :: text =>
    if character = '(' then parenDepthFrom .code text + 1
    else if character = ')' then parenDepthFrom .code text - 1
    else if character = ';' then parenDepthFrom .comment text
    else if character = '"' then parenDepthFrom .string text
    else parenDepthFrom .code text
  | .comment, character :: text =>
    if character = '\n' then parenDepthFrom .code text
    else parenDepthFrom .comment text
  | .string, character :: text =>
    if character = '\\' then parenDepthFrom .escaped text
    else if character = '"' then parenDepthFrom .code text
    else parenDepthFrom .string text
  | .escaped, _ :: text => parenDepthFrom .string text

/-- Opening minus closing parentheses outside strings and comments. -/
def parenDepth (source : String) : Int :=
  parenDepthFrom .code source.toList

/-! ## Collecting lines -/

/-- What collected lines amount to. -/
inductive Collected where
  /-- Nothing but white space. -/
  | blank
  /-- The beginning of a form. -/
  | incomplete (buffer : String)
  /-- A source to interpret. -/
  | complete (source : String)
  deriving DecidableEq, Inhabited

/-- Adds a line to the lines collected before. -/
def Collected.ofLine (buffer line : String) : Collected :=
  let text := buffer ++ line ++ "\n"
  if isAllWhiteSpace text then .blank
  else if 0 < parenDepth text then .incomplete text
  else .complete text

/-! ## The dialogue -/

/-- A shell and the lines collected for it. -/
structure Repl where
  shell : Shell
  buffer : String

/-- A prompt and what was written after it. -/
structure Turn where
  prompt : String
  output : Output

/-- All that a turn wrote. -/
def Turn.transcript (turn : Turn) : Output :=
  ⟨turn.prompt, ""⟩ ++ turn.output

namespace Repl

/-- The name of the standard input in reports. -/
def origin : String :=
  "<stdin>"

/-- A dialogue before its first line. -/
def start (shell : Shell) : Repl :=
  ⟨shell, ""⟩

/-- What asks for the next line. -/
def prompt (repl : Repl) : String :=
  if repl.buffer.isEmpty then "wlisp> " else "  ...> "

/-- Takes a line and interprets what has been collected, if it is complete. -/
def feed (repl : Repl) (depth : Nat) (line : String) : Repl × Output :=
  match Collected.ofLine repl.buffer line with
  | .blank => (⟨repl.shell, ""⟩, .silent)
  | .incomplete buffer => (⟨repl.shell, buffer⟩, .silent)
  | .complete source =>
    let (shell, output, _) := repl.shell.perform depth true origin source
    (⟨shell, ""⟩, output)

/-- What is written at the end of the input, and whether it is a good end. -/
def finish (repl : Repl) : Output × Bool :=
  if isAllWhiteSpace repl.buffer then (.silent, true)
  else
    (.complaint (origin ++ ": incomplete form at end of input"), false)

/-- What is written about a line that cannot be read. -/
def unreadable : Output :=
  Shell.report origin (.unlocated Input.invalidText)

/--
Goes through all lines; a line that is not text ends the dialogue.  The result
is the shell at the end, the turns, and whether the dialogue ended well.
-/
def converse (repl : Repl) (depth : Nat) :
    List Line → Shell × List Turn × Bool
  | [] =>
    let (output, succeeded) := repl.finish
    (repl.shell, [⟨repl.prompt, output⟩], succeeded)
  | line :: lines =>
    match line.text? with
    | none => (repl.shell, [⟨repl.prompt, unreadable⟩], false)
    | some text =>
      let (next, output) := repl.feed depth text
      let (shell, turns, succeeded) := next.converse depth lines
      (shell, ⟨repl.prompt, output⟩ :: turns, succeeded)

end Repl

end ScopedLisp
