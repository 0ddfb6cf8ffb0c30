import ScopedLisp.Command.Options
import ScopedLisp.Command.Shell
import ScopedLisp.Text.Line

/-!
# Running expressions and files

A batch interprets its inputs in order on one root and stops at the first that
fails.  Every input has a name that its error is reported under.
-/

namespace ScopedLisp

/-- Something to interpret: its name, and its source unless it cannot be read. -/
structure Input where
  origin : String
  source : Except Cause String

/-- The files that can be read: the bytes of a name, or why there are none. -/
abbrev Files :=
  String → Except String (List UInt8)

namespace Input

/-- What is said of bytes that are not UTF-8. -/
def invalidText : Cause :=
  .io "stream did not contain valid UTF-8"

/-- An expression from the command line. -/
def ofExpression (source : String) : Input :=
  ⟨"<eval>", .ok source⟩

/-- A file. -/
def ofFile (files : Files) (name : String) : Input :=
  let source :=
    match files name with
    | .ok bytes =>
      match decodeText? bytes with
      | some text => .ok text
      | none => .error invalidText
    | .error reason => .error (.io reason)
  ⟨name, source⟩

/-- The expressions of the options and then their files. -/
def ofOptions (options : Options) (files : Files) : List Input :=
  options.expressions.map ofExpression ++ options.files.map (ofFile files)

end Input

namespace Shell

/-- Interprets inputs until one fails: what is written, and whether all succeeded. -/
def runBatch (shell : Shell) (depth : Nat) (showsValues : Bool) :
    List Input → Shell × Output × Bool
  | [] => (shell, .silent, true)
  | input :: inputs =>
    match input.source with
    | .error cause => (shell, report input.origin (.unlocated cause), false)
    | .ok source =>
      match shell.perform depth showsValues input.origin source with
      | (shell, output, false) => (shell, output, false)
      | (shell, output, true) =>
        let (shell, later, succeeded) := shell.runBatch depth showsValues inputs
        (shell, output ++ later, succeeded)

end Shell

end ScopedLisp
