import ScopedLisp.Command.Repl

/-!
# The command

`Command.run` is the whole command as a function of its arguments, the files
it can read and its standard input: what it writes and whether it succeeds.
-/

namespace ScopedLisp

/-- What a finished command leaves behind. -/
structure Conclusion where
  output : Output
  succeeded : Bool
  deriving DecidableEq, Inhabited

namespace Command

/-- How deeply evaluations may nest when the command runs them. -/
def depthLimit : Nat := 20000

/-- The exit status of a conclusion. -/
def status (succeeded : Bool) : Nat :=
  if succeeded then 0 else 1

/-- What is written about arguments that cannot be understood. -/
def refusal (fault : OptionFault) : Output :=
  ⟨"", s!"wlisp: {fault.message}\ntry `wlisp --help`\n"⟩

/-- Interprets what the options name, or else the standard input. -/
def runInputs (options : Options) (files : Files) (stdin : List UInt8) :
    Shell × Output × Bool :=
  let shell := Shell.start options.bare
  if options.isInteractive then
    let (shell, turns, succeeded) :=
      (Repl.start shell).converse depthLimit (Line.ofBytes stdin)
    let output := turns.foldl (fun output turn => output ++ turn.transcript) .silent
    (shell, output, succeeded)
  else
    shell.runBatch depthLimit options.printsResults
      (Input.ofOptions options files)

/-- Runs the command as its options say. -/
def runOptions (options : Options) (files : Files) (stdin : List UInt8) :
    Conclusion :=
  let (shell, output, succeeded) := runInputs options files stdin
  ⟨output ++ if options.dumpsEnvironment then shell.dump else .silent, succeeded⟩

/-- Runs the command on a library that takes options out of arguments. -/
def runWith (library : ArgumentLibrary) (arguments : List String)
    (files : Files) (stdin : List UInt8) : Conclusion :=
  match Options.ofArguments library arguments with
  | .error fault => ⟨refusal fault, false⟩
  | .ok none => ⟨⟨Options.usage, ""⟩, true⟩
  | .ok (some options) => runOptions options files stdin

/-- Runs the command. -/
def run : List String → Files → List UInt8 → Conclusion :=
  runWith .inPasses

end Command

end ScopedLisp
