import ScopedLisp.Command.Arguments

/-!
# Command-line options

The options of the command are taken out of its arguments one after the other:
help, the expressions in both spellings, then each flag.  What is left names
files and must not look like an option.
-/

namespace ScopedLisp

/-- What the command is asked to do. -/
structure Options where
  expressions : List String
  files : List String
  bare : Bool
  printsResults : Bool
  dumpsEnvironment : Bool
  deriving DecidableEq, Inhabited

/-- Why arguments cannot be understood. -/
inductive OptionFault where
  /-- The expressions cannot be taken out. -/
  | refused (reason : String)
  /-- An argument looks like an option and is none. -/
  | unknown (argument : String)
  deriving DecidableEq, Inhabited

/-- The wording of a fault. -/
def OptionFault.message : OptionFault → String
  | .refused reason => reason
  | .unknown argument => s!"unknown option `{argument}`"

namespace Options

/-- What the command says about itself. -/
def usage : String :=
  "\n".intercalate [
    "Usage: wlisp [options] [FILE...]",
    "Options:",
    "  -h, --help: Print this help message",
    "  -e, --eval <expr>: Interpret <expr> (repeatable, runs before files)",
    "  --bare: Start from an empty root environment without the prelude",
    "  --print-result: Print the non-nil result of each expression and file",
    "  --dump-env: Print the root environment after running",
    "Each FILE holds one top-level form. Without inputs, starts a REPL on stdin.",
    ""]

/-- Whether an argument looks like an option. -/
def looksLikeOption (argument : String) : Bool :=
  argument.toList.head? == some '-'

/-- The files that arguments name, none of which may look like an option. -/
def readFiles (arguments : List String) : Except OptionFault (List String) :=
  match arguments.find? looksLikeOption with
  | some argument => .error (.unknown argument)
  | none => .ok arguments

/-- Reads the arguments of a command, which have no options if they ask for help. -/
def ofArguments (library : ArgumentLibrary) (arguments : List String) :
    Except OptionFault (Option Options) := do
  let (help, arguments) := library.contains ["-h", "--help"] arguments
  if help then .ok none
  else
    let (expressions, arguments) ←
      (library.values ["-e", "--eval"] arguments).mapError .refused
    let (bare, arguments) := library.contains ["--bare"] arguments
    let (printsResults, arguments) := library.contains ["--print-result"] arguments
    let (dumpsEnvironment, arguments) := library.contains ["--dump-env"] arguments
    let files ← readFiles (library.finish arguments)
    .ok (some ⟨expressions, files, bare, printsResults, dumpsEnvironment⟩)

/-- Whether forms are read from the standard input. -/
def isInteractive (options : Options) : Bool :=
  options.expressions.isEmpty && options.files.isEmpty

end Options

end ScopedLisp
