import ScopedLisp.Command

/-!
# The program

Reads files and the standard input and writes what the command says.  With
options that name something to run, the files are read first; otherwise the
dialogue goes on line by line as the input arrives.
-/

namespace ScopedLisp

/-- The wording of a system error; some calls report its number negated. -/
def systemReason (code : UInt32) (details : String) : String :=
  let number := if code.toNat < 2147483648 then code else 0 - code
  s!"{details.capitalize} (os error {number})"

/-- What the system says about a file that it cannot read. -/
def fileReason (error : IO.Error) : String :=
  match error with
  | .noFileOrDirectory _ code details
  | .permissionDenied _ code details
  | .inappropriateType _ code details
  | .invalidArgument _ code details
  | .resourceExhausted _ code details => systemReason code details
  | other => other.toString

/-- Reads a file. -/
def readFile (name : String) : IO (Except String (List UInt8)) := do
  try
    let bytes ← IO.FS.readBinFile name
    pure (.ok bytes.toList)
  catch error =>
    pure (.error (fileReason error))

/-- Writes an output. -/
def Output.write (output : Output) : IO Unit := do
  let stdout ← IO.getStdout
  let stderr ← IO.getStderr
  stdout.putStr output.stdout
  stdout.flush
  stderr.putStr output.stderr
  stderr.flush

/-- Reads the bytes of a line, as far as there are any. -/
partial def readLine (bytes : List UInt8) : IO (Option Line) := do
  let stdin ← IO.getStdin
  let chunk ← stdin.read 1
  match chunk.toList with
  | [] =>
    if bytes.isEmpty then pure none else pure (some ⟨bytes.reverse, false⟩)
  | byte :: _ =>
    if byte = Line.feed then pure (some ⟨bytes.reverse, true⟩)
    else readLine (byte :: bytes)

/-- Goes on with a dialogue as lines arrive. -/
partial def converse (repl : Repl) : IO (Shell × Bool) := do
  Output.write ⟨repl.prompt, ""⟩
  match ← readLine [] with
  | none =>
    let (output, succeeded) := repl.finish
    output.write
    pure (repl.shell, succeeded)
  | some line =>
    match line.text? with
    | none =>
      Repl.unreadable.write
      pure (repl.shell, false)
    | some text =>
      let (next, output) := repl.feed Command.depthLimit text
      output.write
      converse next

/-- Runs a dialogue on the standard input. -/
def runDialogue (options : Options) : IO Bool := do
  let (shell, succeeded) ← converse (.start (.start options.bare))
  if options.dumpsEnvironment then shell.dump.write
  pure succeeded

/-- Runs the expressions and files that options name. -/
def runNamed (options : Options) : IO Bool := do
  let contents ← options.files.mapM fun name => do
    pure (name, ← readFile name)
  let files : Files := fun name =>
    (contents.lookup name).getD (.error "")
  let conclusion := Command.runOptions options files []
  conclusion.output.write
  pure conclusion.succeeded

end ScopedLisp

open ScopedLisp in
/-- Runs the command with the arguments of the process. -/
def main (arguments : List String) : IO UInt32 := do
  let succeeded ←
    match Options.ofArguments .inPasses arguments with
    | .error fault =>
      (Command.refusal fault).write
      pure false
    | .ok none =>
      Output.write ⟨Options.usage, ""⟩
      pure true
    | .ok (some options) =>
      if options.isInteractive then runDialogue options
      else runNamed options
  pure (Command.status succeeded).toUInt32
