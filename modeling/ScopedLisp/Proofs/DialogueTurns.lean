import ScopedLisp.Command.Repl

/-!
# A dialogue interprets what it collects

Which sources a dialogue interprets depends on its lines alone, not on what
comes of the sources.  So a dialogue can be told in two steps: the lines are
collected into sources, and these are performed one after the other on one
shell, whether they fail or not (`Repl.converse_performs`).  Each performance is
one call of `interpret`, and the next starts in the world that it leaves
(`Shell.performEach_callsInTurn`).
-/

namespace ScopedLisp

/-! ## Outputs one after the other -/

namespace Output

/-- Outputs one after the other. -/
def join : List Output → Output
  | [] => silent
  | output :: outputs => output ++ join outputs

theorem silent_append (output : Output) : silent ++ output = output := by
  show Output.mk ("" ++ output.stdout) ("" ++ output.stderr) = output
  simp

theorem append_silent (output : Output) : output ++ silent = output := by
  show Output.mk (output.stdout ++ "") (output.stderr ++ "") = output
  simp

theorem append_assoc (first second third : Output) :
    first ++ second ++ third = first ++ (second ++ third) := by
  show Output.mk (first.stdout ++ second.stdout ++ third.stdout)
      (first.stderr ++ second.stderr ++ third.stderr) =
    Output.mk (first.stdout ++ (second.stdout ++ third.stdout))
      (first.stderr ++ (second.stderr ++ third.stderr))
  rw [String.append_assoc, String.append_assoc]

end Output

/-! ## Performing sources -/

/--
A call of `interpret`: what it was called with and in which world, how it ended,
and what was written for it.
-/
structure Performance where
  root : ScopeId
  source : String
  world : World
  outcome : Outcome Value
  output : Output

namespace Performance

/-- How a call went, as its shell sees it. -/
def verdict (performance : Performance) : Verdict :=
  match performance.outcome with
  | .done value _ => .value value
  | .failed error _ => .error error
  | .exhausted => .tooDeep

/-- The world that a call leaves. -/
def after (performance : Performance) : World :=
  match performance.outcome with
  | .done _ world | .failed _ world => world
  | .exhausted => performance.world

end Performance

/-- Interprets sources from the standard input, one after the other, failing or not. -/
def Shell.performEach (shell : Shell) (depth : Nat) :
    List String → Shell × List Performance
  | [] => (shell, [])
  | source :: sources =>
    let outcome :=
      ScopedLisp.interpret Host.none depth shell.root source shell.world
    let performed := shell.perform depth true Repl.origin source
    let later := performed.1.performEach depth sources
    (later.1,
      ⟨shell.root, source, shell.world, outcome, performed.2.1⟩ :: later.2)

/--
Calls of `interpret` one after the other, between a shell and a later one.  The
first is made in the world of the shell, and each of the others in the world that
the one before it left, once the output is taken from it.
-/
inductive CallsInTurn (depth : Nat) : Shell → List Performance → Shell → Prop where
  | none (shell : Shell) : CallsInTurn depth shell [] shell
  | next {shell last : Shell} {performance : Performance}
      {performances : List Performance}
      (isRoot : performance.root = shell.root)
      (isWorld : performance.world = shell.world)
      (isCall : ScopedLisp.interpret Host.none depth performance.root
        performance.source performance.world = performance.outcome)
      (later : CallsInTurn depth
        (Shell.takeOutput ⟨performance.after, performance.root⟩).1 performances
        last) :
      CallsInTurn depth shell (performance :: performances) last

/-- A shell sees how its call went and keeps the world that it left. -/
theorem Shell.interpret_eq (shell : Shell) (depth : Nat) (source : String)
    (output : Output) :
    let performance : Performance :=
      ⟨shell.root, source, shell.world,
        ScopedLisp.interpret Host.none depth shell.root source shell.world, output⟩
    shell.interpret depth source =
      (⟨performance.after, shell.root⟩, performance.verdict) := by
  simp only [interpret, Performance.after, Performance.verdict]
  cases ScopedLisp.interpret Host.none depth shell.root source shell.world <;> rfl

theorem Shell.verdict_interpret (shell : Shell) (depth : Nat) (source : String)
    (output : Output) :
    (shell.interpret depth source).2 =
      Performance.verdict ⟨shell.root, source, shell.world,
        ScopedLisp.interpret Host.none depth shell.root source shell.world,
        output⟩ :=
  congrArg Prod.snd (shell.interpret_eq depth source output)

theorem Shell.perform_eq_takeOutput (shell : Shell) (depth : Nat)
    (showsValue : Bool) (origin source : String) :
    (shell.perform depth showsValue origin source).1 =
      (shell.interpret depth source).1.takeOutput.1 := by
  simp only [perform]
  cases (shell.interpret depth source).2 <;> rfl

/-- Performing sources calls `interpret` for each of them in turn. -/
theorem Shell.performEach_callsInTurn (shell : Shell) (depth : Nat)
    (sources : List String) :
    CallsInTurn depth shell (shell.performEach depth sources).2
      (shell.performEach depth sources).1 := by
  induction sources generalizing shell with
  | nil => exact .none shell
  | cons source sources ih =>
      refine .next rfl rfl rfl ?_
      have left := shell.perform_eq_takeOutput depth true Repl.origin source
      rw [shell.interpret_eq depth source
        (shell.perform depth true Repl.origin source).2.1] at left
      rw [← left]
      exact ih _

/-- Every source is interpreted once. -/
theorem Shell.performEach_sources (shell : Shell) (depth : Nat)
    (sources : List String) :
    (shell.performEach depth sources).2.map Performance.source = sources := by
  induction sources generalizing shell with
  | nil => rfl
  | cons source sources ih =>
      simp only [performEach, List.map_cons, ih]

theorem Shell.root_interpret (shell : Shell) (depth : Nat) (source : String) :
    (shell.interpret depth source).1.root = shell.root := by
  rw [interpret]
  split <;> rfl

theorem Shell.root_takeOutput (shell : Shell) :
    shell.takeOutput.1.root = shell.root := by
  rw [takeOutput]
  split <;> rfl

theorem Shell.root_perform (shell : Shell) (depth : Nat) (showsValue : Bool)
    (origin source : String) :
    (shell.perform depth showsValue origin source).1.root = shell.root := by
  rw [perform_eq_takeOutput, root_takeOutput, root_interpret]

/-- Every source is interpreted on the root of the shell. -/
theorem Shell.root_performEach
    {shell : Shell} {depth : Nat} {sources : List String}
    {performance : Performance}
    (member : performance ∈ (shell.performEach depth sources).2) :
    performance.root = shell.root := by
  induction sources generalizing shell with
  | nil => cases member
  | cons source sources ih =>
      rcases List.mem_cons.mp member with rfl | member
      · rfl
      · exact (ih member).trans (root_perform shell depth true _ source)

/-- The origin of a source matters only if there is something to report. -/
theorem Shell.perform_of_value
    {shell : Shell} {depth : Nat} {source : String} {value : Value}
    (succeeded : (shell.interpret depth source).2 = .value value)
    (showsValue : Bool) (origin origin' : String) :
    shell.perform depth showsValue origin source =
        shell.perform depth showsValue origin' source ∧
      (shell.perform depth showsValue origin source).2.2 = true := by
  simp [perform, succeeded]

/-- An error is reported with its origin, below all that was printed before it. -/
theorem Shell.stderr_perform
    {shell : Shell} {depth : Nat} {showsValue : Bool}
    {origin source : String} {error : Error}
    (failed : (shell.interpret depth source).2 = .error error) :
    (shell.perform depth showsValue origin source).2.1.stderr =
      origin ++ ": " ++ error.text ++ "\n" := by
  simp only [perform, failed]
  show "" ++ (report origin error).stderr = _
  rw [String.empty_append]
  rfl

theorem Shell.stderr_performEach
    {shell : Shell} {depth : Nat} {sources : List String}
    {performance : Performance} {error : Error}
    (member : performance ∈ (shell.performEach depth sources).2)
    (failed : performance.verdict = .error error) :
    performance.output.stderr = Repl.origin ++ ": " ++ error.text ++ "\n" := by
  induction sources generalizing shell with
  | nil => cases member
  | cons source sources ih =>
      rcases List.mem_cons.mp member with rfl | member
      · exact stderr_perform ((shell.verdict_interpret depth source _).trans failed)
      · exact ih member

/-! ## Collecting sources -/

/-- What is left when a dialogue takes no more lines. -/
inductive Remainder where
  /-- The input has ended behind some collected lines. -/
  | collected (buffer : String)
  /-- A line is not text. -/
  | unreadable

/-- What is written about the end of a dialogue, and whether it is a good end. -/
def Remainder.close (shell : Shell) : Remainder → Output × Bool
  | .collected buffer => (Repl.mk shell buffer).finish
  | .unreadable => (Repl.unreadable, false)

/-- The sources that lines are collected into, and what is left at the end. -/
structure Collection where
  sources : List String
  remainder : Remainder

/-- Collects lines as a dialogue does, below the lines collected before. -/
def Repl.collect (buffer : String) : List Line → Collection
  | [] => ⟨[], .collected buffer⟩
  | line :: lines =>
    match line.text? with
    | none => ⟨[], .unreadable⟩
    | some text =>
      match Collected.ofLine buffer text with
      | .blank => collect "" lines
      | .incomplete buffer => collect buffer lines
      | .complete source =>
        let later := collect "" lines
        ⟨source :: later.sources, later.remainder⟩

/-- A dialogue performs the sources that its lines are collected into. -/
theorem Repl.converse_performs (repl : Repl) (depth : Nat)
    (lines : List Line) :
    let collection := collect repl.buffer lines
    let performed := repl.shell.performEach depth collection.sources
    let closing := collection.remainder.close performed.1
    ∃ turns,
      repl.converse depth lines = (performed.1, turns, closing.2) ∧
        Output.join (turns.map Turn.output) =
          Output.join (performed.2.map Performance.output) ++ closing.1 := by
  induction lines generalizing repl with
  | nil =>
      refine ⟨[⟨repl.prompt, repl.finish.1⟩], rfl, ?_⟩
      show repl.finish.1 ++ Output.silent = Output.silent ++ repl.finish.1
      rw [Output.append_silent, Output.silent_append]
  | cons line lines ih =>
      rcases read : line.text? with _ | text
      · refine ⟨[⟨repl.prompt, unreadable⟩], ?_, ?_⟩
        · simp [converse, collect, read, Shell.performEach, Remainder.close]
        · simp only [collect, read]
          show unreadable ++ Output.silent = Output.silent ++ unreadable
          rw [Output.append_silent, Output.silent_append]
      · rcases ih (repl.feed depth text).1 with ⟨turns, conversed, written⟩
        refine ⟨⟨repl.prompt, (repl.feed depth text).2⟩ :: turns, ?_, ?_⟩
        · simp only [converse, read, conversed]
          simp only [feed, collect, read]
          cases Collected.ofLine repl.buffer text <;> rfl
        · simp only [List.map_cons, Output.join, written]
          simp only [feed, collect, read]
          cases Collected.ofLine repl.buffer text with
          | blank | incomplete => exact Output.silent_append _
          | complete source => exact (Output.append_assoc _ _ _).symm

end ScopedLisp
