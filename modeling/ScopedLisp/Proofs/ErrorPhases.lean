import ScopedLisp.Proofs.EvaluationPolicy
import ScopedLisp.Proofs.ReadingSteps
import ScopedLisp.Proofs.ViablePrefixes

/-!
# Errors of reading and errors of running

The first letter of a code tells the phase that an error comes from: `L` and
`P` stand for reading, `R` for running.  Both directions hold.  Every fault
that is found while a source is read has a code of reading, and evaluation,
however deep it is nested and whatever closures the world stores, never fails
with such a code.  So a code of reading means that the source was refused as a
whole, and that leaves nothing behind but a note in the log.
-/

namespace ScopedLisp

/-! ## Letters of codes -/

/-- The letter that a code starts with. -/
def ErrorCode.letter? (code : ErrorCode) : Option Char :=
  code.text.toList.head?

/-- The letters that codes of reading start with. -/
def readingLetters : List (Option Char) :=
  [some 'L', some 'P']

theorem ErrorCode.letter?_mem_readingLetters_iff {code : ErrorCode} :
    code.letter? ∈ readingLetters ↔ code.kind = .syntaxError := by
  cases code <;> decide

theorem ErrorCode.letter?_eq_running_iff {code : ErrorCode} :
    code.letter? = some 'R' ↔ code.kind ≠ .syntaxError := by
  cases code <;> decide

/-! ## Faults of reading -/

theorem Unreadable.syntaxError {first : Char} {text : List Char} {cause : Cause}
    (unreadable : Unreadable first text cause) :
    cause.code.kind = .syntaxError := by
  cases unreadable <;> rfl

theorem Cursor.Stops.syntaxError {cursor : Cursor} {error : Error}
    (stops : Stops cursor error) : error.cause.code.kind = .syntaxError := by
  cases stops with
  | unclosed | unmatched => rfl
  | unreadable isGap notBlank notComment unreadable =>
      exact unreadable.syntaxError

theorem tokenize_syntaxError {source : String} {error : Error}
    (refused : tokenize source = .error error) :
    error.cause.code.kind = .syntaxError := by
  rcases Cursor.exists_stop refused with ⟨tokens, last, reads, stops⟩
  exact stops.syntaxError

theorem kind_of_mem_literalCodes {code : ErrorCode}
    (ofLiteral : code ∈ literalCodes) : code.kind = .syntaxError := by
  cases code <;> first | rfl | contradiction

theorem Error.Blames.syntaxError {error : Error} {token : Token}
    (blames : error.Blames token) : error.cause.code.kind = .syntaxError := by
  rcases blames.cause with unexpected | ⟨-, -, ofLiteral⟩
  · rw [unexpected]
    rfl
  · exact kind_of_mem_literalCodes ofLiteral

/-- What is wrong with a list of tokens is reported with a code of reading. -/
theorem Form.ofTokens_syntaxError {tokens : List Token} {error : Error}
    (refused : Form.ofTokens tokens = .error error) :
    error.cause.code.kind = .syntaxError := by
  rcases Form.ofTokens_error_cases refused with
    ⟨_, _, _, -, -, -, blames⟩ | ⟨-, tooEarly, -⟩
  · exact blames.syntaxError
  · rw [tooEarly]
    rfl

/-- A source is refused with a code of reading. -/
theorem Form.ofSource_syntaxError {source : String} {error : Error}
    (refused : Form.ofSource source = .error error) :
    error.cause.code.kind = .syntaxError := by
  rcases lexed : tokenize source with unlexed | tokens
  · simp only [Form.ofSource, lexed, bind, Except.bind] at refused
    cases refused
    exact tokenize_syntaxError lexed
  · simp only [Form.ofSource, lexed, bind, Except.bind] at refused
    exact Form.ofTokens_syntaxError refused

/-! ## Faults of running -/

/-- Evaluation fails with an error of running that has a place. -/
theorem evaluate_failed {depth : Nat} {form : Form} {scope : ScopeId}
    {world after : World} {error : Error}
    (ends : evaluate Host.none depth form scope world = .failed error after) :
    error.cause.IsRuntime ∧ error.position?.isSome := by
  have follows : Policy.unrestricted.Follows world
      (evaluate Host.none depth form scope world) :=
    (Policy.unrestricted_lawful.evaluate_follows trivial trivial trivial
      (Nat.le_refl depth)).1
  rw [ends] at follows
  cases follows with
  | failed changes runtime place => exact ⟨runtime, rfl⟩

/-- A call fails with an error of running that has a place. -/
theorem call_failed {depth : Nat} {callable : Callable} {site : CallSite}
    {scope : ScopeId} {arguments : List Value} {world after : World}
    {error : Error}
    (ends : call Host.none depth callable site scope arguments world =
      .failed error after) :
    error.cause.IsRuntime ∧ error.position?.isSome := by
  have follows : Policy.unrestricted.Follows world
      (call Host.none depth callable site scope arguments world) :=
    (Policy.unrestricted_lawful.call_follows scope trivial trivial trivial
      (fun _ _ _ _ => trivial) (Nat.le_refl depth)).1
  rw [ends] at follows
  cases follows with
  | failed changes runtime place => exact ⟨runtime, rfl⟩

/-! ## Whole sources -/

/-- Notes in the log change neither scopes nor sinks. -/
theorem World.records_frame (world : World) (entries : List LogRecord) :
    (entries.foldl World.record world).heap = world.heap ∧
      (entries.foldl World.record world).sinks = world.sinks := by
  induction entries generalizing world with
  | nil => exact ⟨rfl, rfl⟩
  | cons entry entries ih => exact ih (world.record entry)

/-- A run fails because its source is refused, or else while its form is evaluated. -/
theorem interpret_failed_cases {depth : Nat} {scope : ScopeId} {source : String}
    {before after : World} {error : Error}
    (ends : interpret Host.none depth scope source before =
      .failed error after) :
    (Form.ofSource source = .error error ∧
        after.heap = before.heap ∧ after.sinks = before.sinks) ∨
      ((∃ form, Form.ofSource source = .ok form) ∧ error.cause.IsRuntime) := by
  rcases interpret_cases Host.none scope source before with
    ⟨fault, entries, refused, result⟩ | ⟨form, entries, read, result⟩
  · rw [result depth] at ends
    cases ends
    exact .inl ⟨refused, before.records_frame entries⟩
  · rw [result depth] at ends
    exact .inr ⟨⟨form, read⟩, (evaluate_failed ends).1⟩

/--
A run fails with a code of reading exactly if its source is refused, and then
all scopes and all sinks are as they were.  If the source is read, the run can
only fail with a code of running, and so can any evaluation and any call, to
whatever depth and in whatever world.
-/
theorem syntax_errors_are_atomic
    {depth : Nat} {scope : ScopeId} {source : String} {before after : World}
    {error : Error}
    (ends : interpret Host.none depth scope source before =
      .failed error after) :
    (error.cause.code.letter? ∈ readingLetters →
      after.heap = before.heap ∧ after.sinks = before.sinks) ∧
    (error.cause.code.letter? ∈ readingLetters ↔
      Form.ofSource source = .error error) ∧
    ((∃ form, Form.ofSource source = .ok form) →
      error.cause.code.letter? = some 'R') ∧
    (∀ depth form scope world error after,
      evaluate Host.none depth form scope world = .failed error after →
        error.cause.code.letter? = some 'R') ∧
    ∀ depth callable site scope arguments world error after,
      call Host.none depth callable site scope arguments world =
          .failed error after →
        error.cause.code.letter? = some 'R' := by
  have evaluated : ∀ depth form scope world error after,
      evaluate Host.none depth form scope world = .failed error after →
        error.cause.code.letter? = some 'R' :=
    fun _ _ _ _ _ _ ends =>
      ErrorCode.letter?_eq_running_iff.mpr (evaluate_failed ends).1
  have called : ∀ depth callable site scope arguments world error after,
      call Host.none depth callable site scope arguments world =
          .failed error after →
        error.cause.code.letter? = some 'R' :=
    fun _ _ _ _ _ _ _ _ ends =>
      ErrorCode.letter?_eq_running_iff.mpr (call_failed ends).1
  rw [ErrorCode.letter?_mem_readingLetters_iff,
    ErrorCode.letter?_eq_running_iff]
  rcases interpret_failed_cases ends with
    ⟨refused, unchanged⟩ | ⟨⟨form, read⟩, runtime⟩
  · have reading := Form.ofSource_syntaxError refused
    refine ⟨fun _ => unchanged, ⟨fun _ => refused, fun _ => reading⟩, ?_,
      evaluated, called⟩
    rintro ⟨form, read⟩
    rw [refused] at read
    cases read
  · refine ⟨fun reading => absurd reading runtime, ⟨?_, ?_⟩, fun _ => runtime,
      evaluated, called⟩
    · exact fun reading => absurd reading runtime
    · intro refused
      rw [read] at refused
      cases refused

/-- A bad escape behind an assignment, and a closure that calls what is no function. -/
theorem syntax_errors_are_atomic_bad_escape :
    (∃ error after,
      interpret Host.none 3 0 "(begin (set x #t) \"\\q\")"
          (World.empty.addRoot .keeping) = .failed error after ∧
        error.cause.code.letter? ∈ readingLetters ∧
        after.heap = (World.empty.addRoot .keeping).heap) ∧
    ∃ error after,
      interpret Host.none 5 0 "(begin (set f (lambda (x) (x))) (f nil))"
          (World.empty.addRoot .keeping) = .failed error after ∧
        error.cause.code.letter? = some 'R' := by
  constructor
  · have ends : interpret Host.none 3 0 "(begin (set x #t) \"\\q\")"
        (World.empty.addRoot .keeping) =
          .failed (.located (.unknownEscape 'q') ⟨1, 19⟩)
            ((World.empty.addRoot .keeping).record (.lexed 9)) := by
      cbv
    have reading : (Cause.unknownEscape 'q').code.letter? ∈ readingLetters := by
      decide
    exact ⟨_, _, ends, reading, ((syntax_errors_are_atomic ends).1 reading).1⟩
  · have ends : ∃ after,
        interpret Host.none 5 0 "(begin (set f (lambda (x) (x))) (f nil))"
          (World.empty.addRoot .keeping) =
            .failed (.located (.typeMismatch "function" "nil") ⟨1, 28⟩)
              after := by
      refine ⟨?after, ?runs⟩
      case runs =>
        cbv
        rfl
    have read : ∃ form,
        Form.ofSource "(begin (set f (lambda (x) (x))) (f nil))" =
          .ok form := by
      refine ⟨?form, ?reads⟩
      case reads =>
        cbv
        rfl
    rcases ends with ⟨after, ends⟩
    exact ⟨_, _, ends, (syntax_errors_are_atomic ends).2.2.1 read⟩

end ScopedLisp
