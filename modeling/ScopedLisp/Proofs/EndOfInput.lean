import ScopedLisp.Proofs.NativeFailures
import ScopedLisp.Proofs.ParenthesisScanner

/-!
# Sources that end too early

While tokens are read, parentheses are only counted; while forms are read, each
place that waits for a token lies inside some parentheses.  The two counts are
the same (`Reader.run_advances`): a reader of forms that has taken some tokens and
has no parenthesis open has read its form.  So once a source has been read into
tokens, and there are any, the reader of forms never runs out of them.

A source without tokens is the one exception, and the only source whose run
fails without a place.
-/

namespace ScopedLisp

/-! ## The parentheses that a reader has open -/

namespace Reader

/-- How many parentheses around the place of a reader are open. -/
def depth : Reader → Nat
  | .atForm around => around.length
  | .atHead _ around | .atParameterList _ around | .atTarget around
  | .atFirstArgument _ around | .atClosing _ around => around.length + 1
  | .atParameter _ _ around => around.length + 2
  | .done _ => 0

/-- Whether a reader is where it is before the first token. -/
def isStart : Reader → Bool
  | .atForm [] => true
  | _ => false

/-- A reader outside all parentheses is at its start or at its end. -/
theorem isStart_or_done {reader : Reader} (closed : reader.depth = 0) :
    reader.isStart = true ∨ ∃ form, reader = .done form := by
  cases reader with
  | atForm around =>
      rw [List.eq_nil_of_length_eq_zero closed]
      exact .inl rfl
  | done form => exact .inr ⟨form, rfl⟩
  | atHead | atParameterList | atParameter | atTarget | atFirstArgument
  | atClosing => contradiction

/-- What a token leads to: so many parentheses are open, and the start is left behind. -/
structure Advances (depth : Int) (next : Reader) : Prop where
  depth : (next.depth : Int) = depth
  leaves : next.isStart = false

theorem deliver_advances (form : Form) (around : List Gap) :
    Advances around.length (deliver form around) := by
  cases around with
  | nil => exact ⟨rfl, rfl⟩
  | cons gap around =>
      rw [deliver]
      cases gap.fill form with
      | «open» gap => exact ⟨rfl, rfl⟩
      | complete form => exact ⟨rfl, rfl⟩

theorem afterHead_advances (opening : Position) (head : Identifier)
    (around : List Gap) :
    Advances (around.length + 1) (afterHead opening head around) := by
  unfold afterHead
  split
  · exact ⟨rfl, rfl⟩
  · exact ⟨rfl, rfl⟩
  · exact ⟨rfl, rfl⟩
  · exact ⟨rfl, rfl⟩
  · exact ⟨rfl, rfl⟩
  · split
    · exact ⟨rfl, rfl⟩
    · exact ⟨rfl, rfl⟩

theorem closeInnermost_advances {token : Token} {around : List Gap}
    {next : Reader} (taken : closeInnermost token around = .ok next) :
    Advances (around.length - 1) next := by
  unfold closeInnermost at taken
  split at taken
  · contradiction
  · rename_i gap around
    split at taken
    · rename_i form closes
      cases taken
      have advances := deliver_advances form around
      rw [List.length_cons, Nat.cast_add, Nat.cast_one, Int.add_sub_cancel]
      exact advances
    · contradiction

theorem stepForm_advances {token : Token} {around : List Gap} {next : Reader}
    (taken : stepForm token around = .ok next) :
    Advances (around.length + token.kind.weight) next := by
  unfold stepForm at taken
  split at taken
  · rename_i isOpening
    cases taken
    rw [isOpening]
    exact ⟨rfl, rfl⟩
  · rename_i isClosing
    rw [isClosing]
    exact closeInnermost_advances taken
  · rename_i isName
    cases taken
    rw [isName, TokenKind.weight, Int.add_zero]
    exact deliver_advances _ around
  all_goals
    rename_i isLiteral
    rcases exists_of_map_eq_ok taken with ⟨value, -, rfl⟩
    rw [isLiteral, TokenKind.weight, Int.add_zero]
    exact deliver_advances _ around

/-- A token changes the open parentheses of a reader as it changes those of a source. -/
theorem step_advances {reader next : Reader} {token : Token}
    (taken : reader.step token = .ok next) :
    Advances (reader.depth + token.kind.weight) next := by
  cases reader with
  | atForm around => exact stepForm_advances taken
  | atFirstArgument name around => exact stepForm_advances taken
  | done form => contradiction
  | atHead opening around =>
      simp only [step] at taken
      split at taken
      · rename_i isName
        cases taken
        rw [isName]
        exact afterHead_advances opening _ around
      · contradiction
  | atParameterList opening around =>
      simp only [step] at taken
      split at taken
      · rename_i isOpening
        cases taken
        rw [isOpening]
        exact ⟨rfl, rfl⟩
      · contradiction
  | atParameter opening parameters around =>
      simp only [step] at taken
      split at taken
      · rename_i isName
        cases taken
        rw [isName]
        exact ⟨rfl, rfl⟩
      · rename_i isClosing
        cases taken
        rw [isClosing]
        refine ⟨?_, rfl⟩
        simp only [depth, List.length_cons, TokenKind.weight]
        omega
      · contradiction
  | atTarget around =>
      simp only [step] at taken
      split at taken
      · rename_i isName
        cases taken
        rw [isName]
        exact ⟨rfl, rfl⟩
      · contradiction
  | atClosing form around =>
      simp only [step] at taken
      split at taken
      · rename_i isClosing
        cases taken
        have advances := deliver_advances form around
        rw [isClosing, depth, TokenKind.weight, Nat.cast_add, Nat.cast_one,
          Int.add_neg_cancel_right]
        exact advances
      · contradiction

/-- Reading tokens opens just as many parentheses as the tokens leave open. -/
theorem run_advances {reader last : Reader} {tokens : List Token}
    (someTokens : tokens ≠ []) (ran : reader.run tokens = .ok last) :
    Advances (reader.depth + balance tokens) last := by
  induction tokens generalizing reader with
  | nil => contradiction
  | cons token tokens ih =>
      rcases taken : reader.step token with error | next
      · rw [run, taken] at ran
        contradiction
      · rw [run_cons taken] at ran
        have advances := step_advances taken
        rw [balance_cons, ← Int.add_assoc, ← advances.depth]
        by_cases noTokens : tokens = []
        · subst noTokens
          cases ran
          exact ⟨by simp [balance, countKind], advances.leaves⟩
        · exact ih noTokens ran

end Reader

/-! ## Sources -/

/-- A source has no tokens exactly if it is blanks and comments throughout. -/
theorem tokenize_eq_nil_iff {source : String} :
    tokenize source = .ok [] ↔ IsGap true source.toList := by
  constructor
  · intro read
    have lexed := lexed_of_tokenizeFrom read
    generalize source.toList = text at lexed ⊢
    cases lexed with
    | done isGap => exact isGap
  · intro isGap
    have lexed : Lexed .start 0 source.toList [] := .done isGap
    exact lexed.tokenizeFrom_eq

section Tokens

variable {source : String} {tokens : List Token}
variable (read : tokenize source = .ok tokens) (someTokens : tokens ≠ [])
include read someTokens

/-- A reader that takes all tokens of a source has read its form. -/
theorem done_of_tokenize {reader : Reader}
    (ran : Reader.start.run tokens = .ok reader) :
    ∃ form, reader = .done form := by
  have balanced := (lexed_of_tokenizeFrom read).balanced.1
  have advances := Reader.run_advances someTokens ran
  have closed : reader.depth = 0 := by
    have counted := advances.depth
    rw [balance, balanced] at counted
    simpa [Reader.start, Reader.depth] using counted
  rcases Reader.isStart_or_done closed with atStart | isDone
  · rw [advances.leaves] at atStart
    contradiction
  · exact isDone

/-- What is wrong with the tokens of a source is wrong with one of them. -/
theorem exists_blamed_of_tokenize {error : Error}
    (refused : Form.ofTokens tokens = .error error) :
    ∃ token ∈ tokens, error.Blames token := by
  rcases Form.ofTokens_refusal_cases refused with
    ⟨front, token, behind, rfl, -, -, refusal⟩ | ⟨reader, ran, unfinished, -⟩
  · exact ⟨token, List.mem_append_right front List.mem_cons_self,
      refusal.blames⟩
  · rcases done_of_tokenize read someTokens ran with ⟨form, rfl⟩
    contradiction

end Tokens

theorem Cursor.Stops.placed {cursor : Cursor} {error : Error}
    (stops : Stops cursor error) :
    error.position?.isSome ∧ error.cause.code ≠ .unexpectedEnd := by
  cases stops with
  | unclosed | unmatched => exact ⟨rfl, nofun⟩
  | unreadable isGap notBlank notComment unreadable =>
      cases unreadable <;> exact ⟨rfl, nofun⟩

/-- A run without tokens ends at once. -/
theorem interpret_of_no_tokens {source : String}
    (read : tokenize source = .ok []) (host : Host) (depth : Nat)
    (scope : ScopeId) (world : World) :
    interpret host depth scope source world =
      .failed ⟨.expected .form none, none⟩ (world.record (.lexed 0)) :=
  interpret_of_unparsed read rfl

/--
A run of a source with tokens, or of one that cannot be read, fails at some
place; and with the code for a source that ends too early only if a native
brings it up.
-/
theorem interpret_placed {host : Host} {depth : Nat} {scope : ScopeId}
    {source : String} {world after : World} {error : Error}
    (notEmpty : tokenize source ≠ .ok [])
    (fails : interpret host depth scope source world = .failed error after) :
    error.position?.isSome ∧
      (host.Avoids .unexpectedEnd → error.cause.code ≠ .unexpectedEnd) := by
  rcases lexed : tokenize source with fault | tokens
  · rw [interpret_of_unlexed lexed] at fails
    cases fails
    rcases Cursor.exists_stop lexed with ⟨tokens, last, reads, stops⟩
    exact ⟨stops.placed.1, fun _ => stops.placed.2⟩
  · have someTokens : tokens ≠ [] := by
      rintro rfl
      exact notEmpty lexed
    rcases parsed : Form.ofTokens tokens with fault | form
    · rw [interpret_of_unparsed lexed parsed] at fails
      cases fails
      rcases exists_blamed_of_tokenize lexed someTokens parsed with
        ⟨token, -, blames⟩
      exact ⟨by rw [blames.position]; rfl, fun _ => blames.code_ne⟩
    · rw [interpret_of_parsed lexed parsed] at fails
      exact ⟨evaluate_placed host fails,
        fun avoids => evaluate_code_ne avoids rfl fails⟩

/--
A run says that its source ends too early exactly if the source has no tokens,
that is, holds only blanks and comments; and this is the one error of a run
that has no place, whatever natives there are.  The natives must not bring up
the code themselves, as those of the language never do.  Once there are
tokens, a reader of forms that takes them all has read its form, so none is
ever left waiting for one more.
-/
theorem runs_end_early_without_tokens (source : String) :
    (tokenize source = .ok [] ↔ IsGap true source.toList) ∧
    Host.none.Avoids .unexpectedEnd ∧
    (∀ host depth scope world,
      (host.Avoids .unexpectedEnd →
        ((∃ error after,
            interpret host depth scope source world = .failed error after ∧
              error.cause.code = .unexpectedEnd) ↔
          tokenize source = .ok [])) ∧
      ((∃ error after,
          interpret host depth scope source world = .failed error after ∧
            error.position? = none) ↔
        tokenize source = .ok []) ∧
      (tokenize source = .ok [] →
        interpret host depth scope source world =
          .failed ⟨.expected .form none, none⟩ (world.record (.lexed 0)))) ∧
    ∀ tokens, tokenize source = .ok tokens → tokens ≠ [] →
      (∀ reader, Reader.start.run tokens = .ok reader →
        ∃ form, reader = .done form) ∧
      ∀ wanted position?,
        Form.ofTokens tokens ≠ .error ⟨.expected wanted none, position?⟩ := by
  refine ⟨tokenize_eq_nil_iff, Host.none_avoids rfl, ?_, ?_⟩
  · intro host depth scope world
    refine ⟨fun avoids => ⟨?_, ?_⟩, ⟨?_, ?_⟩, fun read =>
      interpret_of_no_tokens read host depth scope world⟩
    · rintro ⟨error, after, fails, tooEarly⟩
      by_contra notEmpty
      exact (interpret_placed notEmpty fails).2 avoids tooEarly
    · intro read
      exact ⟨_, _, interpret_of_no_tokens read host depth scope world, rfl⟩
    · rintro ⟨error, after, fails, unplaced⟩
      by_contra notEmpty
      have placed := (interpret_placed notEmpty fails).1
      rw [unplaced] at placed
      contradiction
    · intro read
      exact ⟨_, _, interpret_of_no_tokens read host depth scope world, rfl⟩
  · intro tokens read someTokens
    refine ⟨fun reader ran => done_of_tokenize read someTokens ran, ?_⟩
    intro wanted position? refused
    rcases exists_blamed_of_tokenize read someTokens refused with
      ⟨token, -, blames⟩
    exact blames.code_ne rfl

/-- A comment alone, and one inside a call. -/
theorem runs_end_early_without_tokens_comment :
    let call : List Token :=
      [⟨.opening, ⟨1, 1⟩⟩, ⟨.name "f", ⟨1, 2⟩⟩, ⟨.closing, ⟨2, 1⟩⟩]
    tokenize "; (\n" = .ok [] ∧
      (∃ error after,
        interpret Host.none 2 0 "; (\n" (World.empty.addRoot .keeping) =
            .failed error after ∧
          error.cause.code = .unexpectedEnd) ∧
      tokenize "(f ; (\n)" = .ok call ∧ call ≠ [] ∧
      ∀ wanted position?,
        Form.ofTokens call ≠ .error ⟨.expected wanted none, position?⟩ := by
  intro call
  have noTokens : tokenize "; (\n" = .ok [] := by
    cbv
  have read : tokenize "(f ; (\n)" = .ok call := by
    cbv
  have someTokens : call ≠ [] := by
    decide
  rcases runs_end_early_without_tokens "; (\n" with ⟨-, avoids, runs, -⟩
  rcases runs_end_early_without_tokens "(f ; (\n)" with ⟨-, -, -, parses⟩
  exact ⟨noTokens, ((runs _ _ _ _).1 avoids).mpr noTokens, read, someTokens,
    (parses call read someTokens).2⟩

/-- The embedding program that supplies natives which interpret their argument. -/
def Host.interpreting : Host := fun key evaluator _ scope arguments =>
  match arguments with
  | [.string source] => evaluator.interpret scope source
  | _ => Run.fail (.unlocated (.unbound key))

/--
A native of an embedding program may bring the code up itself: one that
interprets its argument, called with a source without tokens.
-/
theorem natives_can_end_early :
    tokenize "(eval \"\")" =
      .ok [⟨.opening, ⟨1, 1⟩⟩, ⟨.name "eval", ⟨1, 2⟩⟩,
        ⟨⟨.string, "\"\""⟩, ⟨1, 7⟩⟩, ⟨.closing, ⟨1, 9⟩⟩] ∧
      ∃ after,
        interpret Host.interpreting 3 0 "(eval \"\")"
            ((World.empty.addRoot .keeping).assign 0 "eval"
              (.callable (.native "eval" (.foreign "eval")))) =
          .failed (.located (.expected .form none) ⟨1, 2⟩) after := by
  constructor
  · cbv
  · refine ⟨?after, ?runs⟩
    case runs =>
      cbv
      rfl

end ScopedLisp
