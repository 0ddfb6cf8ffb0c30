import ScopedLisp.Proofs.ParenthesisScanner
import ScopedLisp.Proofs.ReadingSteps

/-!
# The scanner agrees with the reader

The dialogue counts parentheses with a scanner of its own, which knows nothing
of tokens.  Between two cursors of a source it counts just what the tokens
there open and close, and so does the reader (`Cursor.Reads.parenDepthFrom_eq`,
`Cursor.Reads.depth_eq`).  Behind the last token that was read the scanner
finds nothing to count, if what is left is a gap or a string that is never
closed.  So the two agree on sources that are read, on sources that leave
parentheses open, and on sources that end inside a string.

Nothing is said here about sources that are refused for another reason: the
scanner goes on behind the place where the reader has stopped.
-/

namespace ScopedLisp

/-! ## Between two cursors -/

namespace Cursor.Reads

variable {first last : Cursor} {tokens : List Token}

/-- The scanner counts the parentheses among the tokens that are read. -/
theorem parenDepthFrom_eq (reads : first.Reads tokens last) :
    parenDepthFrom .code first.rest =
      balance tokens + parenDepthFrom .code last.rest := by
  induction reads with
  | here cursor => exact (Int.zero_add _).symm
  | token isGap cuts counted later ih =>
      rcases isGap.passes with ⟨region, passes, closed⟩
      rw [passes.depth_append, closed rfl, cuts.spells.depth_append, ih,
        balance_cons, Int.add_assoc]

/-- The reader counts the same parentheses. -/
theorem depth_eq (reads : first.Reads tokens last) :
    (last.depth : Int) = first.depth + balance tokens := by
  induction reads with
  | here cursor => exact (Int.add_zero _).symm
  | @token position depth next gap behind character piece _ _ isGap cuts
      counted later ih =>
      have step := depthAfter_eq_some counted
      have weighed : (next : Int) = depth + piece.kind.weight := by
        cases kind : piece.kind <;> simp [kind, TokenKind.weight] at step ⊢ <;>
          omega
      rw [ih, balance_cons, weighed, Int.add_assoc]

end Cursor.Reads

/-! ## Behind the last token -/

theorem IsGap.parenDepthFrom_eq {atEnd : Bool} {gap : List Char}
    (isGap : IsGap atEnd gap) : parenDepthFrom .code gap = 0 := by
  rcases isGap.passes with ⟨region, passes, -⟩
  exact passes.depth

/-- A string that is never closed hides everything behind its quote. -/
theorem parenDepthFrom_unclosed {text : List Char}
    (unclosed : splitString? text = none) : parenDepthFrom .string text = 0 := by
  fun_induction splitString? text with
  | case1 => rfl
  | case2 => contradiction
  | case3 character text ih =>
      have hidden := ih (Option.map_eq_none_iff.mp unclosed)
      rw [parenDepthFrom_cons, parenDepthFrom_cons]
      simpa [Region.weight, Region.next] using hidden
  | case4 character text notQuote notPair ih =>
      have hidden := ih (Option.map_eq_none_iff.mp unclosed)
      rw [parenDepthFrom_cons]
      by_cases isBackslash : character = '\\'
      · rw [eq_nil_of_unpaired notPair isBackslash, isBackslash]
        rfl
      · simpa [Region.weight, Region.next, isBackslash,
          show character ≠ '"' from notQuote] using hidden

/-- Behind a gap, a string that is never closed leaves nothing to count. -/
theorem IsGap.parenDepthFrom_openString {gap behind : List Char}
    (isGap : IsGap false gap) (unclosed : splitString? behind = none) :
    parenDepthFrom .code (gap ++ '"' :: behind) = 0 := by
  rcases isGap.passes with ⟨region, passes, closed⟩
  rw [passes.depth_append, closed rfl, parenDepthFrom_cons]
  simpa [Region.weight, Region.next] using parenDepthFrom_unclosed unclosed

/-! ## Whole sources -/

section Sources

variable {source : String} {tokens : List Token} {last : Cursor}
variable (reads : (Cursor.start source).Reads tokens last)
include reads

/-- What the scanner counts in a source, once it is known for the rest. -/
theorem parenDepth_of_reads (nothingLeft : parenDepthFrom .code last.rest = 0) :
    parenDepth source = balance tokens := by
  have counted := reads.parenDepthFrom_eq
  rw [nothingLeft, Int.add_zero] at counted
  exact counted

theorem parenDepth_of_reads_gap (isLast : IsGap true last.rest) :
    parenDepth source = last.depth := by
  have counted := reads.depth_eq
  rw [parenDepth_of_reads reads isLast.parenDepthFrom_eq, counted]
  exact (Int.zero_add _).symm

end Sources

/--
The scanner and the reader agree.  A source that is read has no parenthesis
open; one that leaves some open has just as many for the scanner; and if a
source ends inside a string, the scanner counts the parentheses among the
tokens in front of the quote that opens the string.
-/
theorem scanner_agrees_with_reader (source : String) :
    (∀ tokens, tokenize source = .ok tokens → parenDepth source = 0) ∧
    (∀ error count, tokenize source = .error error →
      error.cause = .unclosed count →
        0 < count ∧ parenDepth source = count) ∧
    ∀ error, tokenize source = .error error →
      error.cause.code = .unterminatedString →
        ∃ before behind tokens last gap,
          source.toList = before ++ '"' :: behind ∧
          splitString? behind = none ∧
          error.position? = some (Position.start.advance before) ∧
          (Cursor.start source).Reads tokens last ∧
          last.rest = gap ++ '"' :: behind ∧ IsGap false gap ∧
          parenDepth source =
            (countKind .openParen tokens : Int) -
              countKind .closeParen tokens := by
  rw [← Cursor.tokens_start]
  refine ⟨?_, ?_, ?_⟩
  · intro tokens read
    rcases Cursor.tokens_eq_ok_iff.mp read with ⟨last, reads, closed, isLast⟩
    rw [parenDepth_of_reads_gap reads isLast, closed]
    rfl
  · intro error count refused isUnclosed
    rcases Cursor.tokens_eq_error_iff.mp refused with
      ⟨tokens, last, reads, stops⟩
    cases stops with
    | @unclosed position depth gap isGap someOpen =>
        obtain rfl : depth = count := Cause.unclosed.inj isUnclosed
        exact ⟨Nat.pos_of_ne_zero someOpen, parenDepth_of_reads_gap reads isGap⟩
    | unreadable isGap notBlank notComment unreadable =>
        cases unreadable <;> contradiction
    | unmatched => contradiction
  · intro error refused isUnterminated
    rcases Cursor.tokens_eq_error_iff.mp refused with
      ⟨tokens, last, reads, stops⟩
    cases stops with
    | unclosed => contradiction
    | @unreadable position depth gap behind first cause isGap notBlank
        notComment unreadable =>
        cases unreadable with
        | string unclosed =>
            rcases reads.exists_front with ⟨front, covers, place⟩
            refine ⟨front ++ gap, behind, tokens, _, gap, ?_, unclosed, ?_,
              reads, rfl, isGap, ?_⟩
            · rw [List.append_assoc]
              exact covers
            · rw [Position.advance_append]
              exact congrArg (fun start => some (start.advance gap)) place
            · exact parenDepth_of_reads reads
                (isGap.parenDepthFrom_openString unclosed)
        | hash | number | character => contradiction
    | unmatched => contradiction

/--
A quote and a semicolon directly behind a number, a backslash in front of a
wide character, and a backslash at the end of the source.
-/
theorem scanner_agrees_with_reader_three :
    (tokenize "(1;(" = .error (.located (.unclosed 1) ⟨1, 5⟩) ∧
      0 < 1 ∧ parenDepth "(1;(" = 1) ∧
    (tokenize "(1\"\\é(\");(" =
        .ok [⟨⟨.openParen, "("⟩, ⟨1, 1⟩⟩, ⟨⟨.number, "1"⟩, ⟨1, 2⟩⟩,
          ⟨⟨.string, "\"\\é(\""⟩, ⟨1, 3⟩⟩, ⟨⟨.closeParen, ")"⟩, ⟨1, 8⟩⟩] ∧
      parenDepth "(1\"\\é(\");(" = 0) ∧
    tokenize "(1\"(\\" = .error (.located .unterminatedString ⟨1, 3⟩) ∧
      ∃ before behind tokens last gap,
        "(1\"(\\".toList = before ++ '"' :: behind ∧
        splitString? behind = none ∧
        some ⟨1, 3⟩ = some (Position.start.advance before) ∧
        (Cursor.start "(1\"(\\").Reads tokens last ∧
        last.rest = gap ++ '"' :: behind ∧ IsGap false gap ∧
        parenDepth "(1\"(\\" =
          (countKind .openParen tokens : Int) -
            countKind .closeParen tokens := by
  have leftOpen : tokenize "(1;(" = .error (.located (.unclosed 1) ⟨1, 5⟩) := by
    cbv
  have isRead : tokenize "(1\"\\é(\");(" =
      .ok [⟨⟨.openParen, "("⟩, ⟨1, 1⟩⟩, ⟨⟨.number, "1"⟩, ⟨1, 2⟩⟩,
        ⟨⟨.string, "\"\\é(\""⟩, ⟨1, 3⟩⟩, ⟨⟨.closeParen, ")"⟩, ⟨1, 8⟩⟩] := by
    cbv
  have inString : tokenize "(1\"(\\" =
      .error (.located .unterminatedString ⟨1, 3⟩) := by
    cbv
  exact ⟨⟨leftOpen, (scanner_agrees_with_reader _).2.1 _ _ leftOpen rfl⟩,
    ⟨isRead, (scanner_agrees_with_reader _).1 _ isRead⟩,
    inString, (scanner_agrees_with_reader _).2.2 _ inString rfl⟩

end ScopedLisp
