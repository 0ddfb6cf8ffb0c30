import ScopedLisp.Proofs.JoinedSources
import ScopedLisp.Proofs.NumberBoundaries
import ScopedLisp.Proofs.StringLiterals

/-!
# The first fault of a source

A source is refused at the first place where the reader stops.  Three things
follow, although every reader looks at characters behind its token.

What was read in front of that place is read in the same way when the source
ends there: a token that was cut off stays what it is when the text behind it
is cut short anywhere (`CutsOff.shorten`, `Cursor.Reads.shorten`).  The fault
is there in the text behind that place alone.  And parentheses that are left
open are the only fault of their source: when they are closed on a line of
their own, it is read (`refused_at_first_fault`).
-/

namespace ScopedLisp

/-! ## Cutting short what follows a token -/

theorem startsWith_cutShort {property : Char → Bool} {text shorter : List Char}
    (isPrefix : shorter <+: text) (ends : startsWith property text = false) :
    startsWith property shorter = false := by
  cases shorter with
  | nil => rfl
  | cons character shorter =>
      rcases isPrefix with ⟨more, rfl⟩
      exact ends

/-- A text that is cut short behind its front starts as the whole text does. -/
theorem append_isPrefix_of_cut {text front rest shorter : List Char}
    (parts : front ++ rest = text) (isPrefix : shorter <+: rest) :
    front ++ shorter <+: text := by
  subst parts
  exact (List.prefix_append_right_inj front).mpr isPrefix

theorem IsLongestNumber.cutShort {number text shorter : List Char}
    (isLongest : IsLongestNumber number text) (isNumber : number <+: shorter)
    (isPrefix : shorter <+: text) : IsLongestNumber number shorter where
  isNumber := isLongest.isNumber
  isPrefix := isNumber
  longest other isOther inShorter :=
    isLongest.longest other isOther (inShorter.trans isPrefix)

theorem startsNumber_cutShort {text shorter : List Char}
    (isPrefix : shorter <+: text) (notNumber : startsNumber text = false) :
    startsNumber shorter = false := by
  rcases isPrefix with ⟨more, rfl⟩
  refine Bool.eq_false_iff.mpr fun starts => ?_
  rw [startsNumber_append starts] at notNumber
  contradiction

/-- A word ends where its text is cut short. -/
theorem readWord_append {word shorter : List Char}
    (isName : ∀ character ∈ word, isNameCharacter character = true)
    (ends : startsWith isNameCharacter shorter = false) :
    readWord (word ++ shorter) =
      ⟨wordKind (String.ofList word), word, shorter⟩ := by
  have taken : shorter.takeWhile isNameCharacter = [] := by
    cases shorter with
    | nil => rfl
    | cons character shorter =>
        exact List.takeWhile_cons_of_neg (Bool.eq_false_iff.mp ends)
  have left : shorter.dropWhile isNameCharacter = shorter := by
    cases shorter with
    | nil => rfl
    | cons character shorter =>
        exact List.dropWhile_cons_of_neg (Bool.eq_false_iff.mp ends)
  simp only [readWord, List.takeWhile_append_of_pos isName,
    List.dropWhile_append_of_pos isName, taken, left, List.append_nil]

/-- A word stays the same word when the text behind it is cut short. -/
theorem CutsOff.word_cutShort {first : Char} {text shorter : List Char}
    (notNumber : startsNumber (first :: text) = false)
    (starts : isNameStart first = true)
    (isPrefix : shorter <+: (readWord (first :: text)).rest) :
    CutsOff first (text.takeWhile isNameCharacter ++ shorter)
      ⟨(readWord (first :: text)).kind, (readWord (first :: text)).text,
        shorter⟩ := by
  have inName : isNameCharacter first = true := by
    simp [isNameCharacter, starts]
  have name : (first :: text).takeWhile isNameCharacter =
      first :: text.takeWhile isNameCharacter :=
    List.takeWhile_cons_of_pos inName
  have isName : ∀ character ∈ (first :: text).takeWhile isNameCharacter,
      isNameCharacter character = true :=
    List.all_eq_true.mp List.all_takeWhile
  have ends : startsWith isNameCharacter shorter = false :=
    startsWith_cutShort isPrefix (startsWith_dropWhile _ (first :: text))
  have inText : (first :: text).takeWhile isNameCharacter ++ shorter <+:
      first :: text :=
    append_isPrefix_of_cut List.takeWhile_append_dropWhile isPrefix
  have cut : CutsOff first (text.takeWhile isNameCharacter ++ shorter) _ :=
    .word (startsNumber_cutShort (by rwa [name] at inText) notNumber) starts
  rwa [← List.cons_append, ← name, readWord_append isName ends] at cut

/-- A token stays what it is when the text behind it is cut short. -/
theorem CutsOff.shorten {first : Char} {text shorter : List Char}
    {piece : Piece} (cuts : CutsOff first text piece)
    (isPrefix : shorter <+: piece.rest) :
    ∃ first' behind, CutsOff first' behind ⟨piece.kind, piece.text, shorter⟩ := by
  cases cuts with
  | opening => exact ⟨'(', shorter, .opening⟩
  | closing => exact ⟨')', shorter, .closing⟩
  | string split =>
      rcases isStringBody_of_splitString? split with ⟨inner, isBody, rfl⟩
      exact ⟨'"', _, .string (isBody.splitString?_eq shorter)⟩
  | @hash letter rest isLetter ends =>
      exact ⟨'#', letter :: shorter,
        .hash isLetter (startsWith_cutShort isPrefix ends)⟩
  | number starts ends =>
      have inText :=
        append_isPrefix_of_cut (splitNumber_append (first :: text)) isPrefix
      have isLongest := (isLongestNumber_splitNumber starts).cutShort
        (List.prefix_append _ shorter) inText
      exact isLongest.exists_cutsOff (startsWith_cutShort isPrefix ends)
  | word notNumber starts =>
      exact ⟨_, _, .word_cutShort notNumber starts isPrefix⟩

namespace Cursor

variable {first last : Cursor} {tokens : List Token}

/--
The tokens between two cursors are read in the same way when the source is cut
short anywhere behind the last of them.
-/
theorem Reads.shorten (reads : Reads first tokens last) {shorter : List Char}
    (isPrefix : shorter <+: last.rest) :
    ∃ front, first.rest = front ++ last.rest ∧
      last.position = first.position.advance front ∧
      Reads ⟨first.position, first.depth, front ++ shorter⟩ tokens
        ⟨last.position, last.depth, shorter⟩ := by
  induction reads with
  | here => exact ⟨[], rfl, rfl, .here _⟩
  | @token position depth next gap behind character piece tokens last isGap cuts
      counted later ih =>
      -- What stands behind this token is the later ones and what the cut leaves.
      rcases ih isPrefix with ⟨front, covers, place, reads⟩
      have inRest : front ++ shorter <+: piece.rest :=
        append_isPrefix_of_cut covers.symm isPrefix
      rcases cuts.shorten inRest with ⟨first', behind', cuts'⟩
      refine ⟨gap ++ (piece.text ++ front), ?_, ?_, ?_⟩
      · simp [show piece.rest = front ++ last.rest from covers]
      · rw [place, Position.advance_append, Position.advance_append]
      · have token := Reads.token isGap cuts' counted reads
        simpa only [List.append_assoc] using token

/-- The same tokens are read when the source goes on, on a line of its own. -/
theorem Reads.joinLine (reads : Reads first tokens last) (more : List Char) :
    Reads ⟨first.position, first.depth, first.rest ++ '\n' :: more⟩ tokens
      ⟨last.position, last.depth, last.rest ++ '\n' :: more⟩ := by
  induction reads with
  | here => exact .here _
  | token isGap cuts counted later ih =>
      have token := Reads.token isGap (cuts.stop rfl more) counted ih
      simpa only [List.append_assoc] using token

end Cursor

/-! ## Closing what is open -/

/-- So many closing parentheses from a position on. -/
def closings (position : Position) : Nat → List Token
  | 0 => []
  | count + 1 =>
    ⟨⟨.closeParen, ")"⟩, position⟩ :: closings (position.next ')') count

theorem lexed_closings (position : Position) (count : Nat) :
    Lexed position count (List.replicate count ')')
      (closings position count) := by
  induction count generalizing position with
  | zero => exact .done .empty
  | succ count ih =>
      have token : Lexed position (count + 1)
          ([] ++ ([')'] ++ List.replicate count ')'))
          (⟨⟨.closeParen, String.ofList [')']⟩, position⟩ ::
            closings (position.next ')') count) :=
        .token .empty .closing rfl (ih (position.next ')'))
      exact token

theorem countKind_closings (position : Position) (count : Nat) :
    countKind .closeParen (closings position count) = count ∧
      countKind .openParen (closings position count) = 0 := by
  induction count generalizing position with
  | zero => exact ⟨rfl, rfl⟩
  | succ count ih =>
      rcases ih (position.next ')') with ⟨closed, opened⟩
      simp [closings, countKind_cons, Token.kind, closed, opened]

theorem countKind_append (kind : TokenKind) (tokens more : List Token) :
    countKind kind (tokens ++ more) =
      countKind kind tokens + countKind kind more :=
  List.countP_append

/-- A source with its open parentheses closed on the next line. -/
def closeAll (source : String) (count : Nat) : String :=
  source ++ "\n" ++ String.ofList (List.replicate count ')')

theorem toList_closeAll (source : String) (count : Nat) :
    (closeAll source count).toList =
      source.toList ++ '\n' :: List.replicate count ')' := by
  simp [closeAll]

/-- Behind everything that is left of a source is its end. -/
theorem advance_last {source : String} {tokens : List Token}
    {position : Position} {depth : Nat} {rest : List Char}
    (reads : Cursor.Reads (.start source) tokens ⟨position, depth, rest⟩) :
    position.advance rest = Position.start.advance source.toList := by
  rcases reads.exists_front with ⟨front, covers, place⟩
  rw [show source.toList = front ++ rest from covers, Position.advance_append,
    show position = Position.start.advance front from place]

/-- Where only parentheses are left open, closing them is enough. -/
theorem tokenize_closeAll {source : String} {tokens : List Token}
    {position : Position} {depth : Nat} {gap : List Char}
    (reads : Cursor.Reads (.start source) tokens ⟨position, depth, gap⟩)
    (isGap : IsGap true gap) :
    tokenize (closeAll source depth) =
        .ok (tokens ++
          closings ⟨(Position.start.advance source.toList).line + 1, 1⟩ depth) ∧
      countKind .openParen tokens = countKind .closeParen tokens + depth := by
  let behind : Position := ⟨(Position.start.advance source.toList).line + 1, 1⟩
  have atLine : position.advance (gap ++ ['\n']) = behind := by
    rw [Position.advance_append, advance_last reads, Position.advance_cons,
      Position.advance_nil, Position.next, if_pos rfl]
  have lexed : Lexed position depth
      ((gap ++ ['\n']) ++ List.replicate depth ')') (closings behind depth) :=
    .afterGap isGap.newline (by
      rw [atLine]
      exact lexed_closings behind depth)
  rw [List.append_assoc] at lexed
  have read : tokenize (closeAll source depth) =
      .ok (tokens ++ closings behind depth) := by
    have joined := (reads.joinLine (List.replicate depth ')')).tokens_eq
    simp only [Cursor.tokens, Cursor.start] at joined
    rw [tokenize, toList_closeAll]
    refine joined.trans ?_
    rw [← List.singleton_append, lexed.tokenizeFrom_eq]
    rfl
  -- A source that is read is balanced, and its last tokens close what the others left open.
  have balanced := (lexed_of_tokenizeFrom read).balanced.1
  rw [countKind_append, countKind_append, (countKind_closings _ _).1,
    (countKind_closings _ _).2] at balanced
  exact ⟨read, by omega⟩

/-! ## The first fault -/

/-- Any gap may be the last one. -/
theorem IsGap.last {gap : List Char} (isGap : IsGap false gap) :
    IsGap true gap := by
  simpa using isGap.append (.empty : IsGap true [])

/-- What is read of a source that ends in a gap depends on what is open there. -/
theorem tokenize_of_reads {source : String} {tokens : List Token}
    {position : Position} {depth : Nat} {gap : List Char}
    (reads : Cursor.Reads (.start source) tokens ⟨position, depth, gap⟩)
    (isGap : IsGap true gap) :
    (depth = 0 ∧ tokenize source = .ok tokens) ∨
      (depth ≠ 0 ∧ tokenize source =
        .error (.located (.unclosed depth) (position.advance gap))) := by
  by_cases noneOpen : depth = 0
  · subst noneOpen
    exact .inl ⟨rfl, Cursor.tokens_eq_ok_iff.mpr ⟨_, reads, rfl, isGap⟩⟩
  · exact .inr ⟨noneOpen, Cursor.tokens_eq_error_iff.mpr
      ⟨_, _, reads, .unclosed isGap noneOpen⟩⟩

/-- What is in front of a gap and what is behind it, as sources of their own. -/
theorem exists_front_source {source : String} {tokens : List Token}
    {position : Position} {depth : Nat} {gap behind : List Char}
    (reads : Cursor.Reads (.start source) tokens
      ⟨position, depth, gap ++ behind⟩) :
    ∃ front : String, source = front ++ String.ofList behind ∧
      position.advance gap = Position.start.advance front.toList ∧
      Cursor.Reads (.start front) tokens ⟨position, depth, gap⟩ := by
  rcases reads.shorten (List.prefix_append gap behind) with
    ⟨front, covers, place, shortened⟩
  refine ⟨String.ofList (front ++ gap), ?_, ?_, ?_⟩
  · rw [← String.toList_inj, String.toList_append, String.toList_ofList,
      String.toList_ofList, List.append_assoc]
    exact covers
  · rw [String.toList_ofList, Position.advance_append,
      show position = Position.start.advance front from place]
  · rw [Cursor.start, String.toList_ofList]
    exact shortened

/-- A fault at the very start of a source is what the source is refused for. -/
theorem tokenize_of_stops {source : List Char} {error : Error}
    (stops : Cursor.Stops ⟨.start, 0, source⟩ error) :
    tokenize (String.ofList source) = .error error := by
  rw [tokenize, String.toList_ofList]
  exact stops.tokens_eq

theorem Unreadable.cause_ne {first : Char} {text : List Char} {cause : Cause}
    (unreadable : Unreadable first text cause) :
    (∀ count, cause ≠ .unclosed count) ∧ cause ≠ .unmatchedClose := by
  cases unreadable <;> exact ⟨nofun, nofun⟩

/--
A source that is refused has its first fault where the error is reported.

If parentheses are left open, the error is reported at the end of the source
with their number, by which the opening ones among its tokens outnumber the
closing ones.  There is no other fault: with so many closing parentheses on the
next line the source is read.

Otherwise the source falls into two parts at the place of the error.  The part
in front is read as a source of its own, except that parentheses may be open at
its end; none are if the error is a closing parenthesis too many.  The part
behind is refused for the same cause, at its start.
-/
theorem refused_at_first_fault {source : String} {error : Error}
    (refused : tokenize source = .error error) :
    (∃ count tokens, 0 < count ∧
      error = .located (.unclosed count)
        (Position.start.advance source.toList) ∧
      countKind .openParen tokens = countKind .closeParen tokens + count ∧
      tokenize (closeAll source count) =
        .ok (tokens ++ closings
          ⟨(Position.start.advance source.toList).line + 1, 1⟩ count)) ∨
    ∃ front behind cause, source = front ++ behind ∧
      (∀ count, cause ≠ .unclosed count) ∧
      error = .located cause (Position.start.advance front.toList) ∧
      tokenize behind = .error (.located cause .start) ∧
      ((∃ tokens, tokenize front = .ok tokens) ∨
        cause ≠ .unmatchedClose ∧ ∃ count, tokenize front =
          .error (.located (.unclosed count)
            (Position.start.advance front.toList))) := by
  rcases Cursor.exists_stop refused with ⟨tokens, last, reads, stops⟩
  change Cursor.Reads (.start source) tokens last at reads
  cases stops with
  | @unclosed position depth gap isGap someOpen =>
      rcases tokenize_closeAll reads isGap with ⟨read, counted⟩
      refine .inl ⟨depth, tokens, Nat.pos_of_ne_zero someOpen, ?_, counted,
        read⟩
      rw [advance_last reads]
  | @unreadable position depth gap behind first cause isGap notBlank notComment
      unreadable =>
      rcases exists_front_source reads with ⟨front, parts, place, shortened⟩
      refine .inr ⟨front, _, cause, parts, unreadable.cause_ne.1, ?_, ?_, ?_⟩
      · rw [place]
      · exact tokenize_of_stops
          (.unreadable .empty notBlank notComment unreadable)
      · rcases tokenize_of_reads shortened isGap.last with
          ⟨-, read⟩ | ⟨-, unclosed⟩
        · exact .inl ⟨tokens, read⟩
        · rw [place] at unclosed
          exact .inr ⟨unreadable.cause_ne.2, depth, unclosed⟩
  | @unmatched position gap behind isGap =>
      rcases exists_front_source reads with ⟨front, parts, place, shortened⟩
      refine .inr ⟨front, _, .unmatchedClose, parts, by rintro _ ⟨⟩, ?_, ?_,
        .inl ?_⟩
      · rw [place]
      · exact tokenize_of_stops (.unmatched .empty)
      · rcases tokenize_of_reads shortened isGap.last with
          ⟨-, read⟩ | ⟨someOpen, -⟩
        · exact ⟨tokens, read⟩
        · exact absurd rfl someOpen

/-- A string that is never closed behind an open parenthesis, and two open parentheses. -/
theorem refused_at_first_fault_two :
    (tokenize "(1\n\"(" = .error (.located .unterminatedString ⟨2, 1⟩) ∧
      ∃ front behind, "(1\n\"(" = front ++ behind ∧
        Position.start.advance front.toList = ⟨2, 1⟩ ∧
        tokenize behind = .error (.located .unterminatedString .start) ∧
        ((∃ tokens, tokenize front = .ok tokens) ∨
          ∃ count, tokenize front =
            .error (.located (.unclosed count) ⟨2, 1⟩))) ∧
    tokenize "(f (;" = .error (.located (.unclosed 2) ⟨1, 6⟩) ∧
      ∃ tokens, countKind .openParen tokens = countKind .closeParen tokens + 2 ∧
        tokenize "(f (;\n))" = .ok (tokens ++ closings ⟨2, 1⟩ 2) := by
  have unread :
      tokenize "(1\n\"(" = .error (.located .unterminatedString ⟨2, 1⟩) := by
    cbv
  have leftOpen : tokenize "(f (;" = .error (.located (.unclosed 2) ⟨1, 6⟩) := by
    cbv
  refine ⟨⟨unread, ?_⟩, leftOpen, ?_⟩
  · rcases refused_at_first_fault unread with
      ⟨count, tokens, -, same, -⟩ |
        ⟨front, behind, cause, parts, -, same, alone, before⟩
    · injection same with sameCause
      contradiction
    · injection same with sameCause samePlace
      have place := Option.some.inj samePlace
      subst sameCause
      refine ⟨front, behind, parts, place.symm, alone, ?_⟩
      rw [place]
      exact before.imp id And.right
  · rcases refused_at_first_fault leftOpen with
      ⟨count, tokens, -, same, counted, read⟩ |
        ⟨front, behind, cause, -, notUnclosed, same, -⟩
    · injection same with sameCause
      injection sameCause with sameCount
      subst sameCount
      exact ⟨tokens, counted, read⟩
    · injection same with sameCause
      exact absurd sameCause.symm (notUnclosed 2)

end ScopedLisp
