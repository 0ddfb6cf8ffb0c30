import ScopedLisp.Proofs.SourceReading

/-!
# How far a source is read

A text has a token at its front in one of the ways of `CutsOff`, or it has none
for one of the reasons of `Unreadable`.

A cursor is how far a source has been read: the place, the open parentheses,
and the rest of the source.  `Cursor.Reads` gives the tokens that lie between
two cursors of a source, and `Cursor.Stops` says what the reader may find
behind a gap that it cannot go on from.

A source that is read ends in a gap with all parentheses closed
(`Cursor.tokens_eq_ok_iff`).  A source that is refused has been read up to the
first place where the reader stops, and that place alone decides what is
reported (`Cursor.tokens_eq_error_iff`).
-/

namespace ScopedLisp

/-! ## Texts without a token at their front -/

/-- The reasons why no token can be cut off the front of a text. -/
inductive Unreadable : Char → List Char → Cause → Prop where
  | string {text : List Char} (unclosed : splitString? text = none) :
      Unreadable '"' text .unterminatedString
  | hash {text : List Char}
      (unknown : ∀ letter rest, text = letter :: rest →
        letter = 't' ∨ letter = 'f' →
          startsWith isNameCharacter rest = true) :
      Unreadable '#' text .unknownHash
  | number {first : Char} {text : List Char}
      (starts : startsNumber (first :: text) = true)
      (glued : startsWith isNameStart (splitNumber (first :: text)).2 = true) :
      Unreadable first text
        (.malformedNumber (String.ofList
          ((splitNumber (first :: text)).1 ++
            (splitNumber (first :: text)).2.takeWhile isNameCharacter)))
  | character {first : Char} {text : List Char}
      (notReserved : first ∉ ['(', ')', '"', '#'])
      (notNumber : startsNumber (first :: text) = false)
      (notName : isNameStart first = false) :
      Unreadable first text (.unexpectedCharacter first)

theorem readHash_eq_error {text : List Char} {cause : Cause}
    (refused : readHash text = .error cause) :
    cause = .unknownHash ∧
      ∀ letter rest, text = letter :: rest → letter = 't' ∨ letter = 'f' →
        startsWith isNameCharacter rest = true := by
  cases text with
  | nil =>
      cases refused
      exact ⟨rfl, nofun⟩
  | cons letter rest =>
      rw [readHash] at refused
      split at refused
      · contradiction
      · rename_i unknown
        cases refused
        refine ⟨rfl, ?_⟩
        rintro _ _ ⟨⟩ isLetter
        simpa [isLetter] using unknown

theorem unreadable_of_readLexeme {first : Char} {text : List Char}
    {cause : Cause} (refused : readLexeme first text = .error cause) :
    Unreadable first text cause := by
  rw [readLexeme] at refused
  split at refused
  · contradiction
  rename_i notOpen
  split at refused
  · contradiction
  rename_i notClose
  split at refused
  · subst first
    split at refused
    · contradiction
    · cases refused
      exact .string ‹_›
  rename_i notQuote
  split at refused
  · subst first
    rcases readHash_eq_error refused with ⟨rfl, unknown⟩
    exact .hash unknown
  rename_i notHash
  split at refused
  · rename_i starts
    simp only [readNumber] at refused
    split at refused
    · rename_i glued
      cases refused
      exact .number starts glued
    · contradiction
  rename_i notNumber
  split at refused
  · contradiction
  rename_i notName
  cases refused
  exact .character (by simp [notOpen, notClose, notQuote, notHash])
    (Bool.not_eq_true _ ▸ notNumber) (Bool.not_eq_true _ ▸ notName)

theorem readLexeme_of_unreadable {first : Char} {text : List Char}
    {cause : Cause} (unreadable : Unreadable first text cause) :
    readLexeme first text = .error cause := by
  cases unreadable with
  | string unclosed =>
      rw [readLexeme, if_neg (by decide), if_neg (by decide), if_pos rfl,
        unclosed]
  | hash unknown =>
      rw [readLexeme, if_neg (by decide), if_neg (by decide),
        if_neg (by decide), if_pos rfl]
      cases text with
      | nil => rfl
      | cons letter rest =>
          rw [readHash, if_neg]
          intro known
          simp only [Bool.and_eq_true, Bool.or_eq_true, decide_eq_true_eq,
            Bool.not_eq_true'] at known
          rw [unknown letter rest rfl known.1] at known
          exact absurd known.2 (by decide)
  | number starts glued =>
      rw [readLexeme_of_startsNumber starts]
      simp [readNumber, glued]
  | character notReserved notNumber notName =>
      simp only [List.mem_cons, List.not_mem_nil, or_false, not_or]
        at notReserved
      rcases notReserved with ⟨notOpen, notClose, notQuote, notHash⟩
      rw [readLexeme, if_neg notOpen, if_neg notClose, if_neg notQuote,
        if_neg notHash, if_neg (by simp [notNumber]),
        if_neg (by simp [notName])]

/-! ## Cursors -/

/-- How far a source has been read. -/
structure Cursor where
  position : Position
  depth : Nat
  rest : List Char

namespace Cursor

/-- In front of a whole source. -/
def start (source : String) : Cursor :=
  ⟨.start, 0, source.toList⟩

/-- The tokens of the rest of a source. -/
def tokens (cursor : Cursor) : Except Error (List Token) :=
  tokenizeFrom cursor.position cursor.depth cursor.rest

theorem tokens_start (source : String) :
    (start source).tokens = tokenize source :=
  rfl

/-- The tokens between two cursors, each with a gap in front. -/
inductive Reads : Cursor → List Token → Cursor → Prop where
  | here (cursor : Cursor) : Reads cursor [] cursor
  | token {position : Position} {depth next : Nat}
      {gap behind : List Char} {first : Char} {piece : Piece}
      {tokens : List Token} {last : Cursor} (isGap : IsGap false gap)
      (cuts : CutsOff first behind piece)
      (counted : depthAfter depth piece.kind = some next)
      (later : Reads
        ⟨(position.advance gap).advance piece.text, next, piece.rest⟩ tokens
        last) :
      Reads ⟨position, depth, gap ++ (piece.text ++ piece.rest)⟩
        (⟨⟨piece.kind, String.ofList piece.text⟩, position.advance gap⟩ ::
          tokens) last

/-- What the reader cannot go on from, with the error that it reports. -/
inductive Stops : Cursor → Error → Prop where
  | unclosed {position : Position} {depth : Nat} {gap : List Char}
      (isGap : IsGap true gap) (someOpen : depth ≠ 0) :
      Stops ⟨position, depth, gap⟩
        (.located (.unclosed depth) (position.advance gap))
  | unreadable {position : Position} {depth : Nat}
      {gap behind : List Char} {first : Char} {cause : Cause}
      (isGap : IsGap false gap) (notBlank : isBlank first = false)
      (notComment : first ≠ ';') (unreadable : Unreadable first behind cause) :
      Stops ⟨position, depth, gap ++ first :: behind⟩
        (.located cause (position.advance gap))
  | unmatched {position : Position} {gap behind : List Char}
      (isGap : IsGap false gap) :
      Stops ⟨position, 0, gap ++ ')' :: behind⟩
        (.located .unmatchedClose (position.advance gap))

/-! ## Tokens between cursors -/

namespace Reads

variable {first middle last : Cursor} {tokens more : List Token}

theorem append (reads : Reads first tokens middle)
    (reads' : Reads middle more last) : Reads first (tokens ++ more) last := by
  induction reads with
  | here => exact reads'
  | token isGap cuts counted later ih =>
      exact .token isGap cuts counted (ih reads')

/-- Between the tokens of a list there is a cursor. -/
theorem exists_middle (reads : Reads first (tokens ++ more) last) :
    ∃ middle, Reads first tokens middle ∧ Reads middle more last := by
  induction tokens generalizing first with
  | nil => exact ⟨first, .here first, reads⟩
  | cons token tokens ih =>
      rw [List.cons_append] at reads
      cases reads with
      | token isGap cuts counted later =>
          rcases ih later with ⟨middle, front, back⟩
          exact ⟨middle, .token isGap cuts counted front, back⟩

/-- The text that was read makes up the source with the rest, and ends at the cursor. -/
theorem exists_front (reads : Reads first tokens last) :
    ∃ front, first.rest = front ++ last.rest ∧
      last.position = first.position.advance front := by
  induction reads with
  | here => exact ⟨[], rfl, rfl⟩
  | @token position depth next gap behind character piece _ _ isGap cuts
      counted later ih =>
      rcases ih with ⟨front, covers, place⟩
      refine ⟨gap ++ (piece.text ++ front), ?_, ?_⟩
      · simp [show piece.rest = front ++ _ from covers]
      · rw [place, Position.advance_append, Position.advance_append]

/-- Tokens that were read come in front of the tokens of the rest. -/
theorem tokens_eq (reads : Reads first tokens last) :
    first.tokens = last.tokens.map (tokens ++ ·) := by
  induction reads with
  | here cursor =>
      rcases cursor.tokens with error | tokens <;> rfl
  | token isGap cuts counted later ih =>
      rw [Cursor.tokens, tokenizeFrom_of_cutsOff isGap cuts counted]
      rw [Cursor.tokens] at ih
      rw [ih]
      rcases Cursor.tokens _ with error | tokens <;> rfl

end Reads

/-! ## Sources that are read -/

theorem lexed_iff_reads {position : Position} {depth : Nat}
    {source : List Char} {tokens : List Token} :
    Lexed position depth source tokens ↔
      ∃ last, Reads ⟨position, depth, source⟩ tokens last ∧
        last.depth = 0 ∧ IsGap true last.rest := by
  constructor
  · intro lexed
    induction lexed with
    | done isGap => exact ⟨_, .here _, rfl, isGap⟩
    | token isGap cuts counted later ih =>
        rcases ih with ⟨last, reads, closed, isLast⟩
        exact ⟨last, .token isGap cuts counted reads, closed, isLast⟩
  · rintro ⟨last, reads, closed, isLast⟩
    generalize from' : Cursor.mk position depth source = first at reads
    induction reads generalizing position depth source with
    | here cursor =>
        subst from'
        cases closed
        exact .done isLast
    | token isGap cuts counted later ih =>
        cases from'
        exact .token isGap cuts counted (ih closed isLast rfl)

/-- A source is read if behind some tokens there is a gap and nothing open. -/
theorem tokens_eq_ok_iff {cursor : Cursor} {tokens : List Token} :
    cursor.tokens = .ok tokens ↔
      ∃ last, Reads cursor tokens last ∧ last.depth = 0 ∧
        IsGap true last.rest :=
  tokenizeFrom_eq_ok_iff.trans lexed_iff_reads

/-! ## Sources that are refused -/

/-- What is left behind trivia starts with neither a blank nor a comment. -/
theorem splitTrivia_startsNoGap (text : List Char) :
    (∀ first behind, (splitTrivia text).2 = first :: behind →
      isBlank first = false ∧ first ≠ ';') ∧
    ∀ first behind, (splitComment text).2 = first :: behind →
      isBlank first = false ∧ first ≠ ';' := by
  induction text with
  | nil => exact ⟨nofun, nofun⟩
  | cons character text ih =>
      rcases ih with ⟨trivia, comment⟩
      constructor
      · intro first behind left
        rw [splitTrivia] at left
        split at left
        · exact trivia first behind left
        · rename_i notBlank
          split at left
          · exact comment first behind left
          · rename_i notComment
            cases left
            exact ⟨Bool.not_eq_true _ ▸ notBlank, notComment⟩
      · intro first behind left
        rw [splitComment] at left
        split at left
        · exact trivia first behind left
        · exact comment first behind left

theorem depthAfter_eq_none {depth : Nat} {kind : TokenKind}
    (uncounted : depthAfter depth kind = none) :
    kind = .closeParen ∧ depth = 0 := by
  cases kind <;> simp_all [depthAfter]

theorem Stops.tokens_eq {cursor : Cursor} {error : Error}
    (stops : Stops cursor error) : cursor.tokens = .error error := by
  cases stops with
  | unclosed isGap someOpen =>
      rw [tokens, tokenizeFrom_of_trivia isGap.splitTrivia_eq,
        if_neg someOpen]
  | @unreadable position depth gap behind first cause isGap notBlank notComment
      unreadable =>
      have noGap : splitTrivia (first :: behind) = ([], first :: behind) := by
        rw [splitTrivia, if_neg (by simp [notBlank]), if_neg notComment]
      have skipped := isGap.splitTrivia_before noGap
      simp only [tokens, tokenizeFrom_of_token skipped,
        readLexeme_of_unreadable unreadable]
  | @unmatched position gap behind isGap =>
      have closes : CutsOff ')' behind ⟨.closeParen, [')'], behind⟩ := .closing
      have skipped := isGap.splitTrivia_before closes.splitTrivia_eq
      simp only [tokens, tokenizeFrom_of_token skipped,
        readLexeme_of_cutsOff closes]
      rfl

/-- A source that is refused is read up to a place where the reader stops. -/
theorem exists_stop {position : Position} {depth : Nat} {source : List Char}
    {error : Error}
    (refused : tokenizeFrom position depth source = .error error) :
    ∃ tokens last, Reads ⟨position, depth, source⟩ tokens last ∧
      Stops last error := by
  fun_induction tokenizeFrom position depth source with
  | case1 => contradiction
  | case2 position depth source place atEnd someOpen =>
      cases refused
      rcases gap_of_splitTrivia_end atEnd with ⟨whole, isGap⟩
      refine ⟨[], _, .here _, ?_⟩
      rw [show place = position.advance source by rw [← whole]]
      exact .unclosed isGap someOpen
  | case3 position depth source place first behind split cause unread =>
      cases refused
      rcases gap_of_splitTrivia split with ⟨parts, isGap⟩
      rcases (splitTrivia_startsNoGap source).1 first behind split with
        ⟨notBlank, notComment⟩
      refine ⟨[], _, .here _, ?_⟩
      have stops : Stops ⟨position, depth, _⟩ (.located cause place) :=
        .unreadable isGap notBlank notComment (unreadable_of_readLexeme unread)
      rwa [parts] at stops
  | case4 position depth source place first behind split piece read uncounted =>
      cases refused
      rcases gap_of_splitTrivia split with ⟨parts, isGap⟩
      rcases depthAfter_eq_none uncounted with ⟨closes, rfl⟩
      refine ⟨[], _, .here _, ?_⟩
      have spelled : piece.text = [')'] := by
        have spells := (readLexeme_cutsOff read).spells
        rwa [closes] at spells
      have whole := readLexeme_append read
      rw [spelled] at whole
      obtain rfl : ')' = first := (List.cons.inj whole).1
      have stops : Stops ⟨position, 0, _ ++ ')' :: behind⟩
          (.located .unmatchedClose place) := .unmatched isGap
      rwa [parts] at stops
  | case5 position depth source place first behind split piece read next counted
      token ih =>
      rcases gap_of_splitTrivia split with ⟨parts, isGap⟩
      rcases ih (eq_error_of_map_eq_error refused) with
        ⟨tokens, last, reads, stops⟩
      have reads' : Reads ⟨position, depth, _⟩ (token :: tokens) last :=
        .token isGap (readLexeme_cutsOff read) counted reads
      rw [readLexeme_append read, parts] at reads'
      exact ⟨token :: tokens, last, reads', stops⟩

/-- A source is refused if behind some tokens the reader stops. -/
theorem tokens_eq_error_iff {cursor : Cursor} {error : Error} :
    cursor.tokens = .error error ↔
      ∃ tokens last, Reads cursor tokens last ∧ Stops last error := by
  constructor
  · exact exists_stop
  · rintro ⟨tokens, last, reads, stops⟩
    rw [reads.tokens_eq, stops.tokens_eq]
    rfl

end Cursor

end ScopedLisp
