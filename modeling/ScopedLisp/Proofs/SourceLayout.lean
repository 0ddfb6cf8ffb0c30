import Mathlib
import ScopedLisp.Proofs.LexemeClasses
import ScopedLisp.Token.Stream

/-!
# How tokens lie in their source

`Lexed` says what reading a source does, one token at a time: a gap, a token
cut off behind it, and the rest of the source read from the place behind the
token.  Everything this module says about a list of tokens that was read
follows by induction on `Lexed`.

The source is made up of the gaps and the raw texts of the tokens, in order.
A gap holds nothing but blanks and comments, and only the last gap may end
within a comment.  The place of a token counts the lines and the characters in
front of it, and parentheses never close what is not open.
-/

namespace ScopedLisp

/-! ## Gaps -/

/-- Blanks and comments; only at the end of a source a comment may lack its newline. -/
inductive IsGap : (atEnd : Bool) → List Char → Prop where
  | empty {atEnd : Bool} : IsGap atEnd []
  | blank {atEnd : Bool} {character : Char} {rest : List Char}
      (isBlank : character ∈ [' ', '\t', '\r', '\n'])
      (gap : IsGap atEnd rest) : IsGap atEnd (character :: rest)
  | comment {atEnd : Bool} {text rest : List Char} (oneLine : '\n' ∉ text)
      (gap : IsGap atEnd rest) : IsGap atEnd (';' :: text ++ '\n' :: rest)
  | unfinished {text : List Char} (oneLine : '\n' ∉ text) :
      IsGap true (';' :: text)

/-- A comment goes on for one more character. -/
theorem IsGap.longerComment {atEnd : Bool} {character : Char}
    {text : List Char} (inLine : character ≠ '\n')
    (gap : IsGap atEnd (';' :: text)) :
    IsGap atEnd (';' :: character :: text) := by
  generalize whole : ';' :: text = commented at gap
  cases gap with
  | empty => contradiction
  | blank isBlank gap =>
      rw [← (List.cons.inj whole).1] at isBlank
      simp at isBlank
  | @comment _ inner rest oneLine gap =>
      rw [(List.cons.inj whole).2]
      show IsGap atEnd (';' :: (character :: inner) ++ '\n' :: rest)
      exact .comment (by simp [inLine.symm, oneLine]) gap
  | unfinished oneLine =>
      rw [(List.cons.inj whole).2]
      exact .unfinished (by simp [inLine.symm, oneLine])

theorem isBlank_iff {character : Char} :
    isBlank character = true ↔ character ∈ [' ', '\t', '\r', '\n'] := by
  simp [isBlank, or_assoc]

/-- What is skipped is a gap, and the last gap if nothing is left. -/
theorem splitTrivia_isGap (text : List Char) :
    IsGap (splitTrivia text).2.isEmpty (splitTrivia text).1 ∧
      IsGap (splitComment text).2.isEmpty (';' :: (splitComment text).1) := by
  induction text with
  | nil => exact ⟨.empty, .unfinished (by simp [splitComment])⟩
  | cons character text ih =>
      rcases ih with ⟨trivia, comment⟩
      constructor
      · rw [splitTrivia]
        split
        · rename_i blank
          exact .blank (isBlank_iff.mp blank) trivia
        · split
          · rename_i semicolon
            subst semicolon
            exact comment
          · exact .empty
      · rw [splitComment]
        split
        · rename_i newline
          subst newline
          show IsGap _ (';' :: [] ++ '\n' :: (splitTrivia text).1)
          exact .comment (by simp) trivia
        · rename_i inLine
          exact comment.longerComment inLine

theorem gap_of_splitTrivia_end {source : List Char}
    (split : (splitTrivia source).2 = []) :
    (splitTrivia source).1 = source ∧ IsGap true source := by
  have parts := (splitTrivia_append source).1
  have isGap := (splitTrivia_isGap source).1
  rw [split, List.append_nil] at parts
  rw [split, parts] at isGap
  exact ⟨parts, isGap⟩

/-- What is not trivia has the trivia in front of it as a gap. -/
theorem gap_of_splitTrivia {source behind : List Char} {first : Char}
    (split : (splitTrivia source).2 = first :: behind) :
    (splitTrivia source).1 ++ first :: behind = source ∧
      IsGap false (splitTrivia source).1 := by
  have parts := (splitTrivia_append source).1
  have isGap := (splitTrivia_isGap source).1
  rw [split] at parts isGap
  exact ⟨parts, isGap⟩

/-! ## Places -/

/-- What a text holds behind its last newline. -/
def lastLine (text : List Char) : List Char :=
  text.rtakeWhile (· ≠ '\n')

theorem line_advance_start (text : List Char) :
    (Position.start.advance text).line = 1 + text.count '\n' := by
  induction text using List.reverseRecOn with
  | nil => rfl
  | append_singleton text character ih =>
      rw [Position.advance_append, Position.advance_cons, Position.advance_nil,
        Position.next]
      by_cases newline : character = '\n'
      · simp [newline, ih]
        omega
      · simp [newline, ih]

theorem column_advance_start (text : List Char) :
    (Position.start.advance text).column = 1 + (lastLine text).length := by
  induction text using List.reverseRecOn with
  | nil => rfl
  | append_singleton text character ih =>
      rw [Position.advance_append, Position.advance_cons, Position.advance_nil,
        Position.next, lastLine, List.rtakeWhile_concat]
      by_cases newline : character = '\n'
      · simp [newline]
      · simp [newline, ih, lastLine]
        omega

/-! ## What reading does -/

/-- The tokens read from a place in a source where so many parentheses are open. -/
inductive Lexed : Position → (depth : Nat) → List Char → List Token → Prop where
  | done {position : Position} {gap : List Char} (isGap : IsGap true gap) :
      Lexed position 0 gap []
  | token {position : Position} {depth next : Nat}
      {gap behind : List Char} {first : Char} {piece : Piece}
      {tokens : List Token} (isGap : IsGap false gap)
      (cuts : CutsOff first behind piece)
      (counted : depthAfter depth piece.kind = some next)
      (later : Lexed ((position.advance gap).advance piece.text) next
        piece.rest tokens) :
      Lexed position depth (gap ++ (piece.text ++ piece.rest))
        (⟨⟨piece.kind, String.ofList piece.text⟩, position.advance gap⟩ ::
          tokens)

theorem exists_of_map_eq_ok {ε α β : Type} {result : Except ε α}
    {function : α → β} {value : β}
    (mapped : result.map function = .ok value) :
    ∃ source, result = .ok source ∧ function source = value := by
  cases result with
  | error error => contradiction
  | ok source => exact ⟨source, rfl, Except.ok.inj mapped⟩

theorem eq_error_of_map_eq_error {ε α β : Type} {result : Except ε α}
    {function : α → β} {error : ε}
    (mapped : result.map function = .error error) : result = .error error := by
  cases result with
  | error other => exact congrArg Except.error (Except.error.inj mapped)
  | ok value => contradiction

theorem lexed_of_tokenizeFrom {position : Position} {depth : Nat}
    {source : List Char} {tokens : List Token}
    (read : tokenizeFrom position depth source = .ok tokens) :
    Lexed position depth source tokens := by
  fun_induction tokenizeFrom position depth source generalizing tokens with
  | case1 position source atEnd =>
      cases read
      exact .done (gap_of_splitTrivia_end atEnd).2
  | case2 => contradiction
  | case3 => contradiction
  | case4 => contradiction
  | case5 =>
      rename_i position depth source place first behind split piece cut next
        counted token ih
      rcases exists_of_map_eq_ok read with ⟨later, readLater, rfl⟩
      rcases gap_of_splitTrivia split with ⟨parts, isGap⟩
      rw [← parts, ← readLexeme_append cut]
      exact .token isGap (readLexeme_cutsOff cut) counted (ih readLater)

/-! ## Gaps and tokens make up the source -/

/-- A token with the gap in front of it. -/
structure Segment where
  gap : List Char
  token : Token

/-- The part of a source that some segments cover. -/
def coveredText (segments : List Segment) : List Char :=
  segments.flatMap fun segment => segment.gap ++ segment.token.text.toList

/-- A source is taken apart into segments and a last gap; it starts at a position. -/
structure TakesApart (position : Position) (source : List Char)
    (segments : List Segment) (lastGap : List Char) : Prop where
  covers : source = coveredText segments ++ lastGap
  gaps : ∀ segment ∈ segments, IsGap false segment.gap
  last : IsGap true lastGap
  places : ∀ before segment behind, segments = before ++ segment :: behind →
    segment.token.position =
      position.advance (coveredText before ++ segment.gap)
  kinds : ∀ segment ∈ segments,
    Spells segment.token.kind segment.token.text.toList
  ends : ∀ before segment behind, segments = before ++ segment :: behind →
    segment.token.kind ∈ [TokenKind.identifier, .nil, .boolean] →
      startsWith isNameCharacter (coveredText behind ++ lastGap) = false

theorem coveredText_cons (segment : Segment) (segments : List Segment) :
    coveredText (segment :: segments) =
      segment.gap ++ segment.token.text.toList ++ coveredText segments :=
  List.flatMap_cons

/-- One more segment in front. -/
theorem TakesApart.cons {position : Position} {source lastGap gap : List Char}
    {segments : List Segment} {kind : TokenKind} {text : List Char}
    (isGap : IsGap false gap) (spells : Spells kind text)
    (ends : kind ∈ [TokenKind.identifier, .nil, .boolean] →
      startsWith isNameCharacter source = false)
    (later : TakesApart ((position.advance gap).advance text) source segments
      lastGap) :
    TakesApart position (gap ++ (text ++ source))
      (⟨gap, ⟨⟨kind, String.ofList text⟩, position.advance gap⟩⟩ :: segments)
      lastGap := by
  constructor
  · simp [coveredText_cons, Token.text, later.covers]
  · exact List.forall_mem_cons.mpr ⟨isGap, later.gaps⟩
  · exact later.last
  · intro before segment behind split
    cases before with
    | nil =>
        cases split
        rfl
    | cons first before =>
        rcases List.cons.inj split with ⟨rfl, splitLater⟩
        rw [later.places before segment behind splitLater, coveredText_cons]
        simp [Token.text, Position.advance_append]
  · refine List.forall_mem_cons.mpr ⟨?_, later.kinds⟩
    simpa [Token.text, Token.kind] using spells
  · intro before segment behind split
    cases before with
    | nil =>
        cases split
        rw [← later.covers]
        exact ends
    | cons first before =>
        exact later.ends before segment behind (List.cons.inj split).2

theorem Lexed.exists_segments {position : Position} {depth : Nat}
    {source : List Char} {tokens : List Token}
    (lexed : Lexed position depth source tokens) :
    ∃ segments lastGap, segments.map Segment.token = tokens ∧
      TakesApart position source segments lastGap := by
  induction lexed with
  | @done position gap isGap =>
      refine ⟨[], gap, rfl, ?_⟩
      constructor <;> simp [coveredText, isGap]
  | token isGap cuts counted later ih =>
      rcases ih with ⟨segments, lastGap, sameTokens, apart⟩
      exact ⟨_ :: segments, lastGap, by simp [sameTokens],
        apart.cons isGap cuts.spells cuts.ends⟩

/-! ## Parentheses balance -/

/-- How many of some tokens are of a kind. -/
def countKind (kind : TokenKind) (tokens : List Token) : Nat :=
  tokens.countP fun token => token.kind = kind

theorem countKind_cons (kind : TokenKind) (token : Token)
    (tokens : List Token) :
    countKind kind (token :: tokens) =
      countKind kind tokens + if token.kind = kind then 1 else 0 := by
  simp [countKind, List.countP_cons]

/-- What one token does to the number of open parentheses. -/
theorem depthAfter_eq_some {depth next : Nat} {kind : TokenKind}
    (counted : depthAfter depth kind = some next) :
    next + (if kind = .closeParen then 1 else 0) =
      depth + if kind = .openParen then 1 else 0 := by
  cases kind <;> simp only [depthAfter] at counted
  case closeParen =>
    split at counted
    · contradiction
    · have closed := Option.some.inj counted
      simp
      omega
  all_goals
    have same := Option.some.inj counted
    simp [same]

theorem Lexed.balanced {position : Position} {depth : Nat}
    {source : List Char} {tokens : List Token}
    (lexed : Lexed position depth source tokens) :
    countKind .closeParen tokens = depth + countKind .openParen tokens ∧
      ∀ initial, initial <+: tokens →
        countKind .closeParen initial ≤ depth + countKind .openParen initial := by
  induction lexed with
  | done isGap =>
      refine ⟨rfl, fun initial isInitial => ?_⟩
      rw [List.prefix_nil.mp isInitial]
      exact Nat.le_refl _
  | token isGap cuts counted later ih =>
      have step := depthAfter_eq_some counted
      rcases ih with ⟨whole, initials⟩
      constructor
      · simp only [countKind_cons, Token.kind]
        omega
      · intro initial isInitial
        rcases List.prefix_cons_iff.mp isInitial with rfl | ⟨inner, rfl, shorter⟩
        · simp [countKind]
        · have bound := initials inner shorter
          simp only [countKind_cons, Token.kind]
          omega

/-! ## Reading loses nothing -/

/--
The tokens of a source with the gaps between them make up the source.  Every
token stands where the text in front of it ends, is of the one kind that its
text belongs to, and is read to its end if it is a word.  No initial part of
the tokens closes more parentheses than it opens, and all of them close as
many as they open.
-/
theorem tokenize_lossless {source : String} {tokens : List Token}
    (read : tokenize source = .ok tokens) :
    (∃ segments lastGap, segments.map Segment.token = tokens ∧
      source.toList = coveredText segments ++ lastGap ∧
      (∀ segment ∈ segments, IsGap false segment.gap) ∧ IsGap true lastGap ∧
      (∀ segment ∈ segments, ∀ kind,
        Spells kind segment.token.text.toList ↔ kind = segment.token.kind) ∧
      ∀ before segment behind, segments = before ++ segment :: behind →
        segment.token.position.line =
            1 + (coveredText before ++ segment.gap).count '\n' ∧
          segment.token.position.column =
            1 + (lastLine (coveredText before ++ segment.gap)).length ∧
          (segment.token.kind ∈ [TokenKind.identifier, .nil, .boolean] →
            startsWith isNameCharacter (coveredText behind ++ lastGap) =
              false)) ∧
    countKind .openParen tokens = countKind .closeParen tokens ∧
    ∀ initial, initial <+: tokens →
      countKind .closeParen initial ≤ countKind .openParen initial := by
  have lexed := lexed_of_tokenizeFrom read
  rcases lexed.exists_segments with ⟨segments, lastGap, sameTokens, apart⟩
  rcases lexed.balanced with ⟨whole, initials⟩
  refine ⟨⟨segments, lastGap, sameTokens, apart.covers, apart.gaps, apart.last,
    ?_, ?_⟩, by omega, fun initial isInitial => ?_⟩
  · intro segment member kind
    constructor
    · exact (apart.kinds segment member).unique
    · rintro rfl
      exact apart.kinds segment member
  · intro before segment behind split
    rw [apart.places before segment behind split, line_advance_start,
      column_advance_start]
    exact ⟨rfl, rfl, apart.ends before segment behind split⟩
  · have bound := initials initial isInitial
    omega

/-- Two lines with a comment, and a backslash in front of a wide character. -/
theorem tokenize_lossless_two_lines :
    tokenize "(f ; (\n \"\\é(\")" =
      .ok [⟨⟨.openParen, "("⟩, ⟨1, 1⟩⟩, ⟨⟨.identifier, "f"⟩, ⟨1, 2⟩⟩,
        ⟨⟨.string, "\"\\é(\""⟩, ⟨2, 2⟩⟩, ⟨⟨.closeParen, ")"⟩, ⟨2, 7⟩⟩] ∧
    countKind .openParen
        [⟨⟨.openParen, "("⟩, ⟨1, 1⟩⟩, ⟨⟨.identifier, "f"⟩, ⟨1, 2⟩⟩,
          ⟨⟨.string, "\"\\é(\""⟩, ⟨2, 2⟩⟩, ⟨⟨.closeParen, ")"⟩, ⟨2, 7⟩⟩] = 1 := by
  have read : tokenize "(f ; (\n \"\\é(\")" =
      .ok [⟨⟨.openParen, "("⟩, ⟨1, 1⟩⟩, ⟨⟨.identifier, "f"⟩, ⟨1, 2⟩⟩,
        ⟨⟨.string, "\"\\é(\""⟩, ⟨2, 2⟩⟩, ⟨⟨.closeParen, ")"⟩, ⟨2, 7⟩⟩] := by
    cbv
  exact ⟨read, (tokenize_lossless read).2.1.trans (by decide)⟩

end ScopedLisp
