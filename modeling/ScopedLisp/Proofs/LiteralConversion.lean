import ScopedLisp.Proofs.StringLiterals
import ScopedLisp.Proofs.ViablePrefixes

/-!
# Which literals have values

A source is cut into tokens by one set of readers, and the values of its
literals are computed by another.  They do not accept the same texts.  A number
is cut off with up to two points in it, and a string with any character behind
a backslash; both are found out only when the value is asked for.  Nothing else
can go wrong then: a token of a source that was read has both its quotes, and a
boolean is one of the four texts that have a value.
-/

namespace ScopedLisp

/-! ## Numbers -/

theorem Number.ofText?_of_decimal {text : String} {negative : Bool}
    {body : List Char} {decimal : Decimal}
    (split : Number.splitSign text.toList = (negative, body))
    (read : Decimal.ofText? body = some decimal) :
    Number.ofText? text =
      some (Number.ofMagnitude negative decimal.magnitude) := by
  simp only [Number.ofText?, split, read]

/-- None of the words for numbers starts with a point. -/
theorem Number.ofText?_of_point {text : String} {negative : Bool}
    {body : List Char}
    (split : Number.splitSign text.toList = (negative, '.' :: body))
    (unread : Decimal.ofText? ('.' :: body) = none) :
    Number.ofText? text = none := by
  have noWord : ∀ word : String, word.toList.head? ≠ some '.' →
      String.ofList (('.' :: body).map Char.toLower) ≠ word := by
    rintro _ notPoint rfl
    rw [String.toList_ofList] at notPoint
    exact notPoint rfl
  simp [Number.ofText?, split, unread, noWord "inf" (by decide),
    noWord "infinity" (by decide), noWord "nan" (by decide),
    -List.map_cons]

section Parts

variable {sign point digits places : List Char}
variable (isSign : sign = [] ∨ sign = ['-'])
variable (isPoint : point = [] ∨ point = ['.'])
variable (areDigits : digits.all Char.isDigit = true)
include isSign isPoint areDigits

theorem Number.splitSign_append (someDigits : digits ≠ []) :
    (Number.splitSign (sign ++ point ++ digits ++ places)).2 =
      point ++ digits ++ places := by
  rcases isSign with rfl | rfl
  · rcases isPoint with rfl | rfl
    · cases digits with
      | nil => contradiction
      | cons digit digits =>
          have isDigit := List.all_eq_true.mp areDigits digit List.mem_cons_self
          unfold Number.splitSign
          split
          · rename_i minus
            rw [(List.cons.inj minus).1] at isDigit
            contradiction
          · rename_i plus
            rw [(List.cons.inj plus).1] at isDigit
            contradiction
          · rfl
    · rfl
  · rfl

variable (arePlaces : places = [] ∨
  ∃ behind, places = '.' :: behind ∧ behind.all Char.isDigit = true)
include arePlaces

theorem count_point_le_one_iff :
    (sign ++ point ++ digits ++ places).count '.' ≤ 1 ↔
      point = [] ∨ places = [] := by
  have noPoint : ∀ {text : List Char}, text.all Char.isDigit = true →
      text.count '.' = 0 := by
    intro text areDigits
    refine List.count_eq_zero.mpr fun member => ?_
    exact absurd (List.all_eq_true.mp areDigits '.' member) (by decide)
  have inSign : sign.count '.' = 0 := by
    rcases isSign with rfl | rfl <;> decide
  simp only [List.count_append, inSign, noPoint areDigits]
  rcases isPoint with rfl | rfl <;>
    rcases arePlaces with rfl | ⟨behind, rfl, areDigits'⟩ <;>
    simp [*]

omit isSign

/-- Digits with a point in front of them and another behind are no decimal. -/
theorem Decimal.isSome_ofText?_iff (someDigits : digits ≠ []) :
    (Decimal.ofText? (point ++ digits ++ places)).isSome ↔
      point = [] ∨ places = [] := by
  have each := List.all_eq_true.mp areDigits
  have whole := List.takeWhile_eq_self_iff.mpr each
  have nothing := List.dropWhile_eq_nil_iff.mpr each
  rcases isPoint with rfl | rfl
  · rcases arePlaces with rfl | ⟨behind, rfl, areDigits'⟩
    · simp [Decimal.ofText?, Decimal.splitFraction, Decimal.readExponent?,
        whole, nothing, someDigits]
    · have each' := List.all_eq_true.mp areDigits'
      simp [Decimal.ofText?, Decimal.splitFraction, Decimal.readExponent?,
        List.takeWhile_append_of_pos each, List.dropWhile_append_of_pos each,
        List.dropWhile_eq_nil_iff.mpr each', someDigits]
  · rcases arePlaces with rfl | ⟨behind, rfl, -⟩
    · simp [Decimal.ofText?, Decimal.splitFraction, Decimal.readExponent?,
        whole, nothing, someDigits]
    · simp [Decimal.ofText?, Decimal.splitFraction, Decimal.readExponent?,
        List.takeWhile_append_of_pos each, List.dropWhile_append_of_pos each,
        someDigits]

end Parts

/-- A number has a value exactly if it has one point at most. -/
theorem IsNumberText.isSome_ofText?_iff {text : String}
    (isNumber : IsNumberText text.toList) :
    (Number.ofText? text).isSome ↔ text.toList.count '.' ≤ 1 := by
  generalize written : text.toList = characters at isNumber ⊢
  rcases isNumber with ⟨isSign, isPoint, someDigits, areDigits, arePlaces⟩
  rename_i sign point digits places
  rw [count_point_le_one_iff isSign isPoint areDigits arePlaces,
    ← Decimal.isSome_ofText?_iff isPoint areDigits arePlaces someDigits]
  rcases split : Number.splitSign text.toList with ⟨negative, body⟩
  obtain rfl : body = point ++ digits ++ places := by
    rw [← Number.splitSign_append isSign isPoint areDigits someDigits,
      ← written, split]
  cases read : Decimal.ofText? (point ++ digits ++ places) with
  | some decimal =>
      rw [Number.ofText?_of_decimal split read]
      exact Iff.rfl
  | none =>
      rcases isPoint with rfl | rfl
      · have hasValue := Decimal.isSome_ofText?_iff (.inl rfl) areDigits
          arePlaces someDigits
        rw [read] at hasValue
        exact absurd (hasValue.mpr (.inl rfl)) (by decide)
      · rw [Number.ofText?_of_point split read]
        exact Iff.rfl

/-! ## Strings -/

/-- Every backslash that escapes a character has one behind it that it escapes. -/
def EscapesKnown (body : List Char) : Prop :=
  ∀ before letter behind, IsStringBody before →
    body = before ++ '\\' :: letter :: behind →
      letter ∈ ['n', 't', 'r', '"', '\\']

theorem mem_letters_iff {letter : Char} :
    letter ∈ ['n', 't', 'r', '"', '\\'] ↔
      ∃ character, Literal.escaped? letter = some character := by
  unfold Literal.escaped?
  split <;> simp_all

/-- Decoding stops at an unknown escape, wherever it is. -/
theorem letter_known_of_unescape {before behind string : List Char}
    {letter : Char} (isBody : IsStringBody before)
    (read : Literal.unescape (before ++ '\\' :: letter :: behind) =
      .ok string) :
    ∃ character, Literal.escaped? letter = some character := by
  induction isBody generalizing string with
  | empty =>
      rw [List.nil_append, Literal.unescape] at read
      split at read
      · exact ⟨_, ‹_›⟩
      · contradiction
  | plain notQuote notBackslash _ ih =>
      rw [List.cons_append, Literal.unescape_plain notBackslash] at read
      rcases exists_of_map_eq_ok read with ⟨rest, readRest, -⟩
      exact ih readRest
  | escaped _ ih =>
      rw [List.cons_append, List.cons_append, Literal.unescape] at read
      split at read
      · rcases exists_of_map_eq_ok read with ⟨rest, readRest, -⟩
        exact ih readRest
      · contradiction

/-- What is between quotes is decoded, or has an unknown escape. -/
theorem IsStringBody.unescape_cases {body : List Char}
    (isBody : IsStringBody body) :
    (∃ string, Literal.unescape body = .ok string) ∨
      ∃ before letter behind, IsStringBody before ∧
        body = before ++ '\\' :: letter :: behind ∧
        Literal.escaped? letter = none ∧
        Literal.unescape body = .error (.unknownEscape letter) := by
  induction isBody with
  | empty => exact .inl ⟨[], rfl⟩
  | @plain character rest notQuote notBackslash _ ih =>
      rw [Literal.unescape_plain notBackslash]
      rcases ih with
        ⟨string, read⟩ | ⟨before, letter, behind, isBody, rfl, unknown, unread⟩
      · exact .inl ⟨character :: string, by rw [read]; rfl⟩
      · exact .inr ⟨character :: before, letter, behind,
          .plain notQuote notBackslash isBody, rfl, unknown, by
            rw [unread]
            rfl⟩
  | @escaped letter rest isRest ih =>
      rcases known : Literal.escaped? letter with _ | character
      · refine .inr ⟨[], letter, rest, .empty, rfl, known, ?_⟩
        rw [Literal.unescape, known]
      · rw [Literal.unescape, known]
        rcases ih with
          ⟨string, read⟩ | ⟨before, other, behind, isBody, rfl, unknown, unread⟩
        · exact .inl ⟨character :: string, by rw [read]; rfl⟩
        · exact .inr ⟨'\\' :: letter :: before, other, behind, .escaped isBody,
            rfl, unknown, by
              rw [unread]
              rfl⟩

theorem IsStringBody.unescape_eq_ok_iff {body : List Char}
    (isBody : IsStringBody body) :
    (∃ string, Literal.unescape body = .ok string) ↔ EscapesKnown body := by
  constructor
  · rintro ⟨string, read⟩ before letter behind isBefore rfl
    exact mem_letters_iff.mpr (letter_known_of_unescape isBefore read)
  · intro known
    rcases isBody.unescape_cases with
      read | ⟨before, letter, behind, isBefore, whole, unknown, -⟩
    · exact read
    · rcases mem_letters_iff.mp (known before letter behind isBefore whole)
        with ⟨character, escapes⟩
      rw [unknown] at escapes
      contradiction

/-! ## Tokens of a source -/

theorem spells_of_tokenize {source : String} {tokens : List Token}
    {token : Token} (read : tokenize source = .ok tokens)
    (member : token ∈ tokens) : Spells token.kind token.text.toList := by
  rcases (lexed_of_tokenizeFrom read).exists_segments with
    ⟨segments, lastGap, rfl, apart⟩
  rcases List.mem_map.mp member with ⟨segment, inSource, rfl⟩
  exact apart.kinds segment inSource

namespace Token

variable {token : Token}

theorem literal_eq_error {cause : Cause}
    (unread : token.lexeme.literal = .error cause) :
    token.literal = .error (.located cause token.position) := by
  rw [Token.literal, unread]
  rfl

theorem no_value {α : Type} {wrap : α → Literal} {error : Error}
    (refused : token.literal = .error error) :
    ¬ ∃ value, token.literal = .ok (wrap value) := by
  rintro ⟨value, converts⟩
  rw [refused] at converts
  contradiction

theorem literal_nil (isNil : token.kind = .nil) : token.literal = .ok .nil := by
  refine literal_eq_ok_iff.mpr ?_
  simp only [Lexeme.literal, isNil]

theorem literal_boolean (isBoolean : token.kind = .boolean)
    (spells : Spells .boolean token.text.toList) :
    ∃ value, token.literal = .ok (.boolean value) := by
  have hasValue : ∃ value, Literal.readBoolean token.text = .ok value := by
    simp only [Spells, List.mem_cons, List.not_mem_nil, or_false,
      String.toList_inj] at spells
    rcases spells with same | same | same | same
    all_goals
      rw [same]
      exact ⟨_, rfl⟩
  rcases hasValue with ⟨value, read⟩
  refine ⟨value, literal_eq_ok_iff.mpr ?_⟩
  simp only [Lexeme.literal, isBoolean]
  rw [show token.lexeme.text = token.text from rfl, read]
  rfl

theorem literal_number (isNumber : token.kind = .number)
    (spells : IsNumberText token.text.toList) :
    ((∃ value, token.literal = .ok (.number value)) ∧
        token.text.toList.count '.' ≤ 1) ∨
      (token.literal =
          .error (.located (.malformedNumber token.text) token.position) ∧
        ¬ token.text.toList.count '.' ≤ 1) := by
  rw [← spells.isSome_ofText?_iff]
  rcases read : Number.ofText? token.text with _ | value
  · refine .inr ⟨literal_eq_error ?_, nofun⟩
    simp only [Lexeme.literal, isNumber, Literal.readNumber]
    rw [read]
    rfl
  · refine .inl ⟨⟨value, literal_eq_ok_iff.mpr ?_⟩, rfl⟩
    simp only [Lexeme.literal, isNumber, Literal.readNumber]
    rw [read]
    rfl

theorem literal_string {body : List Char} (isString : token.kind = .string)
    (isBody : IsStringBody body)
    (quoted : token.text.toList = '"' :: body ++ ['"']) :
    ((∃ value, token.literal = .ok (.string value)) ∧ EscapesKnown body) ∨
      ((∃ letter, token.literal =
          .error (.located (.unknownEscape letter) token.position)) ∧
        ¬ EscapesKnown body) := by
  have converts : token.lexeme.literal =
      ((Literal.unescape body).map String.ofList).map .string := by
    simp only [Lexeme.literal, isString, Literal.readString_quoted quoted]
  rcases isBody.unescape_cases with
    ⟨string, read⟩ | ⟨before, letter, behind, isBefore, whole, unknown, unread⟩
  · refine .inl ⟨⟨String.ofList string, literal_eq_ok_iff.mpr ?_⟩,
      isBody.unescape_eq_ok_iff.mp ⟨string, read⟩⟩
    rw [converts, read]
    rfl
  · refine .inr ⟨⟨letter, literal_eq_error ?_⟩, fun known => ?_⟩
    · rw [converts, unread]
      rfl
    · rcases isBody.unescape_eq_ok_iff.mpr known with ⟨string, read⟩
      rw [unread] at read
      contradiction

/-- What can be wrong with a literal of a source that was read. -/
theorem cause_of_literal {error : Error}
    (spells : Spells token.kind token.text.toList)
    (isLiteral : token.kind.isLiteral = true)
    (unread : token.literal = .error error) :
    error.cause = .malformedNumber token.text ∨
      ∃ letter, error.cause = .unknownEscape letter := by
  cases kind : token.kind with
  | nil =>
      rw [literal_nil kind] at unread
      contradiction
  | boolean =>
      rw [kind] at spells
      exact absurd (literal_boolean kind spells) (no_value unread)
  | number =>
      rw [kind] at spells
      rcases literal_number kind spells with ⟨converts, -⟩ | ⟨refused, -⟩
      · exact absurd converts (no_value unread)
      · rw [refused] at unread
        cases unread
        exact .inl rfl
  | string =>
      rw [kind] at spells
      rcases spells with ⟨body, isBody, quoted⟩
      rcases literal_string kind isBody quoted with
        ⟨converts, -⟩ | ⟨⟨letter, refused⟩, -⟩
      · exact absurd converts (no_value unread)
      · rw [refused] at unread
        cases unread
        exact .inr ⟨letter, rfl⟩
  | identifier | openParen | closeParen =>
      rw [kind] at isLiteral
      contradiction

end Token

/--
Of the tokens of a source, `nil` and booleans have values; a number has one
exactly if its text holds one point at most, and a string exactly if each
backslash that escapes a character stands in front of one that it can escape.
What has no value is a malformed literal, reported where it stands.  So the
reader of forms never finds a string without its quotes, a text that is
neither boolean, or a token that cannot be a literal.
-/
theorem literals_convert_as_read {source : String} {tokens : List Token}
    (read : tokenize source = .ok tokens) :
    (∀ token ∈ tokens,
      (token.kind = .nil → token.literal = .ok .nil) ∧
      (token.kind = .boolean → ∃ value, token.literal = .ok (.boolean value)) ∧
      (token.kind = .number →
        ((∃ value, token.literal = .ok (.number value)) ↔
          token.text.toList.count '.' ≤ 1) ∧
        (1 < token.text.toList.count '.' →
          token.literal =
            .error (.located (.malformedNumber token.text) token.position))) ∧
      (token.kind = .string →
        ∃ body, IsStringBody body ∧
          token.text.toList = '"' :: body ++ ['"'] ∧
          ((∃ value, token.literal = .ok (.string value)) ↔
            EscapesKnown body) ∧
          (¬ EscapesKnown body →
            ∃ letter, token.literal =
              .error (.located (.unknownEscape letter) token.position))) ∧
      ∀ error, token.kind.isLiteral = true → token.literal = .error error →
        error.cause.code = .malformedLiteral) ∧
    ∀ error, Form.ofTokens tokens = .error error →
      error.cause ≠ .unterminatedString ∧
      (∀ text, error.cause ≠ .malformedBoolean text) ∧
      ∀ lexeme, error.cause ≠ .notALiteral lexeme := by
  constructor
  · intro token member
    have spells := spells_of_tokenize read member
    refine ⟨Token.literal_nil, ?_, ?_, ?_, ?_⟩
    · intro isBoolean
      rw [isBoolean] at spells
      exact Token.literal_boolean isBoolean spells
    · intro isNumber
      rw [isNumber] at spells
      rcases Token.literal_number isNumber spells with
        ⟨converts, onePoint⟩ | ⟨refused, twoPoints⟩
      · exact ⟨iff_of_true converts onePoint, fun twoPoints => by omega⟩
      · exact ⟨iff_of_false (Token.no_value refused) twoPoints,
          fun _ => refused⟩
    · intro isString
      rw [isString] at spells
      rcases spells with ⟨body, isBody, quoted⟩
      refine ⟨body, isBody, quoted, ?_⟩
      rcases Token.literal_string isString isBody quoted with
        ⟨converts, known⟩ | ⟨⟨letter, refused⟩, unknown⟩
      · exact ⟨iff_of_true converts known, fun unknown => absurd known unknown⟩
      · exact ⟨iff_of_false (Token.no_value refused) unknown,
          fun _ => ⟨letter, refused⟩⟩
    · intro error isLiteral unread
      rcases Token.cause_of_literal spells isLiteral unread with
        same | ⟨letter, same⟩
      · rw [same]
        rfl
      · rw [same]
        rfl
  · intro error refused
    rcases Form.ofTokens_refusal_cases refused with
      ⟨front, token, behind, rfl, -, -, refusal⟩ | ⟨reader, -, -, rfl⟩
    · cases refusal with
      | unexpected wanted => exact ⟨nofun, nofun, nofun⟩
      | unexpectedClose => exact ⟨nofun, nofun, nofun⟩
      | literal isLiteral unread =>
          have spells := spells_of_tokenize read
            (List.mem_append_right front List.mem_cons_self)
          rcases Token.cause_of_literal spells isLiteral unread with
            same | ⟨letter, same⟩
          · rw [same]
            exact ⟨nofun, nofun, nofun⟩
          · rw [same]
            exact ⟨nofun, nofun, nofun⟩
    · exact ⟨nofun, nofun, nofun⟩

/-- A point too many, and an unknown escape behind an escaped backslash. -/
theorem literals_convert_as_read_call :
    let point : Token := ⟨⟨.number, "1."⟩, ⟨1, 4⟩⟩
    let points : Token := ⟨⟨.number, ".5."⟩, ⟨1, 7⟩⟩
    let escape : Token := ⟨⟨.string, "\"\\\\\\q\""⟩, ⟨1, 11⟩⟩
    let tokens : List Token :=
      [⟨.opening, ⟨1, 1⟩⟩, ⟨.name "f", ⟨1, 2⟩⟩, point, points, escape,
        ⟨.closing, ⟨1, 17⟩⟩]
    tokenize "(f 1. .5. \"\\\\\\q\")" = .ok tokens ∧
      (∃ value, point.literal = .ok (.number value)) ∧
      points.literal = .error (.located (.malformedNumber ".5.") ⟨1, 7⟩) ∧
      (∃ letter,
        escape.literal = .error (.located (.unknownEscape letter) ⟨1, 11⟩)) ∧
      ∀ error, Form.ofTokens tokens = .error error →
        error.cause ≠ .unterminatedString := by
  intro point points escape tokens
  have read : tokenize "(f 1. .5. \"\\\\\\q\")" = .ok tokens := by
    cbv
  rcases literals_convert_as_read read with ⟨converts, parsed⟩
  refine ⟨read, ?_, ?_, ?_, fun error refused => (parsed error refused).1⟩
  · exact ((converts point (by simp [tokens])).2.2.1 rfl).1.mpr (by decide)
  · exact ((converts points (by simp [tokens])).2.2.1 rfl).2 (by decide)
  · rcases (converts escape (by simp [tokens])).2.2.2.1 rfl with
      ⟨body, -, quoted, -, refused⟩
    have spelled : escape.text.toList =
        '"' :: ['\\', '\\', '\\', 'q'] ++ ['"'] := by
      decide
    obtain rfl : ['\\', '\\', '\\', 'q'] = body :=
      (List.cons.inj (List.append_cancel_right (spelled.symm.trans quoted))).2
    refine refused fun known => ?_
    have isBefore : IsStringBody ['\\', '\\'] := .escaped .empty
    exact absurd (known _ 'q' [] isBefore rfl) (by decide)

end ScopedLisp
