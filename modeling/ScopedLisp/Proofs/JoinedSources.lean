import ScopedLisp.Proofs.SourceReading

/-!
# Sources on lines of their own

A character that cannot stand inside a name ends every token that it does not
lie inside of (`CutsOff.stop`), and a newline ends every comment as well.  So a
source that was read whole is read in the same way when it is followed by a
newline and by more text: its own tokens come first and those of the rest
follow (`Lexed.joinLine`).  Where a source starts matters only to the places
of its tokens (`Lexed.moved`).
-/

namespace ScopedLisp

/-! ## Tokens in front of a character that ends them -/

section Stop

variable {property : Char → Bool} {stop : Char} (stops : property stop = false)
include stops

theorem startsWith_stop (text rest : List Char) :
    startsWith property (text ++ stop :: rest) = startsWith property text := by
  cases text with
  | nil => exact stops
  | cons character text => rfl

theorem takeWhile_stop (text rest : List Char) :
    (text ++ stop :: rest).takeWhile property = text.takeWhile property := by
  induction text with
  | nil => simp [stops]
  | cons character text ih =>
      simp only [List.cons_append, List.takeWhile_cons, ih]

theorem dropWhile_stop (text rest : List Char) :
    (text ++ stop :: rest).dropWhile property =
      text.dropWhile property ++ stop :: rest := by
  induction text with
  | nil => simp [stops]
  | cons character text ih =>
      simp only [List.cons_append, List.dropWhile_cons, ih]
      split <;> rfl

end Stop

/-- What cannot stand inside a name is no digit, no sign and no point. -/
theorem stop_cases {stop : Char} (stops : isNameCharacter stop = false) :
    isNameStart stop = false ∧ stop.isDigit = false ∧ '-' ≠ stop ∧
      '.' ≠ stop := by
  refine ⟨?_, ?_, ?_, ?_⟩
  · refine Bool.eq_false_iff.mpr fun starts => ?_
    simp [isNameCharacter, starts] at stops
  · refine Bool.eq_false_iff.mpr fun isDigit => ?_
    simp [isNameCharacter, isDigit] at stops
  · rintro rfl
    contradiction
  · rintro rfl
    contradiction

theorem splitOptional_stop {wanted stop : Char} (different : wanted ≠ stop)
    (text rest : List Char) :
    splitOptional wanted (text ++ stop :: rest) =
      ((splitOptional wanted text).1,
        (splitOptional wanted text).2 ++ stop :: rest) := by
  cases text with
  | nil => simp [splitOptional, different.symm]
  | cons character text =>
      simp only [List.cons_append, splitOptional]
      split <;> rfl

section NumberStop

variable {stop : Char} (stops : isNameCharacter stop = false)
include stops

theorem splitDigits_stop (text rest : List Char) :
    splitDigits (text ++ stop :: rest) =
      ((splitDigits text).1, (splitDigits text).2 ++ stop :: rest) := by
  have notDigit := (stop_cases stops).2.1
  simp only [splitDigits, takeWhile_stop notDigit, dropWhile_stop notDigit]

theorem splitPlaces_stop (text rest : List Char) :
    splitPlaces (text ++ stop :: rest) =
      ((splitPlaces text).1, (splitPlaces text).2 ++ stop :: rest) := by
  cases text with
  | nil =>
      have notPoint : stop ≠ '.' := (stop_cases stops).2.2.2.symm
      simp [splitPlaces, notPoint]
  | cons character text =>
      by_cases isPoint : character = '.'
      · subst isPoint
        simp only [List.cons_append, splitPlaces, splitDigits_stop stops]
      · simp [splitPlaces, isPoint]

theorem splitNumber_stop (text rest : List Char) :
    splitNumber (text ++ stop :: rest) =
      ((splitNumber text).1, (splitNumber text).2 ++ stop :: rest) := by
  rcases stop_cases stops with ⟨-, -, notMinus, notPoint⟩
  simp only [splitNumber, splitOptional_stop notMinus,
    splitOptional_stop notPoint, splitDigits_stop stops, splitPlaces_stop stops]

end NumberStop

/-- A text starts like a number if a digit follows a sign and a point, each if present. -/
theorem startsNumber_eq (text : List Char) :
    startsNumber text =
      startsWith Char.isDigit
        (splitOptional '.' (splitOptional '-' text).2).2 := by
  unfold startsNumber
  split
  · simp [splitOptional]
  · rename_i behind notPoint
    cases behind with
    | nil => simp [splitOptional]
    | cons character behind =>
        have different : character ≠ '.' := by
          rintro rfl
          exact notPoint behind rfl
        simp [splitOptional, different]
  · simp [splitOptional]
  · rename_i noMinusPoint noMinus noPoint
    cases text with
    | nil => rfl
    | cons character text =>
        have notMinus : character ≠ '-' := by
          rintro rfl
          exact noMinus text rfl
        have notPoint : character ≠ '.' := by
          rintro rfl
          exact noPoint text rfl
        simp [splitOptional, notMinus, notPoint]

theorem startsNumber_stop {stop : Char} (stops : isNameCharacter stop = false)
    (text rest : List Char) :
    startsNumber (text ++ stop :: rest) = startsNumber text := by
  rcases stop_cases stops with ⟨-, notDigit, notMinus, notPoint⟩
  simp only [startsNumber_eq, splitOptional_stop notMinus,
    splitOptional_stop notPoint, startsWith_stop notDigit]

theorem splitString?_plain {character : Char} (notQuote : character ≠ '"')
    (notBackslash : character ≠ '\\') (text : List Char) :
    splitString? (character :: text) =
      (splitString? text).map fun (body, rest) => (character :: body, rest) := by
  apply splitString?.eq_4
  · exact notQuote
  · exact fun _ _ isBackslash _ => notBackslash isBackslash

/-- A string that is closed is the same whatever follows it. -/
theorem splitString?_append_of_some {text body rest : List Char}
    (split : splitString? text = some (body, rest)) (more : List Char) :
    splitString? (text ++ more) = some (body, rest ++ more) := by
  fun_induction splitString? text generalizing body rest with
  | case1 => contradiction
  | case2 text =>
      cases split
      rfl
  | case3 character text ih =>
      rcases Option.map_eq_some_iff.mp split with ⟨⟨inner, after⟩, read, same⟩
      cases same
      simp [splitString?, ih read]
  | case4 character text notQuote notPair ih =>
      rcases Option.map_eq_some_iff.mp split with ⟨⟨inner, after⟩, read, same⟩
      cases same
      have notBackslash := ne_backslash_of_splitString? notPair read
      rw [List.cons_append, splitString?_plain notQuote notBackslash, ih read]
      rfl

/--
What is cut off in front of a character that cannot stand inside a name does
not depend on what is behind it.
-/
theorem CutsOff.stop {first stop : Char} {text : List Char} {piece : Piece}
    (cuts : CutsOff first text piece) (stops : isNameCharacter stop = false)
    (rest : List Char) :
    CutsOff first (text ++ stop :: rest)
      ⟨piece.kind, piece.text, piece.rest ++ stop :: rest⟩ := by
  have stopsStart := (stop_cases stops).1
  cases cuts with
  | opening => exact .opening
  | closing => exact .closing
  | string split =>
      exact .string (splitString?_append_of_some split _)
  | hash isLetter ends =>
      exact .hash isLetter ((startsWith_stop stops _ rest).trans ends)
  | number starts ends =>
      have cut := splitNumber_stop stops (first :: text) rest
      have startsToo := startsNumber_stop stops (first :: text) rest
      rw [List.cons_append] at cut startsToo
      have endsToo : startsWith isNameStart
          (splitNumber (first :: (text ++ stop :: rest))).2 = false := by
        rw [cut]
        exact (startsWith_stop stopsStart _ rest).trans ends
      have number := CutsOff.number (startsToo.trans starts) endsToo
      rwa [cut] at number
  | word notNumber starts =>
      have startsToo := startsNumber_stop stops (first :: text) rest
      have taken := takeWhile_stop stops (first :: text) rest
      have left := dropWhile_stop stops (first :: text) rest
      rw [List.cons_append] at startsToo taken left
      have word := CutsOff.word (startsToo.trans notNumber) starts
      rwa [readWord, taken, left] at word

/-! ## Gaps in front of a newline -/

theorem IsGap.append {atEnd : Bool} {first second : List Char}
    (isGap : IsGap false first) (isGap' : IsGap atEnd second) :
    IsGap atEnd (first ++ second) := by
  generalize closed : false = atEnd' at isGap
  induction isGap with
  | empty => exact isGap'
  | blank isBlank isGap ih => exact .blank isBlank (ih closed)
  | comment oneLine isGap ih =>
      rw [List.append_assoc]
      exact .comment oneLine (ih closed)
  | unfinished oneLine => contradiction

/-- A newline ends the comment that a last gap may end within. -/
theorem IsGap.newline {atEnd : Bool} {gap : List Char}
    (isGap : IsGap atEnd gap) : IsGap false (gap ++ ['\n']) := by
  have newline : IsGap false ['\n'] := .blank (by simp) .empty
  induction isGap with
  | empty => exact newline
  | blank isBlank isGap ih => exact .blank isBlank ih
  | comment oneLine isGap ih =>
      rw [List.append_assoc]
      exact .comment oneLine ih
  | unfinished oneLine => exact .comment oneLine .empty

/-! ## Sources in front of a newline -/

theorem depthAfter_add {depth next : Nat} {kind : TokenKind}
    (counted : depthAfter depth kind = some next) (around : Nat) :
    depthAfter (depth + around) kind = some (next + around) := by
  cases kind with
  | openParen =>
      cases counted
      simp only [depthAfter, Nat.add_right_comm]
  | closeParen =>
      simp only [depthAfter] at counted ⊢
      split at counted
      · contradiction
      · have closed := Option.some.inj counted
        rw [if_neg (by omega)]
        congr 1
        omega
  | nil | number | string | boolean | identifier =>
      cases counted
      rfl

namespace Lexed

/-- A source is laid out in the same lexemes wherever it starts. -/
theorem moved {position : Position} {depth : Nat} {source : List Char}
    {tokens : List Token} (lexed : Lexed position depth source tokens)
    (place : Position) :
    ∃ tokens', Lexed place depth source tokens' ∧
      tokens'.map (·.lexeme) = tokens.map (·.lexeme) := by
  induction lexed generalizing place with
  | done isGap => exact ⟨[], .done isGap, rfl⟩
  | token isGap cuts counted later ih =>
      rcases ih _ with ⟨tokens', lexed', sameLexemes⟩
      exact ⟨_, .token isGap cuts counted lexed', by simp [sameLexemes]⟩

/-- A gap in front of a source belongs to its first gap. -/
theorem afterGap {position : Position} {depth : Nat} {gap source : List Char}
    {tokens : List Token} (isGap : IsGap false gap)
    (lexed : Lexed (position.advance gap) depth source tokens) :
    Lexed position depth (gap ++ source) tokens := by
  cases lexed with
  | done isLast => exact .done (isGap.append isLast)
  | @token _ _ _ first _ _ _ _ isFirst cuts counted later =>
      have place := Position.advance_append position gap first
      rw [← place] at later ⊢
      rw [← List.append_assoc]
      exact .token (isGap.append isFirst) cuts counted later

/--
A source and, on the next line, the rest of a text in which some parentheses
stay open throughout the source.
-/
theorem joinLine {position : Position} {depth around : Nat}
    {source rest : List Char} {tokens more : List Token}
    (lexed : Lexed position depth source tokens)
    (lexedRest : Lexed (position.advance (source ++ ['\n'])) around rest more) :
    Lexed position (depth + around) (source ++ '\n' :: rest)
      (tokens ++ more) := by
  induction lexed with
  | @done position gap isGap =>
      have joined := lexedRest.afterGap isGap.newline
      rw [List.append_assoc] at joined
      rw [Nat.zero_add]
      exact joined
  | @token position depth next gap behind first piece tokens isGap cuts counted
      later ih =>
      have joined := ih (by
        rw [← Position.advance_append, ← Position.advance_append]
        simpa only [List.append_assoc] using lexedRest)
      have token := Lexed.token isGap (cuts.stop rfl rest)
        (depthAfter_add counted around) joined
      simpa only [List.append_assoc, List.cons_append] using token

end Lexed

/-- A newline behind a source changes nothing. -/
theorem tokenize_newline {source : String} {tokens : List Token}
    (read : tokenize source = .ok tokens) :
    tokenize (source ++ "\n") = .ok tokens := by
  have lexed := lexed_of_tokenizeFrom read
  have joined := lexed.joinLine (.done .empty)
  rw [List.append_nil] at joined
  rw [tokenize, String.toList_append]
  exact joined.tokenizeFrom_eq

end ScopedLisp
