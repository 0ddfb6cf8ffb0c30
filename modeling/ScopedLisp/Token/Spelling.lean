import ScopedLisp.Error

/-!
# Spellings of tokens

`readLexeme` reads the one token at the front of a text.  The first character,
at times with the two that follow, decides the class of the token; each class
then has a reader that takes all characters that belong.  A reader only cuts
the text in two, so what was read and what is left make up the text again
(`readLexeme_append`).

Letters and digits are those of ASCII; any other character can stand only in a
string or a comment.
-/

namespace ScopedLisp

/-- Whether a name may start with this character. -/
def isNameStart (character : Char) : Bool :=
  character.isAlpha ||
    ['-', '_', '?', '!', '*', '+', '/', '<', '>', '='].contains character

/-- Whether this character may stand inside a name. -/
def isNameCharacter (character : Char) : Bool :=
  isNameStart character || character.isDigit || character == '.'

/-- Whether the first character of a text has a property. -/
def startsWith (property : Char → Bool) : List Char → Bool
  | [] => false
  | character :: _ => property character

/-- Whether a text starts like a number: a digit after what may precede it. -/
def startsNumber : List Char → Bool
  | '-' :: '.' :: text => startsWith Char.isDigit text
  | '-' :: text => startsWith Char.isDigit text
  | '.' :: text => startsWith Char.isDigit text
  | text => startsWith Char.isDigit text

/-- Splits off one particular character, if the text starts with it. -/
def splitOptional (wanted : Char) : List Char → List Char × List Char
  | [] => ([], [])
  | character :: text =>
    if character = wanted then ([character], text) else ([], character :: text)

/-- Splits off the digits at the front of a text. -/
def splitDigits (text : List Char) : List Char × List Char :=
  (text.takeWhile Char.isDigit, text.dropWhile Char.isDigit)

/-- Splits off a point and the digits behind it, if the text starts with one. -/
def splitPlaces : List Char → List Char × List Char
  | '.' :: text => ('.' :: (splitDigits text).1, (splitDigits text).2)
  | text => ([], text)

/--
Splits off a number: a sign, a point, digits, and once more a point with
digits, each if present.
-/
def splitNumber (text : List Char) : List Char × List Char :=
  let (sign, afterSign) := splitOptional '-' text
  let (point, afterPoint) := splitOptional '.' afterSign
  let (digits, afterDigits) := splitDigits afterPoint
  let (places, rest) := splitPlaces afterDigits
  (sign ++ point ++ digits ++ places, rest)

/--
Splits off the rest of a string up to and including the quote that closes it.
A backslash keeps the character after it from closing the string.
-/
def splitString? : List Char → Option (List Char × List Char)
  | [] => none
  | '"' :: text => some (['"'], text)
  | '\\' :: character :: text =>
    (splitString? text).map fun (body, rest) =>
      ('\\' :: character :: body, rest)
  | character :: text =>
    (splitString? text).map fun (body, rest) => (character :: body, rest)

/-- The kind of token that a name-like text is. -/
def wordKind (text : String) : TokenKind :=
  if text = "nil" then .nil
  else if text = "true" || text = "false" then .boolean
  else .identifier

/-- A token cut off the front of a text. -/
structure Piece where
  kind : TokenKind
  text : List Char
  rest : List Char

/-- Reads a boolean after its number sign. -/
def readHash : List Char → Except Cause Piece
  | [] => .error .unknownHash
  | letter :: rest =>
    if (letter = 't' || letter = 'f') && !startsWith isNameCharacter rest then
      .ok ⟨.boolean, ['#', letter], rest⟩
    else .error .unknownHash

/-- Reads a number, which no name may follow directly. -/
def readNumber (text : List Char) : Except Cause Piece :=
  let (number, rest) := splitNumber text
  if startsWith isNameStart rest then
    .error (.malformedNumber
      (String.ofList (number ++ rest.takeWhile isNameCharacter)))
  else .ok ⟨.number, number, rest⟩

/-- Reads a name, `nil` or a boolean word. -/
def readWord (text : List Char) : Piece :=
  let word := text.takeWhile isNameCharacter
  ⟨wordKind (String.ofList word), word, text.dropWhile isNameCharacter⟩

/-- Reads the token at the front of a text, given its first character apart. -/
def readLexeme (first : Char) (text : List Char) : Except Cause Piece :=
  if first = '(' then .ok ⟨.openParen, [first], text⟩
  else if first = ')' then .ok ⟨.closeParen, [first], text⟩
  else if first = '"' then
    match splitString? text with
    | some (body, rest) => .ok ⟨.string, first :: body, rest⟩
    | none => .error .unterminatedString
  else if first = '#' then readHash text
  else if startsNumber (first :: text) then readNumber (first :: text)
  else if isNameStart first then .ok (readWord (first :: text))
  else .error (.unexpectedCharacter first)

/-! ## Reading loses nothing and always advances -/

theorem splitOptional_append (wanted : Char) (text : List Char) :
    (splitOptional wanted text).1 ++ (splitOptional wanted text).2 = text := by
  cases text with
  | nil => rfl
  | cons character text =>
    simp only [splitOptional]
    split <;> rfl

theorem splitDigits_append (text : List Char) :
    (splitDigits text).1 ++ (splitDigits text).2 = text :=
  List.takeWhile_append_dropWhile

theorem splitPlaces_append (text : List Char) :
    (splitPlaces text).1 ++ (splitPlaces text).2 = text := by
  unfold splitPlaces
  split
  · simp [splitDigits_append]
  · rfl

theorem splitNumber_append (text : List Char) :
    (splitNumber text).1 ++ (splitNumber text).2 = text := by
  simp [splitNumber, splitPlaces_append, splitDigits_append,
    splitOptional_append]

theorem splitString?_append {text body rest : List Char}
    (split : splitString? text = some (body, rest)) : body ++ rest = text := by
  fun_induction splitString? text generalizing body rest with
  | case1 => contradiction
  | case2 text =>
    obtain ⟨rfl, rfl⟩ := Prod.mk.inj (Option.some.inj split)
    rfl
  | case3 character text ih =>
    obtain ⟨⟨inner, after⟩, read, same⟩ := Option.map_eq_some_iff.1 split
    obtain ⟨rfl, rfl⟩ := Prod.mk.inj same
    simp [ih read]
  | case4 character text _ _ ih =>
    obtain ⟨⟨inner, after⟩, read, same⟩ := Option.map_eq_some_iff.1 split
    obtain ⟨rfl, rfl⟩ := Prod.mk.inj same
    simp [ih read]

/-- A token and what follows it make up the text it was read from. -/
theorem readLexeme_append {first : Char} {text : List Char} {piece : Piece}
    (read : readLexeme first text = .ok piece) :
    piece.text ++ piece.rest = first :: text := by
  unfold readLexeme at read
  split at read
  · cases read; rfl
  split at read
  · cases read; rfl
  split at read
  · split at read
    · rename_i body rest split
      cases read
      simp [splitString?_append split]
    · contradiction
  split at read
  · rename_i sharp
    subst sharp
    unfold readHash at read
    split at read
    · contradiction
    · split at read
      · cases read; rfl
      · contradiction
  split at read
  · unfold readNumber at read
    simp only at read
    split at read
    · contradiction
    · cases read
      exact splitNumber_append (first :: text)
  split at read
  · cases read
    exact List.takeWhile_append_dropWhile
  · contradiction

/-- A text that starts like a number has a first number of at least one character. -/
theorem splitNumber_ne_nil {text : List Char} (starts : startsNumber text) :
    (splitNumber text).1 ≠ [] := by
  unfold startsNumber at starts
  split at starts
  · simp [splitNumber, splitOptional]
  · simp [splitNumber, splitOptional]
  · simp [splitNumber, splitOptional]
  · rename_i noMinusPoint noMinus noPoint
    cases text with
    | nil => contradiction
    | cons character text =>
      have notMinus : character ≠ '-' := fun same => noMinus text (by rw [same])
      have notPoint : character ≠ '.' := fun same => noPoint text (by rw [same])
      have digit : character.isDigit = true := starts
      simp [splitNumber, splitOptional, splitDigits, notMinus, notPoint, digit]

/-- No token is empty. -/
theorem readLexeme_text_ne_nil {first : Char} {text : List Char} {piece : Piece}
    (read : readLexeme first text = .ok piece) : piece.text ≠ [] := by
  unfold readLexeme at read
  split at read
  · cases read; simp
  split at read
  · cases read; simp
  split at read
  · split at read
    · cases read; simp
    · contradiction
  split at read
  · unfold readHash at read
    split at read
    · contradiction
    · split at read
      · cases read; simp
      · contradiction
  split at read
  · rename_i starts
    unfold readNumber at read
    simp only at read
    split at read
    · contradiction
    · cases read
      exact splitNumber_ne_nil starts
  split at read
  · rename_i starts
    cases read
    have inName : isNameCharacter first = true := by
      simp [isNameCharacter, starts]
    simp [readWord, inName]
  · contradiction

theorem readLexeme_rest_length_lt {first : Char} {text : List Char}
    {piece : Piece} (read : readLexeme first text = .ok piece) :
    piece.rest.length < (first :: text).length := by
  have lengths := congrArg List.length (readLexeme_append read)
  have positive := List.length_pos_iff.2 (readLexeme_text_ne_nil read)
  rw [List.length_append] at lengths
  omega

end ScopedLisp
