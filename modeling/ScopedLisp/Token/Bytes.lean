import ScopedLisp.Text.Line
import ScopedLisp.Token.Spelling
import ScopedLisp.Token.Trivia

/-!
# Reading tokens from bytes

A source is kept in bytes, and tokens can be read from these without decoding
them first.  A reader of bytes stands at an offset, looks some bytes ahead and
takes them one at a time; the text of a token is what lies between two offsets.
Such a reader could do what a reader of characters cannot: take a byte where
there is none, cut a character in two, or go round a loop without end.

`ByteStep` names what a reader does with its source, and `ByteStep.IsSound`
what it may do.  The first step that is not sound breaks a run off.  The steps
of a run are kept, so that something can be said about each of them.

A byte is looked at as the character of the same code.  The bytes of
characters outside of ASCII are 128 and above, where no character has a
meaning of its own.
-/

namespace ScopedLisp

/-! ## Steps -/

/-- What a reader of bytes does with its source. -/
inductive ByteStep where
  /-- It stands at an offset. -/
  | stand (offset : Nat)
  /-- It looks at the byte at an offset. -/
  | look (offset : Nat)
  /-- It takes the byte at an offset. -/
  | take (offset : Nat)
  /-- It cuts out the text between two offsets. -/
  | cut (first last : Nat)
  /-- It closes one of so many open parentheses. -/
  | close (depth : Nat)
  deriving DecidableEq

/-- Whether a step stays within a source and within its characters. -/
def ByteStep.IsSound (source : String) : ByteStep → Prop
  | .stand offset => offset ≤ source.utf8ByteSize
  | .look offset => offset < source.utf8ByteSize
  | .take offset => offset < source.utf8ByteSize
  | .cut first last =>
    first ≤ last ∧ String.Pos.Raw.IsValid source ⟨first⟩ ∧
      String.Pos.Raw.IsValid source ⟨last⟩
  | .close depth => 0 < depth

instance (source : String) : DecidablePred (ByteStep.IsSound source)
  | .stand offset =>
    inferInstanceAs (Decidable (offset ≤ source.utf8ByteSize))
  | .look offset =>
    inferInstanceAs (Decidable (offset < source.utf8ByteSize))
  | .take offset =>
    inferInstanceAs (Decidable (offset < source.utf8ByteSize))
  | .cut first last =>
    inferInstanceAs (Decidable (first ≤ last ∧
      String.Pos.Raw.IsValid source ⟨first⟩ ∧
      String.Pos.Raw.IsValid source ⟨last⟩))
  | .close depth => inferInstanceAs (Decidable (0 < depth))

/-- Whether a byte goes on with a character that an earlier byte has begun. -/
def isContinuation (byte : UInt8) : Bool :=
  byte &&& 0xc0 == 0x80

/-- The place just after one byte; a character takes its column with its first byte. -/
def Position.nextByte (position : Position) (byte : UInt8) : Position :=
  if byte = 10 then ⟨position.line + 1, 1⟩
  else if isContinuation byte then position
  else ⟨position.line, position.column + 1⟩

/-! ## Runs of a reader -/

/-- How far a source is read, and the steps taken so far, the latest first. -/
structure ByteReader where
  source : String
  offset : Nat
  position : Position
  steps : List ByteStep

namespace ByteReader

/-- A reader in front of a source. -/
def start (source : String) : ByteReader :=
  ⟨source, 0, .start, [.stand 0]⟩

/-- The bytes of the source. -/
def bytes (reader : ByteReader) : List UInt8 :=
  reader.source.toUTF8.data.toList

/-- How many bytes have not been taken. -/
def left (reader : ByteReader) : Nat :=
  reader.bytes.length - reader.offset

/-- Whether all bytes have been taken. -/
def isAtEnd (reader : ByteReader) : Bool :=
  reader.bytes.length ≤ reader.offset

/-- The byte at an offset. -/
def byteAt (reader : ByteReader) (offset : Nat) : UInt8 :=
  reader.bytes.getD offset 0

end ByteReader

/-- How a run of a reader ends. -/
inductive ByteOutcome (α : Type) where
  | done (value : α) (reader : ByteReader)
  | refused (error : Error) (reader : ByteReader)
  /-- A step that is not sound has broken the run off. -/
  | broken (step : ByteStep)
  /-- A loop has gone round without taking a byte, and would do so for ever. -/
  | endless

/-- A computation on a reader of bytes. -/
def ByteRun (α : Type) : Type :=
  ByteReader → ByteOutcome α

namespace ByteRun

variable {α β σ : Type}

/-- Does nothing. -/
protected def pure (value : α) : ByteRun α := fun reader =>
  .done value reader

/-- Goes on with the value of a run that is done. -/
protected def bind (first : ByteRun α) (second : α → ByteRun β) : ByteRun β :=
  fun reader =>
    match first reader with
    | .done value reader => second value reader
    | .refused error reader => .refused error reader
    | .broken step => .broken step
    | .endless => .endless

instance : Monad ByteRun where
  pure := ByteRun.pure
  bind := ByteRun.bind

/-- Looks at the reader. -/
def inspect (view : ByteReader → α) : ByteRun α := fun reader =>
  .done (view reader) reader

/-- Refuses the source. -/
def refuse (error : Error) : ByteRun α := fun reader =>
  .refused error reader

/-- Takes a step, if it is sound. -/
def step (step : ByteStep) : ByteRun Unit := fun reader =>
  if step.IsSound reader.source then
    .done () { reader with steps := step :: reader.steps }
  else .broken step

/-- Moves the reader. -/
def move (offset : Nat) (position : Position) : ByteRun Unit := fun reader =>
  .done () { reader with offset, position }

/-- Goes round a loop until a round has no next state; the last one is the result. -/
def loop (round : σ → ByteRun (Option σ)) (state : σ) (reader : ByteReader) :
    ByteOutcome σ :=
  match round state reader with
  | .done none behind => .done state behind
  | .done (some next) behind =>
    if behind.left < reader.left then loop round next behind else .endless
  | .refused error behind => .refused error behind
  | .broken step => .broken step
  | .endless => .endless
termination_by reader.left

/-- Looks at the byte so many bytes ahead; behind the end there is NUL. -/
def peek (ahead : Nat) : ByteRun Char := do
  let offset ← inspect fun reader => reader.offset + ahead
  if (← inspect fun reader => reader.bytes.length) ≤ offset then
    return '\x00'
  step (.look offset)
  inspect fun reader => Char.ofUInt8 (reader.byteAt offset)

/-- Takes a byte. -/
def advance : ByteRun Char := do
  let offset ← inspect ByteReader.offset
  step (.take offset)
  let byte ← inspect fun reader => reader.byteAt offset
  let position ← inspect ByteReader.position
  move (offset + 1) (position.nextByte byte)
  step (.stand (offset + 1))
  return Char.ofUInt8 byte

/-- Cuts out the text between two offsets. -/
def cut (first last : Nat) : ByteRun String := do
  step (.cut first last)
  inspect fun reader =>
    (decodeText? (reader.bytes.extract first last)).getD ""

/-- Cuts out the text from an offset up to where the reader stands. -/
def cutFrom (first : Nat) : ByteRun String := do
  cut first (← inspect ByteReader.offset)

/-! ## Readers of tokens -/

/-- Takes a byte if its character has a property. -/
def takeIf (property : Char → Bool) : ByteRun (Option Unit) := do
  if ← inspect ByteReader.isAtEnd then return none
  if property (← peek 0) then
    let _ ← advance
    return some ()
  return none

/-- Takes bytes as long as their characters have a property. -/
def skipWhile (property : Char → Bool) : ByteRun Unit :=
  loop (fun _ => takeIf property) ()

/-- Takes one particular character, if it is next. -/
def skipOptional (wanted : Char) : ByteRun Unit := do
  if (← peek 0) = wanted then
    let _ ← advance

/-- Takes a blank, or a comment up to the end of its line. -/
def takeTrivia : ByteRun (Option Unit) := do
  if ← inspect ByteReader.isAtEnd then return none
  let byte ← peek 0
  if isBlank byte then
    let _ ← advance
    return some ()
  if byte = ';' then
    skipWhile (· ≠ '\n')
    return some ()
  return none

/-- Takes blanks and comments. -/
def skipTrivia : ByteRun Unit :=
  loop (fun _ => takeTrivia) ()

/-- Takes what comes next in a string that starts at a position. -/
def takeInString (start : Position) : ByteRun (Option Unit) := do
  if ← inspect ByteReader.isAtEnd then
    refuse (.located .unterminatedString start)
  let byte ← advance
  if byte = '"' then return none
  -- The byte behind a backslash may be only the first of its character.
  if byte = '\\' && !(← inspect ByteReader.isAtEnd) then
    let _ ← advance
  return some ()

/-- Takes a string that starts at a position, both quotes included. -/
def readString (start : Position) : ByteRun Unit := do
  let _ ← advance
  loop (fun _ => takeInString start) ()

/-- Takes a boolean that starts at a position with a number sign. -/
def readHash (start : Position) : ByteRun TokenKind := do
  let letter ← peek 1
  if (letter = 't' || letter = 'f') && !isNameCharacter (← peek 2) then
    let _ ← advance
    let _ ← advance
    return .boolean
  refuse (.located .unknownHash start)

/-- Takes a point and the digits behind it, if it is next. -/
def skipPlaces : ByteRun Unit := do
  if (← peek 0) = '.' then
    let _ ← advance
    skipWhile Char.isDigit

/-- Takes a sign, a point, digits, and once more a point with digits, each if present. -/
def skipNumber : ByteRun Unit := do
  skipOptional '-'
  skipOptional '.'
  skipWhile Char.isDigit
  skipPlaces

/-- Takes a number that starts at an offset and a position, and that no name may follow. -/
def readNumber (first : Nat) (start : Position) : ByteRun TokenKind := do
  skipNumber
  if isNameStart (← peek 0) then
    skipWhile isNameCharacter
    refuse (.located (.malformedNumber (← cutFrom first)) start)
  return .number

/-- Whether a number starts with the next bytes. -/
def startsNumber : ByteRun Bool := do
  let byte ← peek 0
  let next ← peek 1
  let third ← peek 2
  return byte.isDigit || (byte = '.' && next.isDigit) ||
    (byte = '-' && (next.isDigit || (next = '.' && third.isDigit)))

/-- Takes a number or a word that starts at an offset and a position. -/
def readPlain (first : Nat) (start : Position) : ByteRun TokenKind := do
  if ← startsNumber then
    return ← readNumber first start
  if isNameStart (← peek 0) then
    skipWhile isNameCharacter
    return wordKind (← cutFrom first)
  let rest ← cut first (← inspect fun reader => reader.bytes.length)
  refuse (.located
    (.unexpectedCharacter (rest.toList.head?.getD '\ufffd')) start)

/-- Takes a token that starts at an offset and a position. -/
def readKind (first : Nat) (start : Position) : ByteRun TokenKind := do
  let byte ← peek 0
  if byte = '(' then
    let _ ← advance
    return .openParen
  if byte = ')' then
    let _ ← advance
    return .closeParen
  if byte = '"' then
    readString start
    return .string
  if byte = '#' then
    return ← readHash start
  readPlain first start

/-- Reads the next token. -/
def readToken : ByteRun Token := do
  let first ← inspect ByteReader.offset
  let start ← inspect ByteReader.position
  let kind ← readKind first start
  return ⟨⟨kind, ← cutFrom first⟩, start⟩

/-- Counts a token in; it must not close more than is open. -/
def count (depth : Nat) (token : Token) : ByteRun Nat := do
  match token.kind with
  | .openParen => return depth + 1
  | .closeParen =>
    if depth = 0 then refuse (.located .unmatchedClose token.position)
    step (.close depth)
    return depth - 1
  | _ => return depth

/-- Reads one more token, if there is one, and counts it in. -/
def readNext : Nat × List Token → ByteRun (Option (Nat × List Token))
  | (depth, tokens) => do
    skipTrivia
    if ← inspect ByteReader.isAtEnd then return none
    let token ← readToken
    return some (← count depth token, tokens ++ [token])

/-- Refuses a source at whose end parentheses are open. -/
def checkClosed : Nat × List Token → ByteRun (List Token)
  | (depth, tokens) => do
    if depth ≠ 0 then
      refuse (.located (.unclosed depth) (← inspect ByteReader.position))
    return tokens

/-- Reads the tokens of a source, in which no parenthesis may be left open. -/
def tokenize : ByteRun (List Token) := do
  checkClosed (← loop readNext (0, []))

end ByteRun

/-- The tokens that a reader of bytes finds in a source. -/
def tokenizeBytes (source : String) : ByteOutcome (List Token) :=
  ByteRun.tokenize (.start source)

end ScopedLisp
