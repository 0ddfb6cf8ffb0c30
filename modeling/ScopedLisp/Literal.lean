import ScopedLisp.Error

/-!
# Literals

Some tokens stand for a value of their own: `nil`, numbers, strings and
booleans.  `Token.literal` is that value, or the reason why the token has
none.  The text of a string is its characters between quotes, with a backslash
before what could not be written as itself; `unescape` reads what stands
between the quotes.
-/

namespace ScopedLisp

/-- The values that tokens stand for. -/
inductive Literal where
  | nil
  | number (value : Number)
  | string (value : String)
  | boolean (value : Bool)
  deriving DecidableEq, Inhabited

namespace Literal

/-- The character that a backslash and this character stand for. -/
def escaped? : Char → Option Char
  | 'n' => some '\n'
  | 't' => some '\t'
  | 'r' => some '\r'
  | '"' => some '"'
  | '\\' => some '\\'
  | _ => none

/-- Reads the characters between the quotes of a string. -/
def unescape : List Char → Except Cause (List Char)
  | [] => .ok []
  | '\\' :: [] => .error .unterminatedString
  | '\\' :: character :: rest =>
    match escaped? character with
    | some value => (unescape rest).map (value :: ·)
    | none => .error (.unknownEscape character)
  | character :: rest => (unescape rest).map (character :: ·)

/-- What stands between the quotes of a text that has both. -/
def unquote? : List Char → Option (List Char)
  | '"' :: rest => if rest.getLast? = some '"' then some rest.dropLast else none
  | _ => none

/-- The string that a quoted text denotes. -/
def readString (text : String) : Except Cause String :=
  match unquote? text.toList with
  | some characters => (unescape characters).map String.ofList
  | none => .error .unterminatedString

/-- The boolean that a text denotes. -/
def readBoolean (text : String) : Except Cause Bool :=
  if text = "#t" || text = "true" then .ok true
  else if text = "#f" || text = "false" then .ok false
  else .error (.malformedBoolean text)

/-- The number that a text denotes. -/
def readNumber (text : String) : Except Cause Number :=
  match Number.ofText? text with
  | some value => .ok value
  | none => .error (.malformedNumber text)

end Literal

/-- The value that a lexeme stands for. -/
def Lexeme.literal (lexeme : Lexeme) : Except Cause Literal :=
  match lexeme.kind with
  | .nil => .ok .nil
  | .number => (Literal.readNumber lexeme.text).map .number
  | .string => (Literal.readString lexeme.text).map .string
  | .boolean => (Literal.readBoolean lexeme.text).map .boolean
  | .identifier | .openParen | .closeParen => .error (.notALiteral lexeme)

/-- The value that a token stands for; a fault is reported at the token. -/
def Token.literal (token : Token) : Except Error Literal :=
  token.lexeme.literal.mapError fun cause => .located cause token.position

end ScopedLisp
