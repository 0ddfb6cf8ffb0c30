import ScopedLisp.Number.Decimal
import ScopedLisp.Operator
import ScopedLisp.Token

/-!
# Errors

An error is a cause and, once it is known, the position it is reported at.
The cause says what went wrong; its code, the kind of error and the message
are functions of it.  A position is given only once: whoever is nearest to the
fault says where it is, and nobody further out can move it.
-/

namespace ScopedLisp

/-- The families of errors. -/
inductive ErrorKind where
  | syntaxError
  | unboundName
  | typeMismatch
  | arityMismatch
  | divisionByZero
  | io
  deriving DecidableEq, Inhabited

/-- The stable codes of errors, four for reading, two for forms, five for running. -/
inductive ErrorCode where
  | unexpectedCharacter
  | unterminatedString
  | unbalancedParentheses
  | malformedLiteral
  | unexpectedToken
  | unexpectedEnd
  | unboundName
  | typeMismatch
  | arityMismatch
  | divisionByZero
  | io
  deriving DecidableEq, Inhabited

namespace ErrorCode

/-- The family a code belongs to. -/
def kind : ErrorCode → ErrorKind
  | .unexpectedCharacter => .syntaxError
  | .unterminatedString => .syntaxError
  | .unbalancedParentheses => .syntaxError
  | .malformedLiteral => .syntaxError
  | .unexpectedToken => .syntaxError
  | .unexpectedEnd => .syntaxError
  | .unboundName => .unboundName
  | .typeMismatch => .typeMismatch
  | .arityMismatch => .arityMismatch
  | .divisionByZero => .divisionByZero
  | .io => .io

/-- The four characters shown for a code. -/
def text : ErrorCode → String
  | .unexpectedCharacter => "L001"
  | .unterminatedString => "L002"
  | .unbalancedParentheses => "L003"
  | .malformedLiteral => "L004"
  | .unexpectedToken => "P001"
  | .unexpectedEnd => "P002"
  | .unboundName => "R001"
  | .typeMismatch => "R002"
  | .arityMismatch => "R003"
  | .divisionByZero => "R004"
  | .io => "R005"

/-- The code that a text shows. -/
def ofText? : String → Option ErrorCode
  | "L001" => some .unexpectedCharacter
  | "L002" => some .unterminatedString
  | "L003" => some .unbalancedParentheses
  | "L004" => some .malformedLiteral
  | "P001" => some .unexpectedToken
  | "P002" => some .unexpectedEnd
  | "R001" => some .unboundName
  | "R002" => some .typeMismatch
  | "R003" => some .arityMismatch
  | "R004" => some .divisionByZero
  | "R005" => some .io
  | _ => none

@[simp]
theorem ofText?_text (code : ErrorCode) : ofText? code.text = some code := by
  cases code <;> rfl

end ErrorCode

/-- What may come next where a source has gone wrong. -/
inductive Expectation where
  | form
  | head
  | token (kind : TokenKind)
  | endOfInput
  deriving DecidableEq, Inhabited

/-- How a message names what was expected. -/
def Expectation.phrase : Expectation → String
  | .form => "a form"
  | .head => "a special form or procedure name"
  | .token kind => kind.name
  | .endOfInput => "end of input after top-level form"

/-- What went wrong. -/
inductive Cause where
  /-- No token starts with this character. -/
  | unexpectedCharacter (character : Char)
  /-- A number sign that starts neither boolean. -/
  | unknownHash
  /-- A string without its closing quote. -/
  | unterminatedString
  /-- A closing parenthesis that closes nothing. -/
  | unmatchedClose
  /-- So many parentheses are still open at the end. -/
  | unclosed (count : Nat)
  /-- A text that starts like a number and is none. -/
  | malformedNumber (text : String)
  /-- A text that is neither boolean. -/
  | malformedBoolean (text : String)
  /-- A backslash before a character that it does not escape. -/
  | unknownEscape (character : Char)
  /-- A token that stands for no value of its own. -/
  | notALiteral (found : Lexeme)
  /-- Something was expected and another token, or the end, was found. -/
  | expected (wanted : Expectation) (found : Option Lexeme)
  /-- A closing parenthesis where a form has to stand. -/
  | unexpectedClose
  /-- A name that no scope binds. -/
  | unbound (name : String)
  /-- A value of another type than needed. -/
  | typeMismatch (wanted found : String)
  /-- Operands that the operator does not take. -/
  | operandMismatch (operator : Operator) (left right : String)
  /-- An argument of another type than needed; arguments count from one. -/
  | argumentMismatch (callee : String) (argument : Nat) (wanted found : String)
  /-- An empty list where a first item is needed. -/
  | emptyList (callee : String)
  /-- An index that is no position of the list. -/
  | indexOutOfRange (callee : String) (index : Number) (length : Nat)
  /-- A call with another number of arguments than needed. -/
  | arityMismatch (callee : String) (wanted got : Nat)
  /-- Division by a zero of either sign. -/
  | divisionByZero
  /-- The system refused to read or write, for the given reason. -/
  | io (reason : String)
  /-- A failure that an embedding program words itself. -/
  | foreign (code : ErrorCode) (message : String)
  deriving DecidableEq, Inhabited

namespace Cause

/-- The code a cause is reported under. -/
def code : Cause → ErrorCode
  | .unexpectedCharacter _ => .unexpectedCharacter
  | .unknownHash => .unexpectedCharacter
  | .unterminatedString => .unterminatedString
  | .unmatchedClose => .unbalancedParentheses
  | .unclosed _ => .unbalancedParentheses
  | .malformedNumber _ => .malformedLiteral
  | .malformedBoolean _ => .malformedLiteral
  | .unknownEscape _ => .malformedLiteral
  | .notALiteral _ => .unexpectedToken
  | .expected _ (some _) => .unexpectedToken
  | .expected _ none => .unexpectedEnd
  | .unexpectedClose => .unexpectedToken
  | .unbound _ => .unboundName
  | .typeMismatch _ _ => .typeMismatch
  | .operandMismatch _ _ _ => .typeMismatch
  | .argumentMismatch _ _ _ _ => .typeMismatch
  | .emptyList _ => .typeMismatch
  | .indexOutOfRange _ _ _ => .typeMismatch
  | .arityMismatch _ _ _ => .arityMismatch
  | .divisionByZero => .divisionByZero
  | .io _ => .io
  | .foreign code _ => code

/-- The wording of a cause. -/
def message : Cause → String
  | .unexpectedCharacter character => s!"unexpected character `{character}`"
  | .unknownHash => "expected `#t` or `#f`"
  | .unterminatedString => "unterminated string literal"
  | .unmatchedClose => "unmatched `)`"
  | .unclosed count => s!"{count} unclosed `(`"
  | .malformedNumber text => s!"malformed number `{text}`"
  | .malformedBoolean text => s!"malformed boolean `{text}`"
  | .unknownEscape character => s!"unknown escape sequence `\\{character}`"
  | .notALiteral found => s!"{found.description} is not a literal"
  | .expected wanted (some found) =>
    s!"expected {wanted.phrase}, found {found.description}"
  | .expected wanted none => s!"expected {wanted.phrase}, found end of input"
  | .unexpectedClose => "unexpected `)`"
  | .unbound name => s!"unbound name `{name}`"
  | .typeMismatch wanted found => s!"expected {wanted}, got {found}"
  | .operandMismatch operator left right =>
    s!"operator `{operator.symbol}` expects number operands, got {left} and {right}"
  | .argumentMismatch callee argument wanted found =>
    s!"`{callee}` argument {argument} expects {wanted}, got {found}"
  | .emptyList callee => s!"`{callee}` expects a non-empty list"
  | .indexOutOfRange callee index length =>
    s!"`{callee}` index {index.render} out of range for list of length {length}"
  | .arityMismatch callee wanted got =>
    s!"`{callee}` expects {wanted} args, got {got}"
  | .divisionByZero => "division by zero"
  | .io reason => s!"i/o error: {reason}"
  | .foreign _ message => message

end Cause

/-- A cause and where it is reported. -/
structure Error where
  cause : Cause
  position? : Option Position
  deriving DecidableEq, Inhabited

namespace Error

/-- An error whose position is known from the start. -/
def located (cause : Cause) (position : Position) : Error :=
  ⟨cause, some position⟩

/-- An error that still has to be located. -/
def unlocated (cause : Cause) : Error :=
  ⟨cause, none⟩

/-- Locates an error that has no position yet. -/
def locate (error : Error) (position : Position) : Error :=
  ⟨error.cause, some (error.position?.getD position)⟩

@[simp]
theorem cause_locate (error : Error) (position : Position) :
    (error.locate position).cause = error.cause :=
  rfl

/-- Only the first position given to an error counts. -/
@[simp]
theorem locate_locate (error : Error) (inner outer : Position) :
    (error.locate inner).locate outer = error.locate inner :=
  rfl

/-- The code of an error in brackets, its position if known, and the message. -/
def text (error : Error) : String :=
  let place :=
    match error.position? with
    | some position => position.text ++ " - "
    | none => ""
  "[" ++ error.cause.code.text ++ "] " ++ place ++ error.cause.message

end Error

end ScopedLisp
