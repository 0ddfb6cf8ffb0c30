import ScopedLisp.Position

/-!
# Tokens

A lexeme is a kind together with the raw text that was written; a token is a
lexeme at a position.  Two tokens say the same when their lexemes agree:
where they stand is not part of what they say.
-/

namespace ScopedLisp

/-- The classes of tokens. -/
inductive TokenKind where
  | nil
  | number
  | string
  | boolean
  | identifier
  | openParen
  | closeParen
  deriving DecidableEq, Inhabited

/-- What messages call a token of this kind. -/
def TokenKind.name : TokenKind → String
  | .nil => "nil"
  | .number => "number"
  | .string => "string"
  | .boolean => "boolean"
  | .identifier => "identifier"
  | .openParen => "`(`"
  | .closeParen => "`)`"

/-- A kind and the text it was written with. -/
structure Lexeme where
  kind : TokenKind
  text : String
  deriving DecidableEq, Inhabited

namespace Lexeme

/-- How a message mentions a lexeme it met. -/
def description (lexeme : Lexeme) : String :=
  s!"{lexeme.kind.name} `{lexeme.text}`"

/-- The kind and the text in braces. -/
def bracketed (lexeme : Lexeme) : String :=
  "\x7b" ++ lexeme.kind.name ++ "," ++ lexeme.text ++ "\x7d"

end Lexeme

/-- A lexeme where it was read. -/
structure Token where
  lexeme : Lexeme
  position : Position
  deriving DecidableEq, Inhabited

namespace Token

/-- The class of a token. -/
abbrev kind (token : Token) : TokenKind :=
  token.lexeme.kind

/-- The raw text of a token. -/
abbrev text (token : Token) : String :=
  token.lexeme.text

end Token

/-- A name where it was written. -/
structure Identifier where
  text : String
  position : Position
  deriving DecidableEq, Inhabited

/-- The name a token spells, meant for tokens of kind `identifier`. -/
def Token.identifier (token : Token) : Identifier :=
  ⟨token.text, token.position⟩

end ScopedLisp
