import ScopedLisp.Token.Spelling
import ScopedLisp.Token.Trivia

/-!
# The tokens of a source

`tokenize` reads a whole source: trivia, a token, trivia, a token, and so on
to the end.  On the way it counts the open parentheses, so the first fault in
source order is the one reported: a character, string, number or boolean that
cannot be read, or a closing parenthesis without an opening one, at the token;
parentheses left open, at the end of the source.
-/

namespace ScopedLisp

/-- How many parentheses are open after a token; none if it closes too many. -/
def depthAfter (depth : Nat) : TokenKind → Option Nat
  | .openParen => some (depth + 1)
  | .closeParen => if depth = 0 then none else some (depth - 1)
  | _ => some depth

/--
Reads the tokens of a text that starts at a position where so many parentheses
are open.
-/
def tokenizeFrom (position : Position) (depth : Nat) (source : List Char) :
    Except Error (List Token) :=
  let place := position.advance (splitTrivia source).1
  match _isText : (splitTrivia source).2 with
  | [] =>
    if depth = 0 then .ok []
    else .error (.located (.unclosed depth) place)
  | first :: rest =>
    match _isPiece : readLexeme first rest with
    | .error cause => .error (.located cause place)
    | .ok piece =>
      match depthAfter depth piece.kind with
      | none => .error (.located .unmatchedClose place)
      | some depth =>
        let token := ⟨⟨piece.kind, String.ofList piece.text⟩, place⟩
        (tokenizeFrom (place.advance piece.text) depth piece.rest).map
          (token :: ·)
termination_by source.length
decreasing_by
  have shorter := readLexeme_rest_length_lt _isPiece
  have suffix := splitTrivia_rest_length_le source
  rw [_isText] at suffix
  exact Nat.lt_of_lt_of_le shorter suffix

/-- The tokens of a source. -/
def tokenize (source : String) : Except Error (List Token) :=
  tokenizeFrom .start 0 source.toList

end ScopedLisp
