/-!
# Trivia

Between tokens a source may hold blanks and comments.  A comment runs from a
semicolon to the end of its line, or to the end of the source.
`splitTrivia` takes as much as possible: nothing is lost, and what is left
starts with neither a blank nor a comment.
-/

namespace ScopedLisp

/-- The four characters that separate tokens. -/
def isBlank (character : Char) : Bool :=
  character == ' ' || character == '\t' || character == '\r' || character == '\n'

mutual

/-- Splits a text into its leading trivia and the rest. -/
def splitTrivia : List Char → List Char × List Char
  | [] => ([], [])
  | character :: text =>
    if isBlank character then
      let (trivia, rest) := splitTrivia text
      (character :: trivia, rest)
    else if character = ';' then
      let (trivia, rest) := splitComment text
      (character :: trivia, rest)
    else ([], character :: text)

/-- Splits a text that starts inside a comment in the same way. -/
def splitComment : List Char → List Char × List Char
  | [] => ([], [])
  | character :: text =>
    if character = '\n' then
      let (trivia, rest) := splitTrivia text
      (character :: trivia, rest)
    else
      let (trivia, rest) := splitComment text
      (character :: trivia, rest)

end

/-- Splitting loses nothing. -/
theorem splitTrivia_append (text : List Char) :
    (splitTrivia text).1 ++ (splitTrivia text).2 = text ∧
      (splitComment text).1 ++ (splitComment text).2 = text := by
  induction text with
  | nil => exact ⟨rfl, rfl⟩
  | cons character text ih =>
    constructor
    · unfold splitTrivia
      split
      · simp [ih.1]
      · split
        · simp [ih.2]
        · rfl
    · unfold splitComment
      split
      · simp [ih.1]
      · simp [ih.2]

theorem splitTrivia_rest_length_le (text : List Char) :
    (splitTrivia text).2.length ≤ text.length := by
  have lengths := congrArg List.length (splitTrivia_append text).1
  rw [List.length_append] at lengths
  omega

end ScopedLisp
