/-!
# Source positions

A position names a character of a source text by line and column, both
counted from one.  A newline ends a line; every other character, whatever its
encoding, is one column wide.  `Position.advance` is the only way positions
move, so where a text ends depends on that text alone.
-/

namespace ScopedLisp

/-- A place in a source text. -/
structure Position where
  line : Nat
  column : Nat
  deriving DecidableEq, Inhabited

namespace Position

/-- The place of the first character of every source. -/
def start : Position := ⟨1, 1⟩

/-- The place just after one character. -/
def next (position : Position) (character : Char) : Position :=
  if character = '\n' then
    ⟨position.line + 1, 1⟩
  else
    ⟨position.line, position.column + 1⟩

/-- The place just after a text. -/
def advance (position : Position) (text : List Char) : Position :=
  text.foldl next position

@[simp]
theorem advance_nil (position : Position) : position.advance [] = position :=
  rfl

@[simp]
theorem advance_cons (position : Position) (character : Char)
    (text : List Char) :
    position.advance (character :: text) =
      (position.next character).advance text :=
  rfl

theorem advance_append (position : Position) (first second : List Char) :
    position.advance (first ++ second) =
      (position.advance first).advance second := by
  simp [advance]

/-- `line:column`, as messages show it. -/
def text (position : Position) : String :=
  s!"{position.line}:{position.column}"

end Position

end ScopedLisp
