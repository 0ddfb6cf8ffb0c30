import ScopedLisp.Literal

/-!
# Forms

A form is one executable piece of a program.  Every form knows a position of
its own source, which is where it is reported when it fails.  A special form
keeps its opening parenthesis; an assignment, an operator and a call keep the
word that names what they do.  A call also remembers where its argument group
starts: at the first token behind the procedure's name.

`Form.lexemes` writes a form out again.
-/

namespace ScopedLisp

/-- The forms of the language. -/
inductive Form where
  /-- A token that stands for a value, with that value. -/
  | literal (token : Token) (value : Literal)
  /-- A bare name. -/
  | variable (name : Identifier)
  /-- `(set name value)` -/
  | assignment (target : Identifier) (value : Form)
  /-- `(if test consequent alternate)` -/
  | conditional (opening : Position) (test consequent alternate : Form)
  /-- `(lambda (name...) body)` -/
  | lambda (opening : Position) (parameters : List Identifier) (body : Form)
  /-- `(begin item...)` -/
  | sequence (opening : Position) (items : List Form)
  /-- `(print-line value)` -/
  | printLine (opening : Position) (value : Form)
  /-- `(operator left right)`, with the word that wrote the operator. -/
  | operation (operator : Operator) (word : Identifier) (left right : Form)
  /-- `(name argument...)` -/
  | call (name : Identifier) (groupPosition : Position) (arguments : List Form)
  deriving Inhabited

/-- The words that start special forms. -/
inductive SpecialForm where
  | sequence
  | lambda
  | conditional
  | assignment
  | printLine
  deriving DecidableEq, Inhabited

namespace SpecialForm

/-- The text that writes a special form's word. -/
def word : SpecialForm → String
  | .sequence => "begin"
  | .lambda => "lambda"
  | .conditional => "if"
  | .assignment => "set"
  | .printLine => "print-line"

/-- The special form whose word a text is. -/
def ofWord? : String → Option SpecialForm
  | "begin" => some .sequence
  | "lambda" => some .lambda
  | "if" => some .conditional
  | "set" => some .assignment
  | "print-line" => some .printLine
  | _ => none

@[simp]
theorem ofWord?_word (special : SpecialForm) :
    ofWord? special.word = some special := by
  cases special <;> rfl

end SpecialForm

namespace Form

/-- Where a form is reported. -/
def position : Form → Position
  | .literal token _ => token.position
  | .variable name => name.position
  | .assignment target _ => target.position
  | .conditional opening _ _ _ => opening
  | .lambda opening _ _ => opening
  | .sequence opening _ => opening
  | .printLine opening _ => opening
  | .operation _ word _ _ => word.position
  | .call name _ _ => name.position

end Form

/-! ## Writing forms -/

namespace Lexeme

/-- The lexeme of a name. -/
def name (text : String) : Lexeme :=
  ⟨.identifier, text⟩

/-- The opening parenthesis. -/
def opening : Lexeme :=
  ⟨.openParen, "("⟩

/-- The closing parenthesis. -/
def closing : Lexeme :=
  ⟨.closeParen, ")"⟩

end Lexeme

namespace Form

/-- The lexemes that write a form. -/
def lexemes : Form → List Lexeme
  | .literal token _ => [token.lexeme]
  | .variable name => [.name name.text]
  | .assignment target value =>
    [.opening, .name SpecialForm.assignment.word, .name target.text] ++
      value.lexemes ++ [.closing]
  | .conditional _ test consequent alternate =>
    [.opening, .name SpecialForm.conditional.word] ++ test.lexemes ++
      consequent.lexemes ++ alternate.lexemes ++ [.closing]
  | .lambda _ parameters body =>
    [.opening, .name SpecialForm.lambda.word, .opening] ++
      parameters.map (fun parameter => .name parameter.text) ++ [.closing] ++
      body.lexemes ++ [.closing]
  | .sequence _ items =>
    [.opening, .name SpecialForm.sequence.word] ++ lexemesOfAll items ++
      [.closing]
  | .printLine _ value =>
    [.opening, .name SpecialForm.printLine.word] ++ value.lexemes ++ [.closing]
  | .operation _ word left right =>
    [.opening, .name word.text] ++ left.lexemes ++ right.lexemes ++
      [.closing]
  | .call name _ arguments =>
    [.opening, .name name.text] ++ lexemesOfAll arguments ++ [.closing]
where
  /-- The lexemes that write forms one after the other. -/
  lexemesOfAll : List Form → List Lexeme
    | [] => []
    | form :: forms => form.lexemes ++ lexemesOfAll forms

end Form

end ScopedLisp
