import ScopedLisp.Form

/-!
# Reading forms by descent

Forms can be read by procedures that call each other: one for a form, one for
what stands behind an opening parenthesis, and one for each kind of compound
form, which reads the forms inside by calling the first one again.  What they
share is how many of the tokens have been taken.

The procedures for compound forms are given the one for forms, and
`Descent.form` ties them together to a depth.  Loops are given a number of
rounds.  Beyond either nothing is said about the tokens.
-/

namespace ScopedLisp

/-- Tokens, and how many of them have been taken. -/
structure TokenRow where
  tokens : List Token
  taken : Nat

namespace TokenRow

/-- The tokens that have not been taken. -/
def ahead (row : TokenRow) : List Token :=
  row.tokens.drop row.taken

/-- The token that is next. -/
def next? (row : TokenRow) : Option Token :=
  row.tokens[row.taken]?

/-- The row behind its next token. -/
def behind (row : TokenRow) : TokenRow :=
  { row with taken := row.taken + 1 }

end TokenRow

/-- How a descent ends. -/
inductive Descended (α : Type) where
  | done (value : α) (row : TokenRow)
  | refused (error : Error)
  /-- The depth or the rounds did not suffice. -/
  | unfinished

/-- What a descent says of its tokens, if it ends. -/
def Descended.result? {α : Type} : Descended α → Option (Except Error α)
  | .done value _ => some (.ok value)
  | .refused error => some (.error error)
  | .unfinished => none

/-- A procedure that takes tokens. -/
def Descent (α : Type) : Type :=
  TokenRow → Descended α

namespace Descent

variable {α β : Type}

/-- Takes nothing. -/
protected def pure (value : α) : Descent α := fun row =>
  .done value row

/-- Goes on with the value of a descent that is done. -/
protected def bind (first : Descent α) (second : α → Descent β) : Descent β :=
  fun row =>
    match first row with
    | .done value row => second value row
    | .refused error => .refused error
    | .unfinished => .unfinished

instance : Monad Descent where
  pure := Descent.pure
  bind := Descent.bind

/-- Refuses the tokens. -/
def refuse (error : Error) : Descent α := fun _ =>
  .refused error

/-- Does not end within its depth. -/
def unfinished : Descent α := fun _ =>
  .unfinished

/-! ## Single tokens -/

/-- The error of a token that does not fit. -/
def unexpected (wanted : Expectation) (token : Token) : Descent α :=
  refuse (.located (.expected wanted (some token.lexeme)) token.position)

/-- The error of tokens that end too early, at the last of them. -/
def missing (wanted : Expectation) : Descent α := fun row =>
  .refused ⟨.expected wanted none, row.tokens.getLast?.map (·.position)⟩

/-- Looks at the next token. -/
def peek : Descent (Option Token) := fun row =>
  .done row.next? row

/-- Takes the next token. -/
def advance : Descent Token := fun row =>
  match row.next? with
  | some token => .done token row.behind
  | none => missing .form row

/-- Whether there is a next token and it is of a kind. -/
def check (kind : TokenKind) : Descent Bool := do
  return (← peek).any (·.kind == kind)

/-- Takes the next token, which has to be of a kind. -/
def expect (kind : TokenKind) : Descent Token := do
  if ← check kind then
    return ← advance
  match ← peek with
  | some token => unexpected (.token kind) token
  | none => missing (.token kind)

/-! ## Loops -/

/-- Takes names up to a closing parenthesis. -/
def names : Nat → List Identifier → Descent (List Identifier)
  | 0, _ => unfinished
  | rounds + 1, identifiers => do
    if ← check .closeParen then
      return identifiers
    let token ← expect .identifier
    names rounds (identifiers ++ [token.identifier])

/-- Takes forms up to and including a closing parenthesis. -/
def untilClose (form : Descent Form) : Nat → List Form → Descent (List Form)
  | 0, _ => unfinished
  | rounds + 1, forms => do
    if ← check .closeParen then
      let _ ← expect .closeParen
      return forms
    let next ← form
    untilClose form rounds (forms ++ [next])

/-! ## Compound forms, from their first word on -/

section Compound

variable (form : Descent Form) (rounds : Nat) (opening : Position)

def sequence : Descent Form := do
  let _ ← advance
  let items ← untilClose form rounds []
  return .sequence opening items

def lambda : Descent Form := do
  let _ ← advance
  let _ ← expect .openParen
  let parameters ← names rounds []
  let _ ← expect .closeParen
  let body ← form
  let _ ← expect .closeParen
  return .lambda opening parameters body

def conditional : Descent Form := do
  let _ ← advance
  let test ← form
  let consequent ← form
  let alternate ← form
  let _ ← expect .closeParen
  return .conditional opening test consequent alternate

def assignment : Descent Form := do
  let _ ← advance
  let target ← expect .identifier
  let value ← form
  let _ ← expect .closeParen
  return .assignment target.identifier value

def printLine : Descent Form := do
  let _ ← advance
  let value ← form
  let _ ← expect .closeParen
  return .printLine opening value

def operation (operator : Operator) : Descent Form := do
  let word ← advance
  let left ← form
  let right ← form
  let _ ← expect .closeParen
  return .operation operator word.identifier left right

def procedureCall : Descent Form := do
  let name ← advance
  let groupPosition := ((← peek).map (·.position)).getD name.position
  let arguments ← untilClose form rounds []
  return .call name.identifier groupPosition arguments

/-- Takes what stands behind an opening parenthesis, by the word that is next. -/
def compound : Descent Form := do
  match ← peek with
  | none => missing .head
  | some head =>
    if head.kind = .identifier then
      match SpecialForm.ofWord? head.text with
      | some .sequence => sequence form rounds opening
      | some .lambda => lambda form rounds opening
      | some .conditional => conditional form opening
      | some .assignment => assignment form
      | some .printLine => printLine form opening
      | none =>
        match Operator.ofSymbol? head.text with
        | some operator => operation form operator
        | none => procedureCall form rounds
    else unexpected .head head

end Compound

/-! ## Forms -/

/-- Takes a form, to a depth. -/
def form : Nat → Descent Form
  | 0 => unfinished
  | depth + 1 => do
    let token ← advance
    match token.kind with
    | .openParen => compound (form depth) depth token.position
    | .identifier => return .variable token.identifier
    | .nil | .number | .string | .boolean =>
      match token.literal with
      | .ok value => return .literal token value
      | .error error => refuse error
    | .closeParen => refuse (.located .unexpectedClose token.position)

/-- Takes one form and nothing behind it, to a depth. -/
def oneForm (depth : Nat) : Descent Form := do
  let result ← form depth
  match ← peek with
  | some token => unexpected .endOfInput token
  | none => return result

end Descent

/-- Reads tokens by descent, to a depth. -/
def Form.descend (depth : Nat) (tokens : List Token) : Descended Form :=
  Descent.oneForm depth ⟨tokens, 0⟩

end ScopedLisp
