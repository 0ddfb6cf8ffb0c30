import ScopedLisp.Form

/-!
# Reading forms

A reader goes through the tokens one by one.  Its state says what has to come
next, together with the unfinished forms around that place, the innermost
first.  A token either takes the reader to its next state or is the first that
cannot be right, and then it is reported; no token is looked at twice.
`Form.ofTokens` reads exactly one form and nothing behind it.
-/

namespace ScopedLisp

/-- A form with a gap that the next form read will fill. -/
inductive Gap where
  | item (opening : Position) (reversedItems : List Form)
  | argument (name : Identifier) (groupPosition : Position)
    (reversedArguments : List Form)
  | body (opening : Position) (parameters : List Identifier)
  | test (opening : Position)
  | consequent (opening : Position) (test : Form)
  | alternate (opening : Position) (test consequent : Form)
  | assigned (target : Identifier)
  | printed (opening : Position)
  | left (operator : Operator) (word : Identifier)
  | right (operator : Operator) (word : Identifier) (left : Form)

/-- What filling a gap leads to. -/
inductive Filled where
  /-- Another gap of the same form. -/
  | open (gap : Gap)
  /-- A form that has all its parts and only lacks its closing parenthesis. -/
  | complete (form : Form)

namespace Gap

/-- Puts a form into a gap. -/
def fill (gap : Gap) (form : Form) : Filled :=
  match gap with
  | .item opening items => .open (.item opening (form :: items))
  | .argument name group arguments =>
    .open (.argument name group (form :: arguments))
  | .body opening parameters => .complete (.lambda opening parameters form)
  | .test opening => .open (.consequent opening form)
  | .consequent opening tested => .open (.alternate opening tested form)
  | .alternate opening tested chosen =>
    .complete (.conditional opening tested chosen form)
  | .assigned target => .complete (.assignment target form)
  | .printed opening => .complete (.printLine opening form)
  | .left operator word => .open (.right operator word form)
  | .right operator word first =>
    .complete (.operation operator word first form)

/-- The form around a gap that may stay empty. -/
def close? : Gap → Option Form
  | .item opening items => some (.sequence opening items.reverse)
  | .argument name group arguments => some (.call name group arguments.reverse)
  | _ => none

end Gap

/-- What a reader waits for; `around` holds the gaps of the enclosing forms. -/
inductive Reader where
  /-- A form, or the end of the innermost form if its gap may stay empty. -/
  | atForm (around : List Gap)
  /-- The word behind an opening parenthesis. -/
  | atHead (opening : Position) (around : List Gap)
  /-- The parenthesis that opens the parameters of a `lambda`. -/
  | atParameterList (opening : Position) (around : List Gap)
  /-- A parameter, or the end of the parameters. -/
  | atParameter (opening : Position) (reversedParameters : List Identifier)
    (around : List Gap)
  /-- The name that is assigned to. -/
  | atTarget (around : List Gap)
  /-- The first argument of a call, or the end of the call. -/
  | atFirstArgument (name : Identifier) (around : List Gap)
  /-- The closing parenthesis of a form that has all its parts. -/
  | atClosing (complete : Form) (around : List Gap)
  /-- Nothing more. -/
  | done (result : Form)

namespace Reader

/-- Hands a form over to the place it was read for. -/
def deliver (form : Form) : List Gap → Reader
  | [] => .done form
  | gap :: around =>
    match gap.fill form with
    | .open gap => .atForm (gap :: around)
    | .complete form => .atClosing form around

/-- The error of a token that does not fit. -/
def unexpected (wanted : Expectation) (token : Token) : Except Error Reader :=
  .error (.located (.expected wanted (some token.lexeme)) token.position)

/-- Goes on after the word behind an opening parenthesis. -/
def afterHead (opening : Position) (head : Identifier) (around : List Gap) :
    Reader :=
  match SpecialForm.ofWord? head.text with
  | some .sequence => .atForm (.item opening [] :: around)
  | some .lambda => .atParameterList opening around
  | some .conditional => .atForm (.test opening :: around)
  | some .assignment => .atTarget around
  | some .printLine => .atForm (.printed opening :: around)
  | none =>
    match Operator.ofSymbol? head.text with
    | some operator => .atForm (.left operator head :: around)
    | none => .atFirstArgument head around

/-- Closes the innermost form, if its gap may stay empty. -/
def closeInnermost (token : Token) (around : List Gap) : Except Error Reader :=
  let refused := .error (.located .unexpectedClose token.position)
  match around with
  | [] => refused
  | gap :: around =>
    match gap.close? with
    | some form => .ok (deliver form around)
    | none => refused

/-- Takes a token where a form may start. -/
def stepForm (token : Token) (around : List Gap) : Except Error Reader :=
  match token.kind with
  | .openParen => .ok (.atHead token.position around)
  | .closeParen => closeInnermost token around
  | .identifier => .ok (deliver (.variable token.identifier) around)
  | .nil | .number | .string | .boolean =>
    token.literal.map fun value => deliver (.literal token value) around

/-- Takes the next token. -/
def step (reader : Reader) (token : Token) : Except Error Reader :=
  match reader with
  | .atForm around => stepForm token around
  | .atHead opening around =>
    match token.kind with
    | .identifier => .ok (afterHead opening token.identifier around)
    | _ => unexpected .head token
  | .atParameterList opening around =>
    match token.kind with
    | .openParen => .ok (.atParameter opening [] around)
    | _ => unexpected (.token .openParen) token
  | .atParameter opening parameters around =>
    match token.kind with
    | .identifier => .ok (.atParameter opening (token.identifier :: parameters) around)
    | .closeParen => .ok (.atForm (.body opening parameters.reverse :: around))
    | _ => unexpected (.token .identifier) token
  | .atTarget around =>
    match token.kind with
    | .identifier => .ok (.atForm (.assigned token.identifier :: around))
    | _ => unexpected (.token .identifier) token
  | .atFirstArgument name around =>
    stepForm token (.argument name token.position [] :: around)
  | .atClosing form around =>
    match token.kind with
    | .closeParen => .ok (deliver form around)
    | _ => unexpected (.token .closeParen) token
  | .done _ => unexpected .endOfInput token

/-- What is missing if the tokens end here. -/
def missing : Reader → Expectation
  | .atForm _ => .form
  | .atHead _ _ => .head
  | .atParameterList _ _ => .token .openParen
  | .atParameter _ _ _ => .token .identifier
  | .atTarget _ => .token .identifier
  | .atFirstArgument _ _ => .form
  | .atClosing _ _ => .token .closeParen
  | .done _ => .endOfInput

/-- The form that has been read, if nothing more may come. -/
def result? : Reader → Option Form
  | .done form => some form
  | _ => none

/-- The reader before the first token. -/
def start : Reader :=
  .atForm []

/-- Takes tokens one after the other. -/
def run (reader : Reader) : List Token → Except Error Reader
  | [] => .ok reader
  | token :: tokens =>
    match reader.step token with
    | .ok next => next.run tokens
    | .error error => .error error

end Reader

/--
The one form that a list of tokens writes.  When the tokens end too early, the
last of them is reported.
-/
def Form.ofTokens (tokens : List Token) : Except Error Form :=
  match Reader.start.run tokens with
  | .error error => .error error
  | .ok reader =>
    match reader.result? with
    | some form => .ok form
    | none =>
      .error ⟨.expected reader.missing none, tokens.getLast?.map (·.position)⟩

end ScopedLisp
