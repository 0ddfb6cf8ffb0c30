import ScopedLisp.Proofs.FormPositions

/-!
# The grammar of forms

`Derives` is the grammar of the language over tokens, without any reference to
a reader.  Parentheses are recognised by their kind alone, all other fixed
words by kind and text.

`Form.WellFormed` says which trees the grammar can be read into: a literal
holds the value of its token, an operator is written with its own symbol, and
a call is headed neither by the word of a special form nor by an operator.
The main statement is `Derives.exists_form`: every derivable list whose
literals have values is written by a well-formed form.
-/

namespace ScopedLisp

/-! ## Lexemes as the grammar sees them -/

/-- Whether tokens of this kind stand for a value. -/
def TokenKind.isLiteral : TokenKind → Bool
  | .nil | .number | .string | .boolean => true
  | .identifier | .openParen | .closeParen => false

/-- A lexeme with the proper spelling if it is a parenthesis. -/
def Lexeme.spelled (lexeme : Lexeme) : Lexeme :=
  match lexeme.kind with
  | .openParen => .opening
  | .closeParen => .closing
  | _ => lexeme

theorem Lexeme.spelled_eq_opening_iff {lexeme : Lexeme} :
    lexeme.spelled = .opening ↔ lexeme.kind = .openParen := by
  rcases lexeme with ⟨kind, text⟩
  cases kind <;> simp [Lexeme.spelled, Lexeme.opening, Lexeme.closing]

theorem Lexeme.spelled_eq_closing_iff {lexeme : Lexeme} :
    lexeme.spelled = .closing ↔ lexeme.kind = .closeParen := by
  rcases lexeme with ⟨kind, text⟩
  cases kind <;> simp [Lexeme.spelled, Lexeme.opening, Lexeme.closing]

theorem Lexeme.spelled_eq_name_iff {lexeme : Lexeme} {text : String} :
    lexeme.spelled = .name text ↔ lexeme = .name text := by
  rcases lexeme with ⟨kind, written⟩
  cases kind <;>
    simp [Lexeme.spelled, Lexeme.opening, Lexeme.closing, Lexeme.name]

theorem Lexeme.spelled_of_isLiteral {lexeme : Lexeme}
    (isLiteral : lexeme.kind.isLiteral = true) : lexeme.spelled = lexeme := by
  rcases lexeme with ⟨kind, text⟩
  cases kind <;> simp_all [Lexeme.spelled, TokenKind.isLiteral]

/-- No parenthesis is spelled like a literal. -/
theorem Lexeme.eq_of_spelled_eq {lexeme literal : Lexeme}
    (isLiteral : literal.kind.isLiteral = true)
    (spelled : lexeme.spelled = literal) : lexeme = literal := by
  rcases lexeme with ⟨kind, text⟩
  subst spelled
  cases kind <;> first | rfl | contradiction

/-- Only tokens of the four literal kinds have values. -/
theorem Token.isLiteral_of_literal {token : Token} {value : Literal}
    (converts : token.literal = .ok value) :
    token.kind.isLiteral = true := by
  rcases token with ⟨⟨kind, text⟩, position⟩
  cases kind <;> first | rfl | contradiction

/-- Where a token stands does not matter for its value. -/
theorem Token.literal_eq_ok_iff {token : Token} {value : Literal} :
    token.literal = .ok value ↔ token.lexeme.literal = .ok value := by
  unfold Token.literal
  cases token.lexeme.literal with
  | error cause =>
      constructor
      · intro converts
        cases converts
      · intro converts
        cases converts
  | ok literal =>
      constructor
      · intro converts
        cases converts
        rfl
      · intro converts
        cases converts
        rfl

/-- A token that is a name with a given text. -/
def Token.IsWord (token : Token) (text : String) : Prop :=
  token.kind = .identifier ∧ token.text = text

theorem Token.isWord_iff {token : Token} {text : String} :
    token.IsWord text ↔ token.lexeme = .name text := by
  rcases token with ⟨⟨kind, written⟩, position⟩
  simp [Token.IsWord, Lexeme.name]

/-! ## The grammar -/

/-- The texts that write operators. -/
def operatorSymbols : List String :=
  ["+", "-", "*", "/", "<", ">", "<=", ">=", "="]

/-- The texts that start something else than a call. -/
def reservedWords : List String :=
  ["begin", "lambda", "if", "set", "print-line"] ++ operatorSymbols

/-- What the grammar speaks about. -/
inductive Nonterminal where
  | form
  | compound
  | forms
  | names

/-- The token lists that a nonterminal of the grammar derives. -/
inductive Derives : Nonterminal → List Token → Prop where
  | literal {token : Token} (isLiteral : token.kind.isLiteral = true) :
      Derives .form [token]
  | identifier {token : Token} (isName : token.kind = .identifier) :
      Derives .form [token]
  | parenthesized {opening closing : Token} {tokens : List Token}
      (opens : opening.kind = .openParen)
      (compound : Derives .compound tokens)
      (closes : closing.kind = .closeParen) :
      Derives .form (opening :: tokens ++ [closing])
  | sequence {head : Token} {items : List Token}
      (word : head.IsWord "begin") (forms : Derives .forms items) :
      Derives .compound (head :: items)
  | lambda {head opening closing : Token} {parameters body : List Token}
      (word : head.IsWord "lambda") (opens : opening.kind = .openParen)
      (names : Derives .names parameters)
      (closes : closing.kind = .closeParen) (form : Derives .form body) :
      Derives .compound
        (head :: opening :: parameters ++ closing :: body)
  | conditional {head : Token} {test consequent alternate : List Token}
      (word : head.IsWord "if") (tested : Derives .form test)
      (chosen : Derives .form consequent)
      (otherwise : Derives .form alternate) :
      Derives .compound (head :: test ++ consequent ++ alternate)
  | assignment {head target : Token} {value : List Token}
      (word : head.IsWord "set") (isName : target.kind = .identifier)
      (form : Derives .form value) :
      Derives .compound (head :: target :: value)
  | operation {head : Token} {left right : List Token} {symbol : String}
      (isSymbol : symbol ∈ operatorSymbols) (word : head.IsWord symbol)
      (first : Derives .form left) (second : Derives .form right) :
      Derives .compound (head :: left ++ right)
  | printLine {head : Token} {value : List Token}
      (word : head.IsWord "print-line") (form : Derives .form value) :
      Derives .compound (head :: value)
  | call {head : Token} {arguments : List Token}
      (isName : head.kind = .identifier)
      (unreserved : head.text ∉ reservedWords)
      (forms : Derives .forms arguments) :
      Derives .compound (head :: arguments)
  | noForms : Derives .forms []
  | moreForms {first rest : List Token}
      (form : Derives .form first) (forms : Derives .forms rest) :
      Derives .forms (first ++ rest)
  | noNames : Derives .names []
  | moreNames {token : Token} {rest : List Token}
      (isName : token.kind = .identifier) (names : Derives .names rest) :
      Derives .names (token :: rest)

/-- Every token of a literal kind in a list has a value. -/
def LiteralsConvert (tokens : List Token) : Prop :=
  ∀ token ∈ tokens, token.kind.isLiteral = true →
    ∃ value, token.literal = .ok value

@[simp]
theorem literalsConvert_nil : LiteralsConvert [] := by
  intro token member
  cases member

@[simp]
theorem literalsConvert_cons {token : Token} {tokens : List Token} :
    LiteralsConvert (token :: tokens) ↔
      (token.kind.isLiteral = true → ∃ value, token.literal = .ok value) ∧
        LiteralsConvert tokens := by
  simp [LiteralsConvert]

@[simp]
theorem literalsConvert_append {first second : List Token} :
    LiteralsConvert (first ++ second) ↔
      LiteralsConvert first ∧ LiteralsConvert second := by
  simp only [LiteralsConvert, List.mem_append]
  constructor
  · intro converts
    exact ⟨fun token member => converts token (Or.inl member),
      fun token member => converts token (Or.inr member)⟩
  · rintro ⟨inFirst, inSecond⟩ token (member | member)
    · exact inFirst token member
    · exact inSecond token member

/-! ## Words of special forms and operators -/

theorem SpecialForm.ofWord?_eq_none_iff {text : String} :
    SpecialForm.ofWord? text = none ↔
      text ∉ ["begin", "lambda", "if", "set", "print-line"] := by
  unfold SpecialForm.ofWord?
  split <;> simp_all

/-- A text is read as a special form's word exactly if it is that word. -/
theorem SpecialForm.ofWord?_eq_some_iff {text : String}
    {special : SpecialForm} :
    SpecialForm.ofWord? text = some special ↔ text = special.word := by
  constructor
  · intro read
    unfold SpecialForm.ofWord? at read
    split at read
    all_goals
      first
        | (obtain rfl := Option.some.inj read; rfl)
        | contradiction
  · rintro rfl
    exact SpecialForm.ofWord?_word special

theorem Operator.ofSymbol?_eq_none_iff {text : String} :
    Operator.ofSymbol? text = none ↔ text ∉ operatorSymbols := by
  unfold Operator.ofSymbol? operatorSymbols
  split <;> simp_all

/-- What heads a call is neither a special form's word nor an operator's. -/
theorem not_mem_reservedWords_iff {text : String} :
    text ∉ reservedWords ↔
      SpecialForm.ofWord? text = none ∧ Operator.ofSymbol? text = none := by
  rw [SpecialForm.ofWord?_eq_none_iff, Operator.ofSymbol?_eq_none_iff,
    reservedWords, List.mem_append, not_or]

theorem Operator.symbol_mem_operatorSymbols (operator : Operator) :
    operator.symbol ∈ operatorSymbols := by
  cases operator <;> simp [Operator.symbol, operatorSymbols]

theorem Operator.exists_symbol_of_mem {symbol : String}
    (isSymbol : symbol ∈ operatorSymbols) :
    ∃ operator : Operator, operator.symbol = symbol := by
  cases read : Operator.ofSymbol? symbol with
  | none => exact absurd isSymbol (Operator.ofSymbol?_eq_none_iff.mp read)
  | some operator =>
      exact ⟨operator, (Operator.ofSymbol?_eq_some_iff.mp read).symm⟩

/-! ## Well-formed forms -/

namespace Form

/--
The forms that reading can produce: values belong to their tokens, operators
to their words, and no call is headed by a reserved word.
-/
def WellFormed : Form → Prop
  | .literal token value => token.literal = .ok value
  | .variable _ => True
  | .assignment _ value => value.WellFormed
  | .conditional _ test consequent alternate =>
    test.WellFormed ∧ consequent.WellFormed ∧ alternate.WellFormed
  | .lambda _ _ body => body.WellFormed
  | .sequence _ items => allWellFormed items
  | .printLine _ value => value.WellFormed
  | .operation operator word left right =>
    word.text = operator.symbol ∧ left.WellFormed ∧ right.WellFormed
  | .call name _ arguments =>
    name.text ∉ reservedWords ∧ allWellFormed arguments
where
  /-- Every form of a list is well-formed. -/
  allWellFormed : List Form → Prop
    | [] => True
    | form :: forms => form.WellFormed ∧ allWellFormed forms

@[simp]
theorem allWellFormed_iff (forms : List Form) :
    WellFormed.allWellFormed forms ↔ ∀ form ∈ forms, form.WellFormed := by
  induction forms with
  | nil => simp [WellFormed.allWellFormed]
  | cons form forms ih => simp [WellFormed.allWellFormed, ih]

end Form

/-! ## From derivations to forms -/

/-- The lexemes of tokens, with proper spellings of parentheses. -/
def spellings (tokens : List Token) : List Lexeme :=
  tokens.map fun token => token.lexeme.spelled

@[simp]
theorem spellings_nil : spellings [] = [] :=
  rfl

@[simp]
theorem spellings_cons (token : Token) (tokens : List Token) :
    spellings (token :: tokens) = token.lexeme.spelled :: spellings tokens :=
  rfl

@[simp]
theorem spellings_append (first second : List Token) :
    spellings (first ++ second) = spellings first ++ spellings second :=
  List.map_append

/-- The well-formed trees behind the tokens that a nonterminal derives. -/
def Nonterminal.HasTree (tokens : List Token) : Nonterminal → Prop
  | .form => ∃ form : Form, form.WellFormed ∧ form.lexemes = spellings tokens
  | .compound =>
    ∃ form : Form, form.WellFormed ∧
      form.lexemes = .opening :: spellings tokens ++ [.closing]
  | .forms =>
    ∃ forms : List Form, (∀ form ∈ forms, form.WellFormed) ∧
      forms.flatMap Form.lexemes = spellings tokens
  | .names =>
    ∃ names : List Identifier,
      names.map (fun name => Lexeme.name name.text) = spellings tokens

theorem Token.IsWord.spelled {token : Token} {text : String}
    (word : token.IsWord text) : token.lexeme.spelled = .name text :=
  Lexeme.spelled_eq_name_iff.mpr (Token.isWord_iff.mp word)

theorem Token.spelled_of_isName {token : Token}
    (isName : token.kind = .identifier) :
    token.lexeme.spelled = .name token.text :=
  Token.IsWord.spelled ⟨isName, rfl⟩

/-- A derivable list whose literals have values is written by a tree. -/
theorem Derives.hasTree {nonterminal : Nonterminal} {tokens : List Token}
    (derivation : Derives nonterminal tokens)
    (literals : LiteralsConvert tokens) : nonterminal.HasTree tokens := by
  induction derivation with
  | @literal token isLiteral =>
      rcases (literalsConvert_cons.mp literals).1 isLiteral with
        ⟨value, converts⟩
      refine ⟨.literal token value, converts, ?_⟩
      simp [Form.lexemes, Lexeme.spelled_of_isLiteral isLiteral]
  | @identifier token isName =>
      refine ⟨.variable token.identifier, trivial, ?_⟩
      simp [Form.lexemes, Token.spelled_of_isName isName, Token.identifier]
  | parenthesized opens compound closes ih =>
      simp only [List.cons_append, literalsConvert_cons,
        literalsConvert_append] at literals
      rcases ih literals.2.1 with ⟨form, wellFormed, written⟩
      refine ⟨form, wellFormed, ?_⟩
      simp [written, Lexeme.spelled_eq_opening_iff.mpr opens,
        Lexeme.spelled_eq_closing_iff.mpr closes]
  | sequence word forms ih =>
      rcases ih (literalsConvert_cons.mp literals).2 with
        ⟨items, wellFormed, written⟩
      refine ⟨.sequence .start items, by simpa [Form.WellFormed], ?_⟩
      simp [Form.lexemes, Form.lexemesOfAll_eq_flatMap, written, word.spelled,
        SpecialForm.word]
  | lambda word opens names closes form namesTree bodyTree =>
      simp only [List.cons_append, literalsConvert_cons,
        literalsConvert_append] at literals
      rcases namesTree literals.2.2.1 with ⟨parameters, writtenNames⟩
      rcases bodyTree literals.2.2.2.2 with ⟨body, wellFormed, written⟩
      refine ⟨.lambda .start parameters body, wellFormed, ?_⟩
      simp [Form.lexemes, written, writtenNames, word.spelled,
        Lexeme.spelled_eq_opening_iff.mpr opens,
        Lexeme.spelled_eq_closing_iff.mpr closes, SpecialForm.word]
  | conditional word tested chosen otherwise testTree chosenTree otherTree =>
      simp only [List.cons_append, literalsConvert_cons,
        literalsConvert_append] at literals
      rcases testTree literals.2.1.1 with ⟨test, testWell, testWritten⟩
      rcases chosenTree literals.2.1.2 with
        ⟨consequent, chosenWell, chosenWritten⟩
      rcases otherTree literals.2.2 with ⟨alternate, otherWell, otherWritten⟩
      refine ⟨.conditional .start test consequent alternate,
        ⟨testWell, chosenWell, otherWell⟩, ?_⟩
      simp [Form.lexemes, testWritten, chosenWritten, otherWritten,
        word.spelled, SpecialForm.word]
  | @assignment head target value word isName form ih =>
      simp only [literalsConvert_cons] at literals
      rcases ih literals.2.2 with ⟨tree, wellFormed, written⟩
      refine ⟨.assignment target.identifier tree, wellFormed, ?_⟩
      simp [Form.lexemes, written, word.spelled,
        Token.spelled_of_isName isName, Token.identifier, SpecialForm.word]
  | @operation head left right symbol isSymbol word first second leftTree
      rightTree =>
      simp only [List.cons_append, literalsConvert_cons,
        literalsConvert_append] at literals
      rcases leftTree literals.2.1 with ⟨leftForm, leftWell, leftWritten⟩
      rcases rightTree literals.2.2 with ⟨rightForm, rightWell, rightWritten⟩
      rcases Operator.exists_symbol_of_mem isSymbol with ⟨operator, rfl⟩
      refine ⟨.operation operator ⟨operator.symbol, .start⟩ leftForm rightForm,
        ⟨rfl, leftWell, rightWell⟩, ?_⟩
      simp [Form.lexemes, leftWritten, rightWritten, word.spelled]
  | printLine word form ih =>
      rcases ih (literalsConvert_cons.mp literals).2 with
        ⟨tree, wellFormed, written⟩
      refine ⟨.printLine .start tree, wellFormed, ?_⟩
      simp [Form.lexemes, written, word.spelled, SpecialForm.word]
  | @call head arguments isName unreserved forms ih =>
      rcases ih (literalsConvert_cons.mp literals).2 with
        ⟨items, wellFormed, written⟩
      refine ⟨.call head.identifier .start items,
        ⟨unreserved, (Form.allWellFormed_iff items).mpr wellFormed⟩, ?_⟩
      simp [Form.lexemes, Form.lexemesOfAll_eq_flatMap, written,
        Token.spelled_of_isName isName, Token.identifier]
  | noForms =>
      exact ⟨[], by simp, rfl⟩
  | moreForms form forms formTree formsTree =>
      rcases literalsConvert_append.mp literals with ⟨inFirst, inRest⟩
      rcases formTree inFirst with ⟨tree, wellFormed, written⟩
      rcases formsTree inRest with ⟨trees, allWellFormed, allWritten⟩
      refine ⟨tree :: trees, by simpa using ⟨wellFormed, allWellFormed⟩, ?_⟩
      simp [written, allWritten]
  | noNames =>
      exact ⟨[], rfl⟩
  | @moreNames token rest isName names ih =>
      rcases ih (literalsConvert_cons.mp literals).2 with ⟨identifiers, written⟩
      refine ⟨token.identifier :: identifiers, ?_⟩
      simp [written, Token.spelled_of_isName isName, Token.identifier]

/-- Every derivable list whose literals have values is written by a form. -/
theorem Derives.exists_form {tokens : List Token}
    (derivation : Derives .form tokens) (literals : LiteralsConvert tokens) :
    ∃ form : Form, form.WellFormed ∧ form.lexemes = spellings tokens :=
  derivation.hasTree literals

end ScopedLisp
