import ScopedLisp.Proofs.FormReading

/-!
# Forms and their token lists

The tokens that a well-formed form writes are derivable from the grammar, and
reading them gives that form back, but for its places.  Together with what
`FormReading` says about a finished reader this makes reading exact: it
succeeds on the derivable lists whose literals have values and on no others,
and it neither loses nor invents a lexeme.

A parenthesis is recognised by its kind, so a list made by hand may spell one
in any way.  A form does not keep such a spelling: what it writes agrees with
the tokens it was read from once parentheses are properly spelled.
-/

namespace ScopedLisp

/-! ## Taking written tokens apart -/

theorem spellings_eq_cons_iff {tokens : List Token} {lexeme : Lexeme}
    {lexemes : List Lexeme} :
    spellings tokens = lexeme :: lexemes ↔
      ∃ token rest, tokens = token :: rest ∧
        token.lexeme.spelled = lexeme ∧ spellings rest = lexemes :=
  List.map_eq_cons_iff

theorem spellings_eq_append_iff {tokens : List Token}
    {first second : List Lexeme} :
    spellings tokens = first ++ second ↔
      ∃ front back, tokens = front ++ back ∧
        spellings front = first ∧ spellings back = second :=
  List.map_eq_append_iff

theorem eq_singleton_of_spellings {tokens : List Token} {lexeme : Lexeme}
    (written : spellings tokens = [lexeme]) :
    ∃ token, tokens = [token] ∧ token.lexeme.spelled = lexeme := by
  rcases spellings_eq_cons_iff.mp written with
    ⟨token, rest, rfl, spelled, nothing⟩
  exact ⟨token, by simpa [spellings] using nothing, spelled⟩

theorem Token.isWord_of_spelled {token : Token} {text : String}
    (spelled : token.lexeme.spelled = .name text) : token.IsWord text :=
  Token.isWord_iff.mpr (Lexeme.spelled_eq_name_iff.mp spelled)

/-- The tokens of a compound form: parentheses, a head and the parts. -/
theorem exists_compound_of_spellings {tokens : List Token} {word : String}
    {parts : List Lexeme}
    (written :
      spellings tokens =
        .opening :: .name word :: (parts ++ [.closing])) :
    ∃ opening head inner closing,
      tokens = opening :: head :: inner ++ [closing] ∧
        opening.kind = .openParen ∧ head.IsWord word ∧
          closing.kind = .closeParen ∧ spellings inner = parts := by
  rcases spellings_eq_cons_iff.mp written with
    ⟨opening, behind, rfl, opens, written⟩
  rcases spellings_eq_cons_iff.mp written with
    ⟨head, behind, rfl, headed, written⟩
  rcases spellings_eq_append_iff.mp written with
    ⟨inner, last, rfl, writtenInner, writtenLast⟩
  rcases eq_singleton_of_spellings writtenLast with ⟨closing, rfl, closes⟩
  exact ⟨opening, head, inner, closing, rfl,
    Lexeme.spelled_eq_opening_iff.mp opens, Token.isWord_of_spelled headed,
    Lexeme.spelled_eq_closing_iff.mp closes, writtenInner⟩

/-! ## What a form writes can be read -/

/-- Some tokens are derivable, have values, and are read as a form but for its places. -/
structure Form.ReadFrom (form : Form) (tokens : List Token) : Prop where
  derivation : Derives .form tokens
  literals : LiteralsConvert tokens
  reading : ∃ parsed : Form,
    parsed.unplaced = form.unplaced ∧ Reader.Reads tokens parsed

/-- The same for a list of forms. -/
structure Form.AllReadFrom (forms : List Form) (tokens : List Token) :
    Prop where
  derivation : Derives .forms tokens
  literals : LiteralsConvert tokens
  reading : ∃ parsed : List Form,
    parsed.map unplaced = forms.map unplaced ∧ Reader.ReadsAll tokens parsed

/-- Whatever tokens a form writes, they are read as that form. -/
def Form.Readable (form : Form) : Prop :=
  ∀ tokens, form.lexemes = spellings tokens → form.ReadFrom tokens

/-- Readable forms are read one after the other. -/
theorem Form.allReadFrom {forms : List Form} {tokens : List Token}
    (each : ∀ form ∈ forms, form.Readable)
    (written : forms.flatMap Form.lexemes = spellings tokens) :
    Form.AllReadFrom forms tokens := by
  induction forms generalizing tokens with
  | nil =>
      obtain rfl : tokens = [] := by
        simpa [spellings] using written.symm
      exact ⟨.noForms, literalsConvert_nil, [], rfl, .nil⟩
  | cons form forms ih =>
      rcases List.forall_mem_cons.mp each with ⟨readsFirst, readsRest⟩
      rcases spellings_eq_append_iff.mp written.symm with
        ⟨front, back, rfl, writtenFront, writtenBack⟩
      rcases readsFirst front writtenFront.symm with
        ⟨derivation, literals, parsed, same, reads⟩
      rcases ih readsRest writtenBack.symm with
        ⟨derivations, allLiterals, allParsed, allSame, readsAll⟩
      exact ⟨.moreForms derivation derivations,
        literalsConvert_append.mpr ⟨literals, allLiterals⟩,
        parsed :: allParsed, by simp [same, allSame], Reader.ReadsAll.cons reads readsAll⟩

/-- Tokens that name parameters. -/
theorem derives_names {names : List Token}
    (areNames : ∀ name ∈ names, name.kind = .identifier) :
    Derives .names names := by
  induction names with
  | nil => exact .noNames
  | cons name names ih =>
      rcases List.forall_mem_cons.mp areNames with ⟨isName, areNames⟩
      exact .moreNames isName (ih areNames)

theorem not_isLiteral_of_isName {token : Token}
    (isName : token.kind = .identifier) : ¬token.kind.isLiteral = true := by
  simp [isName, TokenKind.isLiteral]

theorem literalsConvert_of_areNames {names : List Token}
    (areNames : ∀ name ∈ names, name.kind = .identifier) :
    LiteralsConvert names := by
  intro name member isLiteral
  exact absurd isLiteral (not_isLiteral_of_isName (areNames name member))

theorem literalsConvert_compound {opening head closing : Token}
    {inner : List Token} (opens : opening.kind = .openParen)
    (isName : head.kind = .identifier) (closes : closing.kind = .closeParen)
    (literals : LiteralsConvert inner) :
    LiteralsConvert (opening :: head :: inner ++ [closing]) := by
  simp [literals, opens, isName, closes, TokenKind.isLiteral]

/-- A list of names that is written is a list of name tokens. -/
theorem areNames_of_spellings {parameters : List Identifier}
    {names : List Token}
    (written :
      spellings names =
        parameters.map fun parameter => .name parameter.text) :
    (∀ name ∈ names, name.kind = .identifier) ∧
      names.map Token.text = parameters.map Identifier.text := by
  induction parameters generalizing names with
  | nil =>
      obtain rfl : names = [] := by
        simpa [spellings] using written
      exact ⟨by simp, rfl⟩
  | cons parameter parameters ih =>
      rcases spellings_eq_cons_iff.mp written with
        ⟨name, rest, rfl, spelled, written⟩
      rcases ih written with ⟨areNames, sameTexts⟩
      rcases Token.isWord_of_spelled spelled with ⟨isName, sameText⟩
      exact ⟨List.forall_mem_cons.mpr ⟨isName, areNames⟩,
        by simp [sameText, sameTexts]⟩

theorem Reader.Reads.literal {token : Token} {value : Literal}
    (converts : token.literal = .ok value) :
    Reader.Reads [token] (.literal token value) := by
  refine .single fun around => ?_
  have isLiteral := Token.isLiteral_of_literal converts
  cases kind : token.kind <;>
    simp_all [Reader.step, Reader.stepForm, TokenKind.isLiteral, Except.map]

theorem Reader.Reads.variable {token : Token}
    (isName : token.kind = .identifier) :
    Reader.Reads [token] (.variable token.identifier) := by
  refine .single fun around => ?_
  simp [Reader.step, Reader.stepForm, isName]

namespace Form.Readable

theorem literal {token : Token} {value : Literal}
    (converts : token.literal = .ok value) :
    Readable (.literal token value) := by
  intro tokens written
  rcases eq_singleton_of_spellings written.symm with ⟨read, rfl, spelled⟩
  have isLiteral := Token.isLiteral_of_literal converts
  have same := Lexeme.eq_of_spelled_eq isLiteral spelled
  have readConverts : read.literal = .ok value := by
    rw [Token.literal_eq_ok_iff, same]
    exact Token.literal_eq_ok_iff.mp converts
  refine ⟨.literal (by simpa [Token.kind, same] using isLiteral), ?_,
    .literal read value, ?_, .literal readConverts⟩
  · simp [readConverts]
  · simp [unplaced_eq_mapPositions, mapPositions, Token.mapPosition, same]

theorem reference (name : Identifier) : Readable (.variable name) := by
  intro tokens written
  rcases eq_singleton_of_spellings written.symm with ⟨read, rfl, spelled⟩
  have word := Token.isWord_of_spelled spelled
  refine ⟨.identifier word.1, literalsConvert_of_areNames (by simp [word.1]),
    .variable read.identifier, ?_, .variable word.1⟩
  simp [unplaced_eq_mapPositions, mapPositions, Identifier.mapPosition,
    Token.identifier, word.2]

theorem assignment (target : Identifier) {value : Form}
    (readable : value.Readable) : Readable (.assignment target value) := by
  intro tokens written
  have shape : spellings tokens =
      .opening :: .name "set" ::
        ((.name target.text :: value.lexemes) ++ [.closing]) := by
    simpa [lexemes, SpecialForm.word] using written.symm
  rcases exists_compound_of_spellings shape with
    ⟨opening, head, inner, closing, rfl, opens, word, closes, written⟩
  rcases spellings_eq_cons_iff.mp written with
    ⟨name, rest, rfl, spelled, written⟩
  have named := Token.isWord_of_spelled spelled
  rcases readable rest written.symm with
    ⟨derivation, literals, parsed, same, reads⟩
  refine ⟨.parenthesized opens (.assignment word named.1 derivation) closes,
    literalsConvert_compound opens word.1 closes ?_,
    .assignment name.identifier parsed, ?_,
    .assignment opens closes word named.1 reads⟩
  · simp [literals, not_isLiteral_of_isName named.1]
  · simpa [unplaced_eq_mapPositions, mapPositions, Identifier.mapPosition,
      Token.identifier, named.2] using same

theorem conditional (opening : Position) {test consequent alternate : Form}
    (testReadable : test.Readable) (chosenReadable : consequent.Readable)
    (otherReadable : alternate.Readable) :
    Readable (.conditional opening test consequent alternate) := by
  intro tokens written
  have shape : spellings tokens =
      .opening :: .name "if" ::
        ((test.lexemes ++ (consequent.lexemes ++ alternate.lexemes)) ++
          [.closing]) := by
    simpa [lexemes, SpecialForm.word] using written.symm
  rcases exists_compound_of_spellings shape with
    ⟨opening, head, inner, closing, rfl, opens, word, closes, written⟩
  rcases spellings_eq_append_iff.mp written with
    ⟨first, behind, rfl, writtenFirst, written⟩
  rcases spellings_eq_append_iff.mp written with
    ⟨second, third, rfl, writtenSecond, writtenThird⟩
  rcases testReadable first writtenFirst.symm with
    ⟨derivation₁, literals₁, test', same₁, reads₁⟩
  rcases chosenReadable second writtenSecond.symm with
    ⟨derivation₂, literals₂, consequent', same₂, reads₂⟩
  rcases otherReadable third writtenThird.symm with
    ⟨derivation₃, literals₃, alternate', same₃, reads₃⟩
  have compound :
      Derives .compound (head :: (first ++ (second ++ third))) := by
    simpa using
      Derives.conditional word derivation₁ derivation₂ derivation₃
  refine ⟨.parenthesized opens compound closes,
    literalsConvert_compound opens word.1 closes ?_,
    .conditional opening.position test' consequent' alternate', ?_,
    .conditional opens closes word reads₁ reads₂ reads₃⟩
  · simp [literals₁, literals₂, literals₃]
  · simpa [unplaced_eq_mapPositions, mapPositions] using ⟨same₁, same₂, same₃⟩

theorem lambda (opening : Position) (parameters : List Identifier)
    {body : Form} (readable : body.Readable) :
    Readable (.lambda opening parameters body) := by
  intro tokens written
  have shape : spellings tokens =
      .opening :: .name "lambda" ::
        ((.opening :: (parameters.map (fun parameter =>
            .name parameter.text) ++ .closing :: body.lexemes)) ++
          [.closing]) := by
    simpa [lexemes, SpecialForm.word] using written.symm
  rcases exists_compound_of_spellings shape with
    ⟨opening, head, inner, closing, rfl, opens, word, closes, written⟩
  rcases spellings_eq_cons_iff.mp written with
    ⟨listOpening, behind, rfl, listOpens, written⟩
  rcases spellings_eq_append_iff.mp written with
    ⟨names, behind, rfl, writtenNames, written⟩
  rcases spellings_eq_cons_iff.mp written with
    ⟨listClosing, rest, rfl, listCloses, written⟩
  rcases areNames_of_spellings writtenNames with ⟨areNames, sameTexts⟩
  have listOpens := Lexeme.spelled_eq_opening_iff.mp listOpens
  have listCloses := Lexeme.spelled_eq_closing_iff.mp listCloses
  rcases readable rest written.symm with
    ⟨derivation, literals, parsed, same, reads⟩
  refine ⟨.parenthesized opens
      (.lambda word listOpens (derives_names areNames) listCloses derivation)
      closes,
    literalsConvert_compound opens word.1 closes ?_,
    .lambda opening.position (names.map Token.identifier) parsed, ?_,
    .lambda opens closes word listOpens areNames listCloses reads⟩
  · simp [literals, literalsConvert_of_areNames areNames, listOpens,
      listCloses, TokenKind.isLiteral]
  · have sameNames :
        names.map (fun name =>
            name.identifier.mapPosition fun _ => Position.start) =
          parameters.map (·.mapPosition fun _ => Position.start) := by
      have placed := congrArg
        (List.map fun text => Identifier.mk text Position.start) sameTexts
      simpa [Identifier.mapPosition, Token.identifier,
        Function.comp_def] using placed
    simpa [unplaced_eq_mapPositions, mapPositions, sameNames] using
      ⟨sameNames, same⟩

theorem sequence (opening : Position) {items : List Form}
    (each : ∀ item ∈ items, item.Readable) :
    Readable (.sequence opening items) := by
  intro tokens written
  have shape : spellings tokens =
      .opening :: .name "begin" ::
        (items.flatMap lexemes ++ [.closing]) := by
    simpa [lexemes, lexemesOfAll_eq_flatMap, SpecialForm.word] using
      written.symm
  rcases exists_compound_of_spellings shape with
    ⟨opening, head, inner, closing, rfl, opens, word, closes, written⟩
  rcases allReadFrom each written.symm with
    ⟨derivation, literals, parsed, same, readsAll⟩
  refine ⟨.parenthesized opens (.sequence word derivation) closes,
    literalsConvert_compound opens word.1 closes literals,
    .sequence opening.position parsed, ?_,
    .sequence opens closes word readsAll⟩
  simpa [unplaced_eq_mapPositions, mapPositions] using same

theorem printLine (opening : Position) {value : Form}
    (readable : value.Readable) : Readable (.printLine opening value) := by
  intro tokens written
  have shape : spellings tokens =
      .opening :: .name "print-line" :: (value.lexemes ++ [.closing]) := by
    simpa [lexemes, SpecialForm.word] using written.symm
  rcases exists_compound_of_spellings shape with
    ⟨opening, head, inner, closing, rfl, opens, word, closes, written⟩
  rcases readable inner written.symm with
    ⟨derivation, literals, parsed, same, reads⟩
  refine ⟨.parenthesized opens (.printLine word derivation) closes,
    literalsConvert_compound opens word.1 closes literals,
    .printLine opening.position parsed, ?_,
    .printLine opens closes word reads⟩
  simpa [unplaced_eq_mapPositions, mapPositions] using same

theorem operation {operator : Operator} {name : Identifier}
    (isSymbol : name.text = operator.symbol) {left right : Form}
    (leftReadable : left.Readable) (rightReadable : right.Readable) :
    Readable (.operation operator name left right) := by
  intro tokens written
  have shape : spellings tokens =
      .opening :: .name operator.symbol ::
        ((left.lexemes ++ right.lexemes) ++ [.closing]) := by
    simpa [lexemes, isSymbol] using written.symm
  rcases exists_compound_of_spellings shape with
    ⟨opening, head, inner, closing, rfl, opens, word, closes, written⟩
  rcases spellings_eq_append_iff.mp written with
    ⟨first, second, rfl, writtenFirst, writtenSecond⟩
  rcases leftReadable first writtenFirst.symm with
    ⟨derivation₁, literals₁, left', same₁, reads₁⟩
  rcases rightReadable second writtenSecond.symm with
    ⟨derivation₂, literals₂, right', same₂, reads₂⟩
  refine ⟨.parenthesized opens
      (.operation operator.symbol_mem_operatorSymbols word derivation₁
        derivation₂) closes,
    literalsConvert_compound opens word.1 closes ?_,
    .operation operator head.identifier left' right', ?_,
    .operation opens closes word reads₁ reads₂⟩
  · simp [literals₁, literals₂]
  · simpa [unplaced_eq_mapPositions, mapPositions, Identifier.mapPosition,
      Token.identifier, word.2, isSymbol] using ⟨same₁, same₂⟩

theorem call {name : Identifier} (unreserved : name.text ∉ reservedWords)
    (group : Position) {arguments : List Form}
    (each : ∀ argument ∈ arguments, argument.Readable) :
    Readable (.call name group arguments) := by
  intro tokens written
  have shape : spellings tokens =
      .opening :: .name name.text ::
        (arguments.flatMap lexemes ++ [.closing]) := by
    simpa [lexemes, lexemesOfAll_eq_flatMap] using written.symm
  rcases exists_compound_of_spellings shape with
    ⟨opening, head, inner, closing, rfl, opens, word, closes, written⟩
  rcases allReadFrom each written.symm with
    ⟨derivation, literals, parsed, same, readsAll⟩
  have unreservedHead : head.text ∉ reservedWords := by
    rwa [word.2]
  rcases Reader.Reads.call opens closes word.1 unreservedHead readsAll with
    ⟨placed, reads⟩
  refine ⟨.parenthesized opens (.call word.1 unreservedHead derivation)
      closes,
    literalsConvert_compound opens word.1 closes literals,
    .call head.identifier placed parsed, ?_, reads⟩
  simpa [unplaced_eq_mapPositions, mapPositions, Identifier.mapPosition,
    Token.identifier, word.2] using same

end Form.Readable

/-- The tokens that a well-formed form writes are read as that form. -/
theorem Form.WellFormed.readable {form : Form}
    (wellFormed : form.WellFormed) : form.Readable := by
  induction form using Form.inductionOn with
  | literal token value => exact .literal wellFormed
  | reference name => exact .reference name
  | assignment target value ih => exact .assignment target (ih wellFormed)
  | conditional opening test consequent alternate testIH chosenIH otherIH =>
      rcases wellFormed with ⟨testWell, chosenWell, otherWell⟩
      exact .conditional opening (testIH testWell) (chosenIH chosenWell)
        (otherIH otherWell)
  | lambda opening parameters body ih =>
      exact .lambda opening parameters (ih wellFormed)
  | sequence opening items ih =>
      have allWell := (allWellFormed_iff items).mp wellFormed
      exact .sequence opening fun item member =>
        ih item member (allWell item member)
  | printLine opening value ih => exact .printLine opening (ih wellFormed)
  | operation operator name left right leftIH rightIH =>
      rcases wellFormed with ⟨isSymbol, leftWell, rightWell⟩
      exact .operation isSymbol (leftIH leftWell) (rightIH rightWell)
  | call name group arguments ih =>
      rcases wellFormed with ⟨unreserved, wellFormed⟩
      have allWell := (allWellFormed_iff arguments).mp wellFormed
      exact .call unreserved group fun argument member =>
        ih argument member (allWell argument member)

/-- A whole list that reads as a form is read as that form. -/
theorem Reader.Reads.ofTokens {tokens : List Token} {form : Form}
    (reads : Reader.Reads tokens form) : Form.ofTokens tokens = .ok form := by
  refine Form.ofTokens_eq_ok_iff.mpr ?_
  simpa [Reader.start, Reader.deliver, Reader.run] using reads [] []

theorem spellings_eq_map_lexeme {tokens : List Token}
    (proper : ∀ token ∈ tokens, token.lexeme.spelled = token.lexeme) :
    spellings tokens = tokens.map (·.lexeme) :=
  List.map_congr_left proper

@[simp]
theorem Lexeme.spelled_name (text : String) :
    (Lexeme.name text).spelled = .name text :=
  rfl

@[simp]
theorem Lexeme.spelled_opening : Lexeme.opening.spelled = .opening :=
  rfl

@[simp]
theorem Lexeme.spelled_closing : Lexeme.closing.spelled = .closing :=
  rfl

theorem Form.map_spelled_flatMap {forms : List Form}
    (each : ∀ form ∈ forms,
      form.lexemes.map Lexeme.spelled = form.lexemes) :
    (forms.flatMap lexemes).map Lexeme.spelled = forms.flatMap lexemes := by
  induction forms with
  | nil => rfl
  | cons form forms ih =>
      rcases List.forall_mem_cons.mp each with ⟨first, rest⟩
      simp [first, ih rest]

/-- Forms write properly spelled lexemes. -/
theorem Form.map_spelled_lexemes (form : Form) :
    form.WellFormed → form.lexemes.map Lexeme.spelled = form.lexemes := by
  induction form using Form.inductionOn with
  | literal token value =>
      intro converts
      simp [lexemes,
        Lexeme.spelled_of_isLiteral (Token.isLiteral_of_literal converts)]
  | reference name =>
      intro _
      rfl
  | assignment target value ih =>
      intro wellFormed
      simp [lexemes, ih wellFormed]
  | conditional opening test consequent alternate testIH chosenIH otherIH =>
      rintro ⟨testWell, chosenWell, otherWell⟩
      simp [lexemes, testIH testWell, chosenIH chosenWell, otherIH otherWell]
  | lambda opening parameters body ih =>
      intro wellFormed
      simp [lexemes, ih wellFormed]
  | sequence opening items ih =>
      intro wellFormed
      have allWell := (allWellFormed_iff items).mp wellFormed
      simp [lexemes, lexemesOfAll_eq_flatMap,
        map_spelled_flatMap fun item member =>
          ih item member (allWell item member)]
  | printLine opening value ih =>
      intro wellFormed
      simp [lexemes, ih wellFormed]
  | operation operator word left right leftIH rightIH =>
      rintro ⟨_, leftWell, rightWell⟩
      simp [lexemes, leftIH leftWell, rightIH rightWell]
  | call name group arguments ih =>
      rintro ⟨_, wellFormed⟩
      have allWell := (allWellFormed_iff arguments).mp wellFormed
      simp [lexemes, lexemesOfAll_eq_flatMap,
        map_spelled_flatMap fun argument member =>
          ih argument member (allWell argument member)]

/-- The tokens that a form writes out are properly spelled. -/
theorem Form.lexemes_eq_spellings {form : Form} {tokens : List Token}
    (wellFormed : form.WellFormed)
    (written : tokens.map (·.lexeme) = form.lexemes) :
    form.lexemes = spellings tokens := by
  have respelled := congrArg (List.map Lexeme.spelled) written
  rw [form.map_spelled_lexemes wellFormed, List.map_map] at respelled
  exact respelled.symm

/-! ## Reading is exact -/

/--
Reading succeeds exactly on the derivable lists whose literals have values.
What it yields is well-formed and writes the tokens it was read from, with
parentheses properly spelled, hence exactly those tokens if that is how they
were spelled.  Conversely the tokens of a well-formed form, wherever they
stand, are read as that form but for its places.
-/
theorem ofTokens_exact :
    (∀ tokens, (∃ form, Form.ofTokens tokens = .ok form) ↔
      Derives .form tokens ∧ LiteralsConvert tokens) ∧
    (∀ tokens form, Form.ofTokens tokens = .ok form →
      form.WellFormed ∧ form.lexemes = spellings tokens ∧
        ((∀ token ∈ tokens, token.lexeme.spelled = token.lexeme) →
          form.lexemes = tokens.map (·.lexeme))) ∧
    (∀ form : Form, form.WellFormed → ∀ tokens : List Token,
      tokens.map (·.lexeme) = form.lexemes →
        ∃ parsed, Form.ofTokens tokens = .ok parsed ∧
          parsed.unplaced = form.unplaced) := by
  refine ⟨fun tokens => ⟨?_, ?_⟩, ?_, ?_⟩
  · rintro ⟨form, read⟩
    rcases Form.ofTokens_wrote read with ⟨written, wellFormed⟩
    have readFrom := wellFormed.readable tokens written
    exact ⟨readFrom.derivation, readFrom.literals⟩
  · rintro ⟨derivation, literals⟩
    rcases derivation.exists_form literals with ⟨form, wellFormed, written⟩
    rcases (wellFormed.readable tokens written).reading with
      ⟨parsed, same, reads⟩
    exact ⟨parsed, reads.ofTokens⟩
  · intro tokens form read
    rcases Form.ofTokens_wrote read with ⟨written, wellFormed⟩
    refine ⟨wellFormed, written, fun proper => ?_⟩
    rw [written, spellings_eq_map_lexeme proper]
  · intro form wellFormed tokens written
    rcases (wellFormed.readable tokens
        (form.lexemes_eq_spellings wellFormed written)).reading with
      ⟨parsed, same, reads⟩
    exact ⟨parsed, reads.ofTokens, same⟩

/-- Reading `(if #t x nil)` and writing what was read. -/
theorem ofTokens_exact_conditional :
    let tokens : List Token :=
      [⟨⟨.openParen, "("⟩, ⟨1, 1⟩⟩, ⟨⟨.identifier, "if"⟩, ⟨1, 2⟩⟩,
        ⟨⟨.boolean, "#t"⟩, ⟨1, 5⟩⟩, ⟨⟨.identifier, "x"⟩, ⟨1, 8⟩⟩,
        ⟨⟨.nil, "nil"⟩, ⟨1, 10⟩⟩, ⟨⟨.closeParen, ")"⟩, ⟨1, 13⟩⟩]
    let form : Form :=
      .conditional ⟨1, 1⟩ (.literal ⟨⟨.boolean, "#t"⟩, ⟨1, 5⟩⟩ (.boolean true))
        (.variable ⟨"x", ⟨1, 8⟩⟩) (.literal ⟨⟨.nil, "nil"⟩, ⟨1, 10⟩⟩ .nil)
    Form.ofTokens tokens = .ok form ∧ form.WellFormed ∧
      form.lexemes = tokens.map (·.lexeme) ∧
        ∃ parsed, Form.ofTokens tokens = .ok parsed ∧
          parsed.unplaced = form.unplaced := by
  intro tokens form
  have read : Form.ofTokens tokens = .ok form := rfl
  have proper : ∀ token ∈ tokens, token.lexeme.spelled = token.lexeme := by
    decide
  rcases ofTokens_exact.2.1 tokens form read with ⟨wellFormed, _, written⟩
  exact ⟨read, wellFormed, written proper,
    ofTokens_exact.2.2 form wellFormed tokens (written proper).symm⟩

/--
A form that was read need not write the tokens it was read from, letter by
letter: a parenthesis is known by its kind and its own spelling is lost.  No
form at all writes these tokens.
-/
theorem ofTokens_respells_parentheses :
    let tokens : List Token :=
      [⟨⟨.openParen, "["⟩, ⟨1, 1⟩⟩, ⟨⟨.identifier, "begin"⟩, ⟨1, 2⟩⟩,
        ⟨⟨.closeParen, "]"⟩, ⟨1, 7⟩⟩]
    Form.ofTokens tokens = .ok (.sequence ⟨1, 1⟩ []) ∧
      ∀ form : Form, form.lexemes ≠ tokens.map (·.lexeme) := by
  refine ⟨rfl, fun form => ?_⟩
  cases form <;> simp [Form.lexemes, Lexeme.opening]

end ScopedLisp
