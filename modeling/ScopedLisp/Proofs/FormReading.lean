import ScopedLisp.Form.Reader
import ScopedLisp.Proofs.TokenGrammar

/-!
# Reading forms is exact

The reader is a pushdown machine; the grammar `Derives` and the writer
`Form.lexemes` know nothing about it.  This module shows that they agree.

One direction follows the machine.  `Reader.Wrote` says which lexemes have
been taken when the machine is in a given state; a step adds the lexeme that
it takes (`Reader.step_wrote`), so a finished reader holds a form that writes
exactly what was read.  The other direction follows the form: the tokens that
a well-formed form writes take the machine from any place that wants a form to
the state behind that form (`Reads`).
-/

namespace ScopedLisp

/-! ## What has been read -/

namespace Gap

/-- The lexemes of an unfinished form up to its gap. -/
def written : Gap → List Lexeme
  | .item _ reversed =>
    [.opening, .name SpecialForm.sequence.word] ++
      reversed.reverse.flatMap Form.lexemes
  | .argument name _ reversed =>
    [.opening, .name name.text] ++ reversed.reverse.flatMap Form.lexemes
  | .body _ parameters =>
    [.opening, .name SpecialForm.lambda.word, .opening] ++
      parameters.map (fun parameter => .name parameter.text) ++ [.closing]
  | .test _ => [.opening, .name SpecialForm.conditional.word]
  | .consequent _ tested =>
    [.opening, .name SpecialForm.conditional.word] ++ tested.lexemes
  | .alternate _ tested chosen =>
    [.opening, .name SpecialForm.conditional.word] ++ tested.lexemes ++
      chosen.lexemes
  | .assigned target =>
    [.opening, .name SpecialForm.assignment.word, .name target.text]
  | .printed _ => [.opening, .name SpecialForm.printLine.word]
  | .left _ word => [.opening, .name word.text]
  | .right _ word first => [.opening, .name word.text] ++ first.lexemes

/-- The parts that an unfinished form already has are well-formed. -/
def WellFormed : Gap → Prop
  | .item _ reversed => ∀ form ∈ reversed, form.WellFormed
  | .argument name _ reversed =>
    name.text ∉ reservedWords ∧ ∀ form ∈ reversed, form.WellFormed
  | .body _ _ | .test _ | .assigned _ | .printed _ => True
  | .consequent _ tested => tested.WellFormed
  | .alternate _ tested chosen => tested.WellFormed ∧ chosen.WellFormed
  | .left operator word => word.text = operator.symbol
  | .right operator word first =>
    word.text = operator.symbol ∧ first.WellFormed

/-- The lexemes of all unfinished forms, given the innermost first. -/
def writtenAround : List Gap → List Lexeme
  | [] => []
  | gap :: around => writtenAround around ++ gap.written

end Gap

namespace Reader

/-- The lexemes that have been taken when a reader is in a state. -/
def Wrote (lexemes : List Lexeme) : Reader → Prop
  | .atForm around => lexemes = Gap.writtenAround around
  | .atHead _ around => lexemes = Gap.writtenAround around ++ [.opening]
  | .atParameterList _ around =>
    lexemes =
      Gap.writtenAround around ++
        [.opening, .name SpecialForm.lambda.word]
  | .atParameter _ reversed around =>
    lexemes =
      Gap.writtenAround around ++
        ([.opening, .name SpecialForm.lambda.word, .opening] ++
          reversed.reverse.map fun parameter => .name parameter.text)
  | .atTarget around =>
    lexemes =
      Gap.writtenAround around ++
        [.opening, .name SpecialForm.assignment.word]
  | .atFirstArgument name around =>
    lexemes = Gap.writtenAround around ++ [.opening, .name name.text]
  | .atClosing complete around =>
    lexemes ++ [.closing] = Gap.writtenAround around ++ complete.lexemes
  | .done result => lexemes = result.lexemes

/-- All forms that a reader holds, finished or not, are well-formed. -/
def WellFormed : Reader → Prop
  | .atForm around | .atHead _ around | .atParameterList _ around
  | .atParameter _ _ around | .atTarget around =>
    ∀ gap ∈ around, gap.WellFormed
  | .atFirstArgument name around =>
    name.text ∉ reservedWords ∧ ∀ gap ∈ around, gap.WellFormed
  | .atClosing complete around =>
    complete.WellFormed ∧ ∀ gap ∈ around, gap.WellFormed
  | .done result => result.WellFormed

/-- A form handed over adds its lexemes to those around it. -/
theorem deliver_wrote {form : Form} {around : List Gap}
    (formWell : form.WellFormed) (aroundWell : ∀ gap ∈ around, gap.WellFormed) :
    (deliver form around).Wrote
        (Gap.writtenAround around ++ form.lexemes) ∧
      (deliver form around).WellFormed := by
  cases around with
  | nil =>
      exact ⟨by simp [deliver, Wrote, Gap.writtenAround], formWell⟩
  | cons gap around =>
      rcases List.forall_mem_cons.mp aroundWell with ⟨gapWell, aroundWell⟩
      cases gap <;>
        simp_all [deliver, Gap.fill, Wrote, WellFormed, Gap.writtenAround,
          Gap.written, Gap.WellFormed, Form.WellFormed, Form.lexemes]

/-- A closing parenthesis ends a form whose gap may stay empty. -/
theorem close?_wrote {gap : Gap} {form : Form} (gapWell : gap.WellFormed)
    (closes : gap.close? = some form) :
    form.lexemes = gap.written ++ [.closing] ∧ form.WellFormed := by
  cases gap <;> simp only [Gap.close?, Option.some.injEq, reduceCtorEq] at closes
  all_goals
    subst closes
    simp_all [Form.lexemes, Form.lexemesOfAll_eq_flatMap, Gap.written,
      Gap.WellFormed, Form.WellFormed]

/-- The word behind an opening parenthesis decides what is to come. -/
theorem afterHead_wrote {opening : Position} {head : Identifier}
    {around : List Gap} (aroundWell : ∀ gap ∈ around, gap.WellFormed) :
    (afterHead opening head around).Wrote
        (Gap.writtenAround around ++ [.opening, .name head.text]) ∧
      (afterHead opening head around).WellFormed := by
  unfold afterHead
  cases isSpecial : SpecialForm.ofWord? head.text with
  | some special =>
      have word : head.text = special.word :=
        SpecialForm.ofWord?_eq_some_iff.mp isSpecial
      cases special <;>
        simp_all [Wrote, WellFormed, Gap.writtenAround, Gap.written,
          Gap.WellFormed]
  | none =>
      cases isOperator : Operator.ofSymbol? head.text with
      | some operator =>
          have symbol : head.text = operator.symbol :=
            Operator.ofSymbol?_eq_some_iff.mp isOperator
          simp_all [Wrote, WellFormed, Gap.writtenAround, Gap.written,
            Gap.WellFormed]
      | none =>
          have unreserved : head.text ∉ reservedWords :=
            not_mem_reservedWords_iff.mpr ⟨isSpecial, isOperator⟩
          exact ⟨rfl, unreserved, aroundWell⟩

/-- A token taken where a form may start is added to what has been read. -/
theorem stepForm_wrote {token : Token} {around : List Gap} {next : Reader}
    (aroundWell : ∀ gap ∈ around, gap.WellFormed)
    (taken : stepForm token around = .ok next) :
    next.Wrote (Gap.writtenAround around ++ [token.lexeme.spelled]) ∧
      next.WellFormed := by
  unfold stepForm at taken
  split at taken
  · rename_i opens
    cases taken
    rw [Lexeme.spelled_eq_opening_iff.mpr opens]
    exact ⟨rfl, aroundWell⟩
  · rename_i closes
    rw [Lexeme.spelled_eq_closing_iff.mpr closes]
    unfold closeInnermost at taken
    cases around with
    | nil => contradiction
    | cons gap around =>
        rcases List.forall_mem_cons.mp aroundWell with ⟨gapWell, aroundWell⟩
        cases closed : gap.close? with
        | none => simp [closed] at taken
        | some form =>
            simp only [closed, Except.ok.injEq] at taken
            subst next
            rcases close?_wrote gapWell closed with ⟨written, formWell⟩
            have delivered := deliver_wrote formWell aroundWell
            rwa [written, ← List.append_assoc] at delivered
  · rename_i isName
    cases taken
    have formWell : (Form.variable token.identifier).WellFormed := trivial
    rw [Token.spelled_of_isName isName]
    exact deliver_wrote formWell aroundWell
  all_goals
    cases converts : token.literal with
    | error error => simp [converts, Except.map] at taken
    | ok value =>
        simp only [converts, Except.map, Except.ok.injEq] at taken
        subst next
        have formWell : (Form.literal token value).WellFormed := converts
        rw [Lexeme.spelled_of_isLiteral (Token.isLiteral_of_literal converts)]
        exact deliver_wrote formWell aroundWell

/-- A step adds the lexeme that it takes, properly spelled. -/
theorem step_wrote {reader next : Reader} {token : Token}
    {lexemes : List Lexeme} (wrote : reader.Wrote lexemes)
    (wellFormed : reader.WellFormed) (taken : reader.step token = .ok next) :
    next.Wrote (lexemes ++ [token.lexeme.spelled]) ∧ next.WellFormed := by
  cases reader with
  | atForm around =>
      obtain rfl : lexemes = _ := wrote
      exact stepForm_wrote wellFormed taken
  | atHead opening around =>
      obtain rfl : lexemes = _ := wrote
      simp only [step] at taken
      split at taken
      · rename_i isName
        cases taken
        have headed := @afterHead_wrote opening token.identifier _ wellFormed
        rw [Token.spelled_of_isName isName]
        simpa [Token.identifier] using headed
      · contradiction
  | atParameterList opening around =>
      obtain rfl : lexemes = _ := wrote
      simp only [step] at taken
      split at taken
      · rename_i opens
        cases taken
        rw [Lexeme.spelled_eq_opening_iff.mpr opens]
        exact ⟨by simp [Wrote], wellFormed⟩
      · contradiction
  | atParameter opening parameters around =>
      obtain rfl : lexemes = _ := wrote
      simp only [step] at taken
      split at taken
      · rename_i isName
        cases taken
        rw [Token.spelled_of_isName isName]
        exact ⟨by simp [Wrote, Token.identifier], wellFormed⟩
      · rename_i closes
        cases taken
        rw [Lexeme.spelled_eq_closing_iff.mpr closes]
        simpa [Wrote, WellFormed, Gap.writtenAround, Gap.written,
          Gap.WellFormed] using wellFormed
      · contradiction
  | atTarget around =>
      obtain rfl : lexemes = _ := wrote
      simp only [step] at taken
      split at taken
      · rename_i isName
        cases taken
        rw [Token.spelled_of_isName isName]
        simpa [Wrote, WellFormed, Gap.writtenAround, Gap.written,
          Gap.WellFormed, Token.identifier] using wellFormed
      · contradiction
  | atFirstArgument name around =>
      obtain rfl : lexemes = _ := wrote
      rcases wellFormed with ⟨unreserved, aroundWell⟩
      have gapsWell :
          ∀ gap ∈ Gap.argument name token.position [] :: around,
            gap.WellFormed := by
        simpa [Gap.WellFormed] using ⟨unreserved, aroundWell⟩
      simpa [Gap.writtenAround, Gap.written] using
        stepForm_wrote gapsWell taken
  | atClosing complete around =>
      rcases wellFormed with ⟨completeWell, aroundWell⟩
      simp only [step] at taken
      split at taken
      · rename_i closes
        cases taken
        have delivered := deliver_wrote completeWell aroundWell
        rw [Lexeme.spelled_eq_closing_iff.mpr closes]
        rwa [← show lexemes ++ [.closing] = _ from wrote] at delivered
      · contradiction
  | done result => contradiction

/-- A run adds the lexemes of all tokens that it takes. -/
theorem run_wrote {reader last : Reader} {tokens : List Token}
    {lexemes : List Lexeme} (wrote : reader.Wrote lexemes)
    (wellFormed : reader.WellFormed) (ran : reader.run tokens = .ok last) :
    last.Wrote (lexemes ++ spellings tokens) ∧ last.WellFormed := by
  induction tokens generalizing reader lexemes with
  | nil =>
      cases ran
      exact ⟨by simpa using wrote, wellFormed⟩
  | cons token tokens ih =>
      simp only [run] at ran
      split at ran
      · rename_i next taken
        rcases step_wrote wrote wellFormed taken with ⟨wroteNext, nextWell⟩
        simpa using ih wroteNext nextWell ran
      · contradiction

end Reader

/-- A list of tokens is read as a form exactly if a run of the reader ends with it. -/
theorem Form.ofTokens_eq_ok_iff {tokens : List Token} {form : Form} :
    Form.ofTokens tokens = .ok form ↔
      Reader.start.run tokens = .ok (.done form) := by
  unfold Form.ofTokens
  cases ran : Reader.start.run tokens with
  | error error => simp
  | ok last =>
      cases last <;> simp [Reader.result?]

/-- A form that was read is well-formed and writes the tokens it was read from. -/
theorem Form.ofTokens_wrote {tokens : List Token} {form : Form}
    (read : Form.ofTokens tokens = .ok form) :
    form.lexemes = spellings tokens ∧ form.WellFormed := by
  have atStart : Reader.start.Wrote [] := rfl
  have startWell : Reader.start.WellFormed := by
    simp [Reader.start, Reader.WellFormed]
  obtain ⟨wrote, formWell⟩ :=
    Reader.run_wrote atStart startWell (Form.ofTokens_eq_ok_iff.mp read)
  exact ⟨wrote.symm, formWell⟩

/-! ## What can be read -/

namespace Reader

/-- Some tokens take a reader from where a form is wanted to behind that form. -/
def Reads (tokens : List Token) (form : Form) : Prop :=
  ∀ around rest,
    (atForm around).run (tokens ++ rest) = (deliver form around).run rest

/-- A gap that takes one form after the other. -/
def Repeats (gapOf : List Form → Gap) : Prop :=
  ∀ reversed form, (gapOf reversed).fill form = .open (gapOf (form :: reversed))

/-- Some tokens fill a gap that takes one form after the other. -/
def ReadsAll (tokens : List Token) (forms : List Form) : Prop :=
  ∀ gapOf, Repeats gapOf → ∀ reversed around rest,
    (atForm (gapOf reversed :: around)).run (tokens ++ rest) =
      (atForm (gapOf (forms.reverse ++ reversed) :: around)).run rest

theorem run_cons {reader next : Reader} {token : Token} {tokens : List Token}
    (taken : reader.step token = .ok next) :
    reader.run (token :: tokens) = next.run tokens := by
  simp [run, taken]

/-- A run up to the word that heads a compound form. -/
theorem run_head {opening head : Token} {around : List Gap}
    {tokens : List Token} (opens : opening.kind = .openParen)
    (isName : head.kind = .identifier) :
    (atForm around).run (opening :: head :: tokens) =
      (afterHead opening.position head.identifier around).run tokens := by
  have atHead : (atForm around).step opening =
      .ok (.atHead opening.position around) := by
    simp [step, stepForm, opens]
  have behindHead : (Reader.atHead opening.position around).step head =
      .ok (afterHead opening.position head.identifier around) := by
    simp [step, isName]
  rw [run_cons atHead, run_cons behindHead]

/-- A run over the closing parenthesis of a form that has all its parts. -/
theorem run_closing {closing : Token} {form : Form} {around : List Gap}
    {tokens : List Token} (closes : closing.kind = .closeParen) :
    (atClosing form around).run (closing :: tokens) =
      (deliver form around).run tokens := by
  refine run_cons ?_
  simp [step, closes]

/-- A run over the closing parenthesis of a form whose gap may stay empty. -/
theorem run_close? {closing : Token} {gap : Gap} {form : Form}
    {around : List Gap} {tokens : List Token}
    (closes : closing.kind = .closeParen) (closed : gap.close? = some form) :
    (atForm (gap :: around)).run (closing :: tokens) =
      (deliver form around).run tokens := by
  refine run_cons ?_
  simp [step, stepForm, closes, closeInnermost, closed]

theorem Reads.single {token : Token} {form : Form}
    (taken : ∀ around,
      (atForm around).step token = .ok (deliver form around)) :
    Reads [token] form := by
  intro around rest
  exact run_cons (taken around)

theorem ReadsAll.nil : ReadsAll [] [] := by
  intro gapOf repeats reversed around rest
  rfl

theorem ReadsAll.cons {first rest : List Token} {form : Form}
    {forms : List Form} (reads : Reads first form)
    (readsAll : ReadsAll rest forms) :
    ReadsAll (first ++ rest) (form :: forms) := by
  intro gapOf repeats reversed around behind
  have filled : deliver form (gapOf reversed :: around) =
      atForm (gapOf (form :: reversed) :: around) := by
    simp [deliver, repeats reversed form]
  rw [List.append_assoc, reads, filled, readsAll gapOf repeats]
  simp

section Compounds

variable {opening head closing : Token}
variable (opens : opening.kind = .openParen)
variable (closes : closing.kind = .closeParen)
include opens closes

theorem Reads.sequence {inner : List Token} {items : List Form}
    (word : head.IsWord "begin") (readsAll : ReadsAll inner items) :
    Reads (opening :: head :: inner ++ [closing])
      (.sequence opening.position items) := by
  intro around rest
  have repeats : Repeats (.item opening.position) := fun _ _ => rfl
  have behindHead : afterHead opening.position head.identifier around =
      atForm (.item opening.position [] :: around) := by
    simp [afterHead, Token.identifier, word.2, SpecialForm.ofWord?]
  simp only [List.cons_append, List.append_assoc, List.nil_append]
  rw [run_head opens word.1, behindHead, readsAll _ repeats,
    run_close? closes rfl]
  simp

theorem Reads.printLine {inner : List Token} {value : Form}
    (word : head.IsWord "print-line") (reads : Reads inner value) :
    Reads (opening :: head :: inner ++ [closing])
      (.printLine opening.position value) := by
  intro around rest
  have behindHead : afterHead opening.position head.identifier around =
      atForm (.printed opening.position :: around) := by
    simp [afterHead, Token.identifier, word.2, SpecialForm.ofWord?]
  simp only [List.cons_append, List.append_assoc, List.nil_append]
  rw [run_head opens word.1, behindHead, reads]
  exact run_closing closes

theorem Reads.assignment {target : Token} {inner : List Token} {value : Form}
    (word : head.IsWord "set") (isName : target.kind = .identifier)
    (reads : Reads inner value) :
    Reads (opening :: head :: target :: inner ++ [closing])
      (.assignment target.identifier value) := by
  intro around rest
  have behindHead : afterHead opening.position head.identifier around =
      .atTarget around := by
    simp [afterHead, Token.identifier, word.2, SpecialForm.ofWord?]
  have behindTarget : (Reader.atTarget around).step target =
      .ok (.atForm (.assigned target.identifier :: around)) := by
    simp [step, isName]
  simp only [List.cons_append, List.append_assoc, List.nil_append]
  rw [run_head opens word.1, behindHead, run_cons behindTarget, reads]
  exact run_closing closes

theorem Reads.conditional {first second third : List Token}
    {test consequent alternate : Form} (word : head.IsWord "if")
    (tested : Reads first test) (chosen : Reads second consequent)
    (otherwise : Reads third alternate) :
    Reads (opening :: head :: (first ++ (second ++ third)) ++ [closing])
      (.conditional opening.position test consequent alternate) := by
  intro around rest
  have behindHead : afterHead opening.position head.identifier around =
      atForm (.test opening.position :: around) := by
    simp [afterHead, Token.identifier, word.2, SpecialForm.ofWord?]
  simp only [List.cons_append, List.append_assoc, List.nil_append]
  rw [run_head opens word.1, behindHead, tested]
  refine (chosen (.consequent opening.position test :: around) _).trans ?_
  refine (otherwise
    (.alternate opening.position test consequent :: around) _).trans ?_
  exact run_closing closes

theorem Reads.operation {operator : Operator} {first second : List Token}
    {left right : Form} (word : head.IsWord operator.symbol)
    (readsLeft : Reads first left) (readsRight : Reads second right) :
    Reads (opening :: head :: (first ++ second) ++ [closing])
      (.operation operator head.identifier left right) := by
  intro around rest
  have behindHead : afterHead opening.position head.identifier around =
      atForm (.left operator head.identifier :: around) := by
    have notSpecial : SpecialForm.ofWord? operator.symbol = none := by
      cases operator <;> rfl
    simp [afterHead, Token.identifier, word.2, notSpecial]
  simp only [List.cons_append, List.append_assoc, List.nil_append]
  rw [run_head opens word.1, behindHead, readsLeft]
  refine (readsRight
    (.right operator head.identifier left :: around) _).trans ?_
  exact run_closing closes

/-- The argument group is placed at whatever token stands behind the name. -/
theorem Reads.callAt {inner others : List Token} {first : Token}
    {arguments : List Form} (isName : head.kind = .identifier)
    (unreserved : head.text ∉ reservedWords)
    (split : inner ++ [closing] = first :: others)
    (readsAll : ReadsAll inner arguments) :
    Reads (opening :: head :: inner ++ [closing])
      (.call head.identifier first.position arguments) := by
  rcases not_mem_reservedWords_iff.mp unreserved with ⟨notSpecial, notOperator⟩
  intro around rest
  have repeats : Repeats (.argument head.identifier first.position) :=
    fun _ _ => rfl
  have behindHead : afterHead opening.position head.identifier around =
      .atFirstArgument head.identifier around := by
    simp [afterHead, Token.identifier, notSpecial, notOperator]
  have atArguments :
      (Reader.atFirstArgument head.identifier around).run
          (inner ++ [closing] ++ rest) =
        (atForm (.argument head.identifier first.position [] :: around)).run
          (inner ++ [closing] ++ rest) := by
    rw [split]
    rfl
  simp only [List.cons_append]
  rw [run_head opens isName, behindHead, atArguments, List.append_assoc,
    readsAll _ repeats]
  refine (run_close? closes rfl).trans ?_
  simp

theorem Reads.call {inner : List Token} {arguments : List Form}
    (isName : head.kind = .identifier)
    (unreserved : head.text ∉ reservedWords)
    (readsAll : ReadsAll inner arguments) :
    ∃ group,
      Reads (opening :: head :: inner ++ [closing])
        (.call head.identifier group arguments) := by
  obtain ⟨first, others, split⟩ :
      ∃ first others, inner ++ [closing] = first :: others :=
    List.exists_cons_of_ne_nil (by simp)
  exact ⟨first.position,
    .callAt opens closes isName unreserved split readsAll⟩

omit opens closes in
/-- A run over names that are parameters. -/
theorem run_parameters {position : Position} {names : List Token}
    (areNames : ∀ name ∈ names, name.kind = .identifier)
    (reversed : List Identifier) (around : List Gap) (rest : List Token) :
    (Reader.atParameter position reversed around).run (names ++ rest) =
      (Reader.atParameter position
        ((names.map Token.identifier).reverse ++ reversed) around).run rest := by
  induction names generalizing reversed with
  | nil => rfl
  | cons name names ih =>
      rcases List.forall_mem_cons.mp areNames with ⟨isName, areNames⟩
      have taken : (Reader.atParameter position reversed around).step name =
          .ok (.atParameter position (name.identifier :: reversed) around) := by
        simp [step, isName]
      rw [List.cons_append, run_cons taken, ih areNames]
      simp

theorem Reads.lambda {listOpening listClosing : Token}
    {names inner : List Token} {body : Form} (word : head.IsWord "lambda")
    (listOpens : listOpening.kind = .openParen)
    (areNames : ∀ name ∈ names, name.kind = .identifier)
    (listCloses : listClosing.kind = .closeParen)
    (reads : Reads inner body) :
    Reads
      (opening :: head :: (listOpening :: names ++ listClosing :: inner) ++
        [closing])
      (.lambda opening.position (names.map Token.identifier) body) := by
  intro around rest
  have behindHead : afterHead opening.position head.identifier around =
      .atParameterList opening.position around := by
    simp [afterHead, Token.identifier, word.2, SpecialForm.ofWord?]
  have atNames :
      (Reader.atParameterList opening.position around).step listOpening =
        .ok (.atParameter opening.position [] around) := by
    simp [step, listOpens]
  have behindNames :
      (Reader.atParameter opening.position
          ((names.map Token.identifier).reverse ++ []) around).step
            listClosing =
        .ok (.atForm
          (.body opening.position (names.map Token.identifier) :: around)) := by
    simp [step, listCloses]
  simp only [List.cons_append, List.append_assoc, List.nil_append]
  rw [run_head opens word.1, behindHead, run_cons atNames,
    run_parameters areNames, run_cons behindNames, reads]
  exact run_closing closes

end Compounds

end Reader

end ScopedLisp
