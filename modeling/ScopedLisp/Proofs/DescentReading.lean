import ScopedLisp.Form.Descent
import ScopedLisp.Form.Reader

/-!
# Reading by descent and reading token by token

A descent keeps the unfinished forms in its calls, a reader in its gaps.  Both
are followed side by side: `Leads` says of the end of a descent that it is what
the reader comes to, or that the reader, put into the state that the descent has
reached, still comes to the same.  The rules follow the parts of a descent, so
each procedure is compared with the states of the reader that it stands for
(`keepsUp_form`).

Every form takes a token, so a depth above the number of tokens suffices, for
the loops as well, and reading by descent is `Form.ofTokens`
(`descend_result?`).
-/

namespace ScopedLisp

namespace Reader

/-- What a reader makes of the tokens ahead; the last of all tokens is known. -/
def finish (reader : Reader) (tokens ahead : List Token) : Except Error Form :=
  match reader.run ahead with
  | .error error => .error error
  | .ok reader =>
    match reader.result? with
    | some form => .ok form
    | none =>
      .error ⟨.expected reader.missing none, tokens.getLast?.map (·.position)⟩

section Finish

variable {reader next : Reader} {token : Token} {tokens ahead : List Token}

theorem finish_of_step (taken : reader.step token = .ok next) :
    reader.finish tokens (token :: ahead) = next.finish tokens ahead := by
  simp only [finish, run, taken]

theorem finish_of_refusal {error : Error} (refused : reader.step token = .error error) :
    reader.finish tokens (token :: ahead) = .error error := by
  simp only [finish, run, refused]

theorem finish_nil (notDone : reader.result? = none) :
    reader.finish tokens [] =
      .error ⟨.expected reader.missing none,
        tokens.getLast?.map (·.position)⟩ := by
  simp only [finish, run, notDone]

end Finish

end Reader

namespace TokenRow

variable {row : TokenRow} {token : Token}

theorem ahead_eq_nil (ended : row.next? = none) : row.ahead = [] :=
  List.drop_eq_nil_of_le (List.getElem?_eq_none_iff.mp ended)

theorem ahead_eq_cons (next : row.next? = some token) :
    row.ahead = token :: row.behind.ahead := by
  obtain ⟨inside, rfl⟩ := List.getElem?_eq_some_iff.mp next
  exact List.drop_eq_getElem_cons inside

end TokenRow

namespace Descent

variable {α β : Type} {tokens : List Token} {answer : Except Error Form}

/--
A descent has taken a row as far as a reader is: with the tokens ahead, of which
there are less than so many, the reader comes to a given answer.
-/
structure Stands (tokens : List Token) (answer : Except Error Form)
    (limit : Nat) (reader : Reader) (row : TokenRow) : Prop where
  sameTokens : row.tokens = tokens
  fits : row.ahead.length < limit
  goesOn : reader.finish tokens row.ahead = answer

/-- A descent is refused with the answer of the reader, or is done somewhere. -/
inductive Leads (answer : Except Error Form) (after : α → TokenRow → Prop) :
    Descended α → Prop where
  | done {value : α} {row : TokenRow} (holds : after value row) :
      Leads answer after (.done value row)
  | refused {error : Error} (isAnswer : answer = .error error) :
      Leads answer after (.refused error)

/-- A form is read, and the reader has delivered it to the gaps around it. -/
abbrev Delivers (tokens : List Token) (answer : Except Error Form)
    (limit : Nat) (around : List Gap) : Descended Form → Prop :=
  Leads answer fun read => Stands tokens answer limit (Reader.deliver read around)

/-- A descent and then another, which goes on from wherever the first has led. -/
theorem Leads.bind {first : Descent α} {second : α → Descent β}
    {middle : α → TokenRow → Prop} {after : β → TokenRow → Prop}
    {row : TokenRow} (leads : Leads answer middle (first row))
    (goesOn : ∀ value later, middle value later →
      Leads answer after (second value later)) :
    Leads answer after ((first >>= second) row) := by
  change Leads answer after (Descent.bind first second row)
  rw [Descent.bind]
  generalize first row = ended at leads
  cases leads with
  | done holds => exact goesOn _ _ holds
  | refused isAnswer => exact .refused isAnswer

theorem Leads.mono {middle after : α → TokenRow → Prop} {ended : Descended α}
    (leads : Leads answer middle ended)
    (weaker : ∀ value row, middle value row → after value row) :
    Leads answer after ended := by
  cases leads with
  | done holds => exact .done (weaker _ _ holds)
  | refused isAnswer => exact .refused isAnswer

/-- A first part that is done takes no part in what a descent leads to. -/
theorem bind_of_done {first : Descent α} {second : α → Descent β}
    {value : α} {row later : TokenRow} (done : first row = .done value later) :
    (first >>= second) row = second value later := by
  change Descent.bind first second row = second value later
  rw [Descent.bind, done]

namespace Stands

variable {limit wider : Nat} {reader next : Reader} {row : TokenRow}
  {token : Token}

theorem mono (stands : Stands tokens answer limit reader row)
    (within : limit ≤ wider) : Stands tokens answer wider reader row :=
  ⟨stands.sameTokens, Nat.lt_of_lt_of_le stands.fits within, stands.goesOn⟩

/-- A token that is taken leaves fewer tokens ahead. -/
theorem behind (stands : Stands tokens answer limit reader row)
    (found : row.next? = some token) (taken : reader.step token = .ok next) :
    Stands tokens answer row.ahead.length next row.behind := by
  rcases stands with ⟨same, -, goesOn⟩
  rw [TokenRow.ahead_eq_cons found] at goesOn ⊢
  exact ⟨same, Nat.lt_succ_self _, (Reader.finish_of_step taken).symm.trans goesOn⟩

theorem of_refusal (stands : Stands tokens answer limit reader row)
    (found : row.next? = some token) {error : Error}
    (refused : reader.step token = .error error) : answer = .error error := by
  rw [← stands.goesOn, TokenRow.ahead_eq_cons found,
    Reader.finish_of_refusal refused]

theorem leads_missing (stands : Stands tokens answer limit reader row)
    (ended : row.next? = none) (notDone : reader.result? = none)
    {after : α → TokenRow → Prop} :
    Leads answer after (missing reader.missing row) := by
  refine .refused ?_
  rw [← stands.goesOn, TokenRow.ahead_eq_nil ended, Reader.finish_nil notDone,
    stands.sameTokens]

end Stands

/-! ## Single tokens -/

section Single

variable {row : TokenRow} {token : Token} {kind : TokenKind}

theorem peek_eq (row : TokenRow) : peek row = .done row.next? row :=
  rfl

theorem advance_of_next (found : row.next? = some token) :
    advance row = .done token row.behind := by
  simp only [advance, found]

/-- The next token is of a kind, or there is none that is. -/
theorem check_cases (kind : TokenKind) (row : TokenRow) :
    (∃ token, row.next? = some token ∧ token.kind = kind ∧
        check kind row = .done true row) ∨
      (∀ token, row.next? = some token → token.kind ≠ kind) ∧
        check kind row = .done false row := by
  have checked : check kind row = .done (row.next?.any (·.kind == kind)) row := rfl
  rw [checked]
  cases row.next? with
  | none => exact .inr ⟨nofun, rfl⟩
  | some token =>
    by_cases fits : token.kind = kind
    · refine .inl ⟨token, rfl, fits, ?_⟩
      rw [Option.any_some, fits, beq_self_eq_true]
    · refine .inr ⟨fun _ found => Option.some.inj found ▸ fits, ?_⟩
      rw [Option.any_some, beq_false_of_ne fits]

theorem expect_of_next (found : row.next? = some token)
    (checked : check kind row = .done true row) :
    expect kind row = .done token row.behind := by
  rw [expect, bind_of_done checked, if_pos rfl]
  exact advance_of_next found

theorem expect_of_other (found : row.next? = some token)
    (checked : check kind row = .done false row) :
    expect kind row = unexpected (.token kind) token row := by
  rw [expect, bind_of_done checked, if_neg Bool.false_ne_true,
    bind_of_done (peek_eq row), found]

theorem expect_of_none (ended : row.next? = none)
    (checked : check kind row = .done false row) :
    expect kind row = missing (.token kind) row := by
  rw [expect, bind_of_done checked, if_neg Bool.false_ne_true,
    bind_of_done (peek_eq row), ended]

end Single

section Places

variable {limit : Nat} {reader : Reader} {row : TokenRow} {around : List Gap}

/-- Before a row, a reader waits for a token of a kind and for nothing else. -/
structure Awaits (reader : Reader) (kind : TokenKind) (next : Token → Reader)
    (row : TokenRow) : Prop where
  notDone : reader.result? = none
  missing_eq : reader.missing = .token kind
  takes : ∀ token, token.kind = kind → reader.step token = .ok (next token)
  refuses : ∀ token, row.next? = some token → token.kind ≠ kind →
    reader.step token = Reader.unexpected (.token kind) token

theorem awaits_parameterList (opening : Position) (around : List Gap) :
    Awaits (.atParameterList opening around) .openParen
      (fun _ => .atParameter opening [] around) row where
  notDone := rfl
  missing_eq := rfl
  takes token fits := by simp only [Reader.step, fits]
  refuses token _ differs := by
    cases kind : token.kind <;>
      first | exact absurd kind differs | simp only [Reader.step, kind]

/-- A parenthesis that closes the parameters is not taken for one of them. -/
theorem awaits_parameter (opening : Position) (parameters : List Identifier)
    (around : List Gap)
    (goesOn : ∀ token, row.next? = some token → token.kind ≠ .closeParen) :
    Awaits (.atParameter opening parameters around) .identifier
      (fun token => .atParameter opening (token.identifier :: parameters) around)
      row where
  notDone := rfl
  missing_eq := rfl
  takes token fits := by simp only [Reader.step, fits]
  refuses token found differs := by
    have notClosing := goesOn token found
    cases kind : token.kind <;>
      first
        | exact absurd kind differs
        | exact absurd kind notClosing
        | simp only [Reader.step, kind]

theorem awaits_target (around : List Gap) :
    Awaits (.atTarget around) .identifier
      (fun token => .atForm (.assigned token.identifier :: around)) row where
  notDone := rfl
  missing_eq := rfl
  takes token fits := by simp only [Reader.step, fits]
  refuses token _ differs := by
    cases kind : token.kind <;>
      first | exact absurd kind differs | simp only [Reader.step, kind]

theorem awaits_closing (complete : Form) (around : List Gap) :
    Awaits (.atClosing complete around) .closeParen
      (fun _ => Reader.deliver complete around) row where
  notDone := rfl
  missing_eq := rfl
  takes token fits := by simp only [Reader.step, fits]
  refuses token _ differs := by
    cases kind : token.kind <;>
      first | exact absurd kind differs | simp only [Reader.step, kind]

theorem Awaits.leads {kind : TokenKind} {next : Token → Reader}
    (awaits : Awaits reader kind next row)
    (stands : Stands tokens answer limit reader row) :
    Leads answer
      (fun token => Stands tokens answer row.ahead.length (next token))
      (expect kind row) := by
  rcases check_cases kind row with
    ⟨token, found, fits, checked⟩ | ⟨differs, checked⟩
  · rw [expect_of_next found checked]
    exact .done (stands.behind found (awaits.takes token fits))
  · cases found : row.next? with
    | none =>
      rw [expect_of_none found checked, ← awaits.missing_eq]
      exact stands.leads_missing found awaits.notDone
    | some token =>
      rw [expect_of_other found checked]
      exact .refused (stands.of_refusal found
        (awaits.refuses token found (differs token found)))

/-- The closing parenthesis of a form that has all its parts. -/
theorem leads_closing {complete : Form}
    (stands : Stands tokens answer limit (.atClosing complete around) row) :
    Delivers tokens answer limit around
      ((do let _ ← expect .closeParen; return complete) row) :=
  ((awaits_closing complete around).leads stands).bind
    fun _ _ closed => .done (closed.mono (Nat.le_of_lt stands.fits))

/-- A closing parenthesis that is next is refused, so a form has to come. -/
def RefusesClose (around : List Gap) (row : TokenRow) : Prop :=
  ∀ token, row.next? = some token → token.kind = .closeParen →
    Reader.closeInnermost token around =
      .error (.located .unexpectedClose token.position)

theorem refusesClose_of_close?_eq_none {gap : Gap} (mustFill : gap.close? = none) :
    RefusesClose (gap :: around) row := fun token _ _ => by
  simp only [Reader.closeInnermost, mustFill]

/-- With less than so many tokens ahead, a procedure reads what a reader delivers. -/
def KeepsUp (tokens : List Token) (answer : Except Error Form) (limit : Nat)
    (form : Descent Form) : Prop :=
  ∀ around row, Stands tokens answer limit (.atForm around) row →
    RefusesClose around row →
      Delivers tokens answer row.ahead.length around (form row)

namespace KeepsUp

variable {form : Descent Form} {wider : Nat}

theorem mono (keepsUp : KeepsUp tokens answer wider form)
    (within : limit ≤ wider) : KeepsUp tokens answer limit form :=
  fun around row stands => keepsUp around row (stands.mono within)

/-- A form in a gap that must not stay empty. -/
theorem leads (keepsUp : KeepsUp tokens answer limit form) {gap : Gap}
    (mustFill : gap.close? = none)
    (stands : Stands tokens answer limit (.atForm (gap :: around)) row) :
    Delivers tokens answer limit (gap :: around) (form row) :=
  (keepsUp _ _ stands (refusesClose_of_close?_eq_none mustFill)).mono
    fun _ _ later => later.mono (Nat.le_of_lt stands.fits)

end KeepsUp

end Places

/-! ## Loops -/

section Loops

variable {limit rounds : Nat} {row : TokenRow} {around : List Gap}

/--
Every name is a token, so the rounds suffice for all that are ahead.  They end
before a closing parenthesis, and behind it the body has to come.
-/
theorem leads_names {opening : Position} (identifiers : List Identifier)
    (within : limit ≤ rounds)
    (stands : Stands tokens answer limit
      (.atParameter opening identifiers.reverse around) row) :
    Leads answer
      (fun parameters later =>
        ∃ token, expect .closeParen later = .done token later.behind ∧
          Stands tokens answer limit
            (.atForm (.body opening parameters :: around)) later.behind)
      (names rounds identifiers row) := by
  induction rounds generalizing limit identifiers row with
  | zero => exact absurd (Nat.lt_of_lt_of_le stands.fits within) (Nat.not_lt_zero _)
  | succ rounds ih =>
    have less : row.ahead.length ≤ limit := Nat.le_of_lt stands.fits
    have fewer : row.ahead.length ≤ rounds :=
      Nat.le_of_lt_succ (Nat.lt_of_lt_of_le stands.fits within)
    rcases check_cases .closeParen row with
      ⟨token, found, closes, checked⟩ | ⟨goesOn, checked⟩
    · have taken : Reader.step (.atParameter opening identifiers.reverse around) token =
          .ok (.atForm (.body opening identifiers :: around)) := by
        simp only [Reader.step, closes, List.reverse_reverse]
      rw [names, bind_of_done checked, if_pos rfl]
      exact .done ⟨token, expect_of_next found checked,
        (stands.behind found taken).mono less⟩
    · rw [names, bind_of_done checked, if_neg Bool.false_ne_true]
      refine ((awaits_parameter _ _ _ goesOn).leads stands).bind
        fun token later named => ?_
      rw [← List.reverse_concat] at named
      exact (ih _ fewer named).mono fun _ _ ⟨token, expected, inBody⟩ =>
        ⟨token, expected, inBody.mono less⟩

/--
Forms in a gap that may stay empty, up to and including the parenthesis that
closes it.  Every form takes a token, so the rounds suffice.
-/
theorem leads_untilClose {form : Descent Form} (gap : List Form → Gap)
    (whole : List Form → Form) (forms : List Form)
    (fills : ∀ forms next, (gap forms).fill next = .open (gap (forms ++ [next])))
    (closes : ∀ forms, (gap forms).close? = some (whole forms))
    (within : limit ≤ rounds) (keepsUp : KeepsUp tokens answer limit form)
    (stands : Stands tokens answer limit (.atForm (gap forms :: around)) row) :
    Leads answer
      (fun forms =>
        Stands tokens answer limit (Reader.deliver (whole forms) around))
      (untilClose form rounds forms row) := by
  induction rounds generalizing limit forms row with
  | zero => exact absurd (Nat.lt_of_lt_of_le stands.fits within) (Nat.not_lt_zero _)
  | succ rounds ih =>
    have less : row.ahead.length ≤ limit := Nat.le_of_lt stands.fits
    have fewer : row.ahead.length ≤ rounds :=
      Nat.le_of_lt_succ (Nat.lt_of_lt_of_le stands.fits within)
    rcases check_cases .closeParen row with
      ⟨token, found, fits, checked⟩ | ⟨goesOn, checked⟩
    · rw [untilClose, bind_of_done checked, if_pos rfl,
        bind_of_done (expect_of_next found checked)]
      refine .done ((stands.behind found ?_).mono less)
      simp only [Reader.step, Reader.stepForm, fits, Reader.closeInnermost, closes]
    · rw [untilClose, bind_of_done checked, if_neg Bool.false_ne_true]
      refine (keepsUp _ _ stands fun token found fits =>
        absurd fits (goesOn token found)).bind fun next later filled => ?_
      -- The form is delivered to the same gap, with fewer tokens ahead.
      simp only [Reader.deliver, fills] at filled
      exact (ih _ fewer (keepsUp.mono less) filled).mono
        fun _ _ closed => closed.mono less

end Loops

/-! ## Compound forms -/

section Compound

variable {form : Descent Form} {limit rounds : Nat} {opening : Position}
  {head : Token} {row : TokenRow} {around : List Gap}

theorem leads_sequence (keepsUp : KeepsUp tokens answer limit form)
    (within : limit ≤ rounds) (found : row.next? = some head)
    (stands : Stands tokens answer limit
      (.atForm (.item opening [] :: around)) row.behind) :
    Delivers tokens answer limit around (sequence form rounds opening row) := by
  rw [sequence, bind_of_done (advance_of_next found)]
  refine (leads_untilClose (fun items => .item opening items.reverse)
    (.sequence opening) [] ?fills ?closes within keepsUp stands).bind
      fun _ _ closed => .done closed
  case fills => exact fun items next => by rw [List.reverse_concat, Gap.fill]
  case closes => exact fun items => by rw [Gap.close?, List.reverse_reverse]

theorem leads_lambda (keepsUp : KeepsUp tokens answer limit form)
    (within : limit ≤ rounds) (found : row.next? = some head)
    (stands : Stands tokens answer limit
      (.atParameterList opening around) row.behind) :
    Delivers tokens answer limit around (lambda form rounds opening row) := by
  have less := Nat.le_of_lt stands.fits
  rw [lambda, bind_of_done (advance_of_next found)]
  refine ((awaits_parameterList _ _).leads stands).bind fun _ _ opened => ?_
  refine (leads_names [] within (opened.mono less)).bind
    fun parameters later ⟨token, closed, inBody⟩ => ?_
  rw [bind_of_done closed]
  exact (keepsUp.leads rfl inBody).bind fun _ _ => leads_closing

theorem leads_conditional (keepsUp : KeepsUp tokens answer limit form)
    (found : row.next? = some head)
    (stands : Stands tokens answer limit
      (.atForm (.test opening :: around)) row.behind) :
    Delivers tokens answer limit around (conditional form opening row) := by
  rw [conditional, bind_of_done (advance_of_next found)]
  refine (keepsUp.leads rfl stands).bind fun test _ tested => ?_
  refine (keepsUp.leads rfl tested).bind fun consequent _ chosen => ?_
  exact (keepsUp.leads rfl chosen).bind fun _ _ => leads_closing

theorem leads_assignment (keepsUp : KeepsUp tokens answer limit form)
    (found : row.next? = some head)
    (stands : Stands tokens answer limit (.atTarget around) row.behind) :
    Delivers tokens answer limit around (assignment form row) := by
  have less := Nat.le_of_lt stands.fits
  rw [assignment, bind_of_done (advance_of_next found)]
  refine ((awaits_target _).leads stands).bind fun target _ named => ?_
  exact (keepsUp.leads rfl (named.mono less)).bind fun _ _ => leads_closing

theorem leads_printLine (keepsUp : KeepsUp tokens answer limit form)
    (found : row.next? = some head)
    (stands : Stands tokens answer limit
      (.atForm (.printed opening :: around)) row.behind) :
    Delivers tokens answer limit around (printLine form opening row) := by
  rw [printLine, bind_of_done (advance_of_next found)]
  exact (keepsUp.leads rfl stands).bind fun _ _ => leads_closing

theorem leads_operation {operator : Operator}
    (keepsUp : KeepsUp tokens answer limit form)
    (found : row.next? = some head)
    (stands : Stands tokens answer limit
      (.atForm (.left operator head.identifier :: around)) row.behind) :
    Delivers tokens answer limit around (operation form operator row) := by
  rw [operation, bind_of_done (advance_of_next found)]
  refine (keepsUp.leads rfl stands).bind fun left _ first => ?_
  exact (keepsUp.leads rfl first).bind fun _ _ => leads_closing

/-- The group of arguments is found at the token that is next, if there is one. -/
theorem Stands.inArguments {name : Identifier} (position : Position)
    (stands : Stands tokens answer limit (.atFirstArgument name around) row) :
    Stands tokens answer limit
      (.atForm (.argument name
        ((row.next?.map (·.position)).getD position) [] :: around)) row := by
  refine ⟨stands.sameTokens, stands.fits, stands.goesOn ▸ ?_⟩
  cases found : row.next? with
  | none => rw [TokenRow.ahead_eq_nil found]; rfl
  | some token => rw [TokenRow.ahead_eq_cons found]; rfl

theorem leads_procedureCall (keepsUp : KeepsUp tokens answer limit form)
    (within : limit ≤ rounds) (found : row.next? = some head)
    (stands : Stands tokens answer limit
      (.atFirstArgument head.identifier around) row.behind) :
    Delivers tokens answer limit around (procedureCall form rounds row) := by
  rw [procedureCall, bind_of_done (advance_of_next found),
    bind_of_done (peek_eq row.behind)]
  refine (leads_untilClose
    (fun arguments => .argument head.identifier _ arguments.reverse)
    (.call head.identifier _) [] ?fills ?closes within keepsUp
    (stands.inArguments head.position)).bind fun _ _ closed => .done closed
  case fills => exact fun items next => by rw [List.reverse_concat, Gap.fill]
  case closes => exact fun items => by rw [Gap.close?, List.reverse_reverse]

/-- The word behind an opening parenthesis decides as it does for a reader. -/
theorem leads_compound (keepsUp : KeepsUp tokens answer limit form)
    (within : limit ≤ rounds)
    (stands : Stands tokens answer limit (.atHead opening around) row) :
    Delivers tokens answer limit around (compound form rounds opening row) := by
  rw [compound, bind_of_done (peek_eq row)]
  cases found : row.next? with
  | none => exact stands.leads_missing found rfl
  | some head =>
    by_cases isName : head.kind = .identifier
    · have taken : Reader.step (.atHead opening around) head =
          .ok (.afterHead opening head.identifier around) := by
        simp only [Reader.step, isName]
      have behind := (stands.behind found taken).mono (Nat.le_of_lt stands.fits)
      have text : head.identifier.text = head.text := rfl
      rw [Reader.afterHead, text] at behind
      simp only [if_pos isName]
      cases word : SpecialForm.ofWord? head.text with
      | some special =>
        rw [word] at behind
        cases special with
        | sequence => exact leads_sequence keepsUp within found behind
        | lambda => exact leads_lambda keepsUp within found behind
        | conditional => exact leads_conditional keepsUp found behind
        | assignment => exact leads_assignment keepsUp found behind
        | printLine => exact leads_printLine keepsUp found behind
      | none =>
        simp only [word] at behind
        cases symbol : Operator.ofSymbol? head.text with
        | some operator =>
          rw [symbol] at behind
          exact leads_operation keepsUp found behind
        | none =>
          rw [symbol] at behind
          exact leads_procedureCall keepsUp within found behind
    · have refused : Reader.step (.atHead opening around) head =
          Reader.unexpected .head head := by
        cases kind : head.kind <;>
          first | exact absurd kind isName | simp only [Reader.step, kind]
      simp only [if_neg isName]
      exact .refused (stands.of_refusal found refused)

end Compound

/-! ## Forms -/

/--
A procedure for forms keeps up to its own depth: every form takes a token before
it reads other forms, so these have fewer tokens ahead.
-/
theorem keepsUp_form (depth : Nat) :
    KeepsUp tokens answer depth (form depth) := by
  induction depth with
  | zero => exact fun _ _ stands => absurd stands.fits (Nat.not_lt_zero _)
  | succ depth ih =>
    intro around row stands refusesClose
    have fewer : row.ahead.length ≤ depth := Nat.le_of_lt_succ stands.fits
    rw [form]
    cases found : row.next? with
    | none =>
      have ended : advance row = missing .form row := by
        simp only [advance, found]
      have leads : Leads answer (fun _ _ => False) (advance row) :=
        ended ▸ stands.leads_missing found rfl
      exact leads.bind fun _ _ => False.elim
    | some token =>
      rw [bind_of_done (advance_of_next found)]
      cases kind : token.kind with
      | openParen =>
        refine leads_compound (ih.mono fewer) fewer (stands.behind found ?_)
        simp only [Reader.step, Reader.stepForm, kind]
      | closeParen =>
        refine .refused (stands.of_refusal found ?_)
        simp only [Reader.step, Reader.stepForm, kind, refusesClose token found kind]
      | identifier =>
        refine .done (stands.behind found ?_)
        simp only [Reader.step, Reader.stepForm, kind]
      | nil | number | string | boolean =>
        have step : Reader.step (.atForm around) token =
            token.literal.map fun value =>
              Reader.deliver (.literal token value) around := by
          simp only [Reader.step, Reader.stepForm, kind]
        cases converted : token.literal with
        | ok value =>
          rw [converted] at step
          exact .done (stands.behind found step)
        | error error =>
          rw [converted] at step
          exact .refused (stands.of_refusal found step)

/-- Behind the form nothing may be left, as for a reader that is done. -/
theorem leads_oneForm {depth : Nat}
    (stands : Stands tokens answer depth .start ⟨tokens, 0⟩) :
    Leads answer (fun read _ => answer = .ok read)
      (oneForm depth ⟨tokens, 0⟩) := by
  rw [oneForm]
  refine (keepsUp_form depth _ _ stands fun _ _ _ => rfl).bind
    fun read later ends => ?_
  rw [bind_of_done (peek_eq later)]
  cases found : later.next? with
  | none =>
    refine .done ?_
    rw [← ends.goesOn, TokenRow.ahead_eq_nil found]
    rfl
  | some token => exact .refused (ends.of_refusal found rfl)

end Descent

/-- At a depth above the number of tokens, reading by descent is reading one by one. -/
theorem Form.descend_result? {tokens : List Token} {depth : Nat}
    (deep : tokens.length < depth) :
    (Form.descend depth tokens).result? = some (Form.ofTokens tokens) := by
  have start : Descent.Stands tokens (Form.ofTokens tokens) depth .start
      ⟨tokens, 0⟩ := ⟨rfl, deep, rfl⟩
  have leads := Descent.leads_oneForm start
  rw [Form.descend]
  generalize Descent.oneForm depth ⟨tokens, 0⟩ = ended at leads ⊢
  cases leads with
  | done isAnswer => rw [isAnswer]; rfl
  | refused isAnswer => rw [isAnswer]; rfl

end ScopedLisp
