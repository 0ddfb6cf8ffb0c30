import ScopedLisp.Proofs.FormReading
import ScopedLisp.Proofs.SourceLayout

/-!
# The first token that cannot be right

A list of tokens is viable if more tokens can follow it so that the whole is
read as a form.  The reader never waits for something that cannot come: from
each of its states some tokens lead to the end of a form
(`Reader.completable`).  So the viable lists are just those that it takes
without an error (`viable_iff_run`), and the first token that it refuses is
the first with which a list stops being viable.

The last theorem puts this in terms of errors: only a list that is viable and
not yet a form is said to end too early, and every other error stands at the
first token that cannot be right, whatever follows that token.
-/

namespace ScopedLisp

namespace Reader

/-! ## Every reader can be taken to its end -/

/-- Some tokens take a reader to the end of the form that it reads. -/
def Completable (reader : Reader) : Prop :=
  ∃ rest form, reader.run rest = .ok (.done form)

/-- A token that is read as a form wherever one may stand. -/
def anyName : Token :=
  ⟨.name "x", .start⟩

/-- A token that opens a parenthesis. -/
def anyOpening : Token :=
  ⟨.opening, .start⟩

/-- A token that closes a parenthesis. -/
def anyClosing : Token :=
  ⟨.closing, .start⟩

namespace Completable

theorem done (form : Form) : Completable (.done form) :=
  ⟨[], form, rfl⟩

/-- A reader that can go on to a reader with an end has one itself. -/
theorem of_step {reader next : Reader} {token : Token}
    (taken : reader.step token = .ok next) (later : Completable next) :
    Completable reader := by
  rcases later with ⟨rest, form, ran⟩
  exact ⟨token :: rest, form, (run_cons taken).trans ran⟩

theorem atForm {around : List Gap}
    (later : Completable (deliver (.variable anyName.identifier) around)) :
    Completable (.atForm around) := by
  have taken : (Reader.atForm around).step anyName =
      .ok (deliver (.variable anyName.identifier) around) := rfl
  exact .of_step taken later

theorem atClosing {form : Form} {around : List Gap}
    (later : Completable (deliver form around)) :
    Completable (.atClosing form around) := by
  have taken : (Reader.atClosing form around).step anyClosing =
      .ok (deliver form around) := rfl
  exact .of_step taken later

/-- A gap that may stay empty is closed at once. -/
theorem atGap {gap : Gap} {form : Form} {around : List Gap}
    (closed : gap.close? = some form)
    (later : Completable (deliver form around)) :
    Completable (.atForm (gap :: around)) := by
  have taken : (Reader.atForm (gap :: around)).step anyClosing =
      .ok (deliver form around) := by
    simp [step, stepForm, anyClosing, Lexeme.closing, Token.kind,
      closeInnermost, closed]
  exact .of_step taken later

end Completable

/-- However many forms are unfinished around it, a form can be followed up to their end. -/
theorem completable_deliver (form : Form) (around : List Gap) :
    Completable (deliver form around) := by
  induction around generalizing form with
  | nil => exact .done form
  | cons gap around ih =>
      cases gap with
      | item opening items =>
          have closed : (Gap.item opening (form :: items)).close? = some _ := rfl
          exact .atGap closed (ih _)
      | argument name group arguments =>
          have closed :
              (Gap.argument name group (form :: arguments)).close? = some _ :=
            rfl
          exact .atGap closed (ih _)
      | test opening => exact .atForm (.atForm (.atClosing (ih _)))
      | consequent opening test => exact .atForm (.atClosing (ih _))
      | left operator word => exact .atForm (.atClosing (ih _))
      | body opening parameters => exact .atClosing (ih _)
      | alternate opening test consequent => exact .atClosing (ih _)
      | assigned target => exact .atClosing (ih _)
      | printed opening => exact .atClosing (ih _)
      | right operator word first => exact .atClosing (ih _)

/-- Whatever a reader waits for, it can come. -/
theorem completable (reader : Reader) : Completable reader := by
  cases reader with
  | atForm around => exact .atForm (completable_deliver _ around)
  | atHead opening around =>
      have called : (Reader.atHead opening around).step anyName =
          .ok (.atFirstArgument anyName.identifier around) := rfl
      have closed :
          (Reader.atFirstArgument anyName.identifier around).step anyClosing =
            .ok (deliver (.call anyName.identifier .start []) around) := rfl
      exact .of_step called (.of_step closed (completable_deliver _ around))
  | atParameterList opening around =>
      have opened : (Reader.atParameterList opening around).step anyOpening =
          .ok (.atParameter opening [] around) := rfl
      have closed : (Reader.atParameter opening [] around).step anyClosing =
          .ok (.atForm (.body opening [] :: around)) := rfl
      exact .of_step opened
        (.of_step closed (.atForm (completable_deliver _ _)))
  | atParameter opening parameters around =>
      have closed :
          (Reader.atParameter opening parameters around).step anyClosing =
            .ok (.atForm (.body opening parameters.reverse :: around)) := rfl
      exact .of_step closed (.atForm (completable_deliver _ _))
  | atTarget around =>
      have named : (Reader.atTarget around).step anyName =
          .ok (.atForm (.assigned anyName.identifier :: around)) := rfl
      exact .of_step named (.atForm (completable_deliver _ _))
  | atFirstArgument name around =>
      have closed : (Reader.atFirstArgument name around).step anyClosing =
          .ok (deliver (.call name .start []) around) := rfl
      exact .of_step closed (completable_deliver _ around)
  | atClosing form around => exact .atClosing (completable_deliver form around)
  | done form => exact .done form

/-! ## Runs that end and runs that are refused -/

theorem run_append {reader middle : Reader} {first : List Token}
    (ran : reader.run first = .ok middle) (second : List Token) :
    reader.run (first ++ second) = middle.run second := by
  induction first generalizing reader with
  | nil =>
      cases ran
      rfl
  | cons token first ih =>
      rw [run] at ran
      rw [List.cons_append, run]
      split at ran
      · exact ih ran
      · contradiction

/-- What follows a token that is refused makes no difference. -/
theorem run_append_of_error {reader : Reader} {first : List Token}
    {error : Error} (refused : reader.run first = .error error)
    (second : List Token) : reader.run (first ++ second) = .error error := by
  induction first generalizing reader with
  | nil => contradiction
  | cons token first ih =>
      rw [run] at refused
      rw [List.cons_append, run]
      split at refused
      · exact ih refused
      · exact refused

/-- A run that is refused takes all tokens in front of the one it is refused at. -/
theorem exists_refused_token {reader : Reader} {tokens : List Token}
    {error : Error} (refused : reader.run tokens = .error error) :
    ∃ front token behind middle, tokens = front ++ token :: behind ∧
      reader.run front = .ok middle ∧ middle.step token = .error error := by
  induction tokens generalizing reader with
  | nil => contradiction
  | cons first tokens ih =>
      rw [run] at refused
      split at refused
      · rename_i next taken
        rcases ih refused with ⟨front, token, behind, middle, rfl, ran, stops⟩
        exact ⟨first :: front, token, behind, middle, rfl,
          (run_cons taken).trans ran, stops⟩
      · rename_i fault stops
        cases refused
        exact ⟨[], first, tokens, reader, rfl, rfl, stops⟩

end Reader

/-! ## Viable lists -/

/-- The beginning of a list of tokens that is read as a form. -/
def Viable (tokens : List Token) : Prop :=
  ∃ accepted form, tokens <+: accepted ∧ Form.ofTokens accepted = .ok form

theorem Viable.initial {first second : List Token} (viable : Viable second)
    (isPrefix : first <+: second) : Viable first := by
  rcases viable with ⟨accepted, form, shorter, read⟩
  exact ⟨accepted, form, isPrefix.trans shorter, read⟩

/-- The viable lists are those that the reader takes without an error. -/
theorem viable_iff_run {tokens : List Token} :
    Viable tokens ↔ ∃ reader, Reader.start.run tokens = .ok reader := by
  constructor
  · rintro ⟨accepted, form, ⟨rest, rfl⟩, read⟩
    have whole := Form.ofTokens_eq_ok_iff.mp read
    rcases ran : Reader.start.run tokens with error | reader
    · rw [Reader.run_append_of_error ran] at whole
      cases whole
    · exact ⟨reader, rfl⟩
  · rintro ⟨reader, ran⟩
    rcases reader.completable with ⟨rest, form, ends⟩
    have read : Form.ofTokens (tokens ++ rest) = .ok form :=
      Form.ofTokens_eq_ok_iff.mpr ((Reader.run_append ran rest).trans ends)
    exact ⟨tokens ++ rest, form, List.prefix_append tokens rest, read⟩

/-! ## What is reported about a token -/

/-- The codes of literals that have no value. -/
def literalCodes : List ErrorCode :=
  [.unterminatedString, .malformedLiteral]

theorem Literal.unescape_code {text : List Char} {cause : Cause}
    (refused : unescape text = .error cause) : cause.code ∈ literalCodes := by
  fun_induction unescape text with
  | case1 => contradiction
  | case2 =>
      cases refused
      decide
  | case3 character rest value escaped ih =>
      exact ih (eq_error_of_map_eq_error refused)
  | case4 character rest unknown =>
      cases refused
      simp [Cause.code, literalCodes]
  | case5 character rest _ _ ih => exact ih (eq_error_of_map_eq_error refused)

theorem Lexeme.literal_code {lexeme : Lexeme} {cause : Cause}
    (isLiteral : lexeme.kind.isLiteral = true)
    (refused : lexeme.literal = .error cause) : cause.code ∈ literalCodes := by
  rcases lexeme with ⟨kind, text⟩
  cases kind with
  | nil => contradiction
  | number =>
      have unread : Literal.readNumber text = .error cause :=
        eq_error_of_map_eq_error refused
      unfold Literal.readNumber at unread
      split at unread <;> cases unread
      simp [Cause.code, literalCodes]
  | string =>
      have unread : Literal.readString text = .error cause :=
        eq_error_of_map_eq_error refused
      unfold Literal.readString at unread
      split at unread
      · exact Literal.unescape_code (eq_error_of_map_eq_error unread)
      · cases unread
        decide
  | boolean =>
      have unread : Literal.readBoolean text = .error cause :=
        eq_error_of_map_eq_error refused
      unfold Literal.readBoolean at unread
      split at unread
      · contradiction
      · split at unread <;> cases unread
        simp [Cause.code, literalCodes]
  | identifier | openParen | closeParen => contradiction

/--
What the reader reports about a token: that it does not fit, or else that it is
a literal without a value, in just the words of that literal.
-/
structure Error.Blames (error : Error) (token : Token) : Prop where
  position : error.position? = some token.position
  cause : error.cause.code = .unexpectedToken ∨
    token.kind.isLiteral = true ∧ token.literal = .error error ∧
      error.cause.code ∈ literalCodes

/-- No token is blamed for the end of a list. -/
theorem Error.Blames.code_ne {error : Error} {token : Token}
    (blames : error.Blames token) : error.cause.code ≠ .unexpectedEnd := by
  rcases blames.cause with unexpected | ⟨-, -, ofLiteral⟩
  · rw [unexpected]
    decide
  · intro ends
    rw [ends] at ofLiteral
    revert ofLiteral
    decide

/-- The ways in which a reader refuses a token. -/
inductive Refusal (token : Token) : Error → Prop where
  | unexpected (wanted : Expectation) :
      Refusal token
        (.located (.expected wanted (some token.lexeme)) token.position)
  | unexpectedClose :
      Refusal token (.located .unexpectedClose token.position)
  | literal {error : Error} (isLiteral : token.kind.isLiteral = true)
      (refused : token.literal = .error error) : Refusal token error

theorem Refusal.blames {token : Token} {error : Error}
    (refusal : Refusal token error) : error.Blames token := by
  cases refusal with
  | unexpected wanted => exact ⟨rfl, .inl rfl⟩
  | unexpectedClose => exact ⟨rfl, .inl rfl⟩
  | literal isLiteral refused =>
      rcases read : token.lexeme.literal with cause | value
      · have same : Error.located cause token.position = error := by
          simpa [Token.literal, read, Except.mapError] using refused
        subst same
        exact ⟨rfl, .inr ⟨isLiteral, refused,
          Lexeme.literal_code isLiteral read⟩⟩
      · rw [Token.literal, read] at refused
        cases refused

namespace Reader

theorem unexpected_refusal {wanted : Expectation} {token : Token}
    {error : Error} (refused : unexpected wanted token = .error error) :
    Refusal token error := by
  cases refused
  exact .unexpected wanted

theorem closeInnermost_refusal {token : Token} {around : List Gap}
    {error : Error} (refused : closeInnermost token around = .error error) :
    Refusal token error := by
  unfold closeInnermost at refused
  split at refused
  · cases refused
    exact .unexpectedClose
  · split at refused
    · contradiction
    · cases refused
      exact .unexpectedClose

theorem stepForm_refusal {token : Token} {around : List Gap} {error : Error}
    (refused : stepForm token around = .error error) : Refusal token error := by
  unfold stepForm at refused
  split at refused
  · contradiction
  · exact closeInnermost_refusal refused
  · contradiction
  all_goals
    rename_i kind
    exact .literal (by rw [kind]; rfl) (eq_error_of_map_eq_error refused)

/-- A token is refused in one of the ways of `Refusal`. -/
theorem step_refusal {reader : Reader} {token : Token} {error : Error}
    (refused : reader.step token = .error error) : Refusal token error := by
  cases reader with
  | atForm around => exact stepForm_refusal refused
  | atFirstArgument name around => exact stepForm_refusal refused
  | done result => exact unexpected_refusal refused
  | atHead opening around | atParameterList opening around
  | atParameter opening parameters around | atTarget around
  | atClosing form around =>
      simp only [step] at refused
      split at refused
      all_goals
        first
          | contradiction
          | exact unexpected_refusal refused

end Reader

/-! ## What is reported about a list -/

/-- A list is refused at its first token that cannot be right, or because it ends too early. -/
theorem Form.ofTokens_refusal_cases {tokens : List Token} {error : Error}
    (refused : Form.ofTokens tokens = .error error) :
    (∃ front token behind, tokens = front ++ token :: behind ∧
      Viable front ∧ ¬Viable (front ++ [token]) ∧ Refusal token error) ∨
    ∃ reader, Reader.start.run tokens = .ok reader ∧ reader.result? = none ∧
      error =
        ⟨.expected reader.missing none, tokens.getLast?.map (·.position)⟩ := by
  unfold Form.ofTokens at refused
  split at refused
  · rename_i fault ran
    cases refused
    rcases Reader.exists_refused_token ran with
      ⟨front, token, behind, middle, rfl, taken, stops⟩
    refine .inl ⟨front, token, behind, rfl, viable_iff_run.mpr ⟨middle, taken⟩,
      ?_, Reader.step_refusal stops⟩
    rintro viable
    rcases viable_iff_run.mp viable with ⟨reader, goesOn⟩
    rw [Reader.run_append taken, Reader.run, stops] at goesOn
    cases goesOn
  · rename_i reader ran
    split at refused
    · contradiction
    · rename_i unfinished
      cases refused
      exact .inr ⟨reader, ran, unfinished, rfl⟩

theorem Form.ofTokens_error_cases {tokens : List Token} {error : Error}
    (refused : Form.ofTokens tokens = .error error) :
    (∃ front token behind, tokens = front ++ token :: behind ∧
      Viable front ∧ ¬Viable (front ++ [token]) ∧ error.Blames token) ∨
    (Viable tokens ∧ error.cause.code = .unexpectedEnd ∧
      error.position? = tokens.getLast?.map (·.position)) := by
  rcases Form.ofTokens_refusal_cases refused with
    ⟨front, token, behind, whole, viable, unviable, refusal⟩ |
      ⟨reader, ran, -, rfl⟩
  · exact .inl ⟨front, token, behind, whole, viable, unviable, refusal.blames⟩
  · exact .inr ⟨viable_iff_run.mpr ⟨reader, ran⟩, rfl, rfl⟩

/--
A list of tokens that is refused is said to end too early exactly if more
tokens would make it a form, and then its last token is where that is
reported.  Every other error is reported at the first token with which the
list stops being the beginning of any form: it does not fit there, or it is a
literal that has no value.
-/
theorem refusals_are_reported_in_place {tokens : List Token} {error : Error}
    (refused : Form.ofTokens tokens = .error error) :
    (error.cause.code = .unexpectedEnd ↔
      ∃ accepted, tokens <+: accepted ∧ tokens ≠ accepted ∧
        ∃ form, Form.ofTokens accepted = .ok form) ∧
    (error.cause.code = .unexpectedEnd →
      error.position? = tokens.getLast?.map (·.position)) ∧
    (error.cause.code ≠ .unexpectedEnd →
      ∃ index, ∃ inside : index < tokens.length,
        error.Blames tokens[index] ∧
        ¬Viable (tokens.take (index + 1)) ∧
        ∀ earlier < index, Viable (tokens.take (earlier + 1))) := by
  rcases Form.ofTokens_error_cases refused with
    ⟨front, token, behind, rfl, viable, unviable, blames⟩ |
      ⟨viable, tooEarly, position⟩
  · refine ⟨⟨fun tooEarly => absurd tooEarly blames.code_ne, ?_⟩,
      fun tooEarly => absurd tooEarly blames.code_ne, fun _ => ?_⟩
    · rintro ⟨accepted, isPrefix, -, form, read⟩
      have whole : Viable (front ++ token :: behind) :=
        ⟨accepted, form, isPrefix, read⟩
      refine absurd (whole.initial ?_) unviable
      rw [List.append_cons front token behind]
      exact List.prefix_append _ behind
    · have upTo : (front ++ token :: behind).take (front.length + 1) =
          front ++ [token] := by
        rw [List.append_cons, List.take_left' (by simp)]
      refine ⟨front.length, by simp, by simpa using blames, by rwa [upTo], ?_⟩
      intro earlier isEarlier
      refine viable.initial ?_
      rw [List.take_append_of_le_length isEarlier]
      exact List.take_prefix _ front
  · refine ⟨⟨fun _ => ?_, fun _ => tooEarly⟩, fun _ => position,
      fun other => absurd tooEarly other⟩
    rcases viable with ⟨accepted, form, isPrefix, read⟩
    refine ⟨accepted, isPrefix, ?_, form, read⟩
    rintro rfl
    rw [refused] at read
    cases read

/--
The parameters of `(lambda (x 1 "\q"` go wrong at the number, and the bad
escape behind it is never reached; `(set x "\q"` is refused at the string that
has no value, and `(set x` ends too early.
-/
theorem refusals_are_reported_in_place_three :
    let opening : Token := ⟨.opening, ⟨1, 1⟩⟩
    let escape : Token := ⟨⟨.string, "\"\\q\""⟩, ⟨2, 1⟩⟩
    let parameters : List Token :=
      [opening, ⟨.name "lambda", ⟨1, 2⟩⟩, ⟨.opening, ⟨1, 9⟩⟩,
        ⟨.name "x", ⟨1, 10⟩⟩, ⟨⟨.number, "1"⟩, ⟨1, 12⟩⟩, escape]
    let assigned : List Token :=
      [opening, ⟨.name "set", ⟨1, 2⟩⟩, ⟨.name "x", ⟨1, 6⟩⟩]
    (∃ error, Form.ofTokens parameters = .error error ∧
      error.position? = some ⟨1, 12⟩ ∧
      ∃ index, ∃ inside : index < parameters.length,
        error.Blames parameters[index] ∧
        ¬Viable (parameters.take (index + 1)) ∧
        ∀ earlier < index, Viable (parameters.take (earlier + 1))) ∧
    (∃ error, Form.ofTokens (assigned ++ [escape]) = .error error ∧
      error.cause = .unknownEscape 'q' ∧
      ∃ index, ∃ inside : index < (assigned ++ [escape]).length,
        error.Blames (assigned ++ [escape])[index] ∧
        ¬Viable ((assigned ++ [escape]).take (index + 1)) ∧
        ∀ earlier < index, Viable ((assigned ++ [escape]).take (earlier + 1))) ∧
    ∃ error, Form.ofTokens assigned = .error error ∧
      error.position? = some ⟨1, 6⟩ ∧
      ∃ accepted, assigned <+: accepted ∧ assigned ≠ accepted ∧
        ∃ form, Form.ofTokens accepted = .ok form := by
  intro opening escape parameters assigned
  have misplaced : Form.ofTokens parameters =
      .error (.located (.expected (.token .identifier)
        (some ⟨.number, "1"⟩)) ⟨1, 12⟩) := by
    cbv
  have valueless : Form.ofTokens (assigned ++ [escape]) =
      .error (.located (.unknownEscape 'q') ⟨2, 1⟩) := by
    cbv
  have unfinished : Form.ofTokens assigned =
      .error ⟨.expected .form none, some ⟨1, 6⟩⟩ := by
    cbv
  exact ⟨⟨_, misplaced, rfl,
      (refusals_are_reported_in_place misplaced).2.2 (by decide)⟩,
    ⟨_, valueless, rfl,
      (refusals_are_reported_in_place valueless).2.2 (by decide)⟩,
    ⟨_, unfinished, rfl,
      (refusals_are_reported_in_place unfinished).1.mp rfl⟩⟩

end ScopedLisp
