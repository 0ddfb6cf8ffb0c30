import ScopedLisp.Proofs.EvaluationPolicy
import ScopedLisp.Proofs.JoinedSources
import ScopedLisp.Proofs.ParenthesisScanner
import ScopedLisp.Proofs.TokenGrammar

/-!
# Writing strings as literals

`LiteralBody` says which texts may stand between quotes for a given string.  A
quote and a backslash have to be escaped, a newline, a tab and a carriage
return may be, and every other character stands for itself.

Three readers go over such a text: one looks for the quote that closes it, one
decodes what is between the quotes, and the scanner of the dialogue counts
parentheses.  Each of them is followed by induction on `LiteralBody`, so all
of them pass the same characters and escapes, whatever the string holds.
-/

namespace ScopedLisp

/-! ## Texts that write a string -/

/-- The letters that a backslash escapes, with what they stand for. -/
def escapes : List (Char × Char) :=
  [('"', '"'), ('\\', '\\'), ('n', '\n'), ('t', '\t'), ('r', '\r')]

theorem Literal.escaped?_eq_some_iff {letter character : Char} :
    Literal.escaped? letter = some character ↔
      (letter, character) ∈ escapes := by
  unfold Literal.escaped?
  split <;> simp_all [escapes, eq_comm]

/-- What may stand between quotes for a string. -/
inductive LiteralBody : (body string : List Char) → Prop where
  | empty : LiteralBody [] []
  | plain {character : Char} {body string : List Char}
      (notQuote : character ≠ '"') (notBackslash : character ≠ '\\')
      (rest : LiteralBody body string) :
      LiteralBody (character :: body) (character :: string)
  | escaped {letter character : Char} {body string : List Char}
      (isEscape : (letter, character) ∈ escapes)
      (rest : LiteralBody body string) :
      LiteralBody ('\\' :: letter :: body) (character :: string)

/-- A text that writes a string: its characters between quotes. -/
def IsLiteralOf (text string : String) : Prop :=
  ∃ body, LiteralBody body string.toList ∧ text.toList = '"' :: body ++ ['"']

/-- Every string can be written. -/
theorem exists_literalBody (string : List Char) :
    ∃ body, LiteralBody body string := by
  induction string with
  | nil => exact ⟨[], .empty⟩
  | cons character string ih =>
      rcases ih with ⟨body, written⟩
      by_cases isQuote : character = '"'
      · subst isQuote
        exact ⟨'\\' :: '"' :: body, .escaped (by simp [escapes]) written⟩
      by_cases isBackslash : character = '\\'
      · subst isBackslash
        exact ⟨'\\' :: '\\' :: body, .escaped (by simp [escapes]) written⟩
      · exact ⟨character :: body, .plain isQuote isBackslash written⟩

theorem Literal.unescape_plain {character : Char}
    (notBackslash : character ≠ '\\') (rest : List Char) :
    Literal.unescape (character :: rest) =
      (Literal.unescape rest).map (character :: ·) := by
  rw [Literal.unescape]
  · exact fun isBackslash _ => notBackslash isBackslash
  · exact fun _ _ isBackslash _ => notBackslash isBackslash

namespace LiteralBody

variable {body string : List Char}

theorem isStringBody (written : LiteralBody body string) :
    IsStringBody body := by
  induction written with
  | empty => exact .empty
  | plain notQuote notBackslash _ ih => exact .plain notQuote notBackslash ih
  | escaped _ _ ih => exact .escaped ih

/-- Decoding gives the string back. -/
theorem unescape_eq (written : LiteralBody body string) :
    Literal.unescape body = .ok string := by
  induction written with
  | empty => rfl
  | @plain character body string _ notBackslash _ ih =>
      rw [Literal.unescape_plain notBackslash, ih]
      rfl
  | escaped isEscape _ ih =>
      rw [Literal.unescape, Literal.escaped?_eq_some_iff.mpr isEscape, ih]
      rfl

end LiteralBody

/-! ## Quoted texts -/

/-- A string is closed by the first quote behind its body. -/
theorem IsStringBody.splitString?_eq {body : List Char}
    (isBody : IsStringBody body) (rest : List Char) :
    splitString? (body ++ '"' :: rest) = some (body ++ ['"'], rest) := by
  induction isBody with
  | empty => rfl
  | plain notQuote notBackslash _ ih =>
      rw [List.cons_append, splitString?_plain notQuote notBackslash, ih]
      rfl
  | escaped _ ih =>
      rw [List.cons_append, List.cons_append, splitString?, ih]
      rfl

@[simp]
theorem Literal.unquote?_quoted (body : List Char) :
    Literal.unquote? ('"' :: body ++ ['"']) = some body := by
  simp [Literal.unquote?]

theorem Literal.readString_quoted {text : String} {body : List Char}
    (quoted : text.toList = '"' :: body ++ ['"']) :
    Literal.readString text = (Literal.unescape body).map String.ofList := by
  rw [Literal.readString, quoted, Literal.unquote?_quoted]

/-- A text between quotes is one token at the start of its source. -/
theorem tokenize_quoted {text : String} {body : List Char}
    (isBody : IsStringBody body) (quoted : text.toList = '"' :: body ++ ['"']) :
    tokenize text = .ok [⟨⟨.string, text⟩, .start⟩] := by
  have cuts : CutsOff '"' (body ++ ['"']) ⟨.string, text.toList, []⟩ := by
    rw [quoted]
    exact .string (isBody.splitString?_eq [])
  have lexed : Lexed .start 0 text.toList [⟨⟨.string, text⟩, .start⟩] := by
    have token : Lexed .start 0 ([] ++ (text.toList ++ []))
        [⟨⟨.string, String.ofList text.toList⟩, .start⟩] :=
      .token .empty cuts rfl (.done .empty)
    simpa using token
  exact lexed.tokenizeFrom_eq

theorem parenDepth_quoted {text : String} {body : List Char}
    (isBody : IsStringBody body) (quoted : text.toList = '"' :: body ++ ['"']) :
    parenDepth text = 0 := by
  have spells : Spells .string text.toList := ⟨body, isBody, quoted⟩
  exact (spells.passes rfl).depth

/-! ## Literals as sources -/

/-- A source that is one literal token has the value of that token. -/
theorem interpret_literal {source : String} {token : Token} {value : Literal}
    (read : tokenize source = .ok [token]) (converts : token.literal = .ok value)
    (host : Host) (depth : Nat) (scope : ScopeId) (world : World) :
    interpret host (depth + 1) scope source world =
      .done value.toValue
        ((world.record (.lexed 1)).record (.parsed token.position)) := by
  have taken : Reader.start.step token =
      .ok (.done (.literal token value)) := by
    have isLiteral := Token.isLiteral_of_literal converts
    cases kind : token.kind <;> rw [kind] at isLiteral
    case nil | number | string | boolean =>
      simp only [Reader.start, Reader.step, Reader.stepForm, kind, converts]
      rfl
    all_goals contradiction
  have parsed : Form.ofTokens [token] = .ok (.literal token value) := by
    simp only [Form.ofTokens, Reader.run, taken, Reader.result?]
  rw [interpret_of_parsed read parsed]
  rfl

/--
Every string can be written as a literal.  However it is written, the literal
is a single token with the whole text; in any scope of any world it has the
string as its value, and nothing changes but the log; and the scanner of the
dialogue finds no parenthesis open behind it.
-/
theorem strings_have_literals (string : String) :
    (∃ text, IsLiteralOf text string) ∧
    ∀ text, IsLiteralOf text string →
      tokenize text = .ok [⟨⟨.string, text⟩, .start⟩] ∧
      (∀ host depth scope world,
        interpret host (depth + 1) scope text world =
          .done (.string string)
            { world with
              log := (world.log.push (.lexed 1)).push (.parsed .start) }) ∧
      parenDepth text = 0 := by
  constructor
  · rcases exists_literalBody string.toList with ⟨body, written⟩
    exact ⟨String.ofList ('"' :: body ++ ['"']), body, written,
      String.toList_ofList⟩
  · rintro text ⟨body, written, quoted⟩
    have read := tokenize_quoted written.isStringBody quoted
    have converts : Token.literal ⟨⟨.string, text⟩, .start⟩ =
        .ok (.string string) := by
      refine Token.literal_eq_ok_iff.mpr ?_
      simp [Lexeme.literal, Literal.readString_quoted quoted,
        written.unescape_eq, Except.map]
    exact ⟨read, interpret_literal read converts,
      parenDepth_quoted written.isStringBody quoted⟩

/-- A quote, a newline written as it is, a backslash, and a tab that is escaped. -/
theorem strings_have_literals_four :
    IsLiteralOf "\"\\\"(\n;\\\\\\t\"" "\"(\n;\\\t" ∧
      tokenize "\"\\\"(\n;\\\\\\t\"" =
        .ok [⟨⟨.string, "\"\\\"(\n;\\\\\\t\""⟩, .start⟩] ∧
      (∀ host depth scope world,
        interpret host (depth + 1) scope "\"\\\"(\n;\\\\\\t\"" world =
          .done (.string "\"(\n;\\\t")
            { world with
              log := (world.log.push (.lexed 1)).push (.parsed .start) }) ∧
      parenDepth "\"\\\"(\n;\\\\\\t\"" = 0 := by
  have written : IsLiteralOf "\"\\\"(\n;\\\\\\t\"" "\"(\n;\\\t" := by
    refine ⟨['\\', '"', '(', '\n', ';', '\\', '\\', '\\', 't'], ?_, rfl⟩
    exact .escaped (by decide) (.plain (by decide) (by decide)
      (.plain (by decide) (by decide) (.plain (by decide) (by decide)
        (.escaped (by decide) (.escaped (by decide) .empty)))))
  exact ⟨written, (strings_have_literals _).2 _ written⟩

end ScopedLisp
