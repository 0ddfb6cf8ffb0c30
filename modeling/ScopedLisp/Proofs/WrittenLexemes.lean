import ScopedLisp.Form
import ScopedLisp.Proofs.JoinedSources

/-!
# Reading what was written out

Lexemes are written out one after the other, with a gap in front of each and
one at the end.  If no gap between two lexemes is empty, then reading gives
back just these lexemes (`tokenize_undoes_writing`): every reader stops at the
first character of a gap, for no gap starts with a character that may stand
inside a name, and a closed string is not read any further whatever it holds.

Which lexemes can be written is said by reading as well.  A parenthesis can,
and so can every text that is one whole token when it is read alone; the
parentheses of a list have to balance.
-/

namespace ScopedLisp

/-! ## What is written out -/

/-- A lexeme with the gap in front of it. -/
structure SpacedLexeme where
  gap : List Char
  lexeme : Lexeme

/-- The text of lexemes with their gaps, and a last gap. -/
def spacedText (items : List SpacedLexeme) (lastGap : List Char) : List Char :=
  items.flatMap (fun item => item.gap ++ item.lexeme.text.toList) ++ lastGap

theorem spacedText_cons (item : SpacedLexeme) (items : List SpacedLexeme)
    (lastGap : List Char) :
    spacedText (item :: items) lastGap =
      item.gap ++ (item.lexeme.text.toList ++ spacedText items lastGap) := by
  simp [spacedText]

/-- A parenthesis, or a text that is one whole token when it is read alone. -/
def Lexeme.Writable (lexeme : Lexeme) : Prop :=
  lexeme = .opening ∨ lexeme = .closing ∨
    ∃ token, tokenize lexeme.text = .ok [token] ∧ token.lexeme = lexeme

/-- Parentheses that balance where so many are open in front of them. -/
structure BalancedFrom (depth : Nat) (kinds : List TokenKind) : Prop where
  initials : ∀ initial, initial <+: kinds →
    initial.count .closeParen ≤ depth + initial.count .openParen
  whole : kinds.count .closeParen = depth + kinds.count .openParen

/-- One kind after the other is counted without closing too much. -/
theorem BalancedFrom.exists_depthAfter
    {depth : Nat} {kind : TokenKind} {kinds : List TokenKind}
    (balanced : BalancedFrom depth (kind :: kinds)) :
    ∃ next, depthAfter depth kind = some next ∧ BalancedFrom next kinds := by
  have whole := balanced.whole
  have initials : ∀ initial, initial <+: kinds →
      (kind :: initial).count .closeParen ≤
        depth + (kind :: initial).count .openParen :=
    fun initial shorter =>
      balanced.initials _ (List.cons_prefix_cons.mpr ⟨rfl, shorter⟩)
  have first := initials [] List.nil_prefix
  cases kind with
  | openParen =>
      simp only [List.count_cons] at whole initials
      refine ⟨depth + 1, rfl, fun initial shorter => ?_, ?_⟩
      · have bound := initials initial shorter
        simp at bound
        omega
      · simp at whole
        omega
  | closeParen =>
      simp only [List.count_cons] at whole initials
      have someOpen : depth ≠ 0 := by
        rintro rfl
        simp at first
      refine ⟨depth - 1, if_neg someOpen, fun initial shorter => ?_, ?_⟩
      · have bound := initials initial shorter
        simp at bound
        omega
      · simp at whole
        omega
  | nil | number | string | boolean | identifier =>
      exact ⟨depth, rfl, fun initial shorter => by
        simpa using initials initial shorter, by simpa using whole⟩

/-! ## One lexeme -/

/-- A lexeme that can be written is cut off a source that holds nothing else. -/
theorem Lexeme.Writable.exists_cutsOff {lexeme : Lexeme}
    (writable : lexeme.Writable) :
    ∃ first behind, lexeme.text.toList = first :: behind ∧
      CutsOff first behind ⟨lexeme.kind, lexeme.text.toList, []⟩ := by
  rcases writable with rfl | rfl | ⟨token, read, rfl⟩
  · exact ⟨'(', [], rfl, .opening⟩
  · exact ⟨')', [], rfl, .closing⟩
  · have lexed := lexed_of_tokenizeFrom read
    generalize source : token.lexeme.text.toList = text at lexed ⊢
    cases lexed with
    | @token _ _ _ gap behind first piece _ isGap cuts counted later =>
        have parts := readLexeme_append (readLexeme_of_cutsOff cuts)
        have whole : piece.text = gap ++ (piece.text ++ piece.rest) := by
          simpa using source
        have lengths := congrArg List.length whole
        simp only [List.length_append] at lengths
        have noGap : gap = [] := List.eq_nil_of_length_eq_zero (by omega)
        have noRest : piece.rest = [] := List.eq_nil_of_length_eq_zero (by omega)
        refine ⟨first, behind, ?_, ?_⟩
        · rw [noGap, List.nil_append, parts]
        · rw [← whole, ← noRest]
          exact cuts

/-- A gap starts with a character that cannot stand inside a name. -/
theorem IsGap.stops {atEnd : Bool} {stop : Char} {rest : List Char}
    (isGap : IsGap atEnd (stop :: rest)) : isNameCharacter stop = false := by
  refine Bool.eq_false_iff.mpr fun inName => ?_
  rcases isNameCharacter_startsNoGap inName with ⟨notBlank, notComment⟩
  generalize whole : stop :: rest = gap at isGap
  cases isGap with
  | empty => contradiction
  | blank blank isGap =>
      rw [← (List.cons.inj whole).1, ← isBlank_iff, notBlank] at blank
      contradiction
  | comment oneLine isGap => exact notComment (List.cons.inj whole).1
  | unfinished oneLine => exact notComment (List.cons.inj whole).1

/-! ## Lexemes one after the other -/

/-- Gaps of which none but the first may be empty. -/
structure WellSpaced (items : List SpacedLexeme) (lastGap : List Char) :
    Prop where
  gaps : ∀ item ∈ items, IsGap false item.gap
  separated : ∀ item ∈ items.tail, item.gap ≠ []
  last : IsGap true lastGap

theorem WellSpaced.rest {item : SpacedLexeme} {items : List SpacedLexeme}
    {lastGap : List Char} (spaced : WellSpaced (item :: items) lastGap) :
    WellSpaced items lastGap where
  gaps other member := spaced.gaps other (List.mem_cons_of_mem item member)
  separated other member := spaced.separated other (List.mem_of_mem_tail member)
  last := spaced.last

/-- What follows a lexeme is nothing, or starts with the first character of a gap. -/
theorem WellSpaced.stops {item : SpacedLexeme} {items : List SpacedLexeme}
    {lastGap rest : List Char} {stop : Char}
    (spaced : WellSpaced (item :: items) lastGap)
    (follows : spacedText items lastGap = stop :: rest) :
    isNameCharacter stop = false := by
  cases items with
  | nil =>
      have isGap := spaced.last
      rw [show lastGap = stop :: rest from follows] at isGap
      exact isGap.stops
  | cons next items =>
      have isGap := spaced.gaps next (by simp)
      have separates := spaced.separated next (by simp)
      rw [spacedText_cons] at follows
      rcases gapCase : next.gap with _ | ⟨character, gap⟩
      · exact absurd gapCase separates
      · rw [gapCase] at isGap follows
        rw [← (List.cons.inj follows).1]
        exact isGap.stops

theorem exists_lexed_spacedText {items : List SpacedLexeme}
    {lastGap : List Char} (spaced : WellSpaced items lastGap)
    (writable : ∀ item ∈ items, item.lexeme.Writable) {depth : Nat}
    (balanced : BalancedFrom depth (items.map (·.lexeme.kind)))
    (position : Position) :
    ∃ tokens, Lexed position depth (spacedText items lastGap) tokens ∧
      tokens.map (·.lexeme) = items.map (·.lexeme) := by
  induction items generalizing depth position with
  | nil =>
      have noneOpen : depth = 0 := by
        have whole := balanced.whole
        simp at whole
        omega
      subst noneOpen
      exact ⟨[], .done spaced.last, rfl⟩
  | cons item items ih =>
      rcases balanced.exists_depthAfter with ⟨next, counted, balancedRest⟩
      rcases (writable item List.mem_cons_self).exists_cutsOff with
        ⟨first, behind, spelled, cuts⟩
      have readRest := ih spaced.rest
        (fun other member => writable other (List.mem_cons_of_mem item member))
        balancedRest
        ((position.advance item.gap).advance item.lexeme.text.toList)
      rcases readRest with ⟨tokens, lexed, sameLexemes⟩
      have cutsHere : ∃ behind, CutsOff first behind
          ⟨item.lexeme.kind, item.lexeme.text.toList,
            spacedText items lastGap⟩ := by
        rcases follows : spacedText items lastGap with _ | ⟨stop, rest⟩
        · exact ⟨behind, cuts⟩
        · exact ⟨_, cuts.stop (spaced.stops follows) rest⟩
      rcases cutsHere with ⟨behind, cutsHere⟩
      have isGap := spaced.gaps item List.mem_cons_self
      have token := Lexed.token isGap cutsHere counted lexed
      rw [spacedText_cons]
      refine ⟨_, token, ?_⟩
      simp [sameLexemes]

/--
Lexemes that are written out with gaps, none of them empty between two
lexemes, are read back as just these lexemes, if each is a parenthesis or is
read whole when it stands alone, and if the parentheses balance.
-/
theorem tokenize_undoes_writing
    {items : List SpacedLexeme} {lastGap : List Char}
    (writable : ∀ item ∈ items, item.lexeme.Writable)
    (gaps : ∀ item ∈ items, IsGap false item.gap)
    (separated : ∀ item ∈ items.tail, item.gap ≠ [])
    (last : IsGap true lastGap)
    (initials : ∀ initial, initial <+: items.map (·.lexeme.kind) →
      initial.count .closeParen ≤ initial.count .openParen)
    (whole : (items.map (·.lexeme.kind)).count .closeParen =
      (items.map (·.lexeme.kind)).count .openParen) :
    ∃ tokens, tokenize (String.ofList (spacedText items lastGap)) = .ok tokens ∧
      tokens.map (·.lexeme) = items.map (·.lexeme) := by
  have balanced : BalancedFrom 0 (items.map (·.lexeme.kind)) :=
    ⟨by simpa using initials, by simpa using whole⟩
  rcases exists_lexed_spacedText ⟨gaps, separated, last⟩ writable balanced
    .start with ⟨tokens, lexed, sameLexemes⟩
  refine ⟨tokens, ?_, sameLexemes⟩
  rw [tokenize, String.toList_ofList]
  exact lexed.tokenizeFrom_eq

/-- A sign that is a name, a number, and a string that looks like a comment. -/
theorem tokenize_undoes_writing_sign :
    ∃ tokens,
      tokenize " ;a\n(\t- -.5\r\n\"; (\n\";b\n); end" = .ok tokens ∧
        tokens.map (·.lexeme) =
          [.opening, .name "-", ⟨.number, "-.5"⟩, ⟨.string, "\"; (\n\""⟩,
            .closing] := by
  have sign : (Lexeme.name "-").Writable :=
    .inr (.inr ⟨⟨.name "-", .start⟩, by cbv, rfl⟩)
  have number : (Lexeme.mk .number "-.5").Writable :=
    .inr (.inr ⟨⟨⟨.number, "-.5"⟩, .start⟩, by cbv, rfl⟩)
  have string : (Lexeme.mk .string "\"; (\n\"").Writable :=
    .inr (.inr ⟨⟨⟨.string, "\"; (\n\""⟩, .start⟩, by cbv, rfl⟩)
  have comment : ∀ {letter : Char}, letter ≠ '\n' →
      IsGap false [';', letter, '\n'] := fun inLine =>
    .comment (fun member => inLine (List.mem_singleton.mp member).symm) .empty
  let items : List SpacedLexeme :=
    [⟨[' ', ';', 'a', '\n'], .opening⟩, ⟨['\t'], .name "-"⟩,
      ⟨[' '], ⟨.number, "-.5"⟩⟩, ⟨['\r', '\n'], ⟨.string, "\"; (\n\""⟩⟩,
      ⟨[';', 'b', '\n'], .closing⟩]
  have writable : ∀ item ∈ items, item.lexeme.Writable := by
    simp only [items, List.forall_mem_cons, List.not_mem_nil, false_imp_iff,
      implies_true, and_true]
    exact ⟨.inl rfl, sign, number, string, .inr (.inl rfl)⟩
  have gaps : ∀ item ∈ items, IsGap false item.gap := by
    simp only [items, List.forall_mem_cons, List.not_mem_nil, false_imp_iff,
      implies_true, and_true]
    exact ⟨.blank (by simp) (comment (by decide)), .blank (by simp) .empty,
      .blank (by simp) .empty, .blank (by simp) (.blank (by simp) .empty),
      comment (by decide)⟩
  have last : IsGap true "; end".toList := .unfinished (by decide)
  have initials : ∀ initial ∈ (items.map (·.lexeme.kind)).inits,
      initial.count .closeParen ≤ initial.count .openParen := by
    decide
  simp only [List.mem_inits] at initials
  have written : String.ofList (spacedText items "; end".toList) =
      " ;a\n(\t- -.5\r\n\"; (\n\";b\n); end" := by
    decide
  have read := tokenize_undoes_writing writable gaps (by simp [items]) last
    initials (by decide)
  rw [written] at read
  exact read

end ScopedLisp
