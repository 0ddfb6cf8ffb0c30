import ScopedLisp.Command.Repl
import ScopedLisp.Proofs.SourceLayout

/-!
# Counting parentheses without reading tokens

`parenDepth` looks at one character at a time and knows nothing of tokens.  On
a source that can be read it still counts right, wherever the source is cut
off: what stands in front of the cut has as many open parentheses as the
tokens that end there (`parenDepthFrom_covered`).  A cut inside a string, a
comment or behind a backslash makes no difference.
-/

namespace ScopedLisp

/-! ## One character at a time -/

namespace Region

/-- What the character behind a given one belongs to. -/
def next : Region → Char → Region
  | .code, character =>
    if character = ';' then .comment
    else if character = '"' then .string
    else .code
  | .comment, character => if character = '\n' then .code else .comment
  | .string, character =>
    if character = '\\' then .escaped
    else if character = '"' then .code
    else .string
  | .escaped, _ => .string

/-- How a character changes the number of open parentheses. -/
def weight : Region → Char → Int
  | .code, character =>
    if character = '(' then 1 else if character = ')' then -1 else 0
  | .comment, _ | .string, _ | .escaped, _ => 0

end Region

theorem parenDepthFrom_cons (region : Region) (character : Char)
    (text : List Char) :
    parenDepthFrom region (character :: text) =
      region.weight character + parenDepthFrom (region.next character) text := by
  cases region with
  | code =>
      simp only [parenDepthFrom, Region.weight, Region.next]
      split
      · rename_i opens
        subst opens
        simp [Int.add_comm]
      · split
        · rename_i closes
          subst closes
          simp [Int.sub_eq_add_neg, Int.add_comm]
        · split
          · simp
          · split <;> simp
  | comment =>
      simp only [parenDepthFrom, Region.weight, Region.next]
      split <;> simp
  | string =>
      simp only [parenDepthFrom, Region.weight, Region.next]
      split
      · simp
      · split <;> simp
  | escaped => simp [parenDepthFrom, Region.weight, Region.next]

/-- A text without counted parentheses that leads from one region into another. -/
inductive Passes : Region → List Char → Region → Prop where
  | nil (region : Region) : Passes region [] region
  | cons {region last : Region} {character : Char} {text : List Char}
      (weightless : region.weight character = 0)
      (rest : Passes (region.next character) text last) :
      Passes region (character :: text) last

namespace Passes

theorem append {region middle last : Region} {first second : List Char}
    (passes : Passes region first middle) (passes' : Passes middle second last) :
    Passes region (first ++ second) last := by
  induction passes with
  | nil => exact passes'
  | cons weightless _ ih => exact .cons weightless (ih passes')

theorem initial {region last : Region} {first second : List Char}
    (passes : Passes region (first ++ second) last) :
    ∃ middle, Passes region first middle := by
  induction first generalizing region with
  | nil => exact ⟨region, .nil region⟩
  | cons character first ih =>
      rcases passes with _ | ⟨weightless, rest⟩
      rcases ih rest with ⟨middle, passes⟩
      exact ⟨middle, .cons weightless passes⟩

theorem depth_append {region last : Region} {text : List Char}
    (passes : Passes region text last) (rest : List Char) :
    parenDepthFrom region (text ++ rest) = parenDepthFrom last rest := by
  induction passes with
  | nil => rfl
  | cons weightless _ ih =>
      rw [List.cons_append, parenDepthFrom_cons, weightless, ih, Int.zero_add]

theorem depth {region last : Region} {text : List Char}
    (passes : Passes region text last) : parenDepthFrom region text = 0 := by
  have appended := passes.depth_append []
  rw [List.append_nil] at appended
  rw [appended]
  cases last <;> rfl

theorem depth_of_initial {region last : Region} {text before : List Char}
    (passes : Passes region text last) (isPrefix : before <+: text) :
    parenDepthFrom region before = 0 := by
  rcases isPrefix with ⟨rest, rfl⟩
  rcases passes.initial with ⟨middle, passes⟩
  exact passes.depth

/-- A text that is plain to the scanner stays within the code. -/
theorem ofPlain {text : List Char}
    (plain : ∀ character ∈ text, character ∉ ['(', ')', ';', '"']) :
    Passes .code text .code := by
  induction text with
  | nil => exact .nil .code
  | cons character text ih =>
      rcases List.forall_mem_cons.mp plain with ⟨isPlain, plain⟩
      simp only [List.mem_cons, List.not_mem_nil, or_false, not_or] at isPlain
      rcases isPlain with ⟨notOpen, notClose, notComment, notQuote⟩
      apply Passes.cons
      · simp [Region.weight, notOpen, notClose]
      · simpa [Region.next, notComment, notQuote] using ih plain

end Passes

/-! ## Gaps and tokens -/

theorem passes_comment {text : List Char} (oneLine : '\n' ∉ text) :
    Passes .comment text .comment := by
  induction text with
  | nil => exact .nil .comment
  | cons character text ih =>
      simp only [List.mem_cons, not_or] at oneLine
      apply Passes.cons rfl
      simpa [Region.next, Ne.symm oneLine.1] using ih oneLine.2

/-- A gap is passed over; only the last one may leave the scanner in a comment. -/
theorem IsGap.passes {atEnd : Bool} {gap : List Char}
    (isGap : IsGap atEnd gap) :
    ∃ last, Passes .code gap last ∧ (atEnd = false → last = .code) := by
  induction isGap with
  | empty => exact ⟨.code, .nil .code, fun _ => rfl⟩
  | @blank _ character _ isBlank isGap ih =>
      rcases ih with ⟨last, passes, closed⟩
      have plain : Passes .code [character] .code := by
        apply Passes.ofPlain
        simp only [List.mem_cons, List.not_mem_nil, or_false] at isBlank
        rcases isBlank with rfl | rfl | rfl | rfl <;> simp
      exact ⟨last, plain.append passes, closed⟩
  | comment oneLine isGap ih =>
      rcases ih with ⟨last, passes, closed⟩
      have inLine := passes_comment oneLine
      have newline : Passes .comment ['\n'] .code := .cons rfl (.nil .code)
      exact ⟨last, .cons rfl (inLine.append (newline.append passes)), closed⟩
  | unfinished oneLine =>
      exact ⟨.comment, .cons rfl (passes_comment oneLine), nofun⟩

/-- What stands between the quotes of a string is passed over. -/
theorem IsStringBody.passes {body : List Char} (isBody : IsStringBody body) :
    Passes .string body .string := by
  induction isBody with
  | empty => exact .nil .string
  | plain notQuote notBackslash _ ih =>
      apply Passes.cons rfl
      simpa [Region.next, notQuote, notBackslash] using ih
  | escaped _ ih => exact .cons rfl (.cons rfl ih)

/-- How a token changes the number of open parentheses. -/
def TokenKind.weight : TokenKind → Int
  | .openParen => 1
  | .closeParen => -1
  | .nil | .number | .string | .boolean | .identifier => 0

theorem isNameCharacter_plain {character : Char}
    (inName : isNameCharacter character = true) :
    character ∉ ['(', ')', ';', '"'] := by
  simp only [List.mem_cons, List.not_mem_nil, or_false]
  rintro (rfl | rfl | rfl | rfl) <;> contradiction

theorem IsNumberText.isNameCharacter {text : List Char}
    (isNumber : IsNumberText text) :
    ∀ character ∈ text, isNameCharacter character = true := by
  have digits : ∀ {text : List Char}, text.all Char.isDigit = true →
      ∀ character ∈ text, ScopedLisp.isNameCharacter character = true := by
    intro text allDigits character member
    have isDigit := List.all_eq_true.mp allDigits character member
    simp [ScopedLisp.isNameCharacter, isDigit]
  rcases isNumber with ⟨isSign, isPoint, someDigits, areDigits, arePlaces⟩
  intro character member
  simp only [List.mem_append] at member
  rcases member with ((inSign | inPoint) | inDigits) | inPlaces
  · rcases isSign with rfl | rfl <;> simp at inSign
    subst inSign
    rfl
  · rcases isPoint with rfl | rfl <;> simp at inPoint
    subst inPoint
    rfl
  · exact digits areDigits character inDigits
  · rcases arePlaces with rfl | ⟨behind, rfl, areDigits⟩
    · cases inPlaces
    · rcases List.mem_cons.mp inPlaces with rfl | inBehind
      · rfl
      · exact digits areDigits character inBehind

/-- A token that is no parenthesis is passed over. -/
theorem Spells.passes {kind : TokenKind} {text : List Char}
    (spells : Spells kind text) (weightless : kind.weight = 0) :
    Passes .code text .code := by
  cases kind with
  | openParen | closeParen => contradiction
  | nil =>
      rw [show text = "nil".toList from spells]
      exact Passes.ofPlain (by simp)
  | boolean =>
      simp only [Spells, List.mem_cons, List.not_mem_nil, or_false] at spells
      rcases spells with rfl | rfl | rfl | rfl <;>
        exact Passes.ofPlain (by simp)
  | string =>
      rcases spells with ⟨body, isBody, rfl⟩
      have quote : Passes .string ['"'] .code := .cons rfl (.nil .code)
      exact .cons rfl (isBody.passes.append quote)
  | number =>
      exact Passes.ofPlain fun character member =>
        isNameCharacter_plain (spells.isNameCharacter character member)
  | identifier =>
      exact Passes.ofPlain fun character member =>
        isNameCharacter_plain (List.all_eq_true.mp spells.2.1 character member)

/-- A token counts as its kind demands, whatever follows. -/
theorem Spells.depth_append {kind : TokenKind} {text : List Char}
    (spells : Spells kind text) (rest : List Char) :
    parenDepthFrom .code (text ++ rest) =
      kind.weight + parenDepthFrom .code rest := by
  cases kind with
  | openParen =>
      rw [show text = ['('] from spells]
      exact parenDepthFrom_cons .code '(' rest
  | closeParen =>
      rw [show text = [')'] from spells]
      exact parenDepthFrom_cons .code ')' rest
  | nil | boolean | string | number | identifier =>
      have passes := spells.passes rfl
      rw [passes.depth_append rest]
      exact (Int.zero_add _).symm

/-- A token that is cut off does not count. -/
theorem Spells.depth_of_initial {kind : TokenKind} {text before : List Char}
    (spells : Spells kind text) (isPrefix : before <+: text)
    (cutOff : before ≠ text) : parenDepthFrom .code before = 0 := by
  cases kind with
  | openParen | closeParen =>
      rw [show text = [_] from spells] at isPrefix cutOff
      rcases List.prefix_cons_iff.mp isPrefix with rfl | ⟨rest, rfl, nothing⟩
      · rfl
      · rw [List.prefix_nil.mp nothing] at cutOff
        exact absurd rfl cutOff
  | nil | boolean | string | number | identifier =>
      exact (spells.passes rfl).depth_of_initial isPrefix

/-! ## Sources that are cut off -/

/-- Opening minus closing parentheses among some tokens. -/
def balance (tokens : List Token) : Int :=
  (countKind .openParen tokens : Int) - countKind .closeParen tokens

theorem balance_cons (token : Token) (tokens : List Token) :
    balance (token :: tokens) = token.kind.weight + balance tokens := by
  simp only [balance, countKind_cons]
  cases token.kind <;> simp [TokenKind.weight] <;> omega

theorem prefix_append_cases {α : Type} {before first second : List α}
    (isPrefix : before <+: first ++ second) :
    (before <+: first ∧ before ≠ first) ∨
      ∃ rest, before = first ++ rest ∧ rest <+: second := by
  rcases isPrefix with ⟨behind, whole⟩
  rcases List.append_eq_append_iff.mp whole with
    ⟨middle, rfl, -⟩ | ⟨rest, rfl, rfl⟩
  · by_cases nothing : middle = []
    · subst nothing
      exact .inr ⟨[], by simp, List.nil_prefix⟩
    · exact .inl ⟨List.prefix_append _ _, by simpa using nothing⟩
  · exact .inr ⟨rest, rfl, List.prefix_append _ _⟩

theorem Segment.depth_append
    {segment : Segment} (isGap : IsGap false segment.gap)
    (spells : Spells segment.token.kind segment.token.text.toList)
    (rest : List Char) :
    parenDepthFrom .code
        (segment.gap ++ (segment.token.text.toList ++ rest)) =
      segment.token.kind.weight + parenDepthFrom .code rest := by
  rcases isGap.passes with ⟨last, passes, closed⟩
  rw [passes.depth_append, closed rfl, spells.depth_append]

section Covered

variable {segments : List Segment}
variable (gaps : ∀ segment ∈ segments, IsGap false segment.gap)
variable (kinds : ∀ segment ∈ segments,
  Spells segment.token.kind segment.token.text.toList)
include gaps kinds

/-- Gaps and tokens have as many open parentheses as the tokens. -/
theorem parenDepthFrom_covered (rest : List Char) :
    parenDepthFrom .code (coveredText segments ++ rest) =
      balance (segments.map Segment.token) + parenDepthFrom .code rest := by
  induction segments with
  | nil => exact (Int.zero_add _).symm
  | cons segment segments ih =>
      rcases List.forall_mem_cons.mp gaps with ⟨isGap, gaps⟩
      rcases List.forall_mem_cons.mp kinds with ⟨spells, kinds⟩
      rw [coveredText_cons, List.append_assoc, List.append_assoc,
        Segment.depth_append isGap spells, ih gaps kinds, List.map_cons,
        balance_cons, Int.add_assoc]

/-- Wherever gaps and tokens are cut off, the tokens in front of the cut count. -/
theorem exists_balance_of_cut {atEnd : Bool} {lastGap before : List Char}
    (isLast : IsGap atEnd lastGap)
    (isPrefix : before <+: coveredText segments ++ lastGap) :
    ∃ initial, initial <+: segments.map Segment.token ∧
      parenDepthFrom .code before = balance initial := by
  induction segments generalizing before with
  | nil =>
      rcases isLast.passes with ⟨last, passes, -⟩
      exact ⟨[], List.nil_prefix, passes.depth_of_initial isPrefix⟩
  | cons segment segments ih =>
      rcases List.forall_mem_cons.mp gaps with ⟨isGap, gaps⟩
      rcases List.forall_mem_cons.mp kinds with ⟨spells, kinds⟩
      rcases isGap.passes with ⟨last, passes, closed⟩
      rw [coveredText_cons, List.append_assoc, List.append_assoc] at isPrefix
      rcases prefix_append_cases isPrefix with
        ⟨inGap, -⟩ | ⟨behindGap, rfl, inSource⟩
      · exact ⟨[], List.nil_prefix, passes.depth_of_initial inGap⟩
      rcases prefix_append_cases inSource with
        ⟨inToken, cutOff⟩ | ⟨behindToken, rfl, inLater⟩
      · refine ⟨[], List.nil_prefix, ?_⟩
        rw [passes.depth_append, closed rfl]
        exact spells.depth_of_initial inToken cutOff
      · rcases ih gaps kinds inLater with ⟨initial, isInitial, counted⟩
        refine ⟨segment.token :: initial, ?_, ?_⟩
        · rw [List.map_cons]
          exact List.prefix_cons_inj _ |>.mpr isInitial
        · rw [Segment.depth_append isGap spells, counted, balance_cons]

end Covered

end ScopedLisp
