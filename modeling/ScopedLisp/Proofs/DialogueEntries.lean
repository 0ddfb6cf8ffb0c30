import ScopedLisp.Proofs.DialogueTurns
import ScopedLisp.Proofs.InputLines
import ScopedLisp.Proofs.JoinedSources
import ScopedLisp.Proofs.ParenthesisScanner

/-!
# Forms that are typed in

A form can be typed in on one line, or on several if it stands between its
parentheses.  Each of its lines but the last leaves a parenthesis open, so the
dialogue waits; the last one closes all, so the dialogue interprets the form,
and a new one may follow.  What comes of this is what comes of the same forms
as expressions of a batch, as long as no form fails.
-/

namespace ScopedLisp

/-- A text to type in: a line, or lines that stand between parentheses. -/
inductive IsEntry (text : String) : Prop where
  /-- A line that holds a token. -/
  | line {tokens : List Token} (lexed : tokenize text = .ok tokens)
      (holdsTokens : tokens ≠ []) (oneLine : '\n' ∉ text.toList)
  /-- Lines from a parenthesis on the first to the one that closes it on the last. -/
  | parenthesized {opening closing : Token} {inner : List Token}
      (lexed : tokenize text = .ok (opening :: inner ++ [closing]))
      (opens : opening.kind = .openParen)
      (onFirstLine : opening.position.line = 1)
      (closes : closing.kind = .closeParen)
      (onLastLine : closing.position.line = 1 + text.toList.count '\n')
      (closesFirst : ∀ initial, initial <+: inner →
        countKind .closeParen initial ≤ countKind .openParen initial)

/-! ## What can be seen -/

theorem isWhiteSpace_of_isNameCharacter {character : Char}
    (inName : isNameCharacter character = true) :
    isWhiteSpace character = false := by
  have printable := isNameCharacter_printable inName
  simp only [isWhiteSpace, Bool.or_eq_false_iff, Bool.and_eq_false_iff,
    decide_eq_false_iff_not, beq_eq_false_iff_ne]
  omega

/-- Every token has a character that is no white space. -/
theorem Spells.exists_visible {kind : TokenKind} {text : List Char}
    (spells : Spells kind text) :
    ∃ character ∈ text, isWhiteSpace character = false := by
  cases kind with
  | openParen => exact ⟨'(', by simp [show text = ['('] from spells], rfl⟩
  | closeParen => exact ⟨')', by simp [show text = [')'] from spells], rfl⟩
  | nil => exact ⟨'n', by simp [show text = "nil".toList from spells], rfl⟩
  | boolean =>
      simp only [Spells, List.mem_cons, List.not_mem_nil, or_false] at spells
      rcases spells with rfl | rfl | rfl | rfl
      · exact ⟨'#', by simp, rfl⟩
      · exact ⟨'#', by simp, rfl⟩
      · exact ⟨'t', by simp, rfl⟩
      · exact ⟨'f', by simp, rfl⟩
  | string =>
      rcases spells with ⟨body, -, rfl⟩
      exact ⟨'"', by simp, rfl⟩
  | number =>
      have inName := IsNumberText.isNameCharacter spells
      cases text with
      | nil => exact absurd (IsNumberText.startsNumber spells) (by decide)
      | cons first text =>
          exact ⟨first, List.mem_cons_self,
            isWhiteSpace_of_isNameCharacter (inName first List.mem_cons_self)⟩
  | identifier =>
      rcases spells with ⟨starts, isName, -, -⟩
      cases text with
      | nil => contradiction
      | cons first text =>
          have inName := List.all_eq_true.mp isName first List.mem_cons_self
          exact ⟨first, List.mem_cons_self,
            isWhiteSpace_of_isNameCharacter inName⟩

theorem isAllWhiteSpace_eq_false {text : String} {character : Char}
    (inside : character ∈ text.toList)
    (visible : isWhiteSpace character = false) :
    isAllWhiteSpace text = false := by
  rw [isAllWhiteSpace, List.all_eq_false]
  exact ⟨character, inside, by simp [visible]⟩

/-! ## Lines of an entry -/

theorem tokenize_takesApart {text : String} {tokens : List Token}
    (lexed : tokenize text = .ok tokens) :
    ∃ segments lastGap, segments.map Segment.token = tokens ∧
      TakesApart .start text.toList segments lastGap :=
  (lexed_of_tokenizeFrom lexed).exists_segments

theorem parenDepth_newline {text : String} {tokens : List Token}
    (lexed : tokenize text = .ok tokens) : parenDepth (text ++ "\n") = 0 := by
  rcases tokenize_takesApart lexed with ⟨segments, lastGap, rfl, apart⟩
  rcases apart.last.newline.passes with ⟨region, passes, -⟩
  have balanced := (lexed_of_tokenizeFrom lexed).balanced.1
  rw [parenDepth, String.toList_append, apart.covers, List.append_assoc,
    parenDepthFrom_covered apart.gaps apart.kinds]
  have nothing : parenDepthFrom .code (lastGap ++ "\n".toList) = 0 :=
    passes.depth
  rw [nothing, balance]
  omega

theorem isAllWhiteSpace_of_tokenize {text : String} {tokens : List Token}
    (lexed : tokenize text = .ok tokens) (holdsTokens : tokens ≠ []) :
    isAllWhiteSpace (text ++ "\n") = false := by
  rcases tokenize_takesApart lexed with ⟨segments, lastGap, rfl, apart⟩
  cases segments with
  | nil => exact absurd rfl holdsTokens
  | cons segment segments =>
      rcases (apart.kinds segment List.mem_cons_self).exists_visible with
        ⟨character, inToken, visible⟩
      refine isAllWhiteSpace_eq_false ?_ visible
      rw [String.toList_append, apart.covers, coveredText_cons]
      simp [inToken]

/-- A cut behind a newline that lies neither in the first nor in the last part. -/
theorem exists_of_cut {cut first middle last : List Char}
    (notInFirst : '\n' ∉ first) (notInLast : '\n' ∉ last)
    (isPrefix : cut ++ ['\n'] <+: first ++ (middle ++ last)) :
    ∃ inside, cut ++ ['\n'] = first ++ inside ∧ inside <+: middle := by
  rcases prefix_append_cases isPrefix with
    ⟨inFirst, -⟩ | ⟨inside, split, inRest⟩
  · exact absurd (inFirst.subset (by simp)) notInFirst
  · rcases prefix_append_cases inRest with
      ⟨inMiddle, -⟩ | ⟨behind, rfl, inLast⟩
    · exact ⟨inside, split, inMiddle⟩
    · rcases List.eq_nil_or_concat behind with rfl | ⟨begin, newline, rfl⟩
      · exact ⟨middle ++ [], split, by simp⟩
      · have sameEnd := congrArg List.getLast? split
        simp at sameEnd
        subst sameEnd
        exact absurd (inLast.subset (by simp)) notInLast

section OneLine

variable {source lastGap : List Char} {segments before behind : List Segment}
variable {segment : Segment}
variable (apart : TakesApart .start source segments lastGap)
variable (split : segments = before ++ segment :: behind)
include apart split

/-- No line ends in front of a token on the first line. -/
theorem TakesApart.oneLine_before
    (onFirstLine : segment.token.position.line = 1) :
    '\n' ∉ coveredText before ++ segment.gap := by
  rw [apart.places before segment behind split, line_advance_start]
    at onFirstLine
  apply List.count_eq_zero.mp
  omega

/-- No line ends behind a token on the last line. -/
theorem TakesApart.oneLine_behind
    (onLastLine : segment.token.position.line = 1 + source.count '\n') :
    '\n' ∉ segment.token.text.toList ++ (coveredText behind ++ lastGap) := by
  rw [apart.places before segment behind split, line_advance_start,
    apart.covers, split] at onLastLine
  apply List.count_eq_zero.mp
  simp only [coveredText, List.flatMap_append, List.flatMap_cons,
    List.count_append] at onLastLine ⊢
  omega

end OneLine

namespace IsEntry

theorem exists_tokens {text : String} (entry : IsEntry text) :
    ∃ tokens, tokenize text = .ok tokens ∧ tokens ≠ [] := by
  cases entry with
  | line lexed holdsTokens => exact ⟨_, lexed, holdsTokens⟩
  | parenthesized lexed => exact ⟨_, lexed, by simp⟩

/-- An entry that is cut off behind one of its newlines has a parenthesis left open. -/
theorem opened_of_cut {text : String} (entry : IsEntry text)
    {cut : List Char} (isPrefix : cut ++ ['\n'] <+: text.toList) :
    '(' ∈ cut ++ ['\n'] ∧ 0 < parenDepthFrom .code (cut ++ ['\n']) := by
  cases entry with
  | line _ _ oneLine => exact absurd (isPrefix.subset (by simp)) oneLine
  | parenthesized lexed opens onFirstLine closes onLastLine closesFirst =>
      rcases tokenize_takesApart lexed with ⟨segments, lastGap, same, apart⟩
      rcases List.map_eq_append_iff.mp same with
        ⟨initial, final, rfl, sameInitial, sameFinal⟩
      rcases List.map_eq_cons_iff.mp sameInitial with
        ⟨first, middle, rfl, rfl, rfl⟩
      rcases List.map_eq_singleton_iff.mp sameFinal with ⟨last, rfl, rfl⟩
      have isOpening : first.token.text.toList = ['('] := by
        have spells := apart.kinds first (by simp)
        rwa [opens] at spells
      have covers : text.toList =
          (first.gap ++ ['(']) ++ ((coveredText middle ++ last.gap) ++
            (last.token.text.toList ++ lastGap)) := by
        rw [apart.covers, ← isOpening]
        simp [coveredText]
      -- The cut lies behind the first token and in front of the last.
      have notInFirst : '\n' ∉ first.gap ++ ['('] := by
        have oneLine : '\n' ∉ coveredText [] ++ first.gap :=
          apart.oneLine_before rfl onFirstLine
        simpa [coveredText] using oneLine
      have notInLast : '\n' ∉ last.token.text.toList ++ lastGap := by
        have oneLine : '\n' ∉ last.token.text.toList ++
            (coveredText [] ++ lastGap) :=
          apart.oneLine_behind rfl onLastLine
        simpa [coveredText] using oneLine
      rw [covers] at isPrefix
      rcases exists_of_cut notInFirst notInLast isPrefix with
        ⟨inside, split, inMiddle⟩
      have gaps : ∀ segment ∈ middle, IsGap false segment.gap :=
        fun segment member => apart.gaps segment (by simp [member])
      have kinds : ∀ segment ∈ middle,
          Spells segment.token.kind segment.token.text.toList :=
        fun segment member => apart.kinds segment (by simp [member])
      rcases exists_balance_of_cut gaps kinds (apart.gaps last (by simp))
        inMiddle with ⟨initial, isInitial, counted⟩
      have closesLater := closesFirst initial isInitial
      have opened := Segment.depth_append (apart.gaps first (by simp))
        (apart.kinds first (by simp)) inside
      rw [isOpening, opens, counted, ← List.append_assoc, ← split] at opened
      refine ⟨by simp [split], ?_⟩
      rw [opened, balance, TokenKind.weight]
      omega

/-- The last line of an entry completes it. -/
theorem collected_complete {text buffer line : String}
    (entry : IsEntry text)
    (whole : buffer ++ line ++ "\n" = text ++ "\n") :
    Collected.ofLine buffer line = .complete (text ++ "\n") := by
  rcases entry.exists_tokens with ⟨tokens, lexed, holdsTokens⟩
  simp [Collected.ofLine, whole, isAllWhiteSpace_of_tokenize lexed holdsTokens,
    parenDepth_newline lexed]

/-- Every other line of an entry leaves it incomplete. -/
theorem collected_incomplete {text buffer line next : String}
    {lines : List String} (entry : IsEntry text)
    (whole : buffer ++ line ++ "\n" ++ joinLines (next :: lines) =
      text ++ "\n") :
    Collected.ofLine buffer line = .incomplete (buffer ++ line ++ "\n") := by
  rcases exists_joinLines_concat next lines with ⟨inside, ends⟩
  rw [ends, ← String.append_assoc] at whole
  have isCut : (buffer ++ line).toList ++ ['\n'] <+: text.toList := by
    have shorter := String.append_left_inj "\n" |>.mp whole
    refine ⟨inside.toList, ?_⟩
    rw [← shorter]
    simp
  rcases entry.opened_of_cut isCut with ⟨holdsOpening, opened⟩
  have same : (buffer ++ line ++ "\n").toList =
      (buffer ++ line).toList ++ ['\n'] := String.toList_append
  rw [← same] at holdsOpening opened
  have visible : isAllWhiteSpace (buffer ++ line ++ "\n") = false :=
    isAllWhiteSpace_eq_false holdsOpening rfl
  simp only [Collected.ofLine, visible, parenDepth, Bool.false_eq_true,
    if_false]
  exact if_pos opened

/-- The lines of an entry are collected into one source, and nothing is left. -/
theorem collect_lines {text buffer line : String} {lines : List String}
    (entry : IsEntry text)
    (whole : buffer ++ joinLines (line :: lines) = text ++ "\n")
    (noReturn : ∀ part ∈ line :: lines, part.toList.getLast? ≠ some '\r')
    (more : List Line) :
    let later := Repl.collect "" more
    Repl.collect buffer ((line :: lines).map Line.ofText ++ more) =
      ⟨(text ++ "\n") :: later.sources, later.remainder⟩ := by
  induction lines generalizing buffer line with
  | nil =>
      have complete : Collected.ofLine buffer line = .complete (text ++ "\n") :=
        entry.collected_complete (by simpa [String.append_assoc] using whole)
      simp [Repl.collect, Line.text?_ofText (noReturn line List.mem_cons_self),
        complete]
  | cons next lines ih =>
      rcases List.forall_mem_cons.mp noReturn with ⟨noReturnFirst, noReturn⟩
      rw [joinLines_cons, ← String.append_assoc, ← String.append_assoc] at whole
      have collected := ih whole noReturn
      simpa [Repl.collect, Line.text?_ofText noReturnFirst,
        entry.collected_incomplete whole] using collected

end IsEntry

/-- Entries below each other are collected one by one, and nothing is left. -/
theorem Repl.collect_entries {texts : List String}
    (entries : ∀ text ∈ texts, IsEntry text)
    (noReturns : ∀ text ∈ texts,
      ¬ ['\r', '\n'] <:+: (text ++ "\n").toList) :
    collect "" (Line.ofBytes (encodeText (joinLines texts))) =
      ⟨texts.map (· ++ "\n"), .collected ""⟩ := by
  induction texts with
  | nil => rfl
  | cons text texts ih =>
      rcases List.forall_mem_cons.mp entries with ⟨entry, entries⟩
      rcases List.forall_mem_cons.mp noReturns with ⟨noReturn, noReturns⟩
      rcases exists_lines text.toList with ⟨line, lines, whole, oneLine⟩
      rw [String.ofList_toList] at whole
      have noReturnEnds : ∀ part ∈ line :: lines,
          part.toList.getLast? ≠ some '\r' := by
        intro part member ends
        rcases List.getLast?_eq_some_iff.mp ends with ⟨begin, split⟩
        have inside := infix_joinLines member
        rw [← whole, split, List.append_assoc] at inside
        exact noReturn ((List.suffix_append _ _).isInfix.trans inside)
      have fromNothing : "" ++ joinLines (line :: lines) = text ++ "\n" := by
        rw [String.empty_append, whole]
      have collected := entry.collect_lines fromNothing noReturnEnds
        (Line.ofBytes (encodeText (joinLines texts)))
      rw [joinLines_cons, whole, encodeText_append,
        Line.ofBytes_joinLines oneLine]
      simpa [ih entries noReturns] using collected

/-! ## Entries as expressions of a batch -/

/-- A newline behind a source that can be read makes no difference to running it. -/
theorem Shell.interpret_newline {source : String} {tokens : List Token}
    (lexed : tokenize source = .ok tokens) (shell : Shell) (depth : Nat) :
    shell.interpret depth (source ++ "\n") = shell.interpret depth source := by
  have same : ScopedLisp.interpret Host.none depth shell.root
      (source ++ "\n") =
        ScopedLisp.interpret Host.none depth shell.root source := by
    simp only [ScopedLisp.interpret, Evaluator.interpret, lexed,
      tokenize_newline lexed]
  rw [interpret, same, interpret]

/-- A batch runs expressions as a dialogue does, as long as none of them fails. -/
theorem Shell.runBatch_expressions
    {shell : Shell} {depth : Nat} {texts : List String}
    (readable : ∀ text ∈ texts, ∃ tokens, tokenize text = .ok tokens)
    (succeeded : ∀ performance ∈
      (shell.performEach depth (texts.map (· ++ "\n"))).2,
        ∃ value, performance.verdict = .value value) :
    let performed := shell.performEach depth (texts.map (· ++ "\n"))
    shell.runBatch depth true (texts.map Input.ofExpression) =
      (performed.1, Output.join (performed.2.map Performance.output), true) := by
  induction texts generalizing shell with
  | nil => rfl
  | cons text texts ih =>
      rcases List.forall_mem_cons.mp readable with ⟨⟨tokens, lexed⟩, readable⟩
      rcases List.forall_mem_cons.mp succeeded with
        ⟨⟨value, hasValue⟩, succeeded⟩
      have sameRun := interpret_newline lexed shell depth
      have seen := (shell.verdict_interpret depth (text ++ "\n") _).trans hasValue
      rcases perform_of_value seen true Repl.origin "<eval>" with
        ⟨sameOrigin, succeeds⟩
      have same : shell.perform depth true "<eval>" text =
          shell.perform depth true Repl.origin (text ++ "\n") := by
        rw [sameOrigin, perform, perform, sameRun]
      have later := ih readable succeeded
      simp only [List.map_cons, performEach, Output.join, runBatch,
        Input.ofExpression, same]
      generalize shell.perform depth true Repl.origin (text ++ "\n") = first
        at succeeds later
      rcases first with ⟨next, output, ended⟩
      obtain rfl : ended = true := succeeds
      simp only [later]

end ScopedLisp
