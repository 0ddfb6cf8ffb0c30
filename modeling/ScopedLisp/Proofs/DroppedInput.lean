import ScopedLisp.Proofs.DialogueEntries
import ScopedLisp.Proofs.EndOfInput

/-!
# What a dialogue drops

A dialogue and the reader of tokens each have a notion of a text that holds
nothing.  For the dialogue it is a text of white space; for the reader it is a
text of blanks and comments.  Each takes in something that the other does not:
white space that is no blank starts no token, so the reader refuses it, and a
comment is not white space, so the dialogue hands it over.

This module says which texts a dialogue drops among those that it completes,
and what the reader makes of a text in either case
(`dialogue_drops_white_space`).
-/

namespace ScopedLisp

/-! ## White space, blanks and gaps -/

theorem isWhiteSpace_of_isBlank {character : Char}
    (blank : isBlank character = true) : isWhiteSpace character = true := by
  simp only [isBlank_iff, List.mem_cons, List.not_mem_nil, or_false] at blank
  rcases blank with rfl | rfl | rfl | rfl <;> rfl

/-- White space starts no token. -/
theorem unreadable_of_isWhiteSpace {character : Char}
    (isSpace : isWhiteSpace character = true) (text : List Char) :
    Unreadable character text (.unexpectedCharacter character) := by
  have notInName : isNameCharacter character = false := by
    refine Bool.eq_false_iff.mpr fun inName => ?_
    rw [isWhiteSpace_of_isNameCharacter inName] at isSpace
    contradiction
  refine .character ?_ ?_ ?_
  · simp only [List.mem_cons, List.not_mem_nil, or_false]
    rintro (rfl | rfl | rfl | rfl) <;> contradiction
  · refine Bool.eq_false_iff.mpr fun starts => ?_
    rw [isNameCharacter_of_startsNumber starts] at notInName
    contradiction
  · refine Bool.eq_false_iff.mpr fun starts => ?_
    simp [isNameCharacter, starts] at notInName

theorem isGap_of_blanks {atEnd : Bool} {text : List Char}
    (blanks : text.all isBlank = true) : IsGap atEnd text := by
  induction text with
  | nil => exact .empty
  | cons character text ih =>
      simp only [List.all_cons, Bool.and_eq_true] at blanks
      exact .blank (isBlank_iff.mp blanks.1) (ih blanks.2)

/-- A gap is white space unless it holds a comment. -/
theorem IsGap.all_isWhiteSpace_iff {atEnd : Bool} {gap : List Char}
    (isGap : IsGap atEnd gap) :
    gap.all isWhiteSpace = true ↔ ';' ∉ gap := by
  have visible : isWhiteSpace ';' = false := rfl
  induction isGap with
  | empty => simp
  | @blank _ character _ blank isGap ih =>
      have isSpace := isWhiteSpace_of_isBlank (isBlank_iff.mpr blank)
      have different : ';' ≠ character := by
        rintro rfl
        contradiction
      simp [isSpace, different, ← ih]
  | comment => simp [visible]
  | unfinished => simp [visible]

/--
A text of white space has no tokens if it is blanks throughout; or else the
reader refuses the first character in it that is no blank.
-/
theorem tokenize_of_isAllWhiteSpace {source : String}
    (isSpace : isAllWhiteSpace source = true) :
    (source.toList.all isBlank = true ∧ tokenize source = .ok []) ∨
      ∃ blanks character rest,
        source.toList = blanks ++ character :: rest ∧
          blanks.all isBlank = true ∧
          isWhiteSpace character = true ∧ isBlank character = false ∧
          tokenize source =
            .error (.located (.unexpectedCharacter character)
              (Position.start.advance blanks)) := by
  have blanks : (source.toList.takeWhile isBlank).all isBlank = true := by
    simp
  have parts := @List.takeWhile_append_dropWhile _ isBlank source.toList
  cases behind : source.toList.dropWhile isBlank with
  | nil =>
      rw [behind, List.append_nil] at parts
      rw [parts] at blanks
      exact .inl ⟨blanks, tokenize_eq_nil_iff.mpr (isGap_of_blanks blanks)⟩
  | cons character rest =>
      rw [behind] at parts
      have inside : character ∈ source.toList := by
        rw [← parts]
        simp
      have isSpaceToo := List.all_eq_true.mp isSpace character inside
      have notBlank : isBlank character = false := by
        have stops := startsWith_dropWhile isBlank source.toList
        rwa [behind] at stops
      have notComment : character ≠ ';' := by
        rintro rfl
        contradiction
      generalize source.toList.takeWhile isBlank = front at parts blanks
      have stops : (Cursor.start source).Stops
          (.located (.unexpectedCharacter character)
            (Position.start.advance front)) := by
        rw [Cursor.start, ← parts]
        exact .unreadable (isGap_of_blanks blanks) notBlank notComment
          (unreadable_of_isWhiteSpace isSpaceToo rest)
      exact .inr ⟨front, character, rest, parts.symm, blanks, isSpaceToo,
        notBlank, stops.tokens_eq⟩

/-- White space opens no parenthesis. -/
theorem parenDepth_of_isAllWhiteSpace {text : String}
    (isSpace : isAllWhiteSpace text = true) : parenDepth text = 0 := by
  apply Passes.depth
  apply Passes.ofPlain
  intro character inside
  have isSpaceToo := List.all_eq_true.mp isSpace character inside
  simp only [List.mem_cons, List.not_mem_nil, or_false]
  rintro (rfl | rfl | rfl | rfl) <;> contradiction

/-! ## The texts that a dialogue completes -/

/--
The texts that lines add up to below the lines collected before.  Each goes on
to the first line behind which no parenthesis is open.
-/
def Repl.completed (buffer : String) : List Line → List String
  | [] => []
  | line :: lines =>
    match line.text? with
    | none => []
    | some text =>
      let text := buffer ++ text ++ "\n"
      if 0 < parenDepth text then completed text lines
      else text :: completed "" lines

theorem Repl.parenDepth_of_completed {buffer text : String} {lines : List Line}
    (member : text ∈ completed buffer lines) : parenDepth text ≤ 0 := by
  fun_induction completed buffer lines with
  | case1 => contradiction
  | case2 => contradiction
  | case3 buffer line lines added read text isOpen ih => exact ih member
  | case4 buffer line lines added read whole closed ih =>
      rcases List.mem_cons.mp member with rfl | later
      · exact Int.not_lt.mp closed
      · exact ih later

/-- A dialogue drops the completed texts of white space and interprets the others. -/
theorem Repl.sources_collect (buffer : String) (lines : List Line) :
    (collect buffer lines).sources =
      (completed buffer lines).filter fun text => !isAllWhiteSpace text := by
  fun_induction completed buffer lines with
  | case1 => rfl
  | case2 buffer line lines unread => simp [collect, unread]
  | case3 buffer line lines added read text isOpen ih =>
      have visible : isAllWhiteSpace text = false := by
        refine Bool.eq_false_iff.mpr fun isSpace => ?_
        rw [parenDepth_of_isAllWhiteSpace isSpace] at isOpen
        contradiction
      have waits : Collected.ofLine buffer added = .incomplete text := by
        simp only [Collected.ofLine]
        rw [if_neg (Bool.eq_false_iff.mp visible), if_pos isOpen]
      simpa [collect, read, waits] using ih
  | case4 buffer line lines added read text closed ih =>
      by_cases isSpace : isAllWhiteSpace text = true
      · have dropped : Collected.ofLine buffer added = .blank := by
          simp only [Collected.ofLine]
          exact if_pos isSpace
        simpa [collect, read, dropped, isSpace] using ih
      · have complete : Collected.ofLine buffer added = .complete text := by
          simp only [Collected.ofLine]
          rw [if_neg isSpace, if_neg closed]
        simpa [collect, read, complete, isSpace] using ih

/-! ## What a dialogue reports -/

/-- A source is interpreted on some shell, which decides its verdict. -/
theorem Shell.verdict_performEach
    {shell : Shell} {depth : Nat} {sources : List String}
    {performance : Performance}
    (member : performance ∈ (shell.performEach depth sources).2) :
    ∃ before : Shell,
      performance.verdict = (before.interpret depth performance.source).2 := by
  induction sources generalizing shell with
  | nil => cases member
  | cons source sources ih =>
      rcases List.mem_cons.mp member with rfl | member
      · exact ⟨shell, (shell.verdict_interpret depth source _).symm⟩
      · exact ih member

/-- A shell reports that a source ends too early exactly if it has no tokens. -/
theorem Shell.endsEarly_iff (shell : Shell) (depth : Nat) (source : String) :
    (∃ error, (shell.interpret depth source).2 = .error error ∧
        error.cause.code = .unexpectedEnd) ↔
      tokenize source = .ok [] := by
  constructor
  · rintro ⟨error, failed, tooEarly⟩
    by_contra notEmpty
    rw [interpret] at failed
    split at failed
    · contradiction
    · rename_i fault after fails
      cases failed
      exact (interpret_placed notEmpty fails).2 (Host.none_avoids rfl) tooEarly
    · contradiction
  · intro read
    refine ⟨⟨.expected .form none, none⟩, ?_, rfl⟩
    rw [interpret, interpret_of_no_tokens read]

/--
A dialogue drops a text that it has completed exactly if it is white space.  It
calls `interpret` for the others in order, each as a whole and on the one root,
and writes nothing but what comes of them and of the end of the input.

What is dropped has no tokens, or the reader would refuse the first character
in it that is no blank.  A text without tokens is dropped unless it holds a
comment; and a source is reported to end too early exactly if it has no tokens.
-/
theorem dialogue_drops_white_space (shell : Shell) (depth : Nat)
    (lines : List Line) :
    let texts := Repl.completed "" lines
    let sources := texts.filter fun text => !isAllWhiteSpace text
    let performed := shell.performEach depth sources
    let closing := (Repl.collect "" lines).remainder.close performed.1
    (∃ turns,
      (Repl.start shell).converse depth lines =
          (performed.1, turns, closing.2) ∧
        Output.join (turns.map Turn.output) =
          Output.join (performed.2.map Performance.output) ++ closing.1) ∧
    performed.2.map Performance.source = sources ∧
    CallsInTurn depth shell performed.2 performed.1 ∧
    (∀ performance ∈ performed.2,
      performance.root = shell.root ∧
        ((∃ error, performance.verdict = .error error ∧
            error.cause.code = .unexpectedEnd) ↔
          tokenize performance.source = .ok [])) ∧
    ∀ text ∈ texts,
      parenDepth text ≤ 0 ∧
      (isAllWhiteSpace text = true →
        (text.toList.all isBlank = true ∧ tokenize text = .ok []) ∨
          ∃ blanks character rest,
            text.toList = blanks ++ character :: rest ∧
              blanks.all isBlank = true ∧
              isWhiteSpace character = true ∧ isBlank character = false ∧
              tokenize text =
                .error (.located (.unexpectedCharacter character)
                  (Position.start.advance blanks))) ∧
      (tokenize text = .ok [] →
        (isAllWhiteSpace text = true ↔ ';' ∉ text.toList)) := by
  intro texts sources performed closing
  refine ⟨?_, shell.performEach_sources depth sources,
    shell.performEach_callsInTurn depth sources, ?_, ?_⟩
  · rcases (Repl.start shell).converse_performs depth lines with
      ⟨turns, conversed, written⟩
    have collected : (Repl.collect "" lines).sources = sources :=
      Repl.sources_collect "" lines
    simp only [Repl.start, collected] at conversed written
    exact ⟨turns, conversed, written⟩
  · intro performance member
    refine ⟨Shell.root_performEach member, ?_⟩
    rcases Shell.verdict_performEach member with ⟨before, decided⟩
    rw [decided]
    exact before.endsEarly_iff depth performance.source
  · intro text member
    exact ⟨Repl.parenDepth_of_completed member, tokenize_of_isAllWhiteSpace,
      fun read => (tokenize_eq_nil_iff.mp read).all_isWhiteSpace_iff⟩

/-- Blanks, a comment and a call that goes on behind an empty line. -/
theorem dialogue_drops_white_space_around_comment :
    let lines := [" \t", "; (", "(list", "", "1)"].map Line.ofText
    let sources := ["; (\n", "(list\n\n1)\n"]
    let performed := (Shell.start false).performEach 3 sources
    Repl.completed "" lines = " \t\n" :: sources ∧
      (∃ turns, (Repl.start (Shell.start false)).converse 3 lines =
          (performed.1, turns, true) ∧
        Output.join (turns.map Turn.output) =
          Output.join (performed.2.map Performance.output) ++ .silent) ∧
      tokenize "; (\n" = .ok [] ∧
      (isAllWhiteSpace "; (\n" = true ↔ ';' ∉ "; (\n".toList) := by
  intro lines sources performed
  have heard : ∀ text ∈ [" \t", "; (", "(list", "", "1)"],
      (Line.ofText text).text? = some text := by
    intro text member
    apply Line.text?_ofText
    revert text
    decide
  simp only [List.forall_mem_cons] at heard
  have completed : Repl.completed "" lines = " \t\n" :: sources := by
    simp only [lines, List.map_cons, List.map_nil, Repl.completed, heard]
    decide
  have remains : (Repl.collect "" lines).remainder = .collected "" := by
    have collected : Collected.ofLine "" " \t" = .blank ∧
        Collected.ofLine "" "; (" = .complete "; (\n" ∧
        Collected.ofLine "" "(list" = .incomplete "(list\n" ∧
        Collected.ofLine "(list\n" "" = .incomplete "(list\n\n" ∧
        Collected.ofLine "(list\n\n" "1)" = .complete "(list\n\n1)\n" := by
      decide
    simp only [lines, List.map_cons, List.map_nil, Repl.collect, heard,
      collected]
  have noTokens : tokenize "; (\n" = .ok [] := by
    cbv
  rcases dialogue_drops_white_space (Shell.start false) 3 lines with
    ⟨conversed, -, -, -, judged⟩
  rw [completed] at conversed judged
  rw [remains] at conversed
  exact ⟨completed, conversed, noTokens,
    (judged _ (by simp [sources])).2.2 noTokens⟩

/--
The dialogue and the reader disagree in both directions.  A comment on a line
of its own has no tokens, and yet the dialogue reports a missing form; a line
of a space that is no blank is dropped, and yet the reader refuses it.
-/
theorem emptiness_is_judged_twice :
    let dialogue := fun line =>
      ((Repl.start (Shell.start true)).converse 1 [Line.ofText line]).2
    let missing := "<stdin>: [P002] expected a form, found end of input"
    (tokenize "; note\n" = .ok [] ∧ parenDepth "; note\n" = 0 ∧
      dialogue "; note" =
        ([⟨"wlisp> ", .complaint missing⟩, ⟨"wlisp> ", .silent⟩], true)) ∧
    tokenize "\u00a0\n" =
        .error (.located (.unexpectedCharacter '\u00a0') ⟨1, 1⟩) ∧
      parenDepth "\u00a0\n" = 0 ∧
      dialogue "\u00a0" =
        ([⟨"wlisp> ", .silent⟩, ⟨"wlisp> ", .silent⟩], true) := by
  intro dialogue missing
  have note : (Line.ofText "; note").text? = some "; note" :=
    Line.text?_ofText (by decide)
  have handedOver : Collected.ofLine "" "; note" = .complete "; note\n" := by
    decide
  have space : (Line.ofText "\u00a0").text? = some "\u00a0" :=
    Line.text?_ofText (by decide)
  have dropped : Collected.ofLine "" "\u00a0" = .blank := by
    decide
  have noTokens : tokenize "; note\n" = .ok [] := by
    cbv
  have reported : ((Shell.start true).perform 1 true Repl.origin
      "; note\n").2.1 = .complaint missing := by
    have printed : ({ Shell.start true with
        world := (Shell.start true).world.record (.lexed 0) } :
          Shell).takeOutput.2 = "" := by
      cbv
    simp only [Shell.perform, Shell.interpret,
      interpret_of_no_tokens noTokens, printed]
    decide
  refine ⟨⟨noTokens, by cbv, ?_⟩, by cbv, by cbv, ?_⟩
  · simp only [dialogue, Repl.converse, Repl.start, Repl.feed, note,
      handedOver, reported]
    rfl
  · simp only [dialogue, Repl.converse, Repl.start, Repl.feed, space, dropped]
    rfl

end ScopedLisp
