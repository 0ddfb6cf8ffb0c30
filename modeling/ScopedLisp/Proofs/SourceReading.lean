import ScopedLisp.Proofs.SourceLayout

/-!
# Reading what is laid out

`Lexed` was drawn from the reader: all that is read is laid out in gaps and
tokens.  This module goes the other way.  A token that is cut off in one of the
ways of `CutsOff` is the token that the reader reads, a gap is skipped up to
the token behind it, and so a source that is laid out is read as just the
tokens that it is laid out in (`tokenizeFrom_eq_ok_iff`).
-/

namespace ScopedLisp

/-! ## One token -/

theorem readLexeme_of_startsNumber {first : Char} {text : List Char}
    (starts : startsNumber (first :: text) = true) :
    readLexeme first text = readNumber (first :: text) := by
  rcases startsNumber_ne starts with ⟨notOpen, notClose, notQuote⟩
  have notHash : first ≠ '#' := by
    rintro rfl
    simp [startsNumber, startsWith] at starts
  rw [readLexeme, if_neg notOpen, if_neg notClose, if_neg notQuote,
    if_neg notHash, if_pos starts]

theorem readLexeme_of_cutsOff {first : Char} {text : List Char} {piece : Piece}
    (cuts : CutsOff first text piece) : readLexeme first text = .ok piece := by
  cases cuts with
  | opening => rfl
  | closing => rfl
  | string split =>
      rw [readLexeme, if_neg (by decide), if_neg (by decide), if_pos rfl, split]
  | hash isLetter ends =>
      rw [readLexeme, if_neg (by decide), if_neg (by decide),
        if_neg (by decide), if_pos rfl, readHash]
      rcases isLetter with rfl | rfl <;> simp [ends]
  | number starts ends =>
      rw [readLexeme_of_startsNumber starts]
      simp [readNumber, ends]
  | word notNumber starts =>
      rcases isNameStart_ne starts with ⟨notOpen, notClose, notQuote, notHash⟩
      rw [readLexeme, if_neg notOpen, if_neg notClose, if_neg notQuote,
        if_neg notHash, if_neg (by simp [notNumber]), if_pos starts]

theorem isNameCharacter_printable {character : Char}
    (inName : isNameCharacter character = true) :
    0x21 ≤ character.toNat ∧ character.toNat ≤ 0x7e := by
  simp only [isNameCharacter, isNameStart, Bool.or_eq_true,
    List.contains_eq_mem, decide_eq_true_eq, beq_iff_eq] at inName
  rcases inName with ((isLetter | isSign) | isDigit) | rfl
  · simp only [Char.isAlpha, Char.isUpper, Char.isLower, Bool.or_eq_true,
      Bool.and_eq_true, decide_eq_true_eq, UInt32.le_iff_toNat_le, ge_iff_le]
      at isLetter
    change (65 ≤ character.toNat ∧ character.toNat ≤ 90) ∨
      (97 ≤ character.toNat ∧ character.toNat ≤ 122) at isLetter
    omega
  · have allPrintable : ∀ sign ∈
        ['-', '_', '?', '!', '*', '+', '/', '<', '>', '='],
        0x21 ≤ sign.toNat ∧ sign.toNat ≤ 0x7e := by
      simp
    exact allPrintable character isSign
  · simp only [Char.isDigit, Bool.and_eq_true, decide_eq_true_eq,
      UInt32.le_iff_toNat_le, ge_iff_le] at isDigit
    change 48 ≤ character.toNat ∧ character.toNat ≤ 57 at isDigit
    omega
  · decide

theorem isNameCharacter_startsNoGap {character : Char}
    (inName : isNameCharacter character = true) :
    isBlank character = false ∧ character ≠ ';' := by
  constructor
  · refine Bool.eq_false_iff.mpr fun blank => ?_
    simp only [isBlank_iff, List.mem_cons, List.not_mem_nil, or_false] at blank
    rcases blank with rfl | rfl | rfl | rfl <;> contradiction
  · rintro rfl
    contradiction

/-- A number starts with a character that may stand inside a name. -/
theorem isNameCharacter_of_startsNumber {first : Char} {text : List Char}
    (starts : startsNumber (first :: text) = true) :
    isNameCharacter first = true := by
  unfold startsNumber at starts
  split at starts
  · rename_i same
    rw [(List.cons.inj same).1]
    rfl
  · rename_i same
    rw [(List.cons.inj same).1]
    rfl
  · rename_i same
    rw [(List.cons.inj same).1]
    rfl
  · have isDigit : first.isDigit = true := starts
    simp [isNameCharacter, isDigit]

/-- Where a token is cut off, there is no gap. -/
theorem CutsOff.startsNoGap {first : Char} {text : List Char} {piece : Piece}
    (cuts : CutsOff first text piece) :
    isBlank first = false ∧ first ≠ ';' := by
  cases cuts with
  | opening | closing | string | hash => decide
  | number starts ends =>
      exact isNameCharacter_startsNoGap
        (isNameCharacter_of_startsNumber starts)
  | word notNumber starts =>
      have inName : isNameCharacter first = true := by
        simp [isNameCharacter, starts]
      exact isNameCharacter_startsNoGap inName

/-! ## Gaps -/

theorem splitComment_oneLine {text : List Char} (oneLine : '\n' ∉ text) :
    splitComment text = (text, []) := by
  induction text with
  | nil => rfl
  | cons character text ih =>
      simp only [List.mem_cons, not_or] at oneLine
      rcases oneLine with ⟨inLine, oneLine⟩
      rw [splitComment, if_neg (Ne.symm inLine), ih oneLine]

theorem splitComment_newline {text : List Char} (oneLine : '\n' ∉ text)
    (rest : List Char) :
    splitComment (text ++ '\n' :: rest) =
      (text ++ '\n' :: (splitTrivia rest).1, (splitTrivia rest).2) := by
  induction text with
  | nil => rw [List.nil_append, splitComment, if_pos rfl, List.nil_append]
  | cons character text ih =>
      simp only [List.mem_cons, not_or] at oneLine
      rcases oneLine with ⟨inLine, oneLine⟩
      rw [List.cons_append, splitComment, if_neg (Ne.symm inLine), ih oneLine]
      rfl

/-- A gap is skipped as a whole, and nothing behind a gap that a token ends. -/
theorem IsGap.splitTrivia_append {atEnd : Bool} {gap rest : List Char}
    (isGap : IsGap atEnd gap) (closed : atEnd = true → rest = [])
    (behind : splitTrivia rest = ([], rest)) :
    splitTrivia (gap ++ rest) = (gap, rest) := by
  induction isGap with
  | empty => exact behind
  | blank blank isGap ih =>
      rw [List.cons_append, splitTrivia, if_pos (isBlank_iff.mpr blank),
        ih closed]
  | @comment atEnd text inner oneLine isGap ih =>
      rw [List.append_assoc, List.cons_append, List.cons_append, splitTrivia,
        if_neg (by decide), if_pos rfl, splitComment_newline oneLine,
        ih closed]
      rfl
  | @unfinished text oneLine =>
      rw [closed rfl, List.append_nil, splitTrivia, if_neg (by decide),
        if_pos rfl, splitComment_oneLine oneLine]

/-- A gap is skipped up to what stands behind it. -/
theorem IsGap.splitTrivia_before {gap rest : List Char}
    (isGap : IsGap false gap) (behind : splitTrivia rest = ([], rest)) :
    splitTrivia (gap ++ rest) = (gap, rest) :=
  isGap.splitTrivia_append (fun atEnd => absurd atEnd Bool.false_ne_true) behind

theorem CutsOff.splitTrivia_eq {first : Char} {text : List Char}
    {piece : Piece} (cuts : CutsOff first text piece) :
    splitTrivia (first :: text) = ([], first :: text) := by
  rcases cuts.startsNoGap with ⟨notBlank, notComment⟩
  rw [splitTrivia, if_neg (by simp [notBlank]), if_neg notComment]

/-! ## Sources -/

/-- A source of trivia alone has no tokens, and must have no parenthesis open. -/
theorem tokenizeFrom_of_trivia {position : Position} {depth : Nat}
    {source gap : List Char} (skipped : splitTrivia source = (gap, [])) :
    tokenizeFrom position depth source =
      if depth = 0 then .ok []
      else .error (.located (.unclosed depth) (position.advance gap)) := by
  rw [tokenizeFrom]
  split
  · rw [skipped]
  · rename_i first rest something
    rw [skipped] at something
    cases something

/-- Behind its trivia a source is read one token at a time. -/
theorem tokenizeFrom_of_token {position : Position} {depth : Nat}
    {source gap behind : List Char} {first : Char}
    (skipped : splitTrivia source = (gap, first :: behind)) :
    tokenizeFrom position depth source =
      match readLexeme first behind with
      | .error cause => .error (.located cause (position.advance gap))
      | .ok piece =>
        match depthAfter depth piece.kind with
        | none => .error (.located .unmatchedClose (position.advance gap))
        | some next =>
          (tokenizeFrom ((position.advance gap).advance piece.text) next
              piece.rest).map
            (⟨⟨piece.kind, String.ofList piece.text⟩, position.advance gap⟩ ::
              ·) := by
  rw [tokenizeFrom]
  split
  · rename_i nothing
    rw [skipped] at nothing
    cases nothing
  · rename_i something
    rw [skipped] at something
    cases something
    rw [skipped]
    split
    · rename_i cause refused
      rw [refused]
    · rename_i piece read
      rcases counted : depthAfter depth piece.kind with _ | next <;>
        simp only [read, counted]

/-- A gap and a token behind it are read, and reading goes on behind the token. -/
theorem tokenizeFrom_of_cutsOff {position : Position} {depth next : Nat}
    {gap behind : List Char} {first : Char} {piece : Piece}
    (isGap : IsGap false gap) (cuts : CutsOff first behind piece)
    (counted : depthAfter depth piece.kind = some next) :
    tokenizeFrom position depth (gap ++ (piece.text ++ piece.rest)) =
      (tokenizeFrom ((position.advance gap).advance piece.text) next
          piece.rest).map
        (⟨⟨piece.kind, String.ofList piece.text⟩, position.advance gap⟩ ::
          ·) := by
  have read := readLexeme_of_cutsOff cuts
  have skipped : splitTrivia (gap ++ (piece.text ++ piece.rest)) =
      (gap, first :: behind) := by
    rw [readLexeme_append read]
    exact isGap.splitTrivia_before cuts.splitTrivia_eq
  simp only [tokenizeFrom_of_token skipped, read, counted]

/-- A last gap is skipped. -/
theorem IsGap.splitTrivia_eq {gap : List Char} (isGap : IsGap true gap) :
    splitTrivia gap = (gap, []) := by
  have skipped : splitTrivia (gap ++ []) = (gap, []) :=
    isGap.splitTrivia_append (fun _ => rfl) rfl
  rwa [List.append_nil] at skipped

/-- What is laid out in gaps and tokens is read as these tokens. -/
theorem Lexed.tokenizeFrom_eq {position : Position} {depth : Nat}
    {source : List Char} {tokens : List Token}
    (lexed : Lexed position depth source tokens) :
    tokenizeFrom position depth source = .ok tokens := by
  induction lexed with
  | done isGap => rw [tokenizeFrom_of_trivia isGap.splitTrivia_eq, if_pos rfl]
  | token isGap cuts counted later ih =>
      rw [tokenizeFrom_of_cutsOff isGap cuts counted, ih]
      rfl

/-- The sources that are read are those that are laid out in gaps and tokens. -/
theorem tokenizeFrom_eq_ok_iff {position : Position} {depth : Nat}
    {source : List Char} {tokens : List Token} :
    tokenizeFrom position depth source = .ok tokens ↔
      Lexed position depth source tokens :=
  ⟨lexed_of_tokenizeFrom, Lexed.tokenizeFrom_eq⟩

end ScopedLisp
