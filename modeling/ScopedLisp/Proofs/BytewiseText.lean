import Mathlib.Tactic.SplitIfs
import ScopedLisp.Proofs.InputLines
import ScopedLisp.Proofs.JoinedSources
import ScopedLisp.Token.Bytes

/-!
# Texts byte by byte

`bytewise` is what a text looks like to a reader that takes each byte for the
character of the same code.  A character of ASCII looks like itself, and any
other like characters that are not in ASCII, of which the first alone begins a
column.

What the readers of tokens split off a text is therefore found by the same
splitting of its bytes (`splitTrivia_bytewise`, `splitString?_bytewise`,
`splitNumber_bytewise`): no byte of a longer character is met by a test for
blanks, quotes, digits or names.
-/

namespace ScopedLisp

/-! ## Encodings of characters -/

theorem isContinuation_iff {byte : UInt8} :
    isContinuation byte = true ↔ 128 ≤ byte.toNat ∧ byte.toNat < 192 := by
  have all : ∀ bits : BitVec 8,
      isContinuation ⟨bits⟩ = true ↔ 128 ≤ bits.toNat ∧ bits.toNat < 192 := by
    decide +kernel
  exact all byte.toBitVec

theorem toNat_ofNat_of_ascii {character : Char}
    (ascii : character.toNat < 128) :
    (UInt8.ofNat character.toNat).toNat = character.toNat := by
  rw [UInt8.toNat_ofNat']
  omega

/-- A character of ASCII is encoded by the byte of the same code. -/
theorem utf8EncodeChar_of_ascii {character : Char}
    (ascii : character.toNat < 128) :
    String.utf8EncodeChar character = [UInt8.ofNat character.toNat] :=
  if_pos (Nat.le_of_lt_succ ascii)

/-- Any other character has a first byte of 192 or more, and continuation bytes. -/
theorem exists_utf8EncodeChar_of_wide {character : Char}
    (wide : 128 ≤ character.toNat) :
    ∃ lead tail, String.utf8EncodeChar character = lead :: tail ∧
      192 ≤ lead.toNat ∧
      ∀ byte ∈ tail, 128 ≤ byte.toNat ∧ byte.toNat < 192 := by
  rcases encoded : String.utf8EncodeChar character with _ | ⟨lead, tail⟩
  · exact absurd encoded String.utf8EncodeChar_ne_nil
  refine ⟨lead, tail, rfl, ?_⟩
  have notAscii : ¬ character.val.toNat ≤ 0x7f := Nat.not_le.mpr wide
  have limit : character.val.toNat < 0x110000 := by
    have valid : character.val.toNat.isValidChar := character.valid
    unfold Nat.isValidChar at valid
    omega
  unfold String.utf8EncodeChar at encoded
  generalize character.val.toNat = code at *
  simp only [if_neg notAscii] at encoded
  split_ifs at encoded
  all_goals
    cases encoded
    simp only [List.mem_cons, List.not_mem_nil, or_false,
      forall_eq_or_imp, forall_eq, UInt8.toNat_ofNat']
    omega

/-! ## Places -/

theorem foldl_nextByte_of_continuation {tail : List UInt8}
    (continues : ∀ byte ∈ tail, 128 ≤ byte.toNat ∧ byte.toNat < 192)
    (position : Position) :
    tail.foldl Position.nextByte position = position := by
  induction tail with
  | nil => rfl
  | cons byte tail ih =>
      rcases List.forall_mem_cons.mp continues with ⟨first, continues⟩
      have notFeed : byte ≠ 10 := by
        rintro rfl
        exact absurd first.1 (by decide)
      rw [List.foldl_cons, Position.nextByte, if_neg notFeed,
        if_pos (isContinuation_iff.mpr first), ih continues]

/-- The bytes of a character move a place as the character does. -/
theorem foldl_nextByte_utf8EncodeChar (position : Position)
    (character : Char) :
    (String.utf8EncodeChar character).foldl Position.nextByte position =
      position.next character := by
  rcases Nat.lt_or_ge character.toNat 128 with ascii | wide
  · have code := toNat_ofNat_of_ascii ascii
    have begins : isContinuation (UInt8.ofNat character.toNat) = false := by
      rw [← Bool.not_eq_true, isContinuation_iff]
      omega
    have feed : UInt8.ofNat character.toNat = 10 ↔ character = '\n' := by
      rw [← UInt8.toNat_inj, code]
      exact ⟨fun same => Char.ext (UInt32.toNat_inj.mp same),
        fun same => congrArg Char.toNat same⟩
    simp [utf8EncodeChar_of_ascii ascii, Position.nextByte, Position.next,
      begins, feed]
  · rcases exists_utf8EncodeChar_of_wide wide with
      ⟨lead, tail, encoded, leads, continues⟩
    have notFeed : lead ≠ 10 := by
      rintro rfl
      exact absurd leads (by decide)
    have begins : ¬ isContinuation lead = true := by
      rw [isContinuation_iff]
      omega
    have notNewline : character ≠ '\n' := by
      rintro rfl
      exact absurd wide (by decide)
    rw [encoded, List.foldl_cons, foldl_nextByte_of_continuation continues,
      Position.nextByte, if_neg notFeed, if_neg begins, Position.next,
      if_neg notNewline]

theorem foldl_nextByte_flatMap (position : Position) (text : List Char) :
    (text.flatMap String.utf8EncodeChar).foldl Position.nextByte position =
      position.advance text := by
  induction text generalizing position with
  | nil => rfl
  | cons character text ih =>
      rw [List.flatMap_cons, List.foldl_append,
        foldl_nextByte_utf8EncodeChar, ih, Position.advance_cons]

/-! ## Bytes as characters -/

/-- A text whose characters are the bytes of a text. -/
def bytewise (text : List Char) : List Char :=
  (text.flatMap String.utf8EncodeChar).map Char.ofUInt8

@[simp]
theorem bytewise_nil : bytewise [] = [] :=
  rfl

@[simp]
theorem bytewise_append (first second : List Char) :
    bytewise (first ++ second) = bytewise first ++ bytewise second := by
  simp [bytewise]

@[simp]
theorem bytewise_eq_nil_iff {text : List Char} :
    bytewise text = [] ↔ text = [] := by
  cases text <;> simp [bytewise]

theorem bytewise_cons_of_ascii {character : Char}
    (ascii : character.toNat < 128) (text : List Char) :
    bytewise (character :: text) = character :: bytewise text := by
  have same : Char.ofUInt8 (UInt8.ofNat character.toNat) = character :=
    Char.ext (UInt32.toNat_inj.mp (toNat_ofNat_of_ascii ascii))
  simp [bytewise, utf8EncodeChar_of_ascii ascii, same]

theorem exists_bytewise_cons_of_wide {character : Char}
    (wide : 128 ≤ character.toNat) :
    ∃ lead tail, 128 ≤ lead.toNat ∧
      (∀ byte ∈ tail, 128 ≤ byte.toNat) ∧
      ∀ text, bytewise (character :: text) = lead :: (tail ++ bytewise text) := by
  rcases exists_utf8EncodeChar_of_wide wide with
    ⟨lead, tail, encoded, leads, continues⟩
  refine ⟨Char.ofUInt8 lead, tail.map Char.ofUInt8, ?_, ?_, ?_⟩
  · exact Nat.le_trans (by decide) leads
  · intro byte member
    rcases List.mem_map.mp member with ⟨source, inTail, rfl⟩
    exact (continues source inTail).1
  · intro text
    simp [bytewise, encoded]

theorem ne_of_wide {character wanted : Char} (ascii : wanted.toNat < 128)
    (wide : 128 ≤ character.toNat) : character ≠ wanted := by
  rintro rfl
  omega

/-! ## Tests that treat all wide characters alike -/

section Uniform

variable {property : Char → Bool} {verdict : Bool}
  (uniform : ∀ character : Char,
    128 ≤ character.toNat → property character = verdict)
include uniform

theorem startsWith_bytewise (text : List Char) :
    startsWith property (bytewise text) = startsWith property text := by
  cases text with
  | nil => rfl
  | cons character text =>
      rcases Nat.lt_or_ge character.toNat 128 with ascii | wide
      · rw [bytewise_cons_of_ascii ascii, startsWith, startsWith]
      · rcases exists_bytewise_cons_of_wide wide with ⟨lead, tail, leads, -, eq⟩
        rw [eq, startsWith, startsWith, uniform lead leads,
          uniform character wide]

/-- What a test takes of a text, it takes of the bytes, and no byte more. -/
theorem takeWhile_bytewise (text : List Char) :
    (bytewise text).takeWhile property = bytewise (text.takeWhile property) ∧
      (bytewise text).dropWhile property =
        bytewise (text.dropWhile property) := by
  induction text with
  | nil => exact ⟨rfl, rfl⟩
  | cons character text ih =>
      rcases Nat.lt_or_ge character.toNat 128 with ascii | wide
      · rw [bytewise_cons_of_ascii ascii]
        by_cases holds : property character = true
        · simp [holds, ih, bytewise_cons_of_ascii ascii]
        · simp [holds, bytewise_cons_of_ascii ascii]
      · rcases exists_bytewise_cons_of_wide wide with
          ⟨lead, tail, leads, continues, eq⟩
        have same := uniform character wide
        cases verdict with
        | false => simp [eq, same, uniform lead leads]
        | true =>
            have inTail : ∀ byte ∈ tail, property byte = true :=
              fun byte member => uniform byte (continues byte member)
            rw [eq, List.takeWhile_cons_of_pos (uniform lead leads),
              List.dropWhile_cons_of_pos (uniform lead leads),
              List.takeWhile_append_of_pos inTail,
              List.dropWhile_append_of_pos inTail, ih.1, ih.2,
              List.takeWhile_cons_of_pos same,
              List.dropWhile_cons_of_pos same, eq]
            exact ⟨rfl, rfl⟩

end Uniform

/-! ## What readers of tokens look for -/

section Wide

variable (character : Char) (wide : 128 ≤ character.toNat)
include wide

theorem isNameCharacter_of_wide : isNameCharacter character = false := by
  refine Bool.eq_false_iff.mpr fun inName => ?_
  have printable := isNameCharacter_printable inName
  omega

theorem isNameStart_of_wide : isNameStart character = false :=
  (stop_cases (isNameCharacter_of_wide character wide)).1

theorem isDigit_of_wide : character.isDigit = false :=
  (stop_cases (isNameCharacter_of_wide character wide)).2.1

theorem isBlank_of_wide : isBlank character = false := by
  refine Bool.eq_false_iff.mpr fun blank => ?_
  simp only [isBlank_iff, List.mem_cons, List.not_mem_nil, or_false] at blank
  rcases blank with rfl | rfl | rfl | rfl <;> exact absurd wide (by decide)

end Wide

/-! ## Looking some characters ahead -/

theorem getD_eq_startsWith {property : Char → Bool}
    (atEnd : property '\x00' = false) (text : List Char) :
    property (text.getD 0 '\x00') = startsWith property text := by
  cases text with
  | nil => exact atEnd
  | cons character text => rfl

/-- The first three characters decide whether a text starts like a number. -/
theorem startsNumber_eq_getD (text : List Char) :
    startsNumber text =
      ((text.getD 0 '\x00').isDigit ||
        (text.getD 0 '\x00' = '.' && (text.getD 1 '\x00').isDigit) ||
        (text.getD 0 '\x00' = '-' && ((text.getD 1 '\x00').isDigit ||
          (text.getD 1 '\x00' = '.' && (text.getD 2 '\x00').isDigit)))) := by
  unfold startsNumber
  have ahead := @getD_eq_startsWith Char.isDigit rfl
  split
  · rename_i behind
    rw [← ahead]
    cases behind <;> rfl
  · rename_i behind notPoint
    cases behind with
    | nil => rfl
    | cons next behind =>
        have different : next ≠ '.' := by
          rintro rfl
          exact notPoint behind rfl
        simp [startsWith, different]
  · rename_i behind
    rw [← ahead]
    simp
  · rename_i noMinusPoint noMinus noPoint
    cases text with
    | nil => rfl
    | cons next text =>
        have notMinus : next ≠ '-' := by
          rintro rfl
          exact noMinus text rfl
        have notPoint : next ≠ '.' := by
          rintro rfl
          exact noPoint text rfl
        simp [startsWith, notMinus, notPoint]

theorem property_head_bytewise {property : Char → Bool}
    (atEnd : property '\x00' = false)
    (uniform : ∀ character : Char,
      128 ≤ character.toNat → property character = false)
    (text : List Char) :
    property ((bytewise text).getD 0 '\x00') = startsWith property text := by
  rw [getD_eq_startsWith atEnd, startsWith_bytewise uniform]

/-- No byte of a longer character, and nothing behind the end, is a given sign. -/
theorem head_bytewise_eq_iff (wanted : Char) (ascii : wanted.toNat < 128)
    (visible : wanted ≠ '\x00') {text : List Char} :
    (bytewise text).getD 0 '\x00' = wanted ↔ ∃ rest, text = wanted :: rest := by
  cases text with
  | nil => simp [visible.symm]
  | cons character text =>
      rcases Nat.lt_or_ge character.toNat 128 with ascii' | wide
      · simp [bytewise_cons_of_ascii ascii']
      · rcases exists_bytewise_cons_of_wide wide with ⟨lead, tail, leads, -, eq⟩
        simp [eq, ne_of_wide ascii leads, ne_of_wide ascii wide]

/-! ## Splitting the bytes of a text -/

theorem splitOptional_bytewise {wanted : Char} (ascii : wanted.toNat < 128)
    (text : List Char) :
    splitOptional wanted (bytewise text) =
      (bytewise (splitOptional wanted text).1,
        bytewise (splitOptional wanted text).2) := by
  cases text with
  | nil => rfl
  | cons character text =>
      by_cases same : character = wanted
      · subst same
        simp [bytewise_cons_of_ascii ascii]
      · rcases Nat.lt_or_ge character.toNat 128 with ascii | wide
        · simp [bytewise_cons_of_ascii ascii, splitOptional, same]
        · rcases exists_bytewise_cons_of_wide wide with
            ⟨lead, tail, leads, -, eq⟩
          simp [eq, splitOptional, same, ne_of_wide ascii leads]

theorem splitDigits_bytewise (text : List Char) :
    splitDigits (bytewise text) =
      (bytewise (splitDigits text).1, bytewise (splitDigits text).2) := by
  rcases takeWhile_bytewise isDigit_of_wide text with ⟨taken, left⟩
  rw [splitDigits, taken, left, splitDigits]

theorem splitPlaces_bytewise (text : List Char) :
    splitPlaces (bytewise text) =
      (bytewise (splitPlaces text).1, bytewise (splitPlaces text).2) := by
  have point : '.'.toNat < 128 := by decide
  cases text with
  | nil => rfl
  | cons character text =>
      by_cases isPoint : character = '.'
      · subst isPoint
        simp only [bytewise_cons_of_ascii point, splitPlaces,
          splitDigits_bytewise]
      · rcases Nat.lt_or_ge character.toNat 128 with ascii | wide
        · simp [bytewise_cons_of_ascii ascii, splitPlaces, isPoint]
        · rcases exists_bytewise_cons_of_wide wide with
            ⟨lead, tail, leads, -, eq⟩
          simp [eq, splitPlaces, isPoint, ne_of_wide point leads]

theorem splitNumber_bytewise (text : List Char) :
    splitNumber (bytewise text) =
      (bytewise (splitNumber text).1, bytewise (splitNumber text).2) := by
  have minus : '-'.toNat < 128 := by decide
  have point : '.'.toNat < 128 := by decide
  simp only [splitNumber, splitOptional_bytewise minus,
    splitOptional_bytewise point, splitDigits_bytewise, splitPlaces_bytewise,
    bytewise_append]

theorem startsNumber_bytewise (text : List Char) :
    startsNumber (bytewise text) = startsNumber text := by
  have minus : '-'.toNat < 128 := by decide
  have point : '.'.toNat < 128 := by decide
  rw [startsNumber_eq, startsNumber_eq, splitOptional_bytewise minus,
    splitOptional_bytewise point, startsWith_bytewise isDigit_of_wide]

/-! ### Strings -/

/-- Bytes that are neither quotes nor backslashes belong to a string. -/
theorem splitString?_append_of_wide {tail : List Char}
    (continues : ∀ byte ∈ tail, 128 ≤ byte.toNat) (text : List Char) :
    splitString? (tail ++ text) =
      (splitString? text).map fun (body, rest) => (tail ++ body, rest) := by
  induction tail with
  | nil => simp
  | cons byte tail ih =>
      rcases List.forall_mem_cons.mp continues with ⟨wide, continues⟩
      have notQuote : byte ≠ '"' := ne_of_wide (by decide) wide
      have notBackslash : byte ≠ '\\' := ne_of_wide (by decide) wide
      rw [List.cons_append, splitString?_plain notQuote notBackslash,
        ih continues, Option.map_map]
      rfl

/-- The string at the front of a text has all its bytes, and no byte more. -/
theorem splitString?_bytewise (text : List Char) :
    splitString? (bytewise text) =
      (splitString? text).map fun (body, rest) =>
        (bytewise body, bytewise rest) := by
  have quote : '"'.toNat < 128 := by decide
  have backslash : '\\'.toNat < 128 := by decide
  fun_induction splitString? text with
  | case1 => rfl
  | case2 text =>
      rw [bytewise_cons_of_ascii quote, splitString?]
      rfl
  | case3 character text ih =>
      rw [bytewise_cons_of_ascii backslash]
      rcases Nat.lt_or_ge character.toNat 128 with ascii | wide
      · rw [bytewise_cons_of_ascii ascii, splitString?, ih]
        simp [Function.comp_def, bytewise_cons_of_ascii backslash,
          bytewise_cons_of_ascii ascii]
      · -- Only the first byte is skipped; the others cannot close the string.
        rcases exists_bytewise_cons_of_wide wide with
          ⟨lead, tail, -, continues, eq⟩
        rw [eq, splitString?, splitString?_append_of_wide continues, ih]
        simp [Function.comp_def, bytewise_cons_of_ascii backslash, eq]
  | case4 character text notQuote notPair ih =>
      by_cases isBackslash : character = '\\'
      · rw [isBackslash, eq_nil_of_unpaired notPair isBackslash]
        rfl
      · rcases Nat.lt_or_ge character.toNat 128 with ascii | wide
        · rw [bytewise_cons_of_ascii ascii,
            splitString?_plain notQuote isBackslash, ih]
          simp [Function.comp_def, bytewise_cons_of_ascii ascii]
        · rcases exists_bytewise_cons_of_wide wide with
            ⟨lead, tail, leads, continues, eq⟩
          rw [eq, splitString?_plain (ne_of_wide quote leads)
              (ne_of_wide backslash leads),
            splitString?_append_of_wide continues, ih]
          simp [Function.comp_def, eq]

/-! ### Trivia -/

theorem splitComment_eq (text : List Char) :
    splitComment text =
      (text.takeWhile (· ≠ '\n') ++
          (splitTrivia (text.dropWhile (· ≠ '\n'))).1,
        (splitTrivia (text.dropWhile (· ≠ '\n'))).2) := by
  induction text with
  | nil => rfl
  | cons character text ih =>
      by_cases newline : character = '\n'
      · subst newline
        simp [splitComment, splitTrivia, isBlank]
      · simp [splitComment, newline, ih]

/-- A comment is skipped to the end of its line, and then what follows as trivia. -/
theorem splitTrivia_comment (text : List Char) :
    splitTrivia (';' :: text) =
      ((';' :: text.takeWhile (· ≠ '\n')) ++
          (splitTrivia (text.dropWhile (· ≠ '\n'))).1,
        (splitTrivia (text.dropWhile (· ≠ '\n'))).2) := by
  rw [splitTrivia, if_neg (by decide), if_pos rfl, splitComment_eq]
  rfl

theorem splitComment_append_of_wide {tail : List Char}
    (continues : ∀ byte ∈ tail, 128 ≤ byte.toNat) (text : List Char) :
    splitComment (tail ++ text) =
      (tail ++ (splitComment text).1, (splitComment text).2) := by
  induction tail with
  | nil => rfl
  | cons byte tail ih =>
      rcases List.forall_mem_cons.mp continues with ⟨wide, continues⟩
      have inLine : byte ≠ '\n' := ne_of_wide (by decide) wide
      rw [List.cons_append, splitComment, if_neg inLine, ih continues]
      rfl

theorem splitTrivia_and_splitComment_bytewise (text : List Char) :
    splitTrivia (bytewise text) =
        (bytewise (splitTrivia text).1, bytewise (splitTrivia text).2) ∧
      splitComment (bytewise text) =
        (bytewise (splitComment text).1, bytewise (splitComment text).2) := by
  induction text with
  | nil => exact ⟨rfl, rfl⟩
  | cons character text ih =>
      rcases ih with ⟨trivia, comment⟩
      rcases Nat.lt_or_ge character.toNat 128 with ascii | wide
      · rw [bytewise_cons_of_ascii ascii]
        simp only [splitTrivia, splitComment, trivia, comment]
        constructor
        · split_ifs <;> simp [bytewise_cons_of_ascii ascii]
        · split_ifs <;> simp [bytewise_cons_of_ascii ascii]
      · rcases exists_bytewise_cons_of_wide wide with
          ⟨lead, tail, leads, continues, eq⟩
        have notSemicolon := fun {byte : Char} =>
          @ne_of_wide byte ';' (by decide)
        have inLine := fun {byte : Char} => @ne_of_wide byte '\n' (by decide)
        constructor
        · simp [eq, splitTrivia, isBlank_of_wide _ leads,
            isBlank_of_wide _ wide, notSemicolon leads, notSemicolon wide]
        · simp [eq, splitComment, inLine leads, inLine wide,
            splitComment_append_of_wide continues, comment]

/-- The trivia at the front of a text have all their bytes, and no byte more. -/
theorem splitTrivia_bytewise (text : List Char) :
    splitTrivia (bytewise text) =
      (bytewise (splitTrivia text).1, bytewise (splitTrivia text).2) :=
  (splitTrivia_and_splitComment_bytewise text).1

/-! ## Boundaries of characters -/

theorem map_encodeText (text : String) :
    (encodeText text).map Char.ofUInt8 = bytewise text.toList := by
  rw [encodeText_eq_flatMap, bytewise]

theorem length_bytewise (text : List Char) :
    (bytewise text).length = (String.ofList text).utf8ByteSize := by
  have lengths := congrArg List.length (map_encodeText (String.ofList text))
  rw [List.length_map, String.toList_ofList] at lengths
  exact lengths.symm

/-- Behind each front of a source there is a boundary of characters. -/
theorem isValid_length_bytewise {source : String} {front rest : List Char}
    (whole : source.toList = front ++ rest) :
    String.Pos.Raw.IsValid source ⟨(bytewise front).length⟩ := by
  rw [String.Pos.Raw.isValid_iff_exists_append]
  refine ⟨String.ofList front, String.ofList rest, ?_, ?_⟩
  · rw [← String.ofList_append, ← whole, String.ofList_toList]
  · rw [length_bytewise]
    rfl

theorem take_encodeText {source : String} {front rest : List Char}
    (whole : source.toList = front ++ rest) :
    (encodeText source).take (bytewise front).length =
      front.flatMap String.utf8EncodeChar := by
  rw [encodeText_eq_flatMap, whole]
  simp [bytewise]

/-- The bytes between two such boundaries are those of the text between them. -/
theorem decodeText?_extract {source : String} {front text rest : List Char}
    (whole : source.toList = front ++ (text ++ rest)) :
    decodeText? ((encodeText source).extract (bytewise front).length
        (bytewise (front ++ text)).length) =
      some (String.ofList text) := by
  have between : (encodeText source).extract (bytewise front).length
      (bytewise (front ++ text)).length = encodeText (String.ofList text) := by
    rw [encodeText_eq_flatMap, encodeText_eq_flatMap, whole,
      String.toList_ofList, List.extract_eq_take_drop]
    simp [bytewise]
  rw [between, decodeText?_encodeText]

end ScopedLisp
