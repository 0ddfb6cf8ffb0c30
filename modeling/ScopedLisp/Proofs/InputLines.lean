import Mathlib.Tactic.SplitIfs
import ScopedLisp.Text.Line

/-!
# Lines and the bytes that carry them

A text arrives as bytes.  In UTF-8 the byte of the line feed encodes that
character and is part of no other, so the lines of the bytes are the lines of
the text: `Line.ofBytes_joinLines`.  A line is read back as it was, unless it
ends in a carriage return.
-/

namespace ScopedLisp

/-! ## Texts as lines -/

/-- Texts below each other, each of which a newline ends. -/
def joinLines (texts : List String) : String :=
  String.join (texts.map (· ++ "\n"))

@[simp]
theorem joinLines_nil : joinLines [] = "" :=
  rfl

@[simp]
theorem joinLines_cons (text : String) (texts : List String) :
    joinLines (text :: texts) = text ++ "\n" ++ joinLines texts := by
  rw [joinLines, List.map_cons, String.join_cons, joinLines]

/-- Each of the texts is followed by a newline. -/
theorem infix_joinLines {text : String} {texts : List String}
    (member : text ∈ texts) :
    text.toList ++ ['\n'] <:+: (joinLines texts).toList := by
  induction texts with
  | nil => cases member
  | cons first texts ih =>
      simp only [joinLines_cons, String.toList_append]
      rcases List.mem_cons.mp member with rfl | member
      · exact (List.prefix_append _ _).isInfix
      · exact (ih member).trans (List.suffix_append _ _).isInfix

/-- A newline ends the last of some texts. -/
theorem exists_joinLines_concat (text : String) (texts : List String) :
    ∃ inside, joinLines (text :: texts) = inside ++ "\n" := by
  induction texts generalizing text with
  | nil => exact ⟨text, by simp⟩
  | cons next texts ih =>
      rcases ih next with ⟨inside, ends⟩
      rw [joinLines_cons, ends, ← String.append_assoc]
      exact ⟨_, rfl⟩

/-- Every text that a newline ends is made up of lines. -/
theorem exists_lines (text : List Char) :
    ∃ line lines, String.ofList text ++ "\n" = joinLines (line :: lines) ∧
      ∀ part ∈ line :: lines, '\n' ∉ part.toList := by
  induction text with
  | nil => exact ⟨"", [], rfl, by simp⟩
  | cons character text ih =>
      rcases ih with ⟨line, lines, whole, oneLine⟩
      by_cases newline : character = '\n'
      · subst newline
        refine ⟨"", line :: lines, ?_, by simpa using oneLine⟩
        rw [joinLines_cons, ← whole]
        apply String.toList_inj.mp
        simp
      · refine ⟨String.ofList (character :: line.toList), lines, ?_, ?_⟩
        · have characters := congrArg String.toList whole
          apply String.toList_inj.mp
          simpa using characters
        · simpa [Ne.symm newline] using oneLine

/-! ## Texts as bytes -/

/-- The bytes that encode a text. -/
def encodeText (text : String) : List UInt8 :=
  text.toUTF8.data.toList

theorem encodeText_eq_flatMap (text : String) :
    encodeText text = text.toList.flatMap String.utf8EncodeChar := by
  rw [encodeText, String.toUTF8, ← String.utf8Encode_toList, List.utf8Encode]
  simp

theorem encodeText_append (first second : String) :
    encodeText (first ++ second) = encodeText first ++ encodeText second := by
  simp [encodeText_eq_flatMap]

theorem decodeText?_encodeText (text : String) :
    decodeText? (encodeText text) = some text := by
  have valid := text.isValidUTF8
  have same : ByteArray.mk (encodeText text).toArray = text.toByteArray := by
    simp [encodeText, String.toUTF8]
  rw [decodeText?, same, String.fromUTF8?, dif_pos valid]
  rfl

theorem feed_ne_ofNat {code : Nat} (different : code % 256 ≠ 10) :
    Line.feed ≠ UInt8.ofNat code := by
  intro same
  have sameCode := congrArg UInt8.toNat same
  rw [UInt8.toNat_ofNat'] at sameCode
  exact different sameCode.symm

/-- Only the newline is encoded with the byte of the line feed. -/
theorem feed_not_mem_utf8EncodeChar {character : Char}
    (different : character ≠ '\n') :
    Line.feed ∉ String.utf8EncodeChar character := by
  have notFeed : character.val.toNat ≠ 10 := fun isFeed =>
    different (Char.ext (UInt32.toNat_inj.mp isFeed))
  unfold String.utf8EncodeChar
  generalize character.val.toNat = code at notFeed
  -- A byte of a longer encoding is at least 128.
  simp only
  split_ifs
  all_goals
    simp only [List.mem_cons, List.not_mem_nil, or_false, not_or]
    repeat' constructor
  all_goals
    apply feed_ne_ofNat
    omega

namespace Line

theorem ofBytes_line {bytes : List UInt8} (oneLine : feed ∉ bytes)
    (rest : List UInt8) :
    ofBytes (bytes ++ feed :: rest) = ⟨bytes, true⟩ :: ofBytes rest := by
  induction bytes with
  | nil => rw [List.nil_append, ofBytes, if_pos rfl]
  | cons byte bytes ih =>
      simp only [List.mem_cons, not_or] at oneLine
      rw [List.cons_append, ofBytes, if_neg (Ne.symm oneLine.1), ih oneLine.2]

/-- The line that holds a text and ends in a line feed. -/
def ofText (text : String) : Line :=
  ⟨encodeText text, true⟩

theorem ofBytes_joinLines {lines : List String}
    (oneLine : ∀ line ∈ lines, '\n' ∉ line.toList) (rest : List UInt8) :
    ofBytes (encodeText (joinLines lines) ++ rest) =
      lines.map ofText ++ ofBytes rest := by
  induction lines with
  | nil => rfl
  | cons line lines ih =>
      rcases List.forall_mem_cons.mp oneLine with ⟨noNewline, oneLine⟩
      have noFeed : feed ∉ encodeText line := by
        rw [encodeText_eq_flatMap, List.mem_flatMap]
        rintro ⟨character, member, inCode⟩
        refine feed_not_mem_utf8EncodeChar ?_ inCode
        rintro rfl
        exact noNewline member
      have newline : encodeText "\n" = [feed] := by decide
      simp only [joinLines_cons, encodeText_append, newline, List.append_assoc,
        List.nil_append, ofBytes_line noFeed, ih oneLine, List.map_cons,
        List.cons_append, ofText]

theorem text?_ofText {text : String}
    (noReturn : text.toList.getLast? ≠ some '\r') :
    (ofText text).text? = some text := by
  rw [text?, ofText, decodeText?_encodeText]
  simp [dropReturn, noReturn]

end Line

end ScopedLisp
