import ScopedLisp.Proofs.ReadingSteps

/-!
# Where numbers end

A number is read as far as it goes: what the reader takes is the longest number
at the front of a text (`isLongestNumber_splitNumber`).  A character that may
stand inside a name can still follow it directly.  If a name may start with
that character, the number is malformed and is refused together with what
follows.  The only other one is a point, and then the number has decimal places
already (`IsLongestNumber.isNameStart_or_point`).

The reader does not refuse such a point with the number.  The number is read,
and the point begins a second number, or is refused on its own if no digit
follows.  So two numbers may stand side by side without a gap, and that is the
only way in which a number that was read meets a character of a name
(`numbers_meet_only_points`).
-/

namespace ScopedLisp

/-! ## Longest numbers -/

/-- A number with a point behind digits, which takes no further point. -/
def HasPlaces (number : List Char) : Prop :=
  ∃ whole places, number = whole ++ '.' :: places ∧
    whole.any Char.isDigit = true

/-- A number at the front of a text, where no longer one is. -/
structure IsLongestNumber (number text : List Char) : Prop where
  isNumber : IsNumberText number
  isPrefix : number <+: text
  longest : ∀ other, IsNumberText other → other <+: text →
    other.length ≤ number.length

namespace IsNumberText

variable {number : List Char}

theorem append_digit {digit : Char} (isNumber : IsNumberText number)
    (isDigit : digit.isDigit = true) : IsNumberText (number ++ [digit]) := by
  rcases isNumber with
    ⟨isSign, isPoint, someDigits, areDigits, rfl | ⟨behind, rfl, arePlaces⟩⟩
  · rw [List.append_nil, List.append_assoc, ← List.append_nil (_ ++ _)]
    exact .parts isSign isPoint (by simp) (by simpa [isDigit] using areDigits)
      (.inl rfl)
  · rw [List.append_assoc]
    exact .parts isSign isPoint someDigits areDigits
      (.inr ⟨behind ++ [digit], rfl, by simpa [isDigit] using arePlaces⟩)

/-- A number takes a point, unless it has decimal places. -/
theorem append_point (isNumber : IsNumberText number) :
    HasPlaces number ∨ IsNumberText (number ++ ['.']) := by
  rcases isNumber with
    ⟨isSign, isPoint, someDigits, areDigits, rfl | ⟨behind, rfl, arePlaces⟩⟩
  · rw [List.append_nil]
    exact .inr (.parts isSign isPoint someDigits areDigits
      (.inr ⟨[], rfl, rfl⟩))
  · rename_i sign point digits
    refine .inl ⟨sign ++ point ++ digits, behind, rfl, ?_⟩
    cases digits with
    | nil => contradiction
    | cons digit digits =>
        simp only [List.all_cons, Bool.and_eq_true] at areDigits
        simp [areDigits.1]

end IsNumberText

namespace IsLongestNumber

variable {number behind : List Char} {follower : Char}

theorem not_isNumberText
    (isLongest : IsLongestNumber number (number ++ follower :: behind)) :
    ¬ IsNumberText (number ++ [follower]) := by
  intro isLonger
  have bound := isLongest.longest (number ++ [follower]) isLonger
    ⟨behind, by simp⟩
  rw [List.length_append, List.length_singleton] at bound
  omega

/-- A name goes on behind a longest number where a name may start, or at a point. -/
theorem isNameStart_or_point
    (isLongest : IsLongestNumber number (number ++ follower :: behind))
    (inName : isNameCharacter follower = true) :
    isNameStart follower = true ∨ (follower = '.' ∧ HasPlaces number) := by
  simp only [isNameCharacter, Bool.or_eq_true, beq_iff_eq] at inName
  rcases inName with (starts | isDigit) | rfl
  · exact .inl starts
  · exact absurd (isLongest.isNumber.append_digit isDigit)
      isLongest.not_isNumberText
  · rcases isLongest.isNumber.append_point with hasPlaces | isLonger
    · exact .inr ⟨rfl, hasPlaces⟩
    · exact absurd isLonger isLongest.not_isNumberText

end IsLongestNumber

/-! ## The reader takes the longest number -/

theorem splitOptional_of_optional {wanted : Char} {part text : List Char}
    (isPart : part = [] ∨ part = [wanted]) (notDigit : wanted.isDigit = false)
    (digitFirst : startsWith Char.isDigit text = true) :
    splitOptional wanted (part ++ text) = (part, text) := by
  rcases isPart with rfl | rfl
  · exact splitOptional_of_startsWith notDigit digitFirst
  · exact splitOptional_self wanted text

theorem splitDigits_of_digits {digits : List Char}
    (areDigits : digits.all Char.isDigit = true) (rest : List Char) :
    splitDigits (digits ++ rest) =
      (digits ++ (splitDigits rest).1, (splitDigits rest).2) := by
  have each := List.all_eq_true.mp areDigits
  simp [splitDigits, List.takeWhile_append_of_pos each,
    List.dropWhile_append_of_pos each]

theorem length_le_splitPlaces {places : List Char} (rest : List Char)
    (arePlaces : places = [] ∨
      ∃ behind, places = '.' :: behind ∧ behind.all Char.isDigit = true) :
    places.length ≤ (splitDigits (places ++ rest)).1.length +
      (splitPlaces (splitDigits (places ++ rest)).2).1.length := by
  rcases arePlaces with rfl | ⟨behind, rfl, areDigits⟩
  · exact Nat.zero_le _
  · have atPoint : splitDigits ('.' :: behind ++ rest) =
        ([], '.' :: (behind ++ rest)) := by
      simp [splitDigits]
    rw [atPoint, splitPlaces, splitDigits_of_digits areDigits]
    simp

theorem length_le_splitNumber {number text : List Char}
    (isNumber : IsNumberText number) (isPrefix : number <+: text) :
    number.length ≤ (splitNumber text).1.length := by
  rcases isPrefix with ⟨rest, rfl⟩
  rcases isNumber with ⟨isSign, isPoint, someDigits, areDigits, arePlaces⟩
  rename_i sign point digits places
  generalize tail : places ++ rest = behind
  have digitFirst : startsWith Char.isDigit (digits ++ behind) = true :=
    startsWith_append (startsWith_of_all someDigits areDigits)
  have afterSign : splitOptional '-' (sign ++ (point ++ (digits ++ behind))) =
      (sign, point ++ (digits ++ behind)) := by
    rcases isPoint with rfl | rfl
    · exact splitOptional_of_optional isSign rfl digitFirst
    · rcases isSign with rfl | rfl <;> simp [splitOptional]
  have afterPoint : splitOptional '.' (point ++ (digits ++ behind)) =
      (point, digits ++ behind) :=
    splitOptional_of_optional isPoint rfl digitFirst
  have placesTaken := length_le_splitPlaces rest arePlaces
  rw [tail] at placesTaken
  simp only [splitNumber, List.append_assoc, tail, afterSign, afterPoint,
    splitDigits_of_digits areDigits, List.length_append]
  omega

theorem isLongestNumber_splitNumber {text : List Char}
    (starts : startsNumber text = true) :
    IsLongestNumber (splitNumber text).1 text where
  isNumber := isNumberText_splitNumber starts
  isPrefix := ⟨_, splitNumber_append text⟩
  longest _ := length_le_splitNumber

theorem IsLongestNumber.splitNumber_eq {number rest : List Char}
    (isLongest : IsLongestNumber number (number ++ rest)) :
    splitNumber (number ++ rest) = (number, rest) := by
  have starts : startsNumber (number ++ rest) = true :=
    startsNumber_append isLongest.isNumber.startsNumber
  have isSplit := isLongestNumber_splitNumber starts
  have shorter := isSplit.longest number isLongest.isNumber isLongest.isPrefix
  have longer := isLongest.longest _ isSplit.isNumber isSplit.isPrefix
  have same : (splitNumber (number ++ rest)).1 = number :=
    (List.prefix_of_prefix_length_le isSplit.isPrefix isLongest.isPrefix
      longer).eq_of_length (Nat.le_antisymm longer shorter)
  have whole := splitNumber_append (number ++ rest)
  rw [same] at whole
  exact Prod.ext same (List.append_cancel_left whole)

/-- A longest number is what the reader of numbers finds behind its first character. -/
theorem IsLongestNumber.exists_cons {number rest : List Char}
    (isLongest : IsLongestNumber number (number ++ rest)) :
    ∃ first text, number ++ rest = first :: text ∧
      startsNumber (first :: text) = true ∧
      splitNumber (first :: text) = (number, rest) := by
  have starts : startsNumber (number ++ rest) = true :=
    startsNumber_append isLongest.isNumber.startsNumber
  have split := isLongest.splitNumber_eq
  cases whole : number ++ rest with
  | nil =>
      rw [whole] at starts
      contradiction
  | cons first text =>
      rw [whole] at starts split
      exact ⟨first, text, rfl, starts, split⟩

/-- A longest number is a token if no name starts behind it. -/
theorem IsLongestNumber.exists_cutsOff {number rest : List Char}
    (isLongest : IsLongestNumber number (number ++ rest))
    (ends : startsWith isNameStart rest = false) :
    ∃ first text, CutsOff first text ⟨.number, number, rest⟩ := by
  rcases isLongest.exists_cons with ⟨first, text, -, starts, split⟩
  have cuts := CutsOff.number starts (by rwa [split])
  rw [split] at cuts
  exact ⟨first, text, cuts⟩

/-! ## Behind a number -/

theorem wordKind_ne_number (text : String) : wordKind text ≠ .number := by
  unfold wordKind
  split
  · decide
  · split <;> decide

/-- A token that is a number is the longest one, and no name starts behind it. -/
theorem CutsOff.isLongestNumber {first : Char} {text : List Char}
    {piece : Piece} (cuts : CutsOff first text piece)
    (isNumber : piece.kind = .number) :
    IsLongestNumber piece.text (piece.text ++ piece.rest) ∧
      startsWith isNameStart piece.rest = false := by
  cases cuts with
  | opening | closing | string | hash => contradiction
  | number starts ends =>
      rw [splitNumber_append]
      exact ⟨isLongestNumber_splitNumber starts, ends⟩
  | word => exact absurd isNumber (wordKind_ne_number _)

/-- A token that starts with a point is a number. -/
theorem CutsOff.kind_of_point {text : List Char} {piece : Piece}
    (cuts : CutsOff '.' text piece) : piece.kind = .number := by
  cases cuts with
  | number => rfl
  | word notNumber starts => contradiction

/-- The first of some tokens is a number that starts with a point, at the front of a text. -/
def PointNumberFirst (text : List Char) (tokens : List Token) : Prop :=
  ∃ next later rest, tokens = next :: later ∧ next.kind = .number ∧
    text = next.text.toList ++ rest ∧
    startsWith (· == '.') next.text.toList = true

theorem isNameCharacter_of_point {text : List Char}
    (atPoint : startsWith (· == '.') text = true) :
    startsWith isNameCharacter text = true := by
  cases text with
  | nil => contradiction
  | cons character text =>
      rw [beq_iff_eq.mp (show (character == '.') = true from atPoint)]
      rfl

theorem IsGap.ne_point {atEnd : Bool} {gap : List Char}
    (isGap : IsGap atEnd gap) (behind : List Char) : gap ≠ '.' :: behind := by
  rintro rfl
  cases isGap with
  | blank isBlank => contradiction

namespace Cursor

variable {position : Position} {depth : Nat} {gap behind : List Char}

/-- Where the rest of a source starts with a point, a number is read next. -/
theorem Reads.pointNumberFirst {tokens : List Token} {last : Cursor}
    (reads : Reads ⟨position, depth, '.' :: behind⟩ tokens last)
    (isLast : IsGap true last.rest) :
    PointNumberFirst ('.' :: behind) tokens := by
  generalize from' : Cursor.mk position depth ('.' :: behind) = first at reads
  cases reads with
  | here =>
      subst from'
      exact absurd rfl (isLast.ne_point behind)
  | @token _ _ _ gap _ character piece tokens _ isGap cuts counted later =>
      have whole : '.' :: behind = gap ++ (piece.text ++ piece.rest) :=
        congrArg Cursor.rest from'
      have read := readLexeme_of_cutsOff cuts
      have parts := readLexeme_append read
      cases gap with
      | cons blank gap =>
          obtain ⟨rfl, -⟩ := List.cons.inj whole
          exact absurd rfl (isGap.ne_point gap)
      | nil =>
          obtain ⟨rfl, -⟩ := List.cons.inj (whole.trans parts)
          refine ⟨_, tokens, piece.rest, rfl, cuts.kind_of_point, ?_, ?_⟩
          · simpa [Token.text] using whole
          · cases spelled : piece.text with
            | nil => exact absurd spelled (readLexeme_text_ne_nil read)
            | cons point text =>
                rw [spelled] at parts
                simp [Token.text, startsWith, (List.cons.inj parts).1]

/-- Behind a number a character of a name stands only where a number with a point begins. -/
theorem Reads.exists_behind_number {first last : Cursor} {token : Token}
    {tokens : List Token} (reads : Reads first (token :: tokens) last)
    (isLast : IsGap true last.rest) (isNumber : token.kind = .number) :
    ∃ gap after, first.rest = gap ++ (token.text.toList ++ after) ∧
      token.position = first.position.advance gap ∧
      (startsWith isNameCharacter after = true ↔
        HasPlaces token.text.toList ∧ PointNumberFirst after tokens) := by
  cases reads with
  | @token position depth next gap _ character piece _ _ isGap cuts counted
      later =>
      rcases cuts.isLongestNumber isNumber with ⟨isLongest, noName⟩
      refine ⟨gap, piece.rest, ?_, rfl, ?_, ?_⟩
      · rw [Token.text, String.toList_ofList]
      · intro inName
        rw [Token.text, String.toList_ofList]
        cases follows : piece.rest with
        | nil =>
            rw [follows] at inName
            contradiction
        | cons follower rest =>
            rw [follows] at isLongest noName inName later
            -- No name starts here, so this is a point behind decimal places.
            rcases isLongest.isNameStart_or_point inName with
              starts | ⟨rfl, hasPlaces⟩
            · exact absurd (noName.symm.trans starts) Bool.false_ne_true
            · exact ⟨hasPlaces, later.pointNumberFirst isLast⟩
      · rintro ⟨-, next, _, rest, -, -, spelled, atPoint⟩
        rw [spelled]
        exact startsWith_append (isNameCharacter_of_point atPoint)

section GluedNumber

variable {number : List Char} (isGap : IsGap false gap)
include isGap

/-- A number that a name goes on behind is malformed, together with the name. -/
theorem stops_at_gluedName {follower : Char}
    (isLongest : IsLongestNumber number (number ++ follower :: behind))
    (starts : isNameStart follower = true) :
    Stops ⟨position, depth, gap ++ (number ++ follower :: behind)⟩
      (.located (.malformedNumber (String.ofList
          (number ++ (follower :: behind).takeWhile isNameCharacter)))
        (position.advance gap)) := by
  rcases isLongest.exists_cons with ⟨first, text, whole, numberFirst, split⟩
  rcases isNameCharacter_startsNoGap
    (isNameCharacter_of_startsNumber numberFirst) with ⟨notBlank, notComment⟩
  have unread := Unreadable.number numberFirst (by rwa [split])
  rw [split] at unread
  rw [whole]
  exact .unreadable isGap notBlank notComment unread

/-- A number that a point goes on behind is read without the point. -/
theorem reads_number_of_point
    (isLongest : IsLongestNumber number (number ++ '.' :: behind)) :
    Reads ⟨position, depth, gap ++ (number ++ '.' :: behind)⟩
      [⟨⟨.number, String.ofList number⟩, position.advance gap⟩]
      ⟨(position.advance gap).advance number, depth, '.' :: behind⟩ := by
  rcases isLongest.exists_cutsOff rfl with ⟨first, text, cuts⟩
  exact .token isGap cuts rfl (.here _)

end GluedNumber

/-- A point that no digit follows cannot be read. -/
theorem stops_at_point (notDigit : startsWith Char.isDigit behind = false) :
    Stops ⟨position, depth, '.' :: behind⟩
      (.located (.unexpectedCharacter '.') position) := by
  have unread : Unreadable '.' behind (.unexpectedCharacter '.') :=
    .character (by decide) notDigit rfl
  have noGap : IsGap false [] := .empty
  exact .unreadable noGap rfl (by decide) unread

end Cursor

/--
Numbers that are read and those that are not.  In a source that is read, what
follows a number directly may stand inside a name only if it is a point, and
then the number has decimal places and the point starts the next number.  In
any source, a longest number is malformed if a character of a name other than a
point follows it directly; if a point does, the number has decimal places and
is read, and the point is refused unless a digit follows.
-/
theorem numbers_meet_only_points (source : String) :
    (∀ before token behind, tokenize source = .ok (before ++ token :: behind) →
      token.kind = .number →
        ∃ front after, source.toList = front ++ (token.text.toList ++ after) ∧
          token.position = Position.start.advance front ∧
          (startsWith isNameCharacter after = true ↔
            HasPlaces token.text.toList ∧ PointNumberFirst after behind)) ∧
    ∀ tokens last gap number follower behind,
      (Cursor.start source).Reads tokens last →
      last.rest = gap ++ (number ++ follower :: behind) → IsGap false gap →
      IsLongestNumber number (number ++ follower :: behind) →
      isNameCharacter follower = true →
        (follower ≠ '.' →
          tokenize source =
            .error (.located (.malformedNumber (String.ofList
                (number ++ (follower :: behind).takeWhile isNameCharacter)))
              (last.position.advance gap))) ∧
        (follower = '.' →
          HasPlaces number ∧
          (Cursor.start source).Reads
            (tokens ++
              [⟨⟨.number, String.ofList number⟩, last.position.advance gap⟩])
            ⟨(last.position.advance gap).advance number, last.depth,
              '.' :: behind⟩ ∧
          (startsWith Char.isDigit behind = false →
            tokenize source =
              .error (.located (.unexpectedCharacter '.')
                ((last.position.advance gap).advance number)))) := by
  rw [← Cursor.tokens_start]
  constructor
  · intro before token behind read isNumber
    rcases Cursor.tokens_eq_ok_iff.mp read with ⟨last, reads, closed, isLast⟩
    rcases reads.exists_middle with ⟨middle, front, back⟩
    rcases front.exists_front with ⟨text, covers, place⟩
    rcases back.exists_behind_number isLast isNumber with
      ⟨gap, after, covers', place', followed⟩
    refine ⟨text ++ gap, after, ?_, ?_, followed⟩
    · rw [List.append_assoc, ← covers']
      exact covers
    · rw [place', place, Position.advance_append]
      rfl
  · intro tokens last gap number follower behind reads atNumber isGap isLongest
      inName
    rcases last with ⟨position, depth, source'⟩
    subst atNumber
    constructor
    · intro notPoint
      rcases isLongest.isNameStart_or_point inName with starts | ⟨isPoint, -⟩
      · exact Cursor.tokens_eq_error_iff.mpr
          ⟨tokens, _, reads, Cursor.stops_at_gluedName isGap isLongest starts⟩
      · exact absurd isPoint notPoint
    · rintro rfl
      rcases isLongest.isNameStart_or_point inName with starts | ⟨-, hasPlaces⟩
      · contradiction
      have reads' := reads.append (Cursor.reads_number_of_point isGap isLongest)
      refine ⟨hasPlaces, reads', fun notDigit => ?_⟩
      exact Cursor.tokens_eq_error_iff.mpr
        ⟨_, _, reads', Cursor.stops_at_point notDigit⟩

/-- A letter behind a number that starts with a sign and a point. -/
theorem numbers_meet_only_points_letter :
    IsLongestNumber ['-', '.', '5'] ['-', '.', '5', 'e'] ∧
      isNameCharacter 'e' = true ∧
      tokenize "-.5e" =
        .error (.located (.malformedNumber "-.5e") ⟨1, 1⟩) := by
  have starts : startsNumber ['-', '.', '5', 'e'] = true := rfl
  have isLongest : IsLongestNumber ['-', '.', '5'] ['-', '.', '5', 'e'] :=
    isLongestNumber_splitNumber starts
  refine ⟨isLongest, rfl, ?_⟩
  exact ((numbers_meet_only_points "-.5e").2 [] _ [] _ 'e' [] (.here _) rfl
    .empty isLongest rfl).1 (by decide)

/-- A second point does not make a number malformed: it starts another number. -/
theorem second_point_starts_number :
    tokenize "1.2.3" =
        .ok [⟨⟨.number, "1.2"⟩, ⟨1, 1⟩⟩, ⟨⟨.number, ".3"⟩, ⟨1, 4⟩⟩] ∧
      "1.2.3".toList = "1.2".toList ++ '.' :: ['3'] ∧
      isNameCharacter '.' = true := by
  refine ⟨?_, rfl, rfl⟩
  cbv

end ScopedLisp
