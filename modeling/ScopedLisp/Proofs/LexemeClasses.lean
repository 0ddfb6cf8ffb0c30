import ScopedLisp.Token.Spelling

/-!
# The class that a text belongs to

`Spells` lists, for each kind of token, the texts that write it, without any
reference to how a text is read.  A text belongs to one kind at most
(`Spells.unique`), and what the reader cuts off the front of a source belongs
to the kind that the reader says (`CutsOff.spells`).
-/

namespace ScopedLisp

/-! ## Classes of texts -/

/-- What may stand between the quotes of a string. -/
inductive IsStringBody : List Char → Prop where
  | empty : IsStringBody []
  | plain {character : Char} {rest : List Char}
      (notQuote : character ≠ '"') (notBackslash : character ≠ '\\')
      (body : IsStringBody rest) : IsStringBody (character :: rest)
  | escaped {character : Char} {rest : List Char}
      (body : IsStringBody rest) : IsStringBody ('\\' :: character :: rest)

/-- A sign, a point, digits, and once more a point with digits. -/
inductive IsNumberText : List Char → Prop where
  | parts {sign point digits places : List Char}
      (isSign : sign = [] ∨ sign = ['-']) (isPoint : point = [] ∨ point = ['.'])
      (someDigits : digits ≠ []) (areDigits : digits.all Char.isDigit = true)
      (arePlaces : places = [] ∨
        ∃ behind, places = '.' :: behind ∧ behind.all Char.isDigit = true) :
      IsNumberText (sign ++ point ++ digits ++ places)

/-- The words that are not names. -/
def reservedTexts : List (List Char) :=
  ["nil".toList, "true".toList, "false".toList]

/-- The texts that write a token of a kind. -/
def Spells (kind : TokenKind) (text : List Char) : Prop :=
  match kind with
  | .openParen => text = ['(']
  | .closeParen => text = [')']
  | .nil => text = "nil".toList
  | .boolean =>
    text ∈ ["#t".toList, "#f".toList, "true".toList, "false".toList]
  | .string => ∃ body, IsStringBody body ∧ text = '"' :: body ++ ['"']
  | .number => IsNumberText text
  | .identifier =>
    startsWith isNameStart text = true ∧ text.all isNameCharacter = true ∧
      startsNumber text = false ∧ text ∉ reservedTexts

/-! ## A text belongs to one class -/

theorem startsWith_append {property : Char → Bool} {text rest : List Char}
    (starts : startsWith property text = true) :
    startsWith property (text ++ rest) = true := by
  cases text with
  | nil => contradiction
  | cons character text => exact starts

theorem startsWith_of_all {property : Char → Bool} {text : List Char}
    (nonempty : text ≠ []) (each : text.all property = true) :
    startsWith property text = true := by
  cases text with
  | nil => contradiction
  | cons character text =>
      simp only [List.all_cons, Bool.and_eq_true] at each
      exact each.1

theorem startsNumber_of_startsWith {text : List Char}
    (digitFirst : startsWith Char.isDigit text = true) :
    startsNumber text = true := by
  unfold startsNumber
  split
  · contradiction
  · contradiction
  · contradiction
  · exact digitFirst

theorem IsNumberText.startsNumber {text : List Char}
    (isNumber : IsNumberText text) : startsNumber text = true := by
  rcases isNumber with ⟨isSign, isPoint, someDigits, areDigits, arePlaces⟩
  rename_i sign point digits places
  have digitFirst : startsWith Char.isDigit (digits ++ places) = true :=
    startsWith_append (startsWith_of_all someDigits areDigits)
  rw [List.append_assoc]
  rcases isSign with rfl | rfl <;> rcases isPoint with rfl | rfl
  · exact startsNumber_of_startsWith digitFirst
  · simpa [ScopedLisp.startsNumber] using digitFirst
  · cases digitsCase : digits ++ places with
    | nil =>
        rw [digitsCase] at digitFirst
        contradiction
    | cons digit rest =>
        rw [digitsCase] at digitFirst
        have notPoint : digit ≠ '.' := by
          rintro rfl
          contradiction
        simpa [ScopedLisp.startsNumber, notPoint] using digitFirst
  · simpa [ScopedLisp.startsNumber] using digitFirst

/-- The kind of token that a text can write, if it writes any. -/
def kindOfText (text : List Char) : TokenKind :=
  if text = ['('] then .openParen
  else if text = [')'] then .closeParen
  else if startsWith (· == '"') text then .string
  else if startsNumber text then .number
  else if text = "nil".toList then .nil
  else if text ∈ ["#t".toList, "#f".toList, "true".toList, "false".toList] then
    .boolean
  else .identifier

theorem startsNumber_ne {first : Char} {text : List Char}
    (starts : startsNumber (first :: text) = true) :
    first ≠ '(' ∧ first ≠ ')' ∧ first ≠ '"' := by
  refine ⟨?_, ?_, ?_⟩
  all_goals
    rintro rfl
    simp [startsNumber, startsWith] at starts

theorem isNameStart_ne {first : Char} (starts : isNameStart first = true) :
    first ≠ '(' ∧ first ≠ ')' ∧ first ≠ '"' ∧ first ≠ '#' := by
  refine ⟨?_, ?_, ?_, ?_⟩
  all_goals
    rintro rfl
    contradiction

theorem Spells.kindOfText_eq {kind : TokenKind} {text : List Char}
    (spells : Spells kind text) : kindOfText text = kind := by
  cases kind with
  | openParen => rw [show text = ['('] from spells]; rfl
  | closeParen => rw [show text = [')'] from spells]; rfl
  | nil => rw [show text = "nil".toList from spells]; decide
  | boolean =>
      simp only [Spells, List.mem_cons, List.not_mem_nil, or_false] at spells
      rcases spells with rfl | rfl | rfl | rfl <;> decide
  | string =>
      rcases spells with ⟨body, isBody, rfl⟩
      simp [kindOfText, startsWith]
  | number =>
      have starts := IsNumberText.startsNumber spells
      cases text with
      | nil => contradiction
      | cons first text =>
          rcases startsNumber_ne starts with ⟨notOpen, notClose, notQuote⟩
          simp [kindOfText, startsWith, starts, notOpen, notClose, notQuote]
  | identifier =>
      rcases spells with ⟨starts, isName, notNumber, notReserved⟩
      cases text with
      | nil => contradiction
      | cons first text =>
          rcases isNameStart_ne starts with
            ⟨notOpen, notClose, notQuote, notHash⟩
          simp only [reservedTexts, List.mem_cons, List.not_mem_nil, or_false,
            not_or] at notReserved
          rcases notReserved with ⟨notNil, notTrue, notFalse⟩
          have notSharp : ∀ rest, first :: text ≠ '#' :: rest := fun rest same =>
            notHash (List.cons.inj same).1
          rw [kindOfText, if_neg, if_neg, if_neg, if_neg, if_neg notNil, if_neg]
          · simp only [List.mem_cons, List.not_mem_nil, or_false, not_or]
            exact ⟨notSharp _, notSharp _, notTrue, notFalse⟩
          · simp [notNumber]
          · simp [startsWith, notQuote]
          · simp [notClose]
          · simp [notOpen]

/-- No text writes tokens of two kinds. -/
theorem Spells.unique {kind other : TokenKind} {text : List Char}
    (spells : Spells kind text) (spellsOther : Spells other text) :
    other = kind :=
  spellsOther.kindOfText_eq.symm.trans spells.kindOfText_eq

/-! ## What the reader of tokens does -/

/-- The ways in which a token can be cut off the front of a text. -/
inductive CutsOff : Char → List Char → Piece → Prop where
  | opening {text : List Char} :
      CutsOff '(' text ⟨.openParen, ['('], text⟩
  | closing {text : List Char} :
      CutsOff ')' text ⟨.closeParen, [')'], text⟩
  | string {text body rest : List Char}
      (split : splitString? text = some (body, rest)) :
      CutsOff '"' text ⟨.string, '"' :: body, rest⟩
  | hash {letter : Char} {rest : List Char}
      (isLetter : letter = 't' ∨ letter = 'f')
      (ends : startsWith isNameCharacter rest = false) :
      CutsOff '#' (letter :: rest) ⟨.boolean, ['#', letter], rest⟩
  | number {first : Char} {text : List Char}
      (starts : startsNumber (first :: text) = true)
      (ends : startsWith isNameStart (splitNumber (first :: text)).2 = false) :
      CutsOff first text
        ⟨.number, (splitNumber (first :: text)).1,
          (splitNumber (first :: text)).2⟩
  | word {first : Char} {text : List Char}
      (notNumber : startsNumber (first :: text) = false)
      (starts : isNameStart first = true) :
      CutsOff first text (readWord (first :: text))

theorem readLexeme_cutsOff {first : Char} {text : List Char} {piece : Piece}
    (read : readLexeme first text = .ok piece) : CutsOff first text piece := by
  rw [readLexeme] at read
  split at read
  · subst first
    cases read
    exact .opening
  split at read
  · subst first
    cases read
    exact .closing
  split at read
  · subst first
    split at read
    · cases read
      exact .string ‹_›
    · contradiction
  split at read
  · subst first
    cases text with
    | nil => contradiction
    | cons letter rest =>
        rw [readHash] at read
        split at read
        · rename_i holds
          cases read
          simp only [Bool.and_eq_true, Bool.or_eq_true, decide_eq_true_eq,
            Bool.not_eq_true'] at holds
          exact .hash holds.1 holds.2
        · contradiction
  split at read
  · rename_i starts
    simp only [readNumber] at read
    split at read
    · contradiction
    · rename_i ends
      cases read
      exact .number starts (Bool.not_eq_true _ ▸ ends)
  split at read
  · rename_i notNumber starts
    cases read
    exact .word (Bool.not_eq_true _ ▸ notNumber) starts
  · contradiction

/-! ### What is cut off belongs to its class -/

/-- A backslash that escapes nothing is at the end of the source. -/
theorem eq_nil_of_unpaired {character : Char} {text : List Char}
    (notPair : ∀ next rest, character = '\\' → text = next :: rest → False)
    (isBackslash : character = '\\') : text = [] := by
  cases text with
  | nil => rfl
  | cons next rest => exact (notPair next rest isBackslash rfl).elim

/-- Where a string goes on to its closing quote, every backslash escapes something. -/
theorem ne_backslash_of_splitString? {character : Char} {text : List Char}
    {split : List Char × List Char}
    (notPair : ∀ next rest, character = '\\' → text = next :: rest → False)
    (goesOn : splitString? text = some split) : character ≠ '\\' := by
  intro isBackslash
  rw [eq_nil_of_unpaired notPair isBackslash] at goesOn
  contradiction

theorem isStringBody_of_splitString? {text body rest : List Char}
    (split : splitString? text = some (body, rest)) :
    ∃ inner, IsStringBody inner ∧ body = inner ++ ['"'] := by
  fun_induction splitString? text generalizing body rest with
  | case1 => contradiction
  | case2 text =>
      cases split
      exact ⟨[], .empty, rfl⟩
  | case3 character text ih =>
      rcases Option.map_eq_some_iff.mp split with ⟨⟨body, rest⟩, read, same⟩
      cases same
      rcases ih read with ⟨inner, isBody, rfl⟩
      exact ⟨'\\' :: character :: inner, .escaped isBody, rfl⟩
  | case4 character text notQuote notPair ih =>
      rcases Option.map_eq_some_iff.mp split with ⟨⟨body, rest⟩, read, same⟩
      cases same
      rcases ih read with ⟨inner, isBody, rfl⟩
      have notBackslash := ne_backslash_of_splitString? notPair read
      exact ⟨character :: inner, .plain notQuote notBackslash isBody, rfl⟩

theorem splitOptional_cases (wanted : Char) (text : List Char) :
    (splitOptional wanted text).1 = [] ∨
      (splitOptional wanted text).1 = [wanted] := by
  cases text with
  | nil => exact Or.inl rfl
  | cons character text =>
      rw [splitOptional]
      split
      · rename_i same
        exact Or.inr (by rw [same])
      · exact Or.inl rfl

theorem splitPlaces_cases (text : List Char) :
    (splitPlaces text).1 = [] ∨
      ∃ behind, (splitPlaces text).1 = '.' :: behind ∧
        behind.all Char.isDigit = true := by
  unfold splitPlaces
  split
  · exact Or.inr ⟨_, rfl, by simp [splitDigits]⟩
  · exact Or.inl rfl

@[simp]
theorem splitOptional_self (wanted : Char) (text : List Char) :
    splitOptional wanted (wanted :: text) = ([wanted], text) := by
  simp [splitOptional]

theorem splitOptional_of_startsWith {wanted : Char} {text : List Char}
    (notDigit : wanted.isDigit = false)
    (digitFirst : startsWith Char.isDigit text = true) :
    splitOptional wanted text = ([], text) := by
  cases text with
  | nil => rfl
  | cons character text =>
      have different : character ≠ wanted := by
        rintro rfl
        rw [startsWith, notDigit] at digitFirst
        contradiction
      simp [splitOptional, different]

theorem splitSignAndPoint_startsWith {text : List Char}
    (starts : startsNumber text = true) :
    startsWith Char.isDigit
      (splitOptional '.' (splitOptional '-' text).2).2 = true := by
  have pointFirst : ∀ {text}, startsWith Char.isDigit text = true →
      splitOptional '.' text = ([], text) :=
    splitOptional_of_startsWith rfl
  have signFirst : ∀ {text}, startsWith Char.isDigit text = true →
      splitOptional '-' text = ([], text) :=
    splitOptional_of_startsWith rfl
  unfold startsNumber at starts
  split at starts
  · simpa using starts
  · simpa [pointFirst starts] using starts
  · simpa [splitOptional] using starts
  · simpa [signFirst starts, pointFirst starts] using starts

theorem isNumberText_splitNumber {text : List Char}
    (starts : startsNumber text = true) :
    IsNumberText (splitNumber text).1 := by
  have digitFirst := splitSignAndPoint_startsWith starts
  refine .parts (splitOptional_cases '-' text) (splitOptional_cases '.' _)
    ?_ (by simp) (splitPlaces_cases _)
  intro (noDigits :
    (splitDigits (splitOptional '.' (splitOptional '-' text).2).2).1 = [])
  cases digits : (splitOptional '.' (splitOptional '-' text).2).2 with
  | nil =>
      rw [digits] at digitFirst
      contradiction
  | cons digit rest =>
      rw [digits] at digitFirst noDigits
      simp [splitDigits, show digit.isDigit = true from digitFirst] at noDigits

theorem startsNumber_append {text rest : List Char}
    (starts : startsNumber text = true) :
    startsNumber (text ++ rest) = true := by
  unfold startsNumber at starts
  split at starts
  · exact startsWith_append starts
  · rename_i behind notPoint
    cases behind with
    | nil => contradiction
    | cons character behind =>
        have different : character ≠ '.' := by
          rintro rfl
          exact notPoint behind rfl
        have digit : character.isDigit = true := starts
        simpa [startsNumber, different, startsWith] using digit
  · exact startsWith_append starts
  · exact startsNumber_of_startsWith (startsWith_append starts)

theorem spells_readWord {first : Char} {text : List Char}
    (notNumber : startsNumber (first :: text) = false)
    (starts : isNameStart first = true) :
    Spells (readWord (first :: text)).kind (readWord (first :: text)).text := by
  have inName : isNameCharacter first = true := by
    simp [isNameCharacter, starts]
  simp only [readWord]
  generalize cut : (first :: text).takeWhile isNameCharacter = word
  have isName : word.all isNameCharacter = true := by
    simp [← cut]
  have nameFirst : startsWith isNameStart word = true := by
    simp [← cut, inName, startsWith, starts]
  have wordNotNumber : startsNumber word = false := by
    refine Bool.eq_false_iff.mpr fun wordStarts => ?_
    have whole : startsNumber (first :: text) = true := by
      have parts := @List.takeWhile_append_dropWhile _ isNameCharacter
        (first :: text)
      rw [← parts, cut]
      exact startsNumber_append wordStarts
    rw [notNumber] at whole
    contradiction
  have sameText : ∀ other : String, String.ofList word = other ↔
      word = other.toList := by
    intro other
    constructor
    · rintro rfl
      simp
    · rintro rfl
      simp
  unfold wordKind
  split
  · rename_i isNil
    exact (sameText _).mp isNil
  · split
    · rename_i isBoolean
      simp only [Bool.or_eq_true, decide_eq_true_eq, sameText] at isBoolean
      rcases isBoolean with isTrue | isFalse
      · simp [Spells, isTrue]
      · simp [Spells, isFalse]
    · rename_i notNil notBoolean
      simp only [Bool.or_eq_true, decide_eq_true_eq, sameText, not_or]
        at notNil notBoolean
      refine ⟨nameFirst, isName, wordNotNumber, ?_⟩
      simp only [reservedTexts, List.mem_cons, List.not_mem_nil, or_false,
        not_or]
      exact ⟨notNil, notBoolean.1, notBoolean.2⟩

/-- What is cut off a text is spelled as its kind demands. -/
theorem CutsOff.spells {first : Char} {text : List Char} {piece : Piece}
    (cuts : CutsOff first text piece) : Spells piece.kind piece.text := by
  cases cuts with
  | opening => rfl
  | closing => rfl
  | string split =>
      rcases isStringBody_of_splitString? split with ⟨inner, isBody, rfl⟩
      exact ⟨inner, isBody, rfl⟩
  | hash isLetter ends =>
      rcases isLetter with rfl | rfl <;> simp [Spells]
  | number starts ends => exact isNumberText_splitNumber starts
  | word notNumber starts => exact spells_readWord notNumber starts

theorem startsWith_dropWhile (property : Char → Bool) (text : List Char) :
    startsWith property (text.dropWhile property) = false := by
  induction text with
  | nil => rfl
  | cons character text ih =>
      by_cases holds : property character = true
      · simp [holds, ih]
      · simp [holds, startsWith]

/-- Words are read to their end. -/
theorem CutsOff.ends {first : Char} {text : List Char} {piece : Piece}
    (cuts : CutsOff first text piece)
    (isWord : piece.kind ∈ [TokenKind.identifier, .nil, .boolean]) :
    startsWith isNameCharacter piece.rest = false := by
  cases cuts with
  | opening => contradiction
  | closing => contradiction
  | string split => contradiction
  | hash isLetter ends => exact ends
  | number starts ends => contradiction
  | word notNumber starts => exact startsWith_dropWhile _ _

end ScopedLisp
