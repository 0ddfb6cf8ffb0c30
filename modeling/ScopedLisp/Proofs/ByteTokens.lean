import ScopedLisp.Proofs.ByteRuns
import ScopedLisp.Proofs.ReadingSteps

/-!
# Bytes are read within characters

A reader of bytes passes through the middle of characters: a backslash in a
string may stand in front of a character of several bytes, of which only the
first is skipped.  `ByteReader.Stands` holds where it stands between two
characters.  It does so in front of each token and behind it
(`ends_readToken_of_cutsOff`), which are the places that texts are cut out
between.

So a source is read byte by byte as it is read character by character, and no
step on the way is unsound (`bytes_are_read_within_characters`).
-/

namespace ScopedLisp

/-! ## Reading between characters -/

/-- The reader stands between two parts of a source. -/
structure ByteReader.Stands (source : String) (front rest : List Char)
    (reader : ByteReader) : Prop
    extends Between source (bytewise front) (bytewise rest) reader where
  text_eq : source.toList = front ++ rest

theorem ByteReader.Stands.position_eq_advance {source : String}
    {front rest : List Char} {reader : ByteReader}
    (stands : reader.Stands source front rest) :
    reader.position = Position.start.advance front := by
  rw [stands.position_eq, take_encodeText stands.text_eq,
    foldl_nextByte_flatMap]

namespace ByteRun

open ByteReader (Between Sound Stands)

section Characters

variable {α : Type} {source : String} {front text taken left rest : List Char}

theorem Ends.stands {run : ByteRun α} {result : Except Error α}
    (ends : Ends (Between source (bytewise front) (bytewise text))
      run result
      (Between source (bytewise front ++ bytewise taken)
        (bytewise left)))
    (parts : taken ++ left = text) :
    Ends (Stands source front text) run result
      (Stands source (front ++ taken) left) := by
  intro reader stands
  rcases ends reader stands.toBetween with ⟨last, ran, between⟩
  rw [← bytewise_append] at between
  refine ⟨last, ran, between, ?_⟩
  rw [stands.text_eq, List.append_assoc, parts]

theorem Ends.stands_still {run : ByteRun α} {result : Except Error α}
    (ends : Ends (Between source (bytewise front) (bytewise text))
      run result
      (Between source (bytewise front) (bytewise text))) :
    Ends (Stands source front text) run result
      (Stands source front text) := by
  intro reader stands
  rcases ends reader stands.toBetween with ⟨last, ran, between⟩
  exact ⟨last, ran, between, stands.text_eq⟩

theorem ends_peek_stands (count : Nat) :
    Ends (Stands source front rest) (peek count)
      (.ok ((bytewise rest).getD count '\x00'))
      (Stands source front rest) :=
  (ends_peek count).stands_still

theorem ends_peek_of_ascii {next : Char} (ascii : next.toNat < 128) :
    Ends (Stands source front (next :: rest)) (peek 0) (.ok next)
      (Stands source front (next :: rest)) := by
  have looks := @ends_peek_stands source front (next :: rest) 0
  rwa [bytewise_cons_of_ascii ascii, List.getD_cons_zero] at looks

theorem ends_advance_stands {next : Char} (ascii : next.toNat < 128) :
    Ends (Stands source front (next :: rest)) advance (.ok next)
      (Stands source (front ++ [next]) rest) := by
  refine Ends.stands ?_ rfl
  rw [bytewise_cons_of_ascii ascii, bytewise_cons_of_ascii ascii]
  exact ends_advance

theorem ends_skipTrivia_stands :
    Ends (Stands source front rest) skipTrivia (.ok ())
      (Stands source (front ++ (splitTrivia rest).1)
        (splitTrivia rest).2) := by
  refine Ends.stands ?_ (splitTrivia_append rest).1
  have ends := @ends_skipTrivia source (bytewise front) (bytewise rest)
  rwa [splitTrivia_bytewise] at ends

theorem ends_skipNumber_stands :
    Ends (Stands source front rest) skipNumber (.ok ())
      (Stands source (front ++ (splitNumber rest).1)
        (splitNumber rest).2) := by
  refine Ends.stands ?_ (splitNumber_append rest)
  have ends := @ends_skipNumber source (bytewise front) (bytewise rest)
  rwa [splitNumber_bytewise] at ends

theorem ends_skipName_stands :
    Ends (Stands source front rest) (skipWhile isNameCharacter)
      (.ok ())
      (Stands source (front ++ rest.takeWhile isNameCharacter)
        (rest.dropWhile isNameCharacter)) := by
  refine Ends.stands ?_ List.takeWhile_append_dropWhile
  have ends := @ends_skipWhile source isNameCharacter (bytewise front)
    (bytewise rest)
  rcases takeWhile_bytewise isNameCharacter_of_wide rest with ⟨taken, left⟩
  rwa [taken, left] at ends

/-- The text between two places at which the reader may stand is cut out. -/
theorem ends_cut_stands {first : List Char} {more : List Char}
    (parts : front ++ rest = first ++ (text ++ more)) :
    Ends (Stands source front rest)
      (cut (bytewise first).length (bytewise (first ++ text)).length)
      (.ok (String.ofList text)) (Stands source front rest) := by
  intro reader stands
  have whole := stands.text_eq.trans parts
  have whole' : source.toList = (first ++ text) ++ more := by
    rw [whole, List.append_assoc]
  have isSound : (ByteStep.cut (bytewise first).length
      (bytewise (first ++ text)).length).IsSound source := by
    refine ⟨?_, isValid_length_bytewise whole, isValid_length_bytewise whole'⟩
    simp
  have sees : ∀ reader : ByteReader,
      reader.Between source (bytewise front) (bytewise rest) →
        (decodeText? (reader.bytes.extract (bytewise first).length
          (bytewise (first ++ text)).length)).getD "" = String.ofList text := by
    intro reader between
    rw [between.bytes_eq, decodeText?_extract whole]
    rfl
  have cuts : Ends
      (Between source (bytewise front) (bytewise rest))
      (cut (bytewise first).length (bytewise (first ++ text)).length)
      (.ok (String.ofList text))
      (Between source (bytewise front) (bytewise rest)) :=
    .bind (ends_step isSound) (.inspect sees)
  exact cuts.stands_still reader stands

theorem ends_cutFrom_stands :
    Ends (Stands source (front ++ text) rest)
      (cutFrom (bytewise front).length) (.ok (String.ofList text))
      (Stands source (front ++ text) rest) :=
  .bind ends_offset.stands_still
    (ends_cut_stands (List.append_assoc front text rest))

/-! ### Strings, booleans, numbers and words -/

variable {start : Position}

theorem ends_readString_of_some {body : List Char}
    (split : splitString? text = some (body, rest)) :
    Ends (Stands source front ('"' :: text)) (readString start)
      (.ok ()) (Stands source (front ++ '"' :: body) rest) := by
  have parts := splitString?_append split
  refine Ends.stands ?_ (congrArg (List.cons '"') parts)
  have splits := splitString?_bytewise text
  rw [split] at splits
  rw [bytewise_cons_of_ascii (by decide), bytewise_cons_of_ascii (by decide),
    List.append_cons]
  exact .bind ends_advance (ends_string_of_some splits)

theorem ends_readString_of_none (split : splitString? text = none) :
    Ends (Stands source front ('"' :: text)) (readString start)
      (.error (.located .unterminatedString start))
      (Sound source) := by
  have splits := splitString?_bytewise text
  rw [split] at splits
  have opens : '"'.toNat < 128 := by decide
  exact .bind (ends_advance_stands opens) fun reader stands =>
    ends_string_of_none splits reader stands.toBetween

theorem ends_readHash_of_known {letter : Char}
    (isLetter : letter = 't' ∨ letter = 'f')
    (ends : startsWith isNameCharacter rest = false) :
    Ends (Stands source front ('#' :: letter :: rest))
      (readHash start) (.ok .boolean)
      (Stands source (front ++ ['#', letter]) rest) := by
  have hash : '#'.toNat < 128 := by decide
  have ascii : letter.toNat < 128 := by
    rcases isLetter with rfl | rfl <;> decide
  have known : ((letter = 't' || letter = 'f') &&
      !isNameCharacter ((bytewise rest).getD 0 '\x00')) = true := by
    rw [property_head_bytewise rfl isNameCharacter_of_wide, ends]
    simpa using isLetter
  rw [List.append_cons]
  refine .bind (ends_peek_stands 1) (.bind (ends_peek_stands 2) ?_)
  rw [bytewise_cons_of_ascii hash, bytewise_cons_of_ascii ascii]
  simp only [List.getD_cons_succ, List.getD_cons_zero]
  rw [if_pos known]
  exact .bind (ends_advance_stands hash)
    (.bind (ends_advance_stands ascii) (.pure _))

theorem ends_readHash_of_unknown
    (unknown : ∀ letter rest, text = letter :: rest →
      letter = 't' ∨ letter = 'f' → startsWith isNameCharacter rest = true) :
    Ends (Stands source front ('#' :: text)) (readHash start)
      (.error (.located .unknownHash start)) (Sound source) := by
  have hash : '#'.toNat < 128 := by decide
  refine .bind (ends_peek_stands 1) (.bind (ends_peek_stands 2) ?_)
  rw [bytewise_cons_of_ascii hash]
  simp only [List.getD_cons_succ]
  rw [if_neg]
  · exact (Ends.refuse _).imp fun _ stands => stands.toSound
  · intro known
    simp only [Bool.and_eq_true, Bool.or_eq_true, decide_eq_true_eq,
      Bool.not_eq_true'] at known
    rcases known with ⟨next, ends⟩
    obtain ⟨letter, rest, isLetter, ascii, rfl⟩ : ∃ letter rest,
        (letter = 't' ∨ letter = 'f') ∧ letter.toNat < 128 ∧
          text = letter :: rest := by
      simp only [head_bytewise_eq_iff 't' (by decide) (by decide),
        head_bytewise_eq_iff 'f' (by decide) (by decide)] at next
      rcases next with ⟨rest, rfl⟩ | ⟨rest, rfl⟩
      · exact ⟨'t', rest, .inl rfl, by decide, rfl⟩
      · exact ⟨'f', rest, .inr rfl, by decide, rfl⟩
    rw [bytewise_cons_of_ascii ascii, List.getD_cons_succ,
      property_head_bytewise rfl isNameCharacter_of_wide,
      unknown letter rest rfl isLetter] at ends
    contradiction

theorem ends_startsNumber_stands :
    Ends (Stands source front rest) startsNumber
      (.ok (ScopedLisp.startsNumber rest))
      (Stands source front rest) := by
  rw [← startsNumber_bytewise]
  exact ends_startsNumber.stands_still

theorem ends_readNumber_of_end
    (ends : startsWith isNameStart (splitNumber text).2 = false) :
    Ends (Stands source front text)
      (readNumber (bytewise front).length start) (.ok .number)
      (Stands source (front ++ (splitNumber text).1)
        (splitNumber text).2) := by
  refine .bind ends_skipNumber_stands (.bind (ends_peek_stands 0) ?_)
  rw [property_head_bytewise rfl isNameStart_of_wide, ends]
  exact .pure _

theorem ends_readNumber_of_name
    (glued : startsWith isNameStart (splitNumber text).2 = true) :
    Ends (Stands source front text)
      (readNumber (bytewise front).length start)
      (.error (.located (.malformedNumber (String.ofList
        ((splitNumber text).1 ++
          (splitNumber text).2.takeWhile isNameCharacter))) start))
      (Sound source) := by
  refine .bind ends_skipNumber_stands (.bind (ends_peek_stands 0) ?_)
  rw [property_head_bytewise rfl isNameStart_of_wide, glued]
  have skips := @ends_skipName_stands source (front ++ (splitNumber text).1)
    (splitNumber text).2
  rw [List.append_assoc] at skips
  refine .bind skips (.bind ends_cutFrom_stands ?_)
  exact (Ends.bind_refused (.refuse _) _).imp fun _ stands => stands.toSound

theorem ends_readPlain_of_number
    (starts : ScopedLisp.startsNumber text = true)
    {result : Except Error TokenKind} {behind : ByteReader → Prop}
    (ends : Ends (Stands source front text)
      (readNumber (bytewise front).length start) result behind) :
    Ends (Stands source front text)
      (readPlain (bytewise front).length start) result behind := by
  refine .bind ends_startsNumber_stands ?_
  rw [if_pos starts]
  exact ends

theorem ends_readPlain_of_word {first : Char}
    (notNumber : ScopedLisp.startsNumber (first :: text) = false)
    (starts : isNameStart first = true) :
    Ends (Stands source front (first :: text))
      (readPlain (bytewise front).length start)
      (.ok (readWord (first :: text)).kind)
      (Stands source (front ++ (readWord (first :: text)).text)
        (readWord (first :: text)).rest) := by
  refine .bind ends_startsNumber_stands ?_
  rw [notNumber]
  refine .bind (ends_peek_stands 0) ?_
  rw [property_head_bytewise rfl isNameStart_of_wide, startsWith, starts]
  exact .bind ends_skipName_stands (.bind ends_cutFrom_stands (.pure _))

theorem ends_readPlain_of_character {first : Char}
    (notNumber : ScopedLisp.startsNumber (first :: text) = false)
    (notName : isNameStart first = false) :
    Ends (Stands source front (first :: text))
      (readPlain (bytewise front).length start)
      (.error (.located (.unexpectedCharacter first) start))
      (Sound source) := by
  refine .bind ends_startsNumber_stands ?_
  rw [notNumber]
  refine .bind (ends_peek_stands 0) ?_
  rw [property_head_bytewise rfl isNameStart_of_wide, startsWith, notName]
  have length : ∀ reader : ByteReader,
      reader.Stands source front (first :: text) →
        reader.bytes.length = (bytewise (front ++ first :: text)).length := by
    intro reader stands
    rw [stands.length_bytes, bytewise_append, List.length_append]
  have toEnd : front ++ first :: text = front ++ (first :: text ++ []) := by
    rw [List.append_nil]
  refine .bind (.inspect length) (.bind (ends_cut_stands toEnd) ?_)
  rw [String.toList_ofList]
  exact (Ends.refuse _).imp fun _ stands => stands.toSound

theorem plain_of_isNameCharacter {first : Char}
    (inName : isNameCharacter first = true) :
    first ∉ ['(', ')', '"', '#'] := by
  simp only [List.mem_cons, List.not_mem_nil, or_false]
  rintro (rfl | rfl | rfl | rfl) <;> contradiction

/-- What starts with no sign of its own is a number, a word, or nothing. -/
theorem ends_readKind_of_plain {first : Char}
    (plain : first ∉ ['(', ')', '"', '#'])
    {result : Except Error TokenKind} {behind : ByteReader → Prop}
    (ends : Ends (Stands source front (first :: text))
      (readPlain (bytewise front).length start) result behind) :
    Ends (Stands source front (first :: text))
      (readKind (bytewise front).length start) result behind := by
  refine .bind (ends_peek_stands 0) ?_
  have ascii : ∀ sign ∈ ['(', ')', '"', '#'],
      sign.toNat < 128 ∧ sign ≠ '\x00' := by
    simp
  have notHere : ∀ sign ∈ ['(', ')', '"', '#'],
      (bytewise (first :: text)).getD 0 '\x00' ≠ sign := by
    intro sign member same
    rcases (head_bytewise_eq_iff sign (ascii sign member).1
      (ascii sign member).2).mp same with ⟨rest, isSign⟩
    rw [(List.cons.inj isSign).1] at plain
    exact plain member
  rw [if_neg (notHere _ (by simp)), if_neg (notHere _ (by simp)),
    if_neg (notHere _ (by simp)), if_neg (notHere _ (by simp))]
  exact ends

/-- A token is taken whole, and the reader stands behind it. -/
theorem ends_readKind_of_cutsOff {first : Char} {piece : Piece}
    (cuts : CutsOff first text piece) :
    Ends (Stands source front (first :: text))
      (readKind (bytewise front).length start) (.ok piece.kind)
      (Stands source (front ++ piece.text) piece.rest) := by
  cases cuts with
  | opening =>
      exact .bind (ends_peek_of_ascii (by decide))
        (.bind (ends_advance_stands (by decide)) (.pure _))
  | closing =>
      exact .bind (ends_peek_of_ascii (by decide))
        (.bind (ends_advance_stands (by decide)) (.pure _))
  | string split =>
      exact .bind (ends_peek_of_ascii (by decide))
        (.bind (ends_readString_of_some split) (.pure _))
  | hash isLetter ends =>
      exact .bind (ends_peek_of_ascii (by decide))
        (ends_readHash_of_known isLetter ends)
  | number starts ends =>
      exact ends_readKind_of_plain
        (plain_of_isNameCharacter (isNameCharacter_of_startsNumber starts))
        (ends_readPlain_of_number starts (ends_readNumber_of_end ends))
  | word notNumber starts =>
      have inName : isNameCharacter first = true := by
        simp [isNameCharacter, starts]
      exact ends_readKind_of_plain (plain_of_isNameCharacter inName)
        (ends_readPlain_of_word notNumber starts)

/-- Where there is no token, the reader refuses the source for the same cause. -/
theorem ends_readKind_of_unreadable {first : Char} {cause : Cause}
    (unreadable : Unreadable first text cause) :
    Ends (Stands source front (first :: text))
      (readKind (bytewise front).length start)
      (.error (.located cause start)) (Sound source) := by
  cases unreadable with
  | string unclosed =>
      exact .bind (ends_peek_of_ascii (by decide))
        (.bind_refused (ends_readString_of_none unclosed) _)
  | hash unknown =>
      exact .bind (ends_peek_of_ascii (by decide))
        (ends_readHash_of_unknown unknown)
  | number starts glued =>
      exact ends_readKind_of_plain
        (plain_of_isNameCharacter (isNameCharacter_of_startsNumber starts))
        (ends_readPlain_of_number starts (ends_readNumber_of_name glued))
  | character notReserved notNumber notName =>
      exact ends_readKind_of_plain notReserved
        (ends_readPlain_of_character notNumber notName)

/-! ### The tokens of a source -/

variable {position : Position}
  (here : Position.start.advance front = position)

include here in
theorem ends_position :
    Ends (Stands source front rest) (inspect ByteReader.position)
      (.ok position) (Stands source front rest) :=
  .inspect fun _ stands => stands.position_eq_advance.trans here

include here in
theorem ends_readToken_of_cutsOff {first : Char} {piece : Piece}
    (cuts : CutsOff first text piece) :
    Ends (Stands source front (first :: text)) readToken
      (.ok ⟨⟨piece.kind, String.ofList piece.text⟩, position⟩)
      (Stands source (front ++ piece.text) piece.rest) :=
  .bind ends_offset.stands_still
    (.bind (ends_position here)
      (.bind (ends_readKind_of_cutsOff cuts)
        (.bind ends_cutFrom_stands (.pure _))))

include here in
theorem ends_readToken_of_unreadable {first : Char} {cause : Cause}
    (unreadable : Unreadable first text cause) :
    Ends (Stands source front (first :: text)) readToken
      (.error (.located cause position)) (Sound source) :=
  .bind ends_offset.stands_still
    (.bind (ends_position here)
      (.bind_refused (ends_readKind_of_unreadable unreadable) _))

variable {depth next : Nat} {token : Token} {tokens : List Token}

/-- Only an open parenthesis is closed, so the count never falls below zero. -/
theorem ends_count_of_some
    (counted : depthAfter depth token.kind = some next) :
    Ends (Stands source front rest) (count depth token) (.ok next)
      (Stands source front rest) := by
  unfold count
  cases kind : token.kind with
  | closeParen =>
      rw [kind, depthAfter] at counted
      split at counted
      · contradiction
      · rename_i someOpen
        cases counted
        have isSound : (ByteStep.close depth).IsSound source :=
          Nat.pos_of_ne_zero someOpen
        simp only [if_neg someOpen]
        exact .bind (ends_step isSound).stands_still (.pure _)
  | openParen | nil | number | string | boolean | identifier =>
      rw [kind] at counted
      cases counted
      exact .pure _

theorem ends_count_of_none (counted : depthAfter depth token.kind = none) :
    Ends (Stands source front rest) (count depth token)
      (.error (.located .unmatchedClose token.position))
      (Sound source) := by
  rcases Cursor.depthAfter_eq_none counted with ⟨closes, rfl⟩
  unfold count
  rw [closes]
  exact (Ends.bind_refused (.refuse _) _).imp fun _ stands => stands.toSound

theorem ends_readNext_of_nil (noMore : (splitTrivia rest).2 = []) :
    Ends (Stands source front rest) (readNext (depth, tokens))
      (.ok none)
      (Stands source (front ++ (splitTrivia rest).1) []) := by
  have skips := @ends_skipTrivia_stands source front rest
  rw [noMore] at skips
  exact .bind skips (.bind ends_isAtEnd.stands_still (.pure _))

/-- Behind trivia the next token is read and counted in. -/
theorem ends_readNext_of_cons {first : Char}
    (more : (splitTrivia rest).2 = first :: text)
    {result : Except Error (Option (Nat × List Token))}
    {behind : ByteReader → Prop}
    (ends : Ends
      (Stands source (front ++ (splitTrivia rest).1) (first :: text))
      (do let token ← readToken
          return some (← count depth token, tokens ++ [token]))
      result behind) :
    Ends (Stands source front rest) (readNext (depth, tokens))
      result behind := by
  have skips := @ends_skipTrivia_stands source front rest
  rw [more] at skips
  have notAtEnd : (bytewise (first :: text)).isEmpty = false := by
    rw [List.isEmpty_eq_false_iff, ne_eq, bytewise_eq_nil_iff]
    exact List.cons_ne_nil first text
  refine .bind skips (.bind ends_isAtEnd.stands_still ?_)
  rw [notAtEnd]
  exact ends

include here in
theorem ends_checkClosed_of_ne_zero (someOpen : depth ≠ 0) :
    Ends (Stands source front rest) (checkClosed (depth, tokens))
      (.error (.located (.unclosed depth) position)) (Sound source) := by
  have refuses : Ends (Stands source front rest)
      (checkClosed (depth, tokens))
      (.error (.located (.unclosed depth) position))
      (Stands source front rest) := by
    unfold checkClosed
    simp only [if_pos someOpen]
    exact .bind (ends_position here) (.bind_refused (.refuse _) _)
  exact refuses.imp fun _ stands => stands.toSound

theorem left_lt_stands (someTaken : taken ≠ []) (reader further : ByteReader)
    (stands : reader.Stands source front rest)
    (stands' : further.Stands source (front ++ taken) left) :
    further.left < reader.left := by
  have whole : rest = taken ++ left := by
    have same := stands.text_eq.symm.trans stands'.text_eq
    rw [List.append_assoc] at same
    exact List.append_cancel_left same
  have positive : 0 < (bytewise taken).length :=
    List.length_pos_iff.mpr fun empty =>
      someTaken (bytewise_eq_nil_iff.mp empty)
  rw [stands.left_eq, stands'.left_eq, whole, bytewise_append,
    List.length_append]
  omega

theorem map_cons_map_append {α β : Type} (result : Except α (List β))
    (first : β) (front : List β) :
    (result.map (first :: ·)).map (front ++ ·) =
      result.map (front ++ [first] ++ ·) := by
  cases result with
  | error error => rfl
  | ok behind => simp [Except.map]

include here in
theorem advance_splitTrivia (rest : List Char) :
    Position.start.advance (front ++ (splitTrivia rest).1) =
      position.advance (splitTrivia rest).1 := by
  rw [Position.advance_append, here]

include here in
/-- The tokens from a place on are those that are read character by character. -/
theorem ends_readNext_tokens (depth : Nat) (tokens : List Token) :
    Ends (Stands source front rest)
      (loop readNext (depth, tokens) >>= checkClosed)
      ((tokenizeFrom position depth rest).map (tokens ++ ·))
      (Sound source) := by
  fun_induction tokenizeFrom position depth rest generalizing front tokens with
  | case1 position rest noMore =>
      have closes : Ends (Stands source (front ++ (splitTrivia rest).1) [])
          (checkClosed (0, tokens)) (.ok tokens)
          (Stands source (front ++ (splitTrivia rest).1) []) :=
        .pure _
      rw [Except.map, List.append_nil]
      exact .bind (.loop_end (ends_readNext_of_nil noMore))
        (closes.imp fun _ stands => stands.toSound)
  | case2 position depth rest place noMore =>
      rename_i someOpen
      have there := advance_splitTrivia here rest
      exact .bind (.loop_end (ends_readNext_of_nil noMore))
        (ends_checkClosed_of_ne_zero there someOpen)
  | case3 position depth rest place first text more cause =>
      rename_i refused
      have there := advance_splitTrivia here rest
      have stops := unreadable_of_readLexeme refused
      exact .bind_refused (.loop_refused (ends_readNext_of_cons more
        (.bind_refused (ends_readToken_of_unreadable there stops) _))) _
  | case4 position depth rest place first text more piece read =>
      rename_i closes
      have there := advance_splitTrivia here rest
      have cuts := readLexeme_cutsOff read
      exact .bind_refused (.loop_refused (ends_readNext_of_cons more
        (.bind (ends_readToken_of_cutsOff there cuts)
          (.bind_refused (ends_count_of_none closes) _)))) _
  | case5 position depth rest place first text more piece read next counted =>
      rename_i token ih
      have there := advance_splitTrivia here rest
      have behindToken : Position.start.advance
          (front ++ ((splitTrivia rest).1 ++ piece.text)) =
            place.advance piece.text := by
        rw [← List.append_assoc, Position.advance_append, there]
      have cuts := readLexeme_cutsOff read
      have goesOn : Ends (Stands source front rest)
          (readNext (depth, tokens)) (.ok (some (next, tokens ++ [token])))
          (Stands source
            (front ++ (splitTrivia rest).1 ++ piece.text) piece.rest) :=
        ends_readNext_of_cons more
          (.bind (ends_readToken_of_cutsOff there cuts)
            (.bind (ends_count_of_some counted) (.pure _)))
      have someTaken : (splitTrivia rest).1 ++ piece.text ≠ [] :=
        List.append_ne_nil_of_right_ne_nil _ (readLexeme_text_ne_nil read)
      rw [List.append_assoc] at goesOn
      rw [map_cons_map_append]
      exact .loop_again_bind goesOn (left_lt_stands someTaken)
        (ih behindToken (tokens ++ [token]))

end Characters

end ByteRun

/-- In front of a source no byte has been taken. -/
theorem ByteReader.stands_start (source : String) :
    (ByteReader.start source).Stands source [] source.toList where
  source_eq := rfl
  steps_sound := by
    intro step member
    obtain rfl := List.mem_singleton.mp member
    exact Nat.zero_le _
  steps_taken := nofun
  parts := rfl
  offset_eq := rfl
  position_eq := rfl
  text_eq := rfl

/--
Reading a source byte by byte gives the tokens, or the error, of reading it
character by character, so the reader neither breaks off nor goes on for ever.
On the way it stands at no offset behind the end, looks at no byte and takes no
byte that is not there, cuts out no text that starts or ends inside a character
and closes no parenthesis that is not open; and it takes every byte that it has
left behind.
-/
theorem bytes_are_read_within_characters (source : String) :
    ∃ reader : ByteReader,
      tokenizeBytes source = .ended (tokenize source) reader ∧
        reader.source = source ∧
        (∀ step ∈ reader.steps, step.IsSound source) ∧
        ∀ offset < reader.offset, .take offset ∈ reader.steps := by
  rcases ByteRun.ends_readNext_tokens rfl 0 [] (.start source)
    (ByteReader.stands_start source) with ⟨reader, ran, sound⟩
  have same : (tokenizeFrom (Position.start.advance []) 0 source.toList).map
      ([] ++ ·) = tokenize source := by
    rw [tokenize, Position.advance_nil]
    cases tokenizeFrom .start 0 source.toList <;> rfl
  rw [same] at ran
  exact ⟨reader, ran, sound.source_eq, sound.steps_sound, sound.steps_taken⟩

/-- A character of two bytes behind a backslash, and once more where no token can start. -/
theorem bytes_are_read_within_characters_two_bytes :
    ∃ reader : ByteReader,
      tokenizeBytes "\"\\\u00fc\" \u00fc" =
          .refused (.located (.unexpectedCharacter '\u00fc') ⟨1, 6⟩) reader ∧
        ∀ step ∈ reader.steps, step.IsSound "\"\\\u00fc\" \u00fc" := by
  rcases bytes_are_read_within_characters "\"\\\u00fc\" \u00fc" with
    ⟨reader, ran, -, sound, -⟩
  have refused : tokenize "\"\\\u00fc\" \u00fc" =
      .error (.located (.unexpectedCharacter '\u00fc') ⟨1, 6⟩) := by
    cbv
  rw [refused] at ran
  exact ⟨reader, ran, sound⟩

end ScopedLisp
