import ScopedLisp.Proofs.BytewiseText

/-!
# Runs of readers of bytes

`ByteRun.Ends` says how a run ends: with a value or an error, and in a reader
of a given sort.  A run that breaks off at a step that is not sound, or that
goes round a loop for ever, ends in neither way, so what `Ends` says of a run
includes that it does not.  The rules follow the parts that runs are made of:
one behind the other, and round after round.

From these rules each reader of bytes ends where a splitting of the bytes ahead
says: `ends_skipTrivia`, `ends_skipNumber`, `ends_string_of_some`.  This module
knows nothing of characters that take several bytes.
-/

namespace ScopedLisp

/-! ## How far a reader has read -/

namespace ByteReader

/-- A reader of a source, all of whose steps were sound and none of whose bytes were skipped. -/
structure Sound (source : String) (reader : ByteReader) : Prop where
  source_eq : reader.source = source
  steps_sound : ∀ step ∈ reader.steps, step.IsSound source
  steps_taken : ∀ offset < reader.offset, .take offset ∈ reader.steps

/-- The reader stands between two parts of the bytes of its source. -/
structure Between (source : String) (front ahead : List Char)
    (reader : ByteReader) : Prop extends Sound source reader where
  parts : bytewise source.toList = front ++ ahead
  offset_eq : reader.offset = front.length
  position_eq : reader.position =
    ((encodeText source).take front.length).foldl Position.nextByte .start

namespace Between

variable {source : String} {front ahead : List Char} {reader : ByteReader}
  (between : reader.Between source front ahead)
include between

theorem bytes_eq : reader.bytes = encodeText source :=
  congrArg encodeText between.source_eq

theorem map_bytes : reader.bytes.map Char.ofUInt8 = front ++ ahead := by
  rw [between.bytes_eq, map_encodeText, between.parts]

theorem length_bytes : reader.bytes.length = front.length + ahead.length := by
  rw [← List.length_map, between.map_bytes, List.length_append]

theorem utf8ByteSize_eq :
    source.utf8ByteSize = front.length + ahead.length := by
  rw [← between.length_bytes, between.bytes_eq]
  rfl

theorem left_eq : reader.left = ahead.length := by
  rw [left, between.length_bytes, between.offset_eq]
  omega

theorem isAtEnd_eq : reader.isAtEnd = ahead.isEmpty := by
  rw [isAtEnd, between.length_bytes, between.offset_eq]
  cases ahead <;> simp

theorem byteAt_eq (count : Nat) :
    Char.ofUInt8 (reader.byteAt (front.length + count)) =
      ahead.getD count '\x00' := by
  have here : (reader.bytes.map Char.ofUInt8)[front.length + count]? =
      ahead[count]? := by
    rw [between.map_bytes, List.getElem?_append_right (Nat.le_add_right _ _),
      Nat.add_sub_cancel_left]
  rw [List.getElem?_map] at here
  rw [byteAt, List.getD_eq_getElem?_getD, List.getD_eq_getElem?_getD, ← here]
  cases reader.bytes[front.length + count]? <;> rfl

end Between

end ByteReader

/-! ## How runs end -/

/-- A run that has given a value or refused the source. -/
def ByteOutcome.ended {α : Type} (result : Except Error α)
    (reader : ByteReader) : ByteOutcome α :=
  match result with
  | .ok value => .done value reader
  | .error error => .refused error reader

namespace ByteRun

open ByteReader (Between Sound)

variable {α β σ : Type} {before middle behind : ByteReader → Prop}

/-- From readers of one sort a run ends with a result, and in a reader of another sort. -/
def Ends (before : ByteReader → Prop) (run : ByteRun α)
    (result : Except Error α) (behind : ByteReader → Prop) : Prop :=
  ∀ reader, before reader →
    ∃ last, run reader = .ended result last ∧ behind last

namespace Ends

/-- What holds of all readers that a run may start from can be used. -/
theorem given {run : ByteRun α} {result : Except Error α}
    (ends : ∀ reader, before reader → Ends before run result behind) :
    Ends before run result behind :=
  fun reader holds => ends reader holds reader holds

theorem imp {run : ByteRun α} {result : Except Error α}
    {later : ByteReader → Prop} (ends : Ends before run result behind)
    (weaker : ∀ reader, behind reader → later reader) :
    Ends before run result later := by
  intro reader holds
  rcases ends reader holds with ⟨last, ran, held⟩
  exact ⟨last, ran, weaker last held⟩

theorem pure (value : α) : Ends before (pure value) (.ok value) before :=
  fun reader holds => ⟨reader, rfl, holds⟩

theorem refuse (error : Error) :
    Ends (α := α) before (refuse error) (.error error) before :=
  fun reader holds => ⟨reader, rfl, holds⟩

theorem inspect {view : ByteReader → α} {value : α}
    (sees : ∀ reader, before reader → view reader = value) :
    Ends before (inspect view) (.ok value) before :=
  fun reader holds => ⟨reader, by rw [← sees reader holds]; rfl, holds⟩

theorem bind {first : ByteRun α} {value : α} {second : α → ByteRun β}
    {result : Except Error β} (done : Ends before first (.ok value) middle)
    (ends : Ends middle (second value) result behind) :
    Ends before (first >>= second) result behind := by
  intro reader holds
  rcases done reader holds with ⟨next, ran, held⟩
  rcases ends next held with ⟨last, ran', held'⟩
  refine ⟨last, ?_, held'⟩
  rw [← ran']
  change ByteRun.bind first second reader = second value next
  rw [ByteRun.bind, ran, ByteOutcome.ended]

theorem bind_refused {first : ByteRun α} {error : Error}
    (refused : Ends before first (.error error) behind)
    (second : α → ByteRun β) :
    Ends before (first >>= second) (.error error) behind := by
  intro reader holds
  rcases refused reader holds with ⟨last, ran, held⟩
  refine ⟨last, ?_, held⟩
  change ByteRun.bind first second reader = _
  rw [ByteRun.bind, ran]
  rfl

end Ends

/-! ### Loops -/

section Loop

variable {round : σ → ByteRun (Option σ)} {state next : σ}

theorem Ends.loop_end (last : Ends before (round state) (.ok none) behind) :
    Ends before (loop round state) (.ok state) behind := by
  intro reader holds
  rcases last reader holds with ⟨final, ran, held⟩
  refine ⟨final, ?_, held⟩
  rw [loop, ran]
  rfl

theorem Ends.loop_refused {error : Error}
    (last : Ends before (round state) (.error error) behind) :
    Ends before (loop round state) (.error error) behind := by
  intro reader holds
  rcases last reader holds with ⟨final, ran, held⟩
  refine ⟨final, ?_, held⟩
  rw [loop, ran]
  rfl

section Again

variable (again : Ends before (round state) (.ok (some next)) middle)
  (fewer : ∀ reader further, before reader → middle further →
    further.left < reader.left)
include again fewer

/-- Behind a round that takes a byte, a loop goes on as if it began there. -/
theorem exists_loop_again {reader : ByteReader} (holds : before reader) :
    ∃ further, middle further ∧
      loop round state reader = loop round next further := by
  rcases again reader holds with ⟨further, ran, held⟩
  refine ⟨further, held, ?_⟩
  rw [loop, ran, ByteOutcome.ended]
  exact if_pos (fewer reader further holds held)

theorem Ends.loop_again {result : Except Error σ}
    (ends : Ends middle (loop round next) result behind) :
    Ends before (loop round state) result behind := by
  intro reader holds
  rcases exists_loop_again again fewer holds with ⟨further, held, same⟩
  rw [same]
  exact ends further held

theorem Ends.loop_again_bind {second : σ → ByteRun β} {result : Except Error β}
    (ends : Ends middle (loop round next >>= second) result behind) :
    Ends before (loop round state >>= second) result behind := by
  intro reader holds
  rcases exists_loop_again again fewer holds with ⟨further, held, same⟩
  have goesOn : (loop round state >>= second) reader =
      (loop round next >>= second) further := by
    change ByteRun.bind _ second reader = ByteRun.bind _ second further
    unfold ByteRun.bind
    rw [same]
  rw [goesOn]
  exact ends further held

end Again

end Loop

/-! ## Steps of a reader -/

section Between

variable {source : String} {front ahead : List Char}

theorem left_lt {front' ahead' : List Char}
    (shorter : ahead'.length < ahead.length) (reader further : ByteReader)
    (between : reader.Between source front ahead)
    (between' : further.Between source front' ahead') :
    further.left < reader.left := by
  rw [between.left_eq, between'.left_eq]
  exact shorter

theorem ends_isAtEnd :
    Ends (Between source front ahead) (inspect ByteReader.isAtEnd)
      (.ok ahead.isEmpty) (Between source front ahead) :=
  .inspect fun _ between => between.isAtEnd_eq

theorem ends_offset :
    Ends (Between source front ahead) (inspect ByteReader.offset)
      (.ok front.length) (Between source front ahead) :=
  .inspect fun _ between => between.offset_eq

/-- A sound step is added to those before it, and changes nothing else. -/
theorem ends_step_mem {step : ByteStep} (isSound : step.IsSound source) :
    Ends (Between source front ahead) (ByteRun.step step) (.ok ())
      fun reader => reader.Between source front ahead ∧ step ∈ reader.steps := by
  intro reader between
  have soundHere : step.IsSound reader.source := by
    rwa [between.source_eq]
  refine ⟨_, if_pos soundHere, ?_, List.mem_cons_self⟩
  exact { between with
    steps_sound := List.forall_mem_cons.mpr ⟨isSound, between.steps_sound⟩
    steps_taken := fun offset passed =>
      List.mem_cons_of_mem _ (between.steps_taken offset passed) }

theorem ends_step {step : ByteStep} (isSound : step.IsSound source) :
    Ends (Between source front ahead) (ByteRun.step step) (.ok ())
      (Between source front ahead) :=
  (ends_step_mem isSound).imp fun _ kept => kept.1

/-- To look ahead is sound; behind the end there is nothing to look at. -/
theorem ends_peek (count : Nat) :
    Ends (Between source front ahead) (peek count)
      (.ok (ahead.getD count '\x00')) (Between source front ahead) := by
  refine .given fun reader between => ?_
  refine .bind (.inspect fun _ there => congrArg (· + count) there.offset_eq)
    (.bind (.inspect fun _ there => there.length_bytes) ?_)
  by_cases inside : count < ahead.length
  · have looks : (ByteStep.look (front.length + count)).IsSound source := by
      change front.length + count < source.utf8ByteSize
      rw [between.utf8ByteSize_eq]
      omega
    rw [if_neg (by omega)]
    exact .bind (ends_step looks)
      (.inspect fun _ there => there.byteAt_eq count)
  · rw [if_pos (by omega), List.getD_eq_default _ _ (Nat.not_lt.mp inside)]
    exact .pure _

/-- A reader that has taken the next byte moves behind it. -/
theorem ends_move {next : Char} {byte : UInt8}
    (here : (encodeText source)[front.length]? = some byte) :
    Ends
      (fun reader => reader.Between source front (next :: ahead) ∧
        .take front.length ∈ reader.steps)
      (move (front.length + 1)
        ((((encodeText source).take front.length).foldl Position.nextByte
          .start).nextByte byte))
      (.ok ()) (Between source (front ++ [next]) ahead) := by
  rintro reader ⟨between, taken⟩
  refine ⟨_, rfl, ?_⟩
  exact {
    source_eq := between.source_eq
    steps_sound := between.steps_sound
    steps_taken := fun offset passed => by
      rcases Nat.lt_succ_iff_lt_or_eq.mp passed with earlier | rfl
      · exact between.steps_taken offset (by rwa [between.offset_eq])
      · exact taken
    parts := by simp [between.parts]
    offset_eq := by simp
    position_eq := by simp [List.take_add_one, here] }

/-- A byte that is there is taken, and the reader stands behind it. -/
theorem ends_advance {next : Char} :
    Ends (Between source front (next :: ahead)) advance (.ok next)
      (Between source (front ++ [next]) ahead) := by
  refine .given fun reader between => ?_
  have size := between.utf8ByteSize_eq
  rw [List.length_cons] at size
  have takes : (ByteStep.take front.length).IsSound source := by
    change front.length < source.utf8ByteSize
    omega
  have stands : (ByteStep.stand (front.length + 1)).IsSound source := by
    change front.length + 1 ≤ source.utf8ByteSize
    omega
  obtain ⟨byte, here⟩ : ∃ byte,
      (encodeText source)[front.length]? = some byte :=
    ⟨_, List.getElem?_eq_getElem takes⟩
  have sees : ∀ reader : ByteReader,
      reader.Between source front (next :: ahead) →
        reader.byteAt front.length = byte := by
    intro reader between
    rw [ByteReader.byteAt, between.bytes_eq, List.getD_eq_getElem?_getD, here]
    rfl
  have isNext : Char.ofUInt8 byte = next := by
    rw [← sees reader between]
    exact between.byteAt_eq 0
  refine .bind ends_offset (.bind (ends_step_mem takes) ?_)
  refine .bind (.inspect fun _ there => sees _ there.1) ?_
  refine .bind (.inspect fun _ there => there.1.position_eq) ?_
  rw [isNext]
  exact .bind (ends_move here) (.bind (ends_step stands) (.pure _))

end Between

/-! ## Readers, byte by byte -/

section Readers

variable {source : String}

/-- What passes a test is taken, and no byte more. -/
theorem ends_skipWhile (property : Char → Bool) (front ahead : List Char) :
    Ends (Between source front ahead) (skipWhile property) (.ok ())
      (Between source (front ++ ahead.takeWhile property)
        (ahead.dropWhile property)) := by
  induction ahead generalizing front with
  | nil =>
      rw [List.takeWhile_nil, List.append_nil]
      exact .loop_end (.bind ends_isAtEnd (.pure _))
  | cons next ahead ih =>
      by_cases holds : property next = true
      · rw [List.takeWhile_cons_of_pos holds, List.dropWhile_cons_of_pos holds,
          List.append_cons]
        refine .loop_again ?_ (left_lt (Nat.lt_succ_self _)) (ih _)
        refine .bind ends_isAtEnd (.bind (ends_peek 0) ?_)
        rw [List.getD_cons_zero, if_pos holds]
        exact .bind ends_advance (.pure _)
      · rw [List.takeWhile_cons_of_neg holds, List.dropWhile_cons_of_neg holds,
          List.append_nil]
        refine .loop_end (.bind ends_isAtEnd (.bind (ends_peek 0) ?_))
        rw [List.getD_cons_zero, if_neg holds]
        exact .pure _

theorem ends_skipOptional {wanted : Char} (visible : wanted ≠ '\x00')
    (front ahead : List Char) :
    Ends (Between source front ahead) (skipOptional wanted) (.ok ())
      (Between source (front ++ (splitOptional wanted ahead).1)
        (splitOptional wanted ahead).2) := by
  refine .bind (ends_peek 0) ?_
  cases ahead with
  | nil =>
      rw [List.getD_nil, if_neg visible.symm, splitOptional, List.append_nil]
      exact .pure _
  | cons next ahead =>
      by_cases same : next = wanted
      · rw [List.getD_cons_zero, if_pos same, splitOptional, if_pos same]
        exact .bind ends_advance (.pure _)
      · rw [List.getD_cons_zero, if_neg same, splitOptional, if_neg same,
          List.append_nil]
        exact .pure _

theorem ends_skipPlaces (front ahead : List Char) :
    Ends (Between source front ahead) skipPlaces (.ok ())
      (Between source (front ++ (splitPlaces ahead).1)
        (splitPlaces ahead).2) := by
  refine .bind (ends_peek 0) ?_
  cases ahead with
  | nil =>
      have unchanged : splitPlaces [] = ([], []) := rfl
      rw [List.getD_nil, if_neg (by decide), unchanged, List.append_nil]
      exact .pure _
  | cons next ahead =>
      by_cases isPoint : next = '.'
      · subst isPoint
        rw [List.getD_cons_zero, if_pos rfl, splitPlaces, List.append_cons]
        exact .bind ends_advance (ends_skipWhile _ _ _)
      · have unchanged : splitPlaces (next :: ahead) = ([], next :: ahead) := by
          simp [splitPlaces, isPoint]
        rw [List.getD_cons_zero, if_neg isPoint, unchanged, List.append_nil]
        exact .pure _

theorem ends_skipNumber (front ahead : List Char) :
    Ends (Between source front ahead) skipNumber (.ok ())
      (Between source (front ++ (splitNumber ahead).1)
        (splitNumber ahead).2) := by
  simp only [splitNumber, ← List.append_assoc]
  exact .bind (ends_skipOptional (by decide) _ _)
    (.bind (ends_skipOptional (by decide) _ _)
      (.bind (ends_skipWhile _ _ _) (ends_skipPlaces _ _)))

/-! ### Trivia -/

section Trivia

variable {front ahead : List Char}

theorem ends_takeTrivia_blank {next : Char} (blank : isBlank next = true) :
    Ends (Between source front (next :: ahead)) takeTrivia (.ok (some ()))
      (Between source (front ++ [next]) ahead) := by
  refine .bind ends_isAtEnd (.bind (ends_peek 0) ?_)
  rw [List.getD_cons_zero, if_pos blank]
  exact .bind ends_advance (.pure _)

theorem ends_takeTrivia_comment :
    Ends (Between source front (';' :: ahead)) takeTrivia (.ok (some ()))
      (Between source (front ++ ';' :: ahead.takeWhile (· ≠ '\n'))
        (ahead.dropWhile (· ≠ '\n'))) := by
  have skips : Ends (Between source front (';' :: ahead))
      (skipWhile (· ≠ '\n')) (.ok ()) _ :=
    ends_skipWhile _ _ _
  rw [List.takeWhile_cons_of_pos (by decide),
    List.dropWhile_cons_of_pos (by decide)] at skips
  refine .bind ends_isAtEnd (.bind (ends_peek 0) ?_)
  rw [List.getD_cons_zero, if_neg (by decide), if_pos rfl]
  exact .bind skips (.pure _)

theorem ends_takeTrivia_of_neither {next : Char}
    (notBlank : ¬ isBlank next = true) (notComment : next ≠ ';') :
    Ends (Between source front (next :: ahead)) takeTrivia (.ok none)
      (Between source front (next :: ahead)) := by
  refine .bind ends_isAtEnd (.bind (ends_peek 0) ?_)
  rw [List.getD_cons_zero, if_neg notBlank, if_neg notComment]
  exact .pure _

/-- Trivia are taken up to the first byte of a token. -/
theorem ends_skipTrivia (front ahead : List Char) :
    Ends (Between source front ahead) skipTrivia (.ok ())
      (Between source (front ++ (splitTrivia ahead).1)
        (splitTrivia ahead).2) := by
  -- A comment is taken in one round, so the induction is on the bytes left.
  induction size : ahead.length using Nat.strongRecOn
    generalizing front ahead with
  | ind _ ih =>
      subst size
      cases ahead with
      | nil =>
          rw [splitTrivia, List.append_nil]
          exact .loop_end (.bind ends_isAtEnd (.pure _))
      | cons next ahead =>
          by_cases blank : isBlank next = true
          · rw [splitTrivia, if_pos blank, List.append_cons]
            exact .loop_again (ends_takeTrivia_blank blank)
              (left_lt (Nat.lt_succ_self _))
              (ih _ (Nat.lt_succ_self _) _ _ rfl)
          by_cases semicolon : next = ';'
          · subst semicolon
            have shorter : (ahead.dropWhile (· ≠ '\n')).length <
                (';' :: ahead).length :=
              Nat.lt_succ_of_le (List.dropWhile_sublist _).length_le
            rw [splitTrivia_comment, ← List.append_assoc]
            exact .loop_again ends_takeTrivia_comment (left_lt shorter)
              (ih _ shorter _ _ rfl)
          · rw [splitTrivia, if_neg blank, if_neg semicolon, List.append_nil]
            exact .loop_end (ends_takeTrivia_of_neither blank semicolon)

end Trivia

/-! ### Strings -/

section Strings

variable {start : Position} {front ahead body rest : List Char}

/-- A string goes on behind a character that neither closes it nor escapes another. -/
theorem ends_takeInString_plain {next : Char} (notQuote : next ≠ '"')
    (notPair : ∀ escaped rest, next = '\\' → ahead = escaped :: rest → False) :
    Ends (Between source front (next :: ahead))
      (takeInString start) (.ok (some ()))
      (Between source (front ++ [next]) ahead) := by
  refine .bind ends_isAtEnd (.bind ends_advance ?_)
  rw [if_neg notQuote]
  refine .bind ends_isAtEnd ?_
  have alone : (next = '\\' && !ahead.isEmpty) = false := by
    refine Bool.eq_false_iff.mpr fun isPair => ?_
    simp only [Bool.and_eq_true, decide_eq_true_eq] at isPair
    rw [eq_nil_of_unpaired notPair isPair.1] at isPair
    exact absurd isPair.2 (by decide)
  rw [alone]
  exact .pure _

theorem ends_takeInString_pair {escaped : Char} :
    Ends (Between source front ('\\' :: escaped :: ahead))
      (takeInString start) (.ok (some ()))
      (Between source (front ++ ['\\'] ++ [escaped]) ahead) := by
  refine .bind ends_isAtEnd (.bind ends_advance ?_)
  rw [if_neg (by decide)]
  exact .bind ends_isAtEnd (.bind ends_advance (.pure _))

/-- A string is taken up to the quote that closes it. -/
theorem ends_string_of_some (split : splitString? ahead = some (body, rest)) :
    Ends (Between source front ahead)
      (loop (fun _ => takeInString start) ()) (.ok ())
      (Between source (front ++ body) rest) := by
  fun_induction splitString? ahead generalizing front body rest with
  | case1 => contradiction
  | case2 text =>
      cases split
      refine .loop_end (.bind ends_isAtEnd (.bind ends_advance ?_))
      rw [if_pos rfl]
      exact .pure _
  | case3 escaped text ih =>
      rcases Option.map_eq_some_iff.mp split with ⟨⟨inner, after⟩, read, same⟩
      cases same
      rw [List.append_cons, List.append_cons (front ++ ['\\'])]
      exact .loop_again ends_takeInString_pair (left_lt (by simp +arith))
        (ih read)
  | case4 next text notQuote notPair ih =>
      rcases Option.map_eq_some_iff.mp split with ⟨⟨inner, after⟩, read, same⟩
      cases same
      rw [List.append_cons]
      exact .loop_again (ends_takeInString_plain notQuote notPair)
        (left_lt (Nat.lt_succ_self _)) (ih read)

/-- A string without such a quote is refused, wherever its last byte stands. -/
theorem ends_string_of_none (split : splitString? ahead = none) :
    Ends (Between source front ahead)
      (loop (fun _ => takeInString start) ())
      (.error (.located .unterminatedString start))
      (Sound source) := by
  fun_induction splitString? ahead generalizing front with
  | case1 =>
      exact .loop_refused (.bind ends_isAtEnd (.bind_refused
        ((Ends.refuse _).imp fun _ between => between.toSound) _))
  | case2 => contradiction
  | case3 escaped text ih =>
      exact .loop_again ends_takeInString_pair (left_lt (by simp +arith))
        (ih (Option.map_eq_none_iff.mp split))
  | case4 next text notQuote notPair ih =>
      exact .loop_again (ends_takeInString_plain notQuote notPair)
        (left_lt (Nat.lt_succ_self _)) (ih (Option.map_eq_none_iff.mp split))

end Strings

/-! ### What lies ahead -/

theorem ends_startsNumber {front ahead : List Char} :
    Ends (Between source front ahead) startsNumber
      (.ok (ScopedLisp.startsNumber ahead))
      (Between source front ahead) := by
  rw [startsNumber_eq_getD]
  exact .bind (ends_peek 0)
    (.bind (ends_peek 1) (.bind (ends_peek 2) (.pure _)))

end Readers

end ByteRun

end ScopedLisp
