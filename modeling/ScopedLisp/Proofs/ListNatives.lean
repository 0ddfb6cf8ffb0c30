import Mathlib
import ScopedLisp.Evaluation
import ScopedLisp.Proofs.NumberIndices

/-!
# The natives of lists

A call of one of the natives of lists has a value or is refused, whoever calls it
under whatever name, and it leaves the world as it was (`Primitive.Gives`,
`Primitive.Refuses`).  What `rest` leaves after some calls is the list without as
many items (`restsTo_iff`).  Seen through `rest` and `first` alone, a list is
therefore the sequence that `length` counts, `nth` looks into and `list` builds
(`list_natives_agree`).
-/

namespace ScopedLisp

namespace Primitive

/-! ## Calls that have a value or are refused -/

/-- Every call of a primitive with some arguments has a value and changes nothing. -/
def Gives (primitive : Primitive) (arguments : List Value) (value : Value) :
    Prop :=
  ∀ host depth name site scope world,
    call host (depth + 1) (.native name (.primitive primitive)) site scope
      arguments world = .done value world

/--
Every call of a primitive with some arguments fails at its place with an error
that is reported as one of types, and changes nothing.
-/
def Refuses (primitive : Primitive) (arguments : List Value) : Prop :=
  ∀ host depth name site scope world, ∃ cause : Cause,
    cause.code = .typeMismatch ∧
      call host (depth + 1) (.native name (.primitive primitive)) site scope
        arguments world = .failed (.located cause site.position) world

section Verdicts

variable {primitive : Primitive} {arguments : List Value}

theorem Gives.of_reply {value : Value}
    (replies : ∀ site, primitive.reply site arguments = .ok (.value value)) :
    primitive.Gives arguments value := by
  intro host depth name site scope world
  simp only [call, Evaluator.callWith, replies]
  rfl

theorem Refuses.of_reply (cause : String → Cause)
    (isTypeError : ∀ name, (cause name).code = .typeMismatch)
    (replies : ∀ site, primitive.reply site arguments =
      .error (.located (cause site.name) site.position)) :
    primitive.Refuses arguments := by
  intro host depth name site scope world
  refine ⟨cause site.name, isTypeError site.name, ?_⟩
  simp only [call, Evaluator.callWith, replies]
  rfl

/-- A call has one value. -/
theorem Gives.unique {value other : Value}
    (gives : primitive.Gives arguments value)
    (givesOther : primitive.Gives arguments other) : value = other := by
  have same := (gives Host.none 0 "" default 0 .empty).symm.trans
    (givesOther Host.none 0 "" default 0 .empty)
  injection same

/-- A call that is refused has no value. -/
theorem Refuses.not_gives (refuses : primitive.Refuses arguments)
    (value : Value) : ¬ primitive.Gives arguments value := by
  intro gives
  rcases refuses Host.none 0 "" default 0 .empty with ⟨_, -, fails⟩
  rw [gives] at fails
  contradiction

end Verdicts

/-! ## One call -/

section Items

variable (head : Value) (items : List Value)

theorem list_gives : list.Gives items (.list items) :=
  .of_reply fun _ => rfl

theorem length_gives :
    length.Gives [.list items] (.number (.ofNat items.length)) :=
  .of_reply fun _ => rfl

theorem first_gives : first.Gives [.list (head :: items)] head :=
  .of_reply fun _ => rfl

theorem rest_gives : rest.Gives [.list (head :: items)] (.list items) :=
  .of_reply fun _ => rfl

theorem first_refuses : first.Refuses [.list []] :=
  .of_reply .emptyList (fun _ => rfl) fun _ => rfl

theorem rest_refuses : rest.Refuses [.list []] :=
  .of_reply .emptyList (fun _ => rfl) fun _ => rfl

end Items

theorem first_gives_iff {items : List Value} {item : Value} :
    first.Gives [.list items] item ↔ items.head? = some item := by
  cases items with
  | nil => exact iff_of_false (first_refuses.not_gives item) nofun
  | cons head tail =>
      rw [List.head?_cons, Option.some_inj]
      constructor
      · exact fun gives => (first_gives head tail).unique gives
      · rintro rfl
        exact first_gives head tail

/-- What is refused for the empty list alone is refused if there is no item. -/
theorem refuses_iff_length {primitive : Primitive} {items : List Value}
    (ofNone : primitive.Refuses [.list []])
    (ofSome : ∀ head tail,
      ∃ value, primitive.Gives [.list (head :: tail)] value) :
    primitive.Refuses [.list items] ↔ items.length = 0 := by
  cases items with
  | nil => exact iff_of_true ofNone rfl
  | cons head tail =>
      rcases ofSome head tail with ⟨value, gives⟩
      exact iff_of_false (fun refuses => refuses.not_gives value gives) nofun

theorem first_refuses_iff {items : List Value} :
    first.Refuses [.list items] ↔ items.length = 0 :=
  refuses_iff_length first_refuses fun head tail =>
    ⟨head, first_gives head tail⟩

theorem rest_refuses_iff {items : List Value} :
    rest.Refuses [.list items] ↔ items.length = 0 :=
  refuses_iff_length rest_refuses fun head tail =>
    ⟨.list tail, rest_gives head tail⟩

section Nth

variable {items : List Value} {index : Number}

theorem nth_gives {item : Value}
    (found : Access.atIndex items index = .item item) :
    nth.Gives [.list items, .number index] item := by
  have gives (site : CallSite) :
      nthOf site [.list items, .number index] = .ok item := by
    change (Access.atIndex items index).itemOr _ _ = _
    simp only [found]
    rfl
  refine .of_reply fun site => ?_
  rw [reply, gives]
  rfl

theorem nth_refuses (refused : Access.atIndex items index = .refused) :
    nth.Refuses [.list items, .number index] := by
  have fails (site : CallSite) :
      nthOf site [.list items, .number index] =
        site.error (.indexOutOfRange site.name index items.length) := by
    change (Access.atIndex items index).itemOr _ _ = _
    simp only [refused]
    rfl
  refine .of_reply (.indexOutOfRange · index items.length) (fun _ => rfl)
    fun site => ?_
  rw [reply, fails]
  rfl

theorem nth_gives_iff {item : Value} :
    nth.Gives [.list items, .number index] item ↔
      Access.atIndex items index = .item item := by
  constructor
  · intro gives
    cases looked : Access.atIndex items index with
    | item other => rw [(nth_gives looked).unique gives]
    | refused => exact absurd gives ((nth_refuses looked).not_gives item)
    | outOfBounds =>
        exact absurd looked (Access.atIndex_ne_outOfBounds items index)
  · exact nth_gives

end Nth

/-! ## Calls after calls -/

/-- One value is what so many calls of `rest` leave of another. -/
inductive RestsTo : Nat → Value → Value → Prop where
  | none (value : Value) : RestsTo 0 value value
  | next {count : Nat} {value middle last : Value}
      (gives : rest.Gives [value] middle) (rests : RestsTo count middle last) :
      RestsTo (count + 1) value last

/-- So many calls of `rest` leave a list without so many items, if it has them. -/
theorem restsTo_iff {count : Nat} {items : List Value} {last : Value} :
    RestsTo count (.list items) last ↔
      count ≤ items.length ∧ last = .list (items.drop count) := by
  induction count generalizing items with
  | zero =>
      constructor
      · intro rests
        cases rests
        exact ⟨Nat.zero_le _, rfl⟩
      · rintro ⟨-, rfl⟩
        exact .none _
  | succ count ih =>
      cases items with
      | nil =>
          constructor
          · intro rests
            cases rests with
            | next gives => exact absurd gives (rest_refuses.not_gives _)
          · nofun
      | cons head tail =>
          rw [List.length_cons, Nat.add_le_add_iff_right, List.drop_succ_cons,
            ← ih]
          constructor
          · intro rests
            cases rests with
            | next gives rests =>
                rw [gives.unique (rest_gives head tail)] at rests
                exact rests
          · exact .next (rest_gives head tail)

/-- So many calls of `rest` and one of `first` give the item at that place. -/
theorem rests_first_iff {natural : Nat} {items : List Value} {item : Value} :
    (∃ remaining, RestsTo natural (.list items) remaining ∧
      first.Gives [remaining] item) ↔ items[natural]? = some item := by
  simp only [restsTo_iff]
  constructor
  · rintro ⟨_, ⟨-, rfl⟩, gives⟩
    rw [← List.head?_drop]
    exact first_gives_iff.mp gives
  · intro found
    have below := (List.getElem?_eq_some_iff.mp found).1
    rw [← List.head?_drop] at found
    exact ⟨_, ⟨below.le, rfl⟩, first_gives_iff.mpr found⟩

end Primitive

/-! ## One sequence -/

open Primitive in
/--
The natives of lists describe one sequence, for every list and every number.

* The value of `length` is the number of items, if that is the value of any
  number, and that many calls of `rest` and no others leave the empty list.
* `nth` looks into the list at its index cast to a machine word, and no index
  takes it out of bounds.
* For a list whose length is a machine word, as that of every list in memory is,
  `nth` has a value if and only if the value of its index is a natural number
  below the number of items, which minus zero may be; then that is what `first`
  gives after as many calls of `rest`.
* With every other index, be it negative, a fraction, an infinity, no number or
  beyond all words, it is refused.
* `first` and `rest` are refused if and only if there is no item.  Otherwise
  `list`, called with the first item and the items of the rest, gives the list.
-/
theorem list_natives_agree (items : List Value) (index : Number) :
    (∃ count, length.Gives [.list items] (.number count) ∧
      ((∃ number : Number, number.value? = some (items.length : ℚ)) →
        count.value? = some (items.length : ℚ))) ∧
    (∀ count, RestsTo count (.list items) (.list []) ↔
      count = items.length) ∧
    (Access.atIndex items index ≠ .outOfBounds ∧
      ∀ item, nth.Gives [.list items, .number index] item ↔
        Access.atIndex items index = .item item) ∧
    (items.length < USize.size →
      ((∃ item, nth.Gives [.list items, .number index] item) ↔
        ∃ natural < items.length, index.value? = some (natural : ℚ)) ∧
      ∀ natural : Nat, index.value? = some (natural : ℚ) →
        ∀ item, nth.Gives [.list items, .number index] item ↔
          ∃ remaining, RestsTo natural (.list items) remaining ∧
            first.Gives [remaining] item) ∧
    ((¬ ∃ item, nth.Gives [.list items, .number index] item) →
      nth.Refuses [.list items, .number index]) ∧
    (first.Refuses [.list items] ↔ items.length = 0) ∧
    (rest.Refuses [.list items] ↔ items.length = 0) ∧
    (0 < items.length → ∃ head tail,
      first.Gives [.list items] head ∧ rest.Gives [.list items] (.list tail) ∧
        list.Gives (head :: tail) (.list items)) := by
  refine ⟨⟨_, length_gives items, ?counts⟩, ?empties,
    ⟨Access.atIndex_ne_outOfBounds items index, fun _ => nth_gives_iff⟩,
    fun isWord => ⟨?succeeds, ?looks⟩, ?fails, first_refuses_iff,
    rest_refuses_iff, ?builds⟩
  case counts =>
    rintro ⟨number, exact⟩
    exact Number.value?_ofNat_of_exact exact
  case empties =>
    intro count
    have isEmpty : Value.list [] = .list (items.drop count) ↔
        items.length ≤ count := by
      rw [Value.list.injEq, eq_comm, List.drop_eq_nil_iff]
    rw [restsTo_iff, isEmpty]
    omega
  case succeeds =>
    simp only [nth_gives_iff, Access.atIndex_eq_item_iff isWord]
    constructor
    · rintro ⟨item, natural, isValue, found⟩
      exact ⟨natural, (List.getElem?_eq_some_iff.mp found).1, isValue⟩
    · rintro ⟨natural, below, isValue⟩
      exact ⟨items[natural], natural, isValue, List.getElem?_eq_getElem below⟩
  case looks =>
    intro natural isValue item
    rw [nth_gives_iff, Access.atIndex_eq_item_iff isWord, rests_first_iff]
    constructor
    · rintro ⟨other, isOther, found⟩
      rw [isValue, Option.some_inj, Nat.cast_inj] at isOther
      rw [isOther]
      exact found
    · exact fun found => ⟨natural, isValue, found⟩
  case fails =>
    intro noItem
    refine nth_refuses (Access.atIndex_eq_refused fun item found => ?_)
    exact noItem ⟨item, nth_gives found⟩
  case builds =>
    intro positive
    cases items with
    | nil => contradiction
    | cons head tail =>
        exact ⟨head, tail, first_gives head tail, rest_gives head tail,
          list_gives _⟩

/-- The index minus zero finds the first item of three, and none of none. -/
theorem list_natives_agree_minus_zero :
    let items : List Value := [.list [], .nil, .boolean true]
    let zero : Number := Float.ofBits 0x8000000000000000
    (∃ number : Number, number.value? = some (items.length : ℚ)) ∧
      items.length < USize.size ∧ zero.value? = some ((0 : Nat) : ℚ) ∧
      0 < items.length ∧
      (∃ count, Primitive.length.Gives [.list items] (.number count) ∧
        count.value? = some (items.length : ℚ)) ∧
      (∃ item, Primitive.nth.Gives [.list items, .number zero] item) ∧
      Primitive.nth.Refuses [.list [], .number zero] ∧
      ∃ head tail, Primitive.first.Gives [.list items] head ∧
        Primitive.rest.Gives [.list items] (.list tail) ∧
          Primitive.list.Gives (head :: tail) (.list items) := by
  intro items zero
  have exact : ∃ number : Number, number.value? = some (items.length : ℚ) :=
    ⟨_, Number.value?_ofNat_of_lt (by decide)⟩
  have isWord : items.length < USize.size :=
    Nat.lt_of_lt_of_le (by decide) USize.le_size
  have isZero : zero.value? = some ((0 : Nat) : ℚ) :=
    Number.value?_eq_natCast_iff.mpr (by decide +kernel)
  rcases list_natives_agree items zero with
    ⟨⟨count, gives, counts⟩, -, -, looks, -, -, -, builds⟩
  rcases list_natives_agree [] zero with ⟨-, -, -, looksNot, fails, -⟩
  refine ⟨exact, isWord, isZero, by decide, ⟨count, gives, counts exact⟩,
    (looks isWord).1.mpr ⟨0, by decide, isZero⟩, fails fun found => ?_,
    builds (by decide)⟩
  rcases (looksNot (Nat.zero_lt_of_lt isWord)).1.mp found with
    ⟨natural, below, -⟩
  exact absurd below natural.not_lt_zero

end ScopedLisp
