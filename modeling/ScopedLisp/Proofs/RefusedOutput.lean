import ScopedLisp.Proofs.AccessibleScopes

/-!
# Runs whose output is refused

A run is compared with the run of the same program in the same world, except
that its sinks refuse whatever is printed.  Most steps neither look at sinks
nor change them (`Run.Blind`).  So up to the first print both runs are the
same, and there the one whose output is refused fails.

`Mirrors` says this of a single run and the prints that it makes.  It holds of
the steps of evaluation and passes on from the parts of a run to the whole;
what is first is told by how much the sinks have received, which printing
increases and nothing ever decreases.
-/

namespace ScopedLisp

/-! ## Worlds with other sinks -/

namespace World

/-- A world with other sinks. -/
def withSinks (world : World) (sinks : Array Sink) : World :=
  { world with sinks := sinks }

@[simp]
theorem heap_withSinks (world : World) (sinks : Array Sink) :
    (world.withSinks sinks).heap = world.heap :=
  rfl

theorem withSinks_defineAll (world : World) (sinks : Array Sink)
    (scope : ScopeId) (names : List Identifier) (values : List Value) :
    (world.withSinks sinks).defineAll scope names values =
      (world.defineAll scope names values).withSinks sinks := by
  induction names generalizing world values with
  | nil => rfl
  | cons name names ih =>
      cases values with
      | nil => rfl
      | cons value values =>
          exact ih (world.define scope name.text value) values

theorem withSinks_enter (world : World) (sinks : Array Sink)
    (defining : ScopeId) (parameters : List Identifier)
    (arguments : List Value) :
    (world.withSinks sinks).enter defining parameters arguments =
      (world.enter defining parameters arguments).withSinks sinks :=
  withSinks_defineAll (world.addChild defining) sinks world.nextScope
    parameters arguments

/-! ### What sinks have received -/

/-- How much each sink has received. -/
def captured (world : World) (sink : SinkId) : Nat :=
  (world.sinks[sink]?.map (·.received.length)).getD 0

theorem captured_congr {world other : World}
    (same : world.sinks = other.sinks) : world.captured = other.captured := by
  funext sink
  rw [captured, captured, same]

/-- A line that a sink keeps adds to what it has received. -/
theorem captured_lt_afterLine {world : World} {scope : ScopeId} {sink : SinkId}
    {text : String} (prints : world.heap.sink? scope = some sink)
    (keeps : world.sinks[sink]? = some ⟨.keeping, text⟩) (line : String) :
    world.captured < (world.afterLine scope line).captured := by
  have sinks := sinks_afterLine prints line
  rw [Pi.lt_def]
  constructor
  · intro other
    rw [captured, captured, sinks, Array.getElem?_modify]
    split
    · rename_i same
      subst same
      simp [keeps, Sink.afterLine, Sink.receive]
    · exact Nat.le_refl _
  · refine ⟨sink, ?_⟩
    rw [captured, captured, sinks, Array.getElem?_modify, if_pos rfl, keeps]
    have newline : 0 < "\n".length := by decide
    simp [Sink.afterLine, Sink.receive, newline]

end World

/-- An outcome whose world has other sinks. -/
def Outcome.withSinks {α : Type} (outcome : Outcome α) (sinks : Array Sink) :
    Outcome α :=
  match outcome with
  | .done value world => .done value (world.withSinks sinks)
  | .failed error world => .failed error (world.withSinks sinks)
  | .exhausted => .exhausted

namespace Run

/-! ## Printing, by what becomes of the line -/

section WriteLine

variable {world : World} {scope : ScopeId} {sink : SinkId}
variable {text reason : String}

theorem writeLine_of_sink?_eq_none (absent : world.heap.sink? scope = none)
    (line : String) : writeLine scope line world = .done () world := by
  simp only [writeLine, World.acceptance, World.sinkOf?, absent,
    World.afterLine_of_sink?_eq_none absent, Option.bind_none]

theorem writeLine_of_keeping (prints : world.heap.sink? scope = some sink)
    (keeps : world.sinks[sink]? = some ⟨.keeping, text⟩) (line : String) :
    writeLine scope line world = .done () (world.afterLine scope line) := by
  simp only [writeLine, World.acceptance, World.sinkOf?, prints,
    Option.bind_some, keeps, Sink.acceptance]

/-- A line that is refused leaves no trace. -/
theorem writeLine_of_refusing (prints : world.heap.sink? scope = some sink)
    (refuses : world.sinks[sink]? = some ⟨.refusingWrites reason, text⟩)
    (line : String) :
    writeLine scope line world = .failed (.unlocated (.io reason)) world := by
  have untouched :
      world.sinks.modify sink (·.afterLine line) = world.sinks := by
    apply Array.ext_getElem?
    intro other
    rw [Array.getElem?_modify]
    split
    · rename_i same
      rw [← same, refuses]
      rfl
    · rfl
  have same : world.afterLine scope line = world := by
    simp only [World.afterLine, prints, World.updateSink, untouched]
  simp only [writeLine, World.acceptance, World.sinkOf?, prints,
    Option.bind_some, refuses, Sink.acceptance, same]

end WriteLine

/-! ## Runs that have to do with no sinks -/

section Blind

variable {α β : Type}

/-- Whether a run neither looks at sinks nor changes them. -/
structure Blind (run : Run α) : Prop where
  same (world : World) (sinks : Array Sink) :
    run (world.withSinks sinks) = (run world).withSinks sinks
  unchanged {world after : World} :
    (run world).world? = some after → after.sinks = world.sinks

namespace Blind

protected theorem pure (value : α) : (pure value : Run α).Blind where
  same _ _ := rfl
  unchanged ends := by
    cases ends
    rfl

protected theorem fail (error : Error) : (fail error : Run α).Blind where
  same _ _ := rfl
  unchanged ends := by
    cases ends
    rfl

protected theorem bind {first : Run α} {second : α → Run β}
    (begins : first.Blind) (goesOn : ∀ value, (second value).Blind) :
    (first >>= second).Blind where
  same world sinks := by
    rw [bind_apply, bind_apply, begins.same]
    rcases first world with ⟨value, middle⟩ | ⟨error, middle⟩ | _
    · exact (goesOn value).same middle sinks
    · rfl
    · rfl
  unchanged {world after} ends := by
    have sinks := @begins.unchanged world
    rw [bind_apply] at ends
    rcases result : first world with ⟨value, middle⟩ | ⟨error, middle⟩ | _
    all_goals rw [result] at ends sinks
    · exact ((goesOn value).unchanged ends).trans (sinks rfl)
    · exact sinks ends
    · exact sinks ends

protected theorem locate {run : Run α} (blind : run.Blind)
    (position : Position) : (run.locate position).Blind where
  same world sinks := by
    simp only [Run.locate, blind.same]
    cases run world <;> rfl
  unchanged {world after} ends := by
    apply blind.unchanged
    rw [← ends, Run.locate]
    cases run world <;> rfl

theorem get (scope : ScopeId) (name : String) : (get scope name).Blind where
  same world sinks := by
    simp only [Run.get, World.heap_withSinks]
    cases world.heap.value? scope name <;> rfl
  unchanged {world after} ends := by
    rw [Run.get] at ends
    cases found : world.heap.value? scope name
    all_goals
      rw [found] at ends
      cases ends
      rfl

theorem modify {change : World → World}
    (same : ∀ world sinks,
      change (world.withSinks sinks) = (change world).withSinks sinks)
    (unchanged : ∀ world, (change world).sinks = world.sinks) :
    (modify change).Blind where
  same world sinks := by
    rw [Run.modify, same]
    rfl
  unchanged {world after} ends := by
    cases ends
    exact unchanged world

theorem assign (scope : ScopeId) (name : String) (value : Value) :
    (assign scope name value).Blind :=
  .modify (fun _ _ => rfl) fun _ => rfl

theorem record (entry : LogRecord) : (record entry).Blind :=
  .modify (fun _ _ => rfl) fun _ => rfl

theorem ofCause (result : Except Cause α) : (ofCause result).Blind := by
  cases result with
  | ok value => exact .pure value
  | error cause => exact .fail (.unlocated cause)

end Blind

end Blind

end Run

/-! ## Prints that are refused -/

/-- A print: the place it is reported at if it fails, and the world before it. -/
structure Print where
  place : Position
  before : World

/--
How a run that makes the given prints goes where output is refused: if it makes
none, as it goes otherwise, and if it makes any, it fails at the first.
-/
inductive Mirrors (refusing : Array Sink) {α : Type} (prints : Print → Prop)
    (run : Run α) (world : World) : Prop where
  | silent (nothing : ∀ print, ¬ prints print)
      (same : run (world.withSinks refusing) = (run world).withSinks refusing)
      (unchanged : ∀ after, (run world).world? = some after →
        after.sinks = world.sinks)
  | stops {print : Print} {reason : String} (made : prints print)
      (untouched : print.before.sinks = world.sinks)
      (first : ∀ other, prints other →
        other = print ∨ world.captured < other.before.captured)
      (fails : run (world.withSinks refusing) =
        .failed (.located (.io reason) print.place)
          (print.before.withSinks refusing))
      (captures : ∀ after, (run world).world? = some after →
        world.captured < after.captured)

namespace Mirrors

variable {refusing : Array Sink} {α β : Type} {run : Run α}
variable {prints : Print → Prop} {world : World}

theorem captured_le (mirrors : Mirrors refusing prints run world)
    {after : World} (ends : (run world).world? = some after) :
    world.captured ≤ after.captured := by
  cases mirrors with
  | silent nothing same unchanged =>
      exact (World.captured_congr (unchanged after ends)).ge
  | stops made untouched first fails captures =>
      exact (captures after ends).le

theorem captured_le_print (mirrors : Mirrors refusing prints run world)
    {print : Print} (made : prints print) :
    world.captured ≤ print.before.captured := by
  cases mirrors with
  | silent nothing same unchanged => exact absurd made (nothing print)
  | stops isPrint untouched first fails captures =>
      rcases first print made with rfl | later
      · exact (World.captured_congr untouched).ge
      · exact later.le

theorem congr {others : Print → Prop}
    (mirrors : Mirrors refusing prints run world)
    (same : ∀ print, prints print ↔ others print) :
    Mirrors refusing others run world := by
  rwa [← funext fun print => propext (same print)]

/-- A run mirrors one that it comes down to before anything is printed. -/
theorem of_eq {other : Run α} {middle : World}
    (mirrors : Mirrors refusing prints other middle)
    (sinks : middle.sinks = world.sinks) (same : run world = other middle)
    (sameRefused : run (world.withSinks refusing) =
      other (middle.withSinks refusing)) :
    Mirrors refusing prints run world := by
  have captured := World.captured_congr sinks
  cases mirrors with
  | silent nothing mirrored unchanged =>
      refine .silent nothing ?_ ?_
      · rw [sameRefused, same, mirrored]
      · intro after ends
        rw [same] at ends
        exact (unchanged after ends).trans sinks
  | stops made untouched first fails captures =>
      refine .stops made (untouched.trans sinks) ?_ (sameRefused.trans fails) ?_
      · rwa [← captured]
      · intro after ends
        rw [same] at ends
        rw [← captured]
        exact captures after ends

theorem of_blind (blind : run.Blind) (nothing : ∀ print, ¬ prints print) :
    Mirrors refusing prints run world :=
  .silent nothing (blind.same world refusing) fun _ => blind.unchanged

/-- A run that goes on prints what its first part prints and what follows prints. -/
protected theorem bind {second : α → Run β}
    {further : α → World → Print → Prop}
    (begins : Mirrors refusing prints run world)
    (goesOn : ∀ {value middle}, run world = .done value middle →
      Mirrors refusing (further value middle) (second value) middle) :
    Mirrors refusing
      (fun print => prints print ∨ ∃ value middle,
        run world = .done value middle ∧ further value middle print)
      (run >>= second) world := by
  cases begins with
  | silent nothing same unchanged =>
      rcases ends : run world with ⟨value, middle⟩ | ⟨error, middle⟩ | _
      all_goals rw [ends] at same unchanged
      · have whole : Mirrors refusing (further value middle) (run >>= second)
            world :=
          (goesOn ends).of_eq (unchanged middle rfl) (Run.bind_eq_of_done ends)
            (Run.bind_eq_of_done same)
        apply whole.congr
        intro print
        constructor
        · exact fun made => .inr ⟨value, middle, rfl, made⟩
        · rintro (made | ⟨_, _, ⟨⟩, made⟩)
          · exact absurd made (nothing print)
          · exact made
      -- A first part that does not succeed is all that there is of the run.
      all_goals
        refine .silent ?_ ?_ ?_
        · rintro print (made | ⟨_, _, ⟨⟩, -⟩)
          exact nothing print made
        · rw [Run.bind_apply, Run.bind_apply, same, ends]
          rfl
        · rw [Run.bind_apply, ends]
          exact unchanged
  | stops made untouched first fails captures =>
      refine .stops (.inl made) untouched ?_ (Run.bind_eq_of_failed fails) ?_
      · rintro other (before | ⟨value, middle, ends, made⟩)
        · exact first other before
        · have captured := captures middle (congrArg Outcome.world? ends)
          exact .inr (captured.trans_le ((goesOn ends).captured_le_print made))
      · intro after bindEnds
        rw [Run.bind_apply] at bindEnds
        rcases ends : run world with ⟨value, middle⟩ | ⟨error, middle⟩ | _
        all_goals rw [ends] at bindEnds captures
        · exact (captures middle rfl).trans_le
            ((goesOn ends).captured_le bindEnds)
        · exact captures after bindEnds
        · exact captures after bindEnds

/-- What has to do with no sinks can follow a run unnoticed. -/
theorem bind_blind {second : α → Run β}
    (begins : Mirrors refusing prints run world)
    (blind : ∀ value, (second value).Blind) :
    Mirrors refusing prints (run >>= second) world := by
  have silent : ∀ {value middle}, run world = .done value middle →
      Mirrors refusing (fun _ => False) (second value) middle :=
    fun _ => of_blind (blind _) fun _ => id
  apply (begins.bind silent).congr
  simp

/-- The error of a refused print has its place already. -/
protected theorem locate (mirrors : Mirrors refusing prints run world)
    (position : Position) :
    Mirrors refusing prints (run.locate position) world := by
  have sameWorld : (run.locate position world).world? = (run world).world? := by
    simp only [Run.locate]
    cases run world <;> rfl
  cases mirrors with
  | silent nothing same unchanged =>
      refine .silent nothing ?_ ?_
      · simp only [Run.locate, same]
        cases run world <;> rfl
      · rwa [sameWorld]
  | stops made untouched first fails captures =>
      have located : run.locate position (world.withSinks refusing) = _ :=
        Run.locate_eq_failed_iff.mpr ⟨_, fails, rfl⟩
      refine .stops made untouched first located ?_
      rwa [sameWorld]

/-- Forms print what each of them prints in its turn. -/
theorem evaluateAll {evaluator : Evaluator} {scope : ScopeId}
    {items : List Form} {printsOf : Form → World → Print → Prop}
    (each : ∀ {earlier item later values middle},
      items = earlier ++ item :: later →
      evaluator.evaluateAll scope earlier world = .done values middle →
        Mirrors refusing (printsOf item middle) (evaluator.evaluate item scope)
          middle) :
    Mirrors refusing
      (fun print => ∃ earlier item later values middle,
        items = earlier ++ item :: later ∧
        evaluator.evaluateAll scope earlier world = .done values middle ∧
        printsOf item middle print)
      (evaluator.evaluateAll scope items) world := by
  induction items generalizing world with
  | nil =>
      apply of_blind (.pure [])
      rintro print ⟨earlier, item, later, -, -, empty, -⟩
      simp at empty
  | cons first items ih =>
      have begins := @each [] first items [] world rfl rfl
      have whole := begins.bind fun {value middle} ends => bind_blind
        (ih fun same before => each (congrArg (first :: ·) same)
          (Evaluator.evaluateAll_cons_eq_done_iff.mpr
            ⟨value, middle, _, ends, before, rfl⟩))
        fun values => .pure (value :: values)
      apply whole.congr
      intro print
      constructor
      · rintro (made | ⟨value, middle, ends, earlier, item, later, values, last,
          rfl, before, made⟩)
        · exact ⟨[], first, items, [], world, rfl, rfl, made⟩
        · have before := Evaluator.evaluateAll_cons_eq_done_iff.mpr
            ⟨value, middle, values, ends, before, rfl⟩
          exact ⟨first :: earlier, item, later, _, last, rfl, before, made⟩
      · rintro ⟨earlier, item, later, values, last, same, before, made⟩
        cases earlier with
        | nil =>
            cases before
            cases same
            exact .inl made
        | cons head earlier =>
            rcases List.cons.inj same with ⟨rfl, rfl⟩
            rcases Evaluator.evaluateAll_cons_eq_done_iff.mp before with
              ⟨value, middle, others, ends, restEnds, -⟩
            exact .inr ⟨value, middle, ends, earlier, item, later, others, last,
              rfl, restEnds, made⟩

/-- A line is refused where it would have been kept, unless there is no sink. -/
theorem writeLine {scope : ScopeId} (line : String) (place : Position)
    (keeps : Sink.AllKeep world.sinks (world.heap.sink? scope = some ·))
    (refuses : Sink.AllRefuse refusing (world.heap.sink? scope = some ·)) :
    Mirrors refusing
      (fun print => print = ⟨place, world⟩ ∧
        ∃ sink, world.heap.sink? scope = some sink)
      ((Run.writeLine scope line).locate place) world := by
  rcases prints : world.heap.sink? scope with _ | sink
  · have ends := Run.writeLine_of_sink?_eq_none prints line
    have prints' : (world.withSinks refusing).heap.sink? scope = none := prints
    have refusedEnds := Run.writeLine_of_sink?_eq_none prints' line
    refine .locate (.silent nofun ?_ ?_) place
    · rw [ends, refusedEnds]
      rfl
    · intro after lineEnds
      rw [ends] at lineEnds
      cases lineEnds
      rfl
  · rcases keeps sink prints with ⟨text, keeps⟩
    rcases refuses sink prints with ⟨reason, received, refuses⟩
    have ends := Run.writeLine_of_keeping prints keeps line
    have prints' : (world.withSinks refusing).heap.sink? scope = some sink :=
      prints
    have refused := Run.writeLine_of_refusing prints' refuses line
    have located : (Run.writeLine scope line).locate place _ = _ :=
      Run.locate_eq_failed_iff.mpr ⟨_, refused, rfl⟩
    refine .stops ⟨rfl, sink, rfl⟩ rfl (fun _ made => .inl made.1) located ?_
    intro after lineEnds
    rw [Run.locate_eq_done_iff.mpr ends] at lineEnds
    cases lineEnds
    exact World.captured_lt_afterLine prints keeps line

end Mirrors

end ScopedLisp
