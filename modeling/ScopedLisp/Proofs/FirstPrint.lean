import ScopedLisp.Proofs.RefusedOutput
import ScopedLisp.Proofs.SessionWorlds

/-!
# The first print

Of the tasks that are performed while a source is run, those that evaluate a
printing form print, each in the world in which the value of the line is
found.  The prints of a task are its own and those of the tasks that it asks
for, and so the comparison of runs whose output is refused with those whose
output is kept goes through all of evaluation, one level after the other
(`perform_mirrors`).

Hence a source whose output is refused fails exactly at the first print that
it makes where its output is kept, with everything but the sinks as it is
there just before that print.
-/

namespace ScopedLisp

namespace Evaluator

/-! ## The prints of a task -/

/-- What a task prints by itself, once what it asks for is done. -/
inductive Prints (evaluator : Evaluator) : Task → World → Print → Prop where
  | line (opening : Position) {value : Form} {scope : ScopeId} {sink : SinkId}
      {world before : World} {result : Value}
      (ends : evaluator.evaluate value scope world = .done result before)
      (leads : before.heap.sink? scope = some sink) :
      Prints evaluator (.evaluate (.printLine opening value) scope) world
        ⟨opening, before⟩

/-- What a task prints, by itself or through the tasks that it asks for. -/
def PrintsWith (evaluator : Evaluator)
    (printsOf : Task → World → Print → Prop) (task : Task) (world : World)
    (print : Print) : Prop :=
  evaluator.Prints task world print ∨
    ∃ inner middle, evaluator.Asks task world inner middle ∧
      printsOf inner middle print

/-! ## One level of evaluation -/

section OneLevel

variable {evaluator : Evaluator} {refusing : Array Sink}
variable {printsOf : Task → World → Print → Prop}
variable {scope : ScopeId} {world : World}

/-- Whether all that a task asks for mirrors. -/
def AskedMirrors (evaluator : Evaluator) (refusing : Array Sink)
    (printsOf : Task → World → Print → Prop) (task : Task) (world : World) :
    Prop :=
  ∀ {inner middle}, evaluator.Asks task world inner middle →
    Mirrors refusing (printsOf inner middle) (evaluator.perform inner) middle

/-- Whether a task mirrors, with all that it prints. -/
def TaskMirrors (evaluator : Evaluator) (refusing : Array Sink)
    (printsOf : Task → World → Print → Prop) (task : Task) (world : World) :
    Prop :=
  Mirrors refusing (evaluator.PrintsWith printsOf task world)
    (evaluator.performWith task) world

/-- A task that only fails, before it asks for anything, prints nothing. -/
theorem mirrors_of_fault {task : Task} {cause : Cause} {position : Position}
    (faults : ∀ other : World, other.heap = world.heap →
      evaluator.Faults task other cause position other)
    (nothing : ∀ print, ¬ evaluator.PrintsWith printsOf task world print) :
    evaluator.TaskMirrors refusing printsOf task world := by
  have fails := (faults world rfl).failed
  have fails' := (faults (world.withSinks refusing) rfl).failed
  refine .silent nothing ?_ ?_
  · rw [fails, fails']
    rfl
  · intro after ends
    rw [fails] at ends
    cases ends
    rfl

/-- A task that is no line and asks for nothing prints nothing. -/
theorem prints_nothing {task : Task}
    (asksNothing : ∀ {inner middle}, ¬ evaluator.Asks task world inner middle)
    (noLine : ∀ opening value scope,
      task ≠ .evaluate (.printLine opening value) scope) (print : Print) :
    ¬ evaluator.PrintsWith printsOf task world print := by
  rintro (itself | ⟨_, _, asks, -⟩)
  · cases itself
    exact noLine _ _ _ rfl
  · exact asksNothing asks

theorem mirrors_assignment {target : Identifier} {value : Form}
    (asked : evaluator.AskedMirrors refusing printsOf
      (.evaluate (.assignment target value) scope) world) :
    evaluator.TaskMirrors refusing printsOf
      (.evaluate (.assignment target value) scope) world := by
  refine .congr (.bind_blind (asked (.assigned target value scope world)) ?_) ?_
  · intro result
    exact .bind (.assign scope target.text result) fun _ => .pure Value.nil
  · intro print
    constructor
    · exact fun made => .inr ⟨_, _, .assigned target value scope world, made⟩
    · rintro (itself | ⟨_, _, asks, made⟩)
      · cases itself
      · cases asks
        exact made

theorem mirrors_conditional {opening : Position}
    {test consequent alternate : Form}
    (asked : evaluator.AskedMirrors refusing printsOf
      (.evaluate (.conditional opening test consequent alternate) scope)
      world) :
    evaluator.TaskMirrors refusing printsOf
      (.evaluate (.conditional opening test consequent alternate) scope)
      world := by
  have testMirrors :=
    asked (.tested opening test consequent alternate scope world)
  have branchMirrors : ∀ {value middle},
      evaluator.evaluate test scope world = .done value middle →
      Mirrors refusing
        (fun print => ∃ holds, value = .boolean holds ∧
          printsOf (.evaluate (if holds then consequent else alternate) scope)
            middle print)
        ((Run.ofCause value.asBoolean).locate opening >>= fun holds =>
          if holds then evaluator.evaluate consequent scope
          else evaluator.evaluate alternate scope) middle := by
    intro value middle tests
    rcases chooses : value.asBoolean with cause | holds
    · show Mirrors refusing _ (Run.fail (.located cause opening)) middle
      refine .of_blind (.fail _) ?_
      rintro print ⟨holds, rfl, -⟩
      cases chooses
    · cases Value.eq_boolean_of_asBoolean chooses
      have chosen := asked (.chosen opening consequent alternate tests)
      have branch : Mirrors refusing
          (printsOf (.evaluate (if holds then consequent else alternate) scope)
            middle)
          (if holds then evaluator.evaluate consequent scope
            else evaluator.evaluate alternate scope) middle := by
        cases holds <;> exact chosen
      apply branch.congr
      simp
  refine .congr (.bind testMirrors branchMirrors) ?_
  intro print
  constructor
  · rintro (made | ⟨_, middle, tests, holds, rfl, made⟩)
    · exact .inr ⟨_, _, .tested opening test consequent alternate scope world,
        made⟩
    · exact .inr ⟨_, _, .chosen opening consequent alternate tests, made⟩
  · rintro (itself | ⟨_, _, asks, made⟩)
    · cases itself
    · cases asks with
      | tested => exact .inl made
      | chosen opening consequent alternate tests =>
          exact .inr ⟨_, _, tests, _, rfl, made⟩

theorem mirrors_sequence {opening : Position} {items : List Form}
    (asked : evaluator.AskedMirrors refusing printsOf
      (.evaluate (.sequence opening items) scope) world) :
    evaluator.TaskMirrors refusing printsOf
      (.evaluate (.sequence opening items) scope) world := by
  have itemsMirror : ∀ {earlier item later values middle},
      items = earlier ++ item :: later →
      evaluator.evaluateAll scope earlier world = .done values middle →
        Mirrors refusing (printsOf (.evaluate item scope) middle)
          (evaluator.evaluate item scope) middle := by
    rintro earlier item later values middle rfl before
    exact asked (.item opening item later before)
  refine .congr (.bind_blind (.evaluateAll itemsMirror)
    fun values => .pure (Value.list values)) ?_
  intro print
  constructor
  · rintro ⟨earlier, item, later, values, middle, rfl, before, made⟩
    exact .inr ⟨_, _, .item opening item later before, made⟩
  · rintro (itself | ⟨_, _, asks, made⟩)
    · cases itself
    · cases asks with
      | item opening item later before =>
          exact ⟨_, item, later, _, _, rfl, before, made⟩

theorem mirrors_operation {operator : Operator} {word : Identifier}
    {left right : Form}
    (asked : evaluator.AskedMirrors refusing printsOf
      (.evaluate (.operation operator word left right) scope) world) :
    evaluator.TaskMirrors refusing printsOf
      (.evaluate (.operation operator word left right) scope) world := by
  have leftMirrors := asked (.left operator word left right scope world)
  refine .congr (.bind leftMirrors fun leftEnds => .bind_blind
    (asked (.right operator word right leftEnds)) ?_) ?_
  · exact fun value => .locate (.ofCause _) word.position
  · intro print
    constructor
    · rintro (made | ⟨value, middle, leftEnds, made⟩)
      · exact .inr ⟨_, _, .left operator word left right scope world, made⟩
      · exact .inr ⟨_, _, .right operator word right leftEnds, made⟩
    · rintro (itself | ⟨_, _, asks, made⟩)
      · cases itself
      · cases asks with
        | left => exact .inl made
        | right operator word right leftEnds =>
            exact .inr ⟨_, _, leftEnds, made⟩

theorem mirrors_printLine {opening : Position} {value : Form}
    (asked : evaluator.AskedMirrors refusing printsOf
      (.evaluate (.printLine opening value) scope) world)
    (keeps : ∀ {result before},
      evaluator.evaluate value scope world = .done result before →
        Sink.AllKeep before.sinks (before.heap.sink? scope = some ·))
    (refuses : ∀ {result before},
      evaluator.evaluate value scope world = .done result before →
        Sink.AllRefuse refusing (before.heap.sink? scope = some ·)) :
    evaluator.TaskMirrors refusing printsOf
      (.evaluate (.printLine opening value) scope) world := by
  have valueMirrors := asked (.printed opening value scope world)
  have lineMirrors : ∀ {result before},
      evaluator.evaluate value scope world = .done result before →
      Mirrors refusing
        (fun print => print = ⟨opening, before⟩ ∧
          ∃ sink, before.heap.sink? scope = some sink)
        ((Run.writeLine scope result.render).locate opening >>= fun _ =>
          pure Value.nil) before := by
    intro result before ends
    have written := Mirrors.writeLine result.render opening (keeps ends)
      (refuses ends)
    exact written.bind_blind fun _ => .pure Value.nil
  refine .congr (.bind valueMirrors lineMirrors) ?_
  intro print
  constructor
  · rintro (made | ⟨result, before, ends, rfl, sink, leads⟩)
    · exact .inr ⟨_, _, .printed opening value scope world, made⟩
    · exact .inl (.line opening ends leads)
  · rintro (itself | ⟨_, _, asks, made⟩)
    · cases itself with
      | line opening ends leads => exact .inr ⟨_, _, ends, rfl, _, leads⟩
    · cases asks
      exact .inl made

theorem mirrors_call {name : Identifier} {group : Position}
    {arguments : List Form}
    (asked : evaluator.AskedMirrors refusing printsOf
      (.evaluate (.call name group arguments) scope) world) :
    evaluator.TaskMirrors refusing printsOf
      (.evaluate (.call name group arguments) scope) world := by
  by_cases found : ∃ callable, world.heap.value? scope name.text =
    some (.callable callable)
  · rcases found with ⟨callable, found⟩
    have argumentMirrors : ∀ {earlier argument later values middle},
        arguments = earlier ++ argument :: later →
        evaluator.evaluateAll scope earlier world = .done values middle →
          Mirrors refusing (printsOf (.evaluate argument scope) middle)
            (evaluator.evaluate argument scope) middle := by
      rintro earlier argument later values middle rfl before
      exact asked (.argument group argument later found before)
    have callMirrors : ∀ {values middle},
        evaluator.evaluateAll scope arguments world = .done values middle →
        Mirrors refusing
          (printsOf (.call callable (.ofIdentifier name) scope values)
            (middle.record (.called name.text name.position values.length)))
          (Run.record (.called name.text name.position values.length) >>=
            fun _ => evaluator.call callable (.ofIdentifier name) scope values)
          middle := by
      intro values middle before
      exact (asked (.called group found before)).of_eq rfl rfl rfl
    have found' : (world.withSinks refusing).heap.value? scope name.text =
      some (.callable callable) := found
    have whole := (Mirrors.evaluateAll argumentMirrors).bind callMirrors
    refine .congr (whole.of_eq rfl (evaluateWith_call group arguments found)
      (evaluateWith_call group arguments found')) ?_
    intro print
    constructor
    · rintro (⟨earlier, argument, later, values, middle, rfl, before, made⟩ |
        ⟨values, middle, before, made⟩)
      · exact .inr ⟨_, _, .argument group argument later found before, made⟩
      · exact .inr ⟨_, _, .called group found before, made⟩
    · rintro (itself | ⟨_, _, asks, made⟩)
      · cases itself
      · cases asks with
        | argument group argument later means before =>
            exact .inl ⟨_, argument, later, _, _, rfl, before, made⟩
        | called group means before =>
            rw [found] at means
            cases means
            exact .inr ⟨_, _, before, made⟩
  · rcases exists_fault_of_not_callable group arguments found with
      ⟨cause, faults⟩
    apply mirrors_of_fault faults
    apply prints_nothing
    · intro inner middle asks
      cases asks with
      | argument group argument later means before => exact found ⟨_, means⟩
      | called group means before => exact found ⟨_, means⟩
    · simp

theorem mirrors_native {name : String} {primitive : Primitive}
    {site : CallSite} {arguments : List Value}
    (asked : evaluator.AskedMirrors refusing printsOf
      (.call (.native name (.primitive primitive)) site scope arguments)
      world) :
    evaluator.TaskMirrors refusing printsOf
      (.call (.native name (.primitive primitive)) site scope arguments)
      world := by
  have replies := evaluator.callWith_native name primitive site scope arguments
  have printsCall : ∀ {print}, evaluator.PrintsWith printsOf
      (.call (.native name (.primitive primitive)) site scope arguments) world
        print →
      ∃ callable items,
        primitive.reply site arguments = .ok (.call callable items) ∧
          printsOf (.call callable site scope items) world print := by
    rintro print (itself | ⟨_, _, asks, made⟩)
    · cases itself
    · cases asks with
      | applied name scope world replies => exact ⟨_, _, replies, made⟩
  rcases reply : primitive.reply site arguments with error | value |
    ⟨callable, items⟩
  all_goals simp only [reply] at replies printsCall
  · refine .of_blind ?_ fun print made => ?_
    · rw [performWith, funext replies]
      exact .fail _
    · rcases printsCall made with ⟨_, _, ⟨⟩, -⟩
  · refine .of_blind ?_ fun print made => ?_
    · rw [performWith, funext replies]
      exact .pure value
    · rcases printsCall made with ⟨_, _, ⟨⟩, -⟩
  · have called := (asked (.applied name scope world reply)).locate
      site.position
    refine .congr (called.of_eq rfl (replies world) (replies _)) ?_
    intro print
    constructor
    · exact fun made => .inr ⟨_, _, .applied name scope world reply, made⟩
    · intro made
      rcases printsCall made with ⟨_, _, ⟨⟩, made⟩
      exact made

theorem mirrors_closure {parameters : List Identifier} {body : Form}
    {defining : ScopeId} {site : CallSite} {arguments : List Value}
    (asked : evaluator.AskedMirrors refusing printsOf
      (.call (.closure parameters body defining) site scope arguments) world) :
    evaluator.TaskMirrors refusing printsOf
      (.call (.closure parameters body defining) site scope arguments)
      world := by
  by_cases enough : arguments.length = parameters.length
  · have entered := asked (.entered body defining site scope world enough)
    have applies := evaluator.callWith_closure_apply body defining site scope
      enough
    have applies' := applies (world.withSinks refusing)
    rw [World.withSinks_enter] at applies'
    have sinks := world.sinks_enter defining parameters arguments
    refine .congr (entered.of_eq sinks (applies world) applies') ?_
    intro print
    constructor
    · exact fun made =>
        .inr ⟨_, _, .entered body defining site scope world enough, made⟩
    · rintro (itself | ⟨_, _, asks, made⟩)
      · cases itself
      · cases asks
        exact made
  · apply mirrors_of_fault fun other _ =>
      .wrongCount body defining site scope other enough
    apply prints_nothing
    · intro inner middle asks
      cases asks
      contradiction
    · simp

end OneLevel

end Evaluator

/-! ## All levels of evaluation -/

/-- The prints that happen in tasks that are performed, each to some depth. -/
def Printed (performs : Nat → Task → World → Prop) (print : Print) : Prop :=
  ∃ left task start, performs (left + 1) task start ∧
    (evaluator Host.none left).Prints task start print

/-- What a task prints, it prints by itself or through a task that it asks for. -/
theorem printsWith_printed_iff {depth : Nat} {task : Task} {world : World}
    {print : Print} :
    (evaluator Host.none depth).PrintsWith
        (fun inner middle => Printed (Nested depth inner middle)) task world
        print ↔
      Printed (Nested (depth + 1) task world) print := by
  constructor
  · rintro (itself | ⟨inner, middle, asks, left, other, start, nested, prints⟩)
    · exact ⟨depth, task, world, .here _ _ _, itself⟩
    · exact ⟨left, other, start, .further asks nested, prints⟩
  · rintro ⟨left, other, start, nested, prints⟩
    cases nested with
    | here depth task world => exact .inl prints
    | further asks nested =>
        exact .inr ⟨_, _, asks, left, other, start, nested, prints⟩

section Region

variable {region : ScopeId → Prop} {sinks : SinkId → Prop}
variable {refusing : Array Sink}

/-- A task that is confined to a region mirrors where its sinks refuse output. -/
theorem perform_mirrors
    (refuses : Sink.AllRefuse refusing sinks) {depth : Nat} {task : Task}
    {world : World}
    (confines : world.Confines region sinks)
    (allowed : (confiningPolicy region sinks).task world task) :
    Mirrors refusing (Printed (Nested depth task world))
      ((evaluator Host.none depth).perform task) world := by
  induction depth generalizing task world with
  | zero =>
      have exhausted : (evaluator Host.none 0).perform task =
          fun _ => .exhausted := funext (Evaluator.perform_zero task)
      rw [exhausted]
      refine .silent ?_ rfl ?_
      · rintro print ⟨left, inner, start, nested, -⟩
        cases nested
      · intro after ends
        cases ends
  | succ depth ih =>
      have asked : (evaluator Host.none depth).AskedMirrors refusing
          (fun inner middle => Printed (Nested depth inner middle)) task
          world := by
        intro inner middle asks
        rcases confiningPolicy_lawful.asks confines allowed asks with
          ⟨changes, innerAllowed⟩
        exact ih (confiningPolicy_lawful.world_changes confines changes)
          innerAllowed
      rw [Evaluator.perform_succ]
      refine .congr ?_ fun print => printsWith_printed_iff
      cases task with
      | evaluate form scope =>
          cases form with
          | literal token value =>
              refine .of_blind (.pure value.toValue) ?_
              exact Evaluator.prints_nothing (by rintro _ _ ⟨⟩) (by simp)
          | «variable» name =>
              refine .of_blind
                (.locate (.get scope name.text) name.position) ?_
              exact Evaluator.prints_nothing (by rintro _ _ ⟨⟩) (by simp)
          | assignment target value => exact Evaluator.mirrors_assignment asked
          | conditional opening test consequent alternate =>
              exact Evaluator.mirrors_conditional asked
          | lambda opening parameters body =>
              refine .of_blind (.pure _) ?_
              exact Evaluator.prints_nothing (by rintro _ _ ⟨⟩) (by simp)
          | sequence opening items => exact Evaluator.mirrors_sequence asked
          | printLine opening value =>
              refine Evaluator.mirrors_printLine asked ?_ ?_
              all_goals
                intro result before ends sink leads
                have changes := (confiningPolicy_lawful.evaluate_done confines
                  trivial allowed.2 ends).1
                have stillConfines :=
                  confiningPolicy_lawful.world_changes confines changes
                have isSink := stillConfines.sink? allowed.2 leads
              · exact stillConfines.keeping sink isSink
              · exact refuses sink isSink
          | operation operator word left right =>
              exact Evaluator.mirrors_operation asked
          | call name group arguments => exact Evaluator.mirrors_call asked
      | call callable site scope arguments =>
          cases callable with
          | closure parameters body defining =>
              exact Evaluator.mirrors_closure asked
          | native name native =>
              cases native with
              | primitive primitive => exact Evaluator.mirrors_native asked
              | foreign key =>
                  refine .of_blind (.locate (.fail _) site.position) ?_
                  exact Evaluator.prints_nothing (by rintro _ _ ⟨⟩) (by simp)

end Region

/-! ## Whole sources -/

/-- A source that is read prints what its form prints. -/
theorem printed_performs_iff {depth : Nat} {scope : ScopeId} {source : String}
    {world : World} {tokens : List Token} {form : Form}
    (lexed : tokenize source = .ok tokens)
    (parsed : Form.ofTokens tokens = .ok form) {print : Print} :
    Printed (Nested depth (.evaluate form scope)
        ((world.record (.lexed tokens.length)).record
          (.parsed form.position))) print ↔
      Printed (Performs depth scope source world) print := by
  constructor
  · rintro ⟨left, task, start, nested, prints⟩
    exact ⟨left, task, start, .intro lexed parsed nested, prints⟩
  · rintro ⟨left, task, start, ⟨lexed', parsed', nested⟩, prints⟩
    rw [lexed] at lexed'
    cases lexed'
    rw [parsed] at parsed'
    cases parsed'
    exact ⟨left, task, start, nested, prints⟩

section Source

variable {world : World} {scope : ScopeId} {refusing : Array Sink}

/-- A source mirrors where all sinks that it can get to refuse output. -/
theorem interpret_mirrors
    (keeps : Sink.AllKeep world.sinks (world.AccessibleSink scope))
    (refuses : Sink.AllRefuse refusing (world.AccessibleSink scope))
    (depth : Nat) (source : String) :
    Mirrors refusing (Printed (Performs depth scope source world))
      (interpret Host.none depth scope source) world := by
  rcases lexed : tokenize source with error | tokens
  · have fails : interpret Host.none depth scope source = Run.fail error :=
      funext fun _ => interpret_of_unlexed lexed
    rw [fails]
    refine .of_blind (.fail error) ?_
    rintro print ⟨left, task, start, ⟨lexed', -, -⟩, -⟩
    rw [lexed] at lexed'
    cases lexed'
  · rcases parsed : Form.ofTokens tokens with error | form
    · have fails : interpret Host.none depth scope source =
          Run.record (.lexed tokens.length) >>= fun _ => Run.fail error :=
        funext fun _ => interpret_of_unparsed lexed parsed
      rw [fails]
      refine .of_blind (.bind (.record _) fun _ => .fail error) ?_
      rintro print ⟨left, task, start, ⟨lexed', parsed', -⟩, -⟩
      rw [lexed] at lexed'
      cases lexed'
      rw [parsed] at parsed'
      cases parsed'
    · have confines := World.confines_accessible keeps
      have lexedConfines := confiningPolicy_lawful.change confines
        (.recorded world (.lexed tokens.length))
      have parsedConfines := confiningPolicy_lawful.change lexedConfines
        (.recorded _ (.parsed form.position))
      have mirrors : Mirrors refusing _
          ((evaluator Host.none depth).perform (.evaluate form scope)) _ :=
        perform_mirrors refuses parsedConfines ⟨trivial, .inl .start⟩
      refine .congr (mirrors.of_eq rfl ?_ ?_) fun print =>
        printed_performs_iff lexed parsed
      · exact interpret_of_parsed lexed parsed
      · exact interpret_of_parsed lexed parsed

/--
Where the sinks that a source can get to refuse output, running it stops
exactly at its first print.  If the source prints nothing where these sinks
keep their output, then it ends the same way in the same world either way.
Otherwise there is one print that it makes before any sink has received
anything, and where output is refused the source fails at the place of that
print, nothing is received, and all else is as it is just before that print.
-/
theorem refused_output_stops_at_first_print
    (keeps : Sink.AllKeep world.sinks (world.AccessibleSink scope))
    (refuses : Sink.AllRefuse refusing (world.AccessibleSink scope))
    (depth : Nat) (source : String) :
    let kept := interpret Host.none depth scope source world
    let refused := interpret Host.none depth scope source
      (world.withSinks refusing)
    let prints := Printed (Performs depth scope source world)
    ((∀ print, ¬ prints print) →
      refused = kept.withSinks refusing ∧
        ∀ after, kept.world? = some after → after.sinks = world.sinks) ∧
    ((∃ print, prints print) →
      ∃ print reason, prints print ∧ print.before.sinks = world.sinks ∧
        (∀ other, prints other → other.before.sinks = world.sinks →
          other = print) ∧
        refused = .failed (.located (.io reason) print.place)
          (print.before.withSinks refusing)) := by
  intro kept refused prints
  cases interpret_mirrors keeps refuses depth source with
  | silent nothing same unchanged =>
      refine ⟨fun _ => ⟨same, unchanged⟩, ?_⟩
      rintro ⟨print, made⟩
      exact absurd made (nothing print)
  | @stops print reason made untouched first fails captures =>
      refine ⟨fun nothing => absurd made (nothing print), fun _ => ?_⟩
      refine ⟨print, reason, made, untouched, ?_, fails⟩
      intro other otherMade otherUntouched
      rcases first other otherMade with same | later
      · exact same
      · rw [World.captured_congr otherUntouched] at later
        exact absurd later (lt_irrefl _)

/-- The print is in a closure that a native calls, and what follows is not done. -/
theorem refused_output_stops_at_first_print_in_closure :
    let world := World.ofRoots [⟨true, .keeping⟩]
    let refusing : Array Sink := #[⟨.refusingWrites "closed", ""⟩]
    let source :=
      "(begin (apply (lambda (x) (print-line x)) (list #t)) (set y nil))"
    Sink.AllKeep world.sinks (world.AccessibleSink 0) ∧
    Sink.AllRefuse refusing (world.AccessibleSink 0) ∧
    ∃ print, Printed (Performs 8 0 source world) print ∧
      print.place = ⟨1, 27⟩ ∧ print.before.sinks = world.sinks ∧
      interpret Host.none 8 0 source (world.withSinks refusing) =
        .failed (.located (.io "closed") ⟨1, 27⟩)
          (print.before.withSinks refusing) := by
  have runs : ∃ value kept refused,
      interpret Host.none 8 0
          "(begin (apply (lambda (x) (print-line x)) (list #t)) (set y nil))"
          (World.ofRoots [⟨true, .keeping⟩]) = .done value kept ∧
      interpret Host.none 8 0
          "(begin (apply (lambda (x) (print-line x)) (list #t)) (set y nil))"
          ((World.ofRoots [⟨true, .keeping⟩]).withSinks
            #[⟨.refusingWrites "closed", ""⟩]) =
        .failed (.located (.io "closed") ⟨1, 27⟩) refused := by
    refine ⟨?value, ?kept, ?refused, ?ends, ?fails⟩
    case ends =>
      cbv
      rfl
    case fails =>
      cbv
      rfl
  intro world refusing source
  have roots := World.ofRoots_rootsOnly [⟨true, .keeping⟩]
  have isFirst : ∀ {sink}, world.AccessibleSink 0 sink → sink = 0 := by
    rintro sink ⟨scope, -, leads⟩
    exact Nat.lt_one_iff.mp (roots.sink?_lt leads)
  have keeps : Sink.AllKeep world.sinks (world.AccessibleSink 0) := by
    intro sink accessible
    cases isFirst accessible
    exact ⟨"", rfl⟩
  have refuses : Sink.AllRefuse refusing (world.AccessibleSink 0) := by
    intro sink accessible
    cases isFirst accessible
    exact ⟨"closed", "", rfl⟩
  rcases runs with ⟨value, kept, refused, ends, fails⟩
  rcases refused_output_stops_at_first_print keeps refuses 8 source with
    ⟨same, stops⟩
  have prints : ∃ print, Printed (Performs 8 0 source world) print := by
    by_contra nothing
    have mirrored := (same fun print made => nothing ⟨print, made⟩).1
    rw [ends, fails] at mirrored
    cases mirrored
  rcases stops prints with
    ⟨⟨place, before⟩, reason, made, untouched, -, stopped⟩
  have failed := fails.symm.trans stopped
  cases failed
  exact ⟨keeps, refuses, _, made, rfl, untouched, fails⟩

end Source

end ScopedLisp
