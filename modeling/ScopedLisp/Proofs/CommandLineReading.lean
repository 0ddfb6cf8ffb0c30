import Mathlib
import ScopedLisp.Command.Options

/-!
# Command lines read from left to right

A command line is a row of words: an option that takes an expression stands
together with the argument behind it, and every other argument stands alone.
`CommandLine.read` reads the words from left to right.  The options are taken
out of the arguments by a library that takes a pass for each spelling instead,
first every `-e` and then every `--eval`, and the passes see what the reading
sees unless an `--eval` has the text `-e` behind it
(`ArgumentLibrary.Documented.values_of_words`).  What is used of the library is
its documentation alone.

So the files come out in order, and so do the expressions of each spelling.
But those behind `-e` all come before those behind `--eval`: a command line
that uses the spellings the other way round is not run in its own order
(`mixed_spellings_lose_order`).
-/

namespace ScopedLisp

/-! ## Words -/

/-- What arguments of a command line say together. -/
inductive CommandWord where
  /-- An option with the expression behind it. -/
  | expression (option value : String)
  /-- Any other argument. -/
  | argument (text : String)
  deriving DecidableEq

namespace CommandLine

/-- The options that take an expression, in both spellings. -/
def expressionOptions : List String :=
  ["-e", "--eval"]

/-- The options that take nothing. -/
def flags : List String :=
  ["--bare", "--print-result", "--dump-env"]

end CommandLine

namespace CommandWord

/-- The arguments that a word consists of. -/
def written : CommandWord → List String
  | .expression option value => [option, value]
  | .argument text => [text]

/-- The expression that a word gives. -/
def value? : CommandWord → Option String
  | .expression _ value => some value
  | .argument _ => none

/-- The argument that a word is. -/
def text? : CommandWord → Option String
  | .expression _ _ => none
  | .argument text => some text

/-- Whether a word gives an expression behind an option. -/
def isBehind (option : String) : CommandWord → Bool
  | .expression spelling _ => spelling == option
  | .argument _ => false

@[simp]
theorem value?_expression (option value : String) :
    (expression option value).value? = some value :=
  rfl

@[simp]
theorem value?_argument (text : String) : (argument text).value? = none :=
  rfl

@[simp]
theorem text?_expression (option value : String) :
    (expression option value).text? = none :=
  rfl

@[simp]
theorem text?_argument (text : String) : (argument text).text? = some text :=
  rfl

@[simp]
theorem isBehind_expression (option spelling value : String) :
    (expression spelling value).isBehind option = (spelling == option) :=
  rfl

@[simp]
theorem isBehind_argument (option text : String) :
    (argument text).isBehind option = false :=
  rfl

/-- Whether an expression stands behind an option, and an option in front of an expression. -/
def IsProper : CommandWord → Prop
  | .expression option _ => option ∈ CommandLine.expressionOptions
  | .argument text => text ∉ CommandLine.expressionOptions

/-- Whether a word does not use the text of an option for anything else. -/
def Spares (option : String) : CommandWord → Prop
  | .expression spelling value => spelling = option ∨ value ≠ option
  | .argument text => text ≠ option

/-- Words that spare an option and do not stand behind it are written without it. -/
theorem not_mem_written {option : String} {words : List CommandWord}
    (spares : ∀ word ∈ words, word.Spares option) :
    option ∉ (words.filter (!·.isBehind option)).flatMap written := by
  intro member
  rcases List.mem_flatMap.mp member with ⟨word, left, inside⟩
  rcases List.mem_filter.mp left with ⟨wordMember, notBehind⟩
  have spared := spares word wordMember
  cases word with
  | argument text => exact spared (List.mem_singleton.mp inside).symm
  | expression spelling value =>
      have isOther : spelling ≠ option := by simpa using notBehind
      rcases List.mem_pair.mp inside with same | same
      · exact isOther same.symm
      · exact spared.resolve_left isOther same.symm

end CommandWord

/-! ## Reading from left to right -/

/-- The words of a command line, and an option at its end that has nothing behind it. -/
structure CommandLine where
  words : List CommandWord
  unfinished : Option String

namespace CommandLine

/-- A command line with a word in front. -/
def precededBy (word : CommandWord) (line : CommandLine) : CommandLine :=
  { line with words := word :: line.words }

/-- Reads arguments from left to right. -/
def read : List String → CommandLine
  | [] => ⟨[], none⟩
  | [argument] =>
    if argument ∈ expressionOptions then ⟨[], some argument⟩
    else ⟨[.argument argument], none⟩
  | argument :: value :: arguments =>
    if argument ∈ expressionOptions then
      (read arguments).precededBy (.expression argument value)
    else
      (read (value :: arguments)).precededBy (.argument argument)

/-- The expressions of a command line, in its order. -/
def expressions (line : CommandLine) : List String :=
  line.words.filterMap CommandWord.value?

/-- The expressions behind one option, in the order of the command line. -/
def expressionsBehind (option : String) (line : CommandLine) : List String :=
  (line.words.filter (·.isBehind option)).filterMap CommandWord.value?

/-- The files of a command line: what is no option, no expression and no flag. -/
def files (line : CommandLine) : List String :=
  (line.words.filterMap CommandWord.text?).filter (· ∉ flags)

/-- The words of arguments are made of these arguments, all of them. -/
theorem written_read (arguments : List String) :
    (read arguments).words.flatMap CommandWord.written ++
      (read arguments).unfinished.toList = arguments := by
  fun_induction read arguments with
  | case1 => rfl
  | case2 | case3 => rfl
  | case4 argument value arguments isOption ih =>
      simpa [precededBy, CommandWord.written] using ih
  | case5 argument value arguments isOther ih =>
      simpa [precededBy, CommandWord.written] using ih

/-- Exactly the options are read as options. -/
theorem isProper_of_mem_read {arguments : List String} {word : CommandWord}
    (member : word ∈ (read arguments).words) : word.IsProper := by
  fun_induction read arguments with
  | case1 | case2 => contradiction
  | case3 argument isOther =>
      rw [List.mem_singleton.mp member]
      exact isOther
  | case4 argument value arguments isOption ih =>
      rcases List.mem_cons.mp member with rfl | later
      · exact isOption
      · exact ih later
  | case5 argument value arguments isOther ih =>
      rcases List.mem_cons.mp member with rfl | later
      · exact isOther
      · exact ih later

theorem isOption_of_unfinished {arguments : List String} {option : String}
    (unfinished : (read arguments).unfinished = some option) :
    option ∈ expressionOptions := by
  fun_induction read arguments with
  | case1 | case3 => contradiction
  | case2 argument isOption =>
      cases unfinished
      exact isOption
  | case4 argument value arguments isOption ih => exact ih unfinished
  | case5 argument value arguments isOther ih => exact ih unfinished

end CommandLine

/-! ## Taking options out -/

namespace ArgumentLibrary

namespace Documented

variable {library : ArgumentLibrary} (documented : library.Documented)

include documented

/-- Asking for a flag leaves the arguments without one occurrence of it. -/
theorem contains_flag_left (flag : String) (arguments : List String) :
    (library.contains [flag] arguments).2 = arguments.erase flag := by
  by_cases present : flag ∈ arguments
  · rw [documented.contains_flag present]
  · rw [documented.contains_absent (by simpa using present),
      List.erase_of_not_mem present]

/-- A flag that is not found leaves the arguments as they are. -/
theorem contains_eq_false {keys arguments left : List String}
    (notFound : library.contains keys arguments = (false, left)) :
    left = arguments := by
  have absent : ∀ key ∈ keys, key ∉ arguments := by
    intro key isKey present
    have found := documented.contains_present isKey present
    rw [notFound] at found
    contradiction
  rw [documented.contains_absent absent] at notFound
  cases notFound
  rfl

/-- The values of the words of an option are taken out, in front of any others. -/
theorem values_written {option : String} {words : List CommandWord}
    (spares : ∀ word ∈ words, word.Spares option) {before : List String}
    (absent : option ∉ before) (rest : List String) :
    library.values [option]
        (before ++ (words.flatMap CommandWord.written ++ rest)) =
      (library.values [option]
        (before ++ ((words.filter (!·.isBehind option)).flatMap
          CommandWord.written ++ rest))).map fun (values, left) =>
        ((words.filter (·.isBehind option)).filterMap CommandWord.value? ++ values,
          left) := by
  induction words generalizing before with
  | nil =>
      simp only [List.filter_nil, List.flatMap_nil, List.nil_append]
      cases library.values [option] (before ++ rest) <;> rfl
  | cons word words ih =>
      have restSpares : ∀ other ∈ words, other.Spares option :=
        fun other member => spares other (List.mem_cons_of_mem word member)
      have sparesHere := spares word List.mem_cons_self
      cases word with
      | argument text =>
          have absentHere : option ∉ before ++ [text] := by
            simpa using ⟨absent, sparesHere.symm⟩
          simpa [CommandWord.written] using ih restSpares absentHere
      | expression spelling value =>
          by_cases same : spelling = option
          · have itsOwn : (CommandWord.expression spelling value).isBehind option =
                true := by
              simp [same]
            simp only [List.filter_cons, itsOwn, Bool.not_true,
              Bool.false_eq_true, if_true, if_false]
            rw [List.flatMap_cons, List.append_assoc, CommandWord.written, same,
              List.cons_append, List.singleton_append,
              documented.values_pair absent, ih restSpares absent]
            cases library.values [option] (before ++ _) <;> rfl
          · have isOther : value ≠ option := sparesHere.resolve_left same
            have absentHere : option ∉ before ++ [spelling, value] := by
              simpa using ⟨absent, Ne.symm same, isOther.symm⟩
            simpa [CommandWord.written, List.filter_cons, same] using
              ih restSpares absentHere

/-- A pass takes the words of its option and leaves the others as they are. -/
theorem values_of_words {option : String} {words : List CommandWord}
    (spares : ∀ word ∈ words, word.Spares option) {rest : List String}
    (absent : option ∉ rest) :
    library.values [option] (words.flatMap CommandWord.written ++ rest) =
      .ok ((words.filter (·.isBehind option)).filterMap CommandWord.value?,
        (words.filter (!·.isBehind option)).flatMap CommandWord.written ++ rest) := by
  have noneLeft : option ∉ (words.filter (!·.isBehind option)).flatMap
      CommandWord.written ++ rest :=
    List.not_mem_append (CommandWord.not_mem_written spares) absent
  have taken := documented.values_written spares List.not_mem_nil rest
  rw [List.nil_append, List.nil_append, documented.values_absent noneLeft] at taken
  simp only [taken, Except.map, List.append_nil]

/-- An option at the very end is refused by its pass. -/
theorem values_of_unfinished {option : String} {words : List CommandWord}
    (spares : ∀ word ∈ words, word.Spares option) :
    ∃ reason, library.values [option]
      (words.flatMap CommandWord.written ++ [option]) = .error reason := by
  have taken := documented.values_written spares List.not_mem_nil [option]
  rcases documented.values_missing (CommandWord.not_mem_written spares) with
    ⟨reason, refused⟩
  rw [List.nil_append, List.nil_append, refused] at taken
  exact ⟨reason, taken⟩

end Documented

end ArgumentLibrary

namespace Options

/-- Only arguments that do not look like options name files. -/
theorem readFiles_eq_ok_iff {arguments files : List String} :
    readFiles arguments = .ok files ↔
      files = arguments ∧ ∀ file ∈ files, looksLikeOption file = false := by
  rw [readFiles]
  rcases suspect : arguments.find? looksLikeOption with _ | argument
  · have none := List.find?_eq_none.mp suspect
    constructor
    · rintro ⟨⟩
      exact ⟨rfl, fun file member => Bool.eq_false_iff.mpr (none file member)⟩
    · rintro ⟨rfl, -⟩
      rfl
  · constructor
    · rintro ⟨⟩
    · rintro ⟨rfl, clean⟩
      have looksLike := List.find?_some suspect
      rw [clean argument (List.mem_of_find?_eq_some suspect)] at looksLike
      contradiction

/-- What the passes make of arguments that are accepted. -/
theorem ofArguments_passes {library : ArgumentLibrary}
    (documented : library.Documented) {arguments : List String}
    {options : Options}
    (accepted : ofArguments library arguments = .ok (some options)) :
    ∃ short left long rest,
      library.values ["-e"] arguments = .ok (short, left) ∧
      library.values ["--eval"] left = .ok (long, rest) ∧
      options.expressions = short ++ long ∧
      readFiles (CommandLine.flags.foldl List.erase rest) =
        .ok options.files := by
  rw [ofArguments] at accepted
  rcases help : library.contains ["-h", "--help"] arguments with ⟨asked, given⟩
  simp only [help] at accepted
  cases asked with
  | true => cases accepted
  | false =>
      obtain rfl := documented.contains_eq_false help
      rw [if_neg Bool.false_ne_true, documented.values_both] at accepted
      rcases first : library.values ["-e"] given with fault | ⟨short, left⟩
      · simp only [first, bind, Except.bind, Except.mapError] at accepted
        contradiction
      rcases second : library.values ["--eval"] left with fault | ⟨long, rest⟩
      · simp only [first, second, bind, Except.bind, Except.mapError] at accepted
        contradiction
      refine ⟨short, left, long, rest, rfl, second, ?_⟩
      rcases bare : library.contains ["--bare"] rest with ⟨isBare, left₁⟩
      rcases prints : library.contains ["--print-result"] left₁ with
        ⟨isPrinting, left₂⟩
      rcases dumps : library.contains ["--dump-env"] left₂ with
        ⟨isDumping, left₃⟩
      simp only [first, second, bare, prints, dumps, bind, Except.bind,
        Except.mapError, documented.finish_eq] at accepted
      simp only [CommandLine.flags, List.foldl_cons, List.foldl_nil,
        ← documented.contains_flag_left, bare, prints, dumps]
      cases files : readFiles left₃ with
      | error fault =>
          rw [files] at accepted
          contradiction
      | ok names =>
          rw [files] at accepted
          cases accepted
          exact ⟨rfl, rfl⟩

end Options

/-! ## The order of expressions and files -/

namespace CommandLine

section Words

variable {words : List CommandWord}

/-- The first pass leaves the words that the second one is about. -/
theorem filter_long_of_filter_short :
    (words.filter (!·.isBehind "-e")).filter (·.isBehind "--eval") =
      words.filter (·.isBehind "--eval") := by
  rw [List.filter_filter]
  refine List.filter_congr fun word _ => ?_
  cases word with
  | argument text => rfl
  | expression spelling value =>
      by_cases same : spelling = "--eval" <;> simp [same]

/-- Both passes leave the single arguments. -/
theorem written_of_filters (proper : ∀ word ∈ words, word.IsProper) :
    ((words.filter (!·.isBehind "-e")).filter (!·.isBehind "--eval")).flatMap
        CommandWord.written =
      words.filterMap CommandWord.text? := by
  induction words with
  | nil => rfl
  | cons word words ih =>
      have restWritten := ih fun other member =>
        proper other (List.mem_cons_of_mem word member)
      have properHere := proper word List.mem_cons_self
      cases word with
      | argument text =>
          simpa [CommandWord.written] using restWritten
      | expression spelling value =>
          simp only [CommandWord.IsProper, expressionOptions, List.mem_cons,
            List.not_mem_nil, or_false] at properHere
          rcases properHere with rfl | rfl
          all_goals simpa [List.filterMap_cons] using restWritten

/-- If no `-e` stands behind an `--eval`, sorting by spelling changes nothing. -/
theorem expressions_eq_of_pairwise (proper : ∀ word ∈ words, word.IsProper)
    (inOrder : words.Pairwise fun earlier later =>
      ¬ (earlier.isBehind "--eval" ∧ later.isBehind "-e")) :
    (words.filter (·.isBehind "-e")).filterMap CommandWord.value? ++
        (words.filter (·.isBehind "--eval")).filterMap CommandWord.value? =
      words.filterMap CommandWord.value? := by
  induction words with
  | nil => rfl
  | cons word words ih =>
      rcases List.pairwise_cons.mp inOrder with ⟨first, rest⟩
      have restInOrder := ih
        (fun other member => proper other (List.mem_cons_of_mem word member)) rest
      have properHere := proper word List.mem_cons_self
      cases word with
      | argument text =>
          simpa [List.filterMap_cons] using restInOrder
      | expression spelling value =>
          simp only [CommandWord.IsProper, expressionOptions, List.mem_cons,
            List.not_mem_nil, or_false] at properHere
          rcases properHere with rfl | rfl
          · simpa using restInOrder
          · have noShort : words.filter (·.isBehind "-e") = [] :=
              List.filter_eq_nil_iff.mpr fun later member isShort =>
                first later member ⟨rfl, isShort⟩
            rw [noShort, List.filterMap_nil, List.nil_append] at restInOrder
            simp [noShort, restInOrder]

/-- Taking flags out does not change what else there is. -/
theorem filter_foldl_erase {taken : List String}
    (areFlags : ∀ flag ∈ taken, flag ∈ flags) (texts : List String) :
    (taken.foldl List.erase texts).filter (· ∉ flags) =
      texts.filter (· ∉ flags) := by
  induction taken generalizing texts with
  | nil => rfl
  | cons flag taken ih =>
      have isFlag := areFlags flag List.mem_cons_self
      rw [List.foldl_cons,
        ih fun other member => areFlags other (List.mem_cons_of_mem flag member),
        ← List.erase_filter, List.erase_of_not_mem]
      simp [isFlag]

/-- If nothing that looks like an option is left, the flags are gone, and nothing else. -/
theorem foldl_erase_flags {texts : List String}
    (clean : ∀ file ∈ flags.foldl List.erase texts,
      Options.looksLikeOption file = false) :
    flags.foldl List.erase texts = texts.filter (· ∉ flags) := by
  have looksLike : ∀ flag ∈ flags, Options.looksLikeOption flag = true := by
    decide
  have noFlags : ∀ file ∈ flags.foldl List.erase texts, file ∉ flags := by
    intro file member isFlag
    have impossible := (clean file member).symm.trans (looksLike file isFlag)
    contradiction
  rw [← filter_foldl_erase (fun _ => id), List.filter_eq_self.mpr]
  simpa using noFlags

/-- The first pass takes nothing for its option that the reading takes for something else. -/
theorem spares_short (proper : ∀ word ∈ words, word.IsProper)
    (unshadowed : .expression "--eval" "-e" ∉ words) :
    ∀ word ∈ words, word.Spares "-e" := by
  intro word member
  have properWord := proper word member
  cases word with
  | argument text =>
      rintro rfl
      exact properWord (by decide)
  | expression spelling value =>
      simp only [CommandWord.IsProper, expressionOptions, List.mem_cons,
        List.not_mem_nil, or_false] at properWord
      rcases properWord with rfl | rfl
      · exact .inl rfl
      · refine .inr ?_
        rintro rfl
        exact unshadowed member

/-- Nor does the second pass, with what the first one leaves. -/
theorem spares_long (proper : ∀ word ∈ words, word.IsProper) :
    ∀ word ∈ words.filter (!·.isBehind "-e"), word.Spares "--eval" := by
  intro word member
  rcases List.mem_filter.mp member with ⟨inside, left⟩
  have properWord := proper word inside
  cases word with
  | argument text =>
      rintro rfl
      exact properWord (by decide)
  | expression spelling value =>
      simp only [CommandWord.IsProper, expressionOptions, List.mem_cons,
        List.not_mem_nil, or_false] at properWord
      rcases properWord with rfl | rfl
      · contradiction
      · exact .inl rfl

end Words

/-- Arguments that both passes accept have no option without an expression. -/
theorem passes_read {library : ArgumentLibrary}
    (documented : library.Documented)
    {arguments short left long rest : List String}
    (unshadowed : .expression "--eval" "-e" ∉ (read arguments).words)
    (first : library.values ["-e"] arguments = .ok (short, left))
    (second : library.values ["--eval"] left = .ok (long, rest)) :
    short = (read arguments).expressionsBehind "-e" ∧
      long = (read arguments).expressionsBehind "--eval" ∧
      rest = (read arguments).words.filterMap CommandWord.text? := by
  have proper : ∀ word ∈ (read arguments).words, word.IsProper :=
    fun word member => isProper_of_mem_read member
  have sparesShort := spares_short proper unshadowed
  have sparesLong := spares_long proper
  rw [← written_read arguments] at first
  rcases last : (read arguments).unfinished with _ | option
  · rw [last, Option.toList_none,
      documented.values_of_words sparesShort List.not_mem_nil] at first
    cases first
    rw [documented.values_of_words sparesLong List.not_mem_nil] at second
    cases second
    rw [filter_long_of_filter_short, written_of_filters proper]
    exact ⟨rfl, rfl, List.append_nil _⟩
  · -- An option that stands last is refused by the pass that it is for.
    have isOption := isOption_of_unfinished last
    rw [last, Option.toList_some] at first
    simp only [expressionOptions, List.mem_cons, List.not_mem_nil, or_false]
      at isOption
    rcases isOption with rfl | rfl
    · rcases documented.values_of_unfinished sparesShort with ⟨_, refused⟩
      rw [refused] at first
      contradiction
    · rw [documented.values_of_words sparesShort (by decide)] at first
      cases first
      rcases documented.values_of_unfinished sparesLong with ⟨_, refused⟩
      rw [refused] at second
      contradiction

end CommandLine

/-! ## A pass for each spelling -/

namespace ArgumentLibrary

theorem takeValues_cons_of_ne {option argument : String}
    (isOther : argument ≠ option) (arguments : List String) :
    takeValues option (argument :: arguments) =
      (takeValues option arguments).map fun (values, left) =>
        (values, argument :: left) := by
  cases arguments with
  | nil => exact if_neg isOther
  | cons value arguments => exact if_neg isOther

/-- What stands in front of the first occurrence of an option is left. -/
theorem takeValues_append {option : String} {before : List String}
    (isFirst : option ∉ before) (arguments : List String) :
    takeValues option (before ++ arguments) =
      (takeValues option arguments).map fun (values, left) =>
        (values, before ++ left) := by
  induction before with
  | nil =>
      rw [List.nil_append]
      cases takeValues option arguments <;> rfl
  | cons argument before ih =>
      rcases not_or.mp (List.mem_cons.not.mp isFirst) with ⟨isOther, restFirst⟩
      rw [List.cons_append, takeValues_cons_of_ne (Ne.symm isOther),
        ih restFirst]
      cases takeValues option arguments <;> rfl

theorem takeEach_singleton (option : String) (arguments : List String) :
    takeEach [option] arguments = takeValues option arguments := by
  simp only [takeEach, bind, Except.bind]
  cases takeValues option arguments with
  | error reason => rfl
  | ok taken => simp only [List.append_nil]

/-- The library that takes a pass for each spelling keeps to the documentation. -/
theorem inPasses_documented : inPasses.Documented where
  contains_present {keys arguments key} isKey present := by
    rcases found : keys.find? (arguments.contains ·) with _ | flag
    · have absent := List.find?_eq_none.mp found key isKey
      simp [present] at absent
    · simp only [inPasses, takeFlag, found]
  contains_absent {keys arguments} absent := by
    have noFlag : keys.find? (arguments.contains ·) = none :=
      List.find?_eq_none.mpr fun key isKey => by simpa using absent key isKey
    simp only [inPasses, takeFlag, noFlag]
  contains_flag {arguments flag} present := by
    have found : [flag].find? (arguments.contains ·) = some flag := by
      simp [present]
    simp only [inPasses, takeFlag, found]
  values_both first second arguments := by
    simp only [inPasses, takeEach_singleton]
    rw [takeEach]
    simp only [takeEach_singleton]
  values_absent {arguments key} absent := by
    have taken := takeValues_append absent []
    rw [List.append_nil] at taken
    change takeEach [key] arguments = _
    simp only [takeEach_singleton, taken, takeValues, Except.map, List.append_nil]
  values_pair {before key} isFirst value behind := by
    have pair : takeValues key (key :: value :: behind) =
        (takeValues key behind).map fun (values, left) =>
          (value :: values, left) :=
      if_pos rfl
    simp only [inPasses, takeEach_singleton, takeValues_append isFirst, pair]
    cases takeValues key behind <;> rfl
  values_missing {before key} isFirst := by
    have missing : takeValues key [key] =
        .error s!"the '{key}' option doesn't have an associated value" :=
      if_pos rfl
    simp only [inPasses, takeEach_singleton, takeValues_append isFirst, missing]
    exact ⟨_, rfl⟩
  finish_eq _ := rfl

end ArgumentLibrary

/--
Whenever arguments are accepted, on any library that keeps to its documentation,
and no `--eval` has the text `-e` behind it, the files are those of the command
line read from left to right, in order.  The expressions are those behind `-e`,
in order, and then those behind `--eval`, in order.  This is their order on the
command line if no `-e` stands behind an `--eval`.
-/
theorem expressions_keep_order_by_spelling {library : ArgumentLibrary}
    (documented : library.Documented) {arguments : List String}
    {options : Options}
    (accepted : Options.ofArguments library arguments = .ok (some options))
    (unshadowed : .expression "--eval" "-e" ∉
      (CommandLine.read arguments).words) :
    let line := CommandLine.read arguments
    options.files = line.files ∧
      options.expressions =
        line.expressionsBehind "-e" ++ line.expressionsBehind "--eval" ∧
      ((line.words.Pairwise fun earlier later =>
          ¬ (earlier.isBehind "--eval" ∧ later.isBehind "-e")) →
        options.expressions = line.expressions) := by
  intro line
  rcases Options.ofArguments_passes documented accepted with
    ⟨short, left, long, rest, first, second, expressions, files⟩
  rcases CommandLine.passes_read documented unshadowed first second with
    ⟨rfl, rfl, rfl⟩
  rcases Options.readFiles_eq_ok_iff.mp files with ⟨erased, clean⟩
  refine ⟨?_, expressions, fun inOrder => ?_⟩
  · rw [erased] at clean
    exact erased.trans (CommandLine.foldl_erase_flags clean)
  · rw [expressions]
    exact CommandLine.expressions_eq_of_pairwise
      (fun word member => CommandLine.isProper_of_mem_read member) inOrder

/-- One expression in each spelling, a file and a flag. -/
theorem expressions_keep_order_short_first :
    let arguments :=
      ["-e", "(set a 1)", "one.wl", "--eval", "a", "--print-result"]
    ArgumentLibrary.inPasses.Documented ∧
      ∃ options,
        Options.ofArguments .inPasses arguments = .ok (some options) ∧
        .expression "--eval" "-e" ∉ (CommandLine.read arguments).words ∧
        options.files = ["one.wl"] ∧ options.expressions = ["(set a 1)", "a"] := by
  intro arguments
  have accepted : Options.ofArguments .inPasses arguments =
      .ok (some ⟨["(set a 1)", "a"], ["one.wl"], false, true, false⟩) := by
    decide
  have unshadowed : .expression "--eval" "-e" ∉
      (CommandLine.read arguments).words := by
    decide
  have inOrder := expressions_keep_order_by_spelling
    ArgumentLibrary.inPasses_documented accepted unshadowed
  exact ⟨ArgumentLibrary.inPasses_documented, _, accepted, unshadowed,
    inOrder.1, inOrder.2.2 (by decide)⟩

/-- An expression behind `--eval` is run after one behind `-e` that follows it. -/
theorem mixed_spellings_lose_order :
    let arguments := ["--eval", "(set a 1)", "-e", "a", "--print-result"]
    (CommandLine.read arguments).expressions = ["(set a 1)", "a"] ∧
      ArgumentLibrary.inPasses.Documented ∧
      ∃ options,
        Options.ofArguments .inPasses arguments = .ok (some options) ∧
        options.expressions = ["a", "(set a 1)"] := by
  intro arguments
  exact ⟨by decide, ArgumentLibrary.inPasses_documented, _, rfl, by decide⟩

/-- A `-e` is taken for an option even where it stands behind an `--eval`. -/
example :
    let arguments := ["--eval", "-e", "1", "2"]
    (CommandLine.read arguments).expressions = ["-e"] ∧
      (CommandLine.read arguments).files = ["1", "2"] ∧
      Options.ofArguments .inPasses arguments =
        .ok (some ⟨["1", "2"], [], false, false, false⟩) := by
  decide

end ScopedLisp
