/-!
# Taking options out of arguments

A command takes its options out of its arguments with the three operations of a
library.  `ArgumentLibrary.Documented` says what is known of them: which
arguments they take and which they leave, and nothing about the wording of an
error.  Everything about options is stated for every such library, and
`ArgumentLibrary.inPasses` is the one that the command runs with.
-/

namespace ScopedLisp

/-- The operations of a library, on the arguments that are left. -/
structure ArgumentLibrary where
  /-- Whether one of some flags is there, and what is left without it. -/
  contains : List String → List String → Bool × List String
  /-- What stands behind some options and what is left, or what is wrong. -/
  values : List String → List String →
    Except String (List String × List String)
  /-- The arguments that are left at the end. -/
  finish : List String → List String

/-- What is documented of a library. -/
structure ArgumentLibrary.Documented (library : ArgumentLibrary) : Prop where
  /-- A flag that is there is found, under each of its keys. -/
  contains_present {keys arguments : List String} {key : String}
    (isKey : key ∈ keys) (present : key ∈ arguments) :
    (library.contains keys arguments).1 = true
  /-- A flag that is not there is not found and takes nothing away. -/
  contains_absent {keys arguments : List String}
    (absent : ∀ key ∈ keys, key ∉ arguments) :
    library.contains keys arguments = (false, arguments)
  /-- Finding a flag takes one occurrence of it away. -/
  contains_flag {arguments : List String} {flag : String}
    (present : flag ∈ arguments) :
    library.contains [flag] arguments = (true, arguments.erase flag)
  /-- All pairs of the first key are taken out, and then all pairs of the second. -/
  values_both (first second : String) (arguments : List String) :
    library.values [first, second] arguments = do
      let (earlier, left) ← library.values [first] arguments
      let (later, rest) ← library.values [second] left
      .ok (earlier ++ later, rest)
  /-- An option that is not there has no values and takes nothing away. -/
  values_absent {arguments : List String} {key : String}
    (absent : key ∉ arguments) : library.values [key] arguments = .ok ([], arguments)
  /-- The first occurrence of an option is taken out with the argument behind it. -/
  values_pair {before : List String} {key : String} (isFirst : key ∉ before)
    (value : String) (behind : List String) :
    library.values [key] (before ++ key :: value :: behind) =
      (library.values [key] (before ++ behind)).map fun (values, left) =>
        (value :: values, left)
  /-- An option with nothing behind it is an error. -/
  values_missing {before : List String} {key : String} (isFirst : key ∉ before) :
    ∃ reason, library.values [key] (before ++ [key]) = .error reason
  /-- Everything that was not taken out is left, in order. -/
  finish_eq (arguments : List String) : library.finish arguments = arguments

namespace ArgumentLibrary

/--
Takes out every occurrence of an option together with the argument behind it:
these arguments in order, and what is left.
-/
def takeValues (option : String) :
    List String → Except String (List String × List String)
  | [] => .ok ([], [])
  | [argument] =>
    if argument = option then
      .error s!"the '{option}' option doesn't have an associated value"
    else .ok ([], [argument])
  | argument :: value :: arguments =>
    if argument = option then
      (takeValues option arguments).map fun (values, left) =>
        (value :: values, left)
    else
      (takeValues option (value :: arguments)).map fun (values, left) =>
        (values, argument :: left)

/-- Takes out the values of one option after those of another. -/
def takeEach : List String → List String →
    Except String (List String × List String)
  | [], arguments => .ok ([], arguments)
  | option :: options, arguments => do
    let (values, left) ← takeValues option arguments
    let (others, rest) ← takeEach options left
    .ok (values ++ others, rest)

/-- Takes out one occurrence of the first flag that is there. -/
def takeFlag (flags arguments : List String) : Bool × List String :=
  match flags.find? (arguments.contains ·) with
  | some flag => (true, arguments.erase flag)
  | none => (false, arguments)

/-- A pass over the arguments for each flag and each spelling of an option. -/
def inPasses : ArgumentLibrary where
  contains := takeFlag
  values := takeEach
  finish := id

end ArgumentLibrary

end ScopedLisp
