import PatternSampler.Pattern.Options
import PatternSampler.Text.Numeral
/-!
# Arguments

Reads a command line.  Arguments become events, from left to right: an option with its value, a
flag, or a positional argument; what is none of these is an event too, `malformed`, so that a
request for the version that comes before it is still heeded.  The events then fill the
`Arguments`, in which every option has one place.
-/
set_option autoImplicit false

namespace PatternSampler.CommandLine

/-! ## Options and flags -/

/-- An option that takes a value. -/
inductive ValueOption where
  | file
  | program
  | seed
  | count
  | attempts
  | alphabet
  | cap
  | boundary
  | config
  | explain
  deriving DecidableEq, Repr

/-- An option that is only there or not. -/
inductive Flag where
  | ignoreCase
  | multiLine
  | dotAll
  | dump
  | debug
  | hex
  | json
  | listErrors
  | version
  deriving DecidableEq, Repr

/-- The long names of the options that take a value. -/
def valueOptionNames : List (String × ValueOption) := [
  ("file", .file), ("program", .program), ("seed", .seed), ("count", .count),
  ("attempts", .attempts), ("alphabet", .alphabet), ("cap", .cap), ("boundary", .boundary),
  ("config", .config), ("explain", .explain)]

/-- The letters of the options that take a value. -/
def valueOptionLetters : List (Char × ValueOption) := [('f', .file), ('s', .seed), ('n', .count)]

/-- The long names of the flags. -/
def flagNames : List (String × Flag) := [
  ("ignore-case", .ignoreCase), ("multi-line", .multiLine), ("dot-all", .dotAll), ("dump", .dump),
  ("debug", .debug), ("hex", .hex), ("json", .json), ("list-errors", .listErrors),
  ("version", .version)]

/-- The letters of the flags. -/
def flagLetters : List (Char × Flag) := [('i', .ignoreCase), ('m', .multiLine), ('V', .version)]

/-! ## Events -/

/-- What an argument, or two of them, say. -/
inductive Event where
  | value (o : ValueOption) (text : List Char)
  | flag (f : Flag)
  | positional (text : List Char)
  /-- no known option, or one that lacks its value or has one too many -/
  | malformed
  deriving DecidableEq, Repr

/-- What one argument says; an option may still await its value. -/
inductive Reading where
  | events (es : List Event)
  | awaits (es : List Event) (o : ValueOption)
  /-- only positional arguments follow -/
  | onlyPositional
  deriving DecidableEq, Repr

/-- Whether an argument is taken for an option; a lone dash is not. -/
def looksLikeOption : List Char → Bool
  | '-' :: _ :: _ => true
  | _ => false

/-- Reads an option by its long name. -/
def readLong (text : List Char) : Reading :=
  let name := String.ofList (text.takeWhile (· ≠ '='))
  let value? := (text.dropWhile (· ≠ '=')).tail?
  match valueOptionNames.lookup name, flagNames.lookup name, value? with
  | some o, _, some value => .events [.value o value]
  | some o, _, none => .awaits [] o
  | none, some f, none => .events [.flag f]
  | none, _, _ => .events [.malformed]

/-- Reads joined letters, after the events of those before.  What follows the letter of an option
that takes a value is that value, an equals sign before it apart. -/
def readLetters (before : List Event) : List Char → Reading
  | [] => .events before
  | c :: cs =>
    match flagLetters.lookup c, valueOptionLetters.lookup c with
    | some f, _ => readLetters (before ++ [.flag f]) cs
    | none, some o =>
      match cs with
      | [] => .awaits before o
      | '=' :: value => .events (before ++ [.value o value])
      | value => .events (before ++ [.value o value])
    | none, none => .events (before ++ [.malformed])

/-- Reads one argument. -/
def readArgument : List Char → Reading
  | ['-', '-'] => .onlyPositional
  | '-' :: '-' :: text => readLong text
  | '-' :: c :: cs => readLetters [] (c :: cs)
  | text => .events [.positional text]

/-- The events of a command line. -/
def readArguments : List (List Char) → List Event
  | [] => []
  | arg :: rest =>
    match readArgument arg with
    | .events es => es ++ readArguments rest
    | .onlyPositional => rest.map .positional
    | .awaits es o =>
      match rest with
      | [] => es ++ [.malformed]
      | value :: rest =>
        if looksLikeOption value then es ++ [.malformed]
        else es ++ .value o value :: readArguments rest

/-! ## Arguments -/

/-- What a command line says, each option in its place. -/
structure Arguments where
  pattern : Option String
  file : Option String
  program : Option String
  seed : Option UInt64
  count : Option UInt64
  attempts : Option UInt64
  alphabet : Option String
  cap : Option UInt64
  boundary : Option Char
  config : Option String
  explain : Option String
  flags : List Flag
  deriving DecidableEq, Repr

namespace Arguments

/-- An empty command line. -/
def empty : Arguments :=
  ⟨none, none, none, none, none, none, none, none, none, none, none, []⟩

/-- Whether a flag is there. -/
def has (args : Arguments) (f : Flag) : Bool := args.flags.contains f

/-- The options for patterns. -/
def patternOptions (args : Arguments) : PatternOptions :=
  ⟨args.has .ignoreCase, args.has .multiLine, args.has .dotAll⟩

/-- A place that holds `value` from now on; `none` if it is taken already. -/
def fill {α : Type} (place : Option α) (value : α) : Option (Option α) :=
  match place with
  | none => some (some value)
  | some _ => none

end Arguments

/-- A number below 2^64, with an optional plus sign. -/
def number? (text : List Char) : Option UInt64 :=
  let digits := match text with
    | '+' :: digits => digits
    | digits => digits
  if digits ≠ [] ∧ digits.all (·.isDigit) ∧ Text.ofDigits digits < 18446744073709551616 then
    some (UInt64.ofNat (Text.ofDigits digits))
  else none

/-- A text of exactly one character. -/
def oneChar? : List Char → Option Char
  | [c] => some c
  | _ => none

/-- The name of a file, which is not empty. -/
def fileName? (text : List Char) : Option String :=
  if text = [] then none else some (String.ofList text)

namespace Arguments

/-- The arguments with the value of an option. -/
def withValue (args : Arguments) (text : List Char) : ValueOption → Option Arguments
  | .file => (fileName? text).bind fun v => (fill args.file v).map fun p => { args with file := p }
  | .program =>
    (fileName? text).bind fun v => (fill args.program v).map fun p => { args with program := p }
  | .seed => (number? text).bind fun v => (fill args.seed v).map fun p => { args with seed := p }
  | .count => (number? text).bind fun v => (fill args.count v).map fun p => { args with count := p }
  | .attempts =>
    (number? text).bind fun v => (fill args.attempts v).map fun p => { args with attempts := p }
  | .alphabet => (fill args.alphabet (String.ofList text)).map fun p => { args with alphabet := p }
  | .cap => (number? text).bind fun v => (fill args.cap v).map fun p => { args with cap := p }
  | .boundary =>
    (oneChar? text).bind fun v => (fill args.boundary v).map fun p => { args with boundary := p }
  | .config => (fill args.config (String.ofList text)).map fun p => { args with config := p }
  | .explain => (fill args.explain (String.ofList text)).map fun p => { args with explain := p }

/-- The arguments with a flag. -/
def withFlag (args : Arguments) (f : Flag) : Option Arguments :=
  if args.has f then none else some { args with flags := args.flags ++ [f] }

/-- Whether no two arguments exclude each other: patterns have one origin. -/
def agree (args : Arguments) : Bool :=
  !(args.file.isSome && (args.pattern.isSome || args.program.isSome))
    && !(args.program.isSome && args.pattern.isSome)

end Arguments

/-! ## Commands -/

/-- What a command line asks for. -/
inductive Command where
  | version
  | session (args : Arguments)
  deriving DecidableEq, Repr

/-- The command of a list of events, after the arguments so far; `none` for one that is used
wrongly. -/
def Command.ofEvents (args : Arguments) : List Event → Option Command
  | [] => if args.agree then some (.session args) else none
  | .malformed :: _ => none
  | .flag .version :: _ => some .version
  | .flag f :: es => (args.withFlag f).bind fun args => ofEvents args es
  | .value o text :: es => (args.withValue text o).bind fun args => ofEvents args es
  | .positional text :: es =>
    (Arguments.fill args.pattern (String.ofList text)).bind fun p =>
      ofEvents { args with pattern := p } es

/-- The command that a command line spells; `none` for one that is used wrongly. -/
def Command.parse (args : List String) : Option Command :=
  Command.ofEvents .empty (readArguments (args.map (·.toList)))

end PatternSampler.CommandLine
