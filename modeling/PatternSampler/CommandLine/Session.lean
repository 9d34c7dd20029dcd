import PatternSampler.CommandLine.Arguments
import PatternSampler.CommandLine.Series
import PatternSampler.Diagnostic.JsonLine
import PatternSampler.Diagnostic.OfError
import PatternSampler.Diagnostic.Terminal
import PatternSampler.Generation.Trace
import PatternSampler.Program.Codec
/-!
# Sessions

What a command line does, as a function of its arguments and of what it finds around it (`World`):
the two texts that it writes and whether all went well.  A session is put together from outcomes
one after the other, so that each pattern of a file contributes what it would on its own.  It has
no outcome as long as one of its runs has not ended.
-/
set_option autoImplicit false

namespace PatternSampler.CommandLine

/-! ## Outcomes -/

/-- What a part of a session comes to. -/
structure Outcome where
  isOk : Bool
  /-- the text on standard output -/
  out : String
  /-- the text on standard error -/
  err : String
  deriving DecidableEq, Repr

namespace Outcome

/-- Nothing is written. -/
def nothing : Outcome := ⟨true, "", ""⟩

/-- A text on standard output. -/
def print (text : String) : Outcome := ⟨true, text, ""⟩

/-- A text on standard error that tells of no failure. -/
def note (text : String) : Outcome := ⟨true, "", text⟩

/-- A failure that nothing is written about. -/
def failure : Outcome := ⟨false, "", ""⟩

/-- One outcome after another. -/
def andThen (a b : Outcome) : Outcome := ⟨a.isOk && b.isOk, a.out ++ b.out, a.err ++ b.err⟩

/-- Outcomes one after the other. -/
def all (os : List Outcome) : Outcome := os.foldl andThen nothing

/-- The exit code. -/
def code (o : Outcome) : Nat := if o.isOk then 0 else 1

end Outcome

/-! ## Surroundings -/

/-- What a session finds around it. -/
structure World where
  /-- the library that the texts are checked with -/
  backend : Backend
  /-- the text of a file, or what the system says when it cannot be read -/
  files : String → Except String (List Char)
  /-- whether standard error is a terminal -/
  isTerminal : Bool
  /-- what is said of a text that is refused as settings -/
  settingsFault : List Char → Json.Fault → String
  /-- what is said of a text that is refused as a program -/
  programFault : List Char → Json.Fault → String

/-- A failure, reported as a line of JSON or for a reader, with colours on a terminal. -/
def report (w : World) (args : Arguments) (d : Diagnostic) : Outcome :=
  ⟨false, "", if args.has .json then JsonLine.render d ++ "\n" else Terminal.render w.isTerminal d⟩

/-! ## Settings -/

/-- What the arguments change in the settings. -/
def override (args : Arguments) (cfg : Config) : Config where
  alphabet := match args.alphabet with
    | some text => distinct text.toList
    | none => cfg.alphabet
  seed := args.seed.getD cfg.seed
  repetitionCap := args.cap.getD cfg.repetitionCap
  boundary := args.boundary.getD cfg.boundary
  debug := cfg.debug || args.has .debug

/-- The settings of a session: those of the file that the arguments name, if any, with what the
arguments change. -/
def settings (w : World) (args : Arguments) : Except Diagnostic Config :=
  match args.config with
  | none => .ok (override args .default)
  | some name =>
    match w.files name with
    | .error why => .error (.error ("cannot read config " ++ name ++ ": " ++ why))
    | .ok text =>
      match Config.load text with
      | .error fault =>
        .error (.error ("invalid config " ++ name ++ ": " ++ w.settingsFault text fault))
      | .ok cfg => .ok (override args cfg)

/-! ## Runs -/

/-- What one run shows of itself, and its result. -/
structure Attempt where
  trace : String
  result : Except SamplerError String
  deriving Repr

/-- Whether the run wrote a text. -/
def Attempt.isGood (a : Attempt) : Bool :=
  match a.result with
  | .ok _ => true
  | .error _ => false

/-- Whether an item is done with a run: it wrote a text, or it has not ended. -/
def settled : Option Attempt → Bool
  | none => true
  | some a => a.isGood

/-- A run of a program; `none` if it has not ended after `fuel` steps. -/
def runProgram (p : Program) (fuel : Nat) (cfg : Config) : Option Attempt :=
  (p.generate cfg fuel).map fun
    | .ok text => ⟨p.trace cfg fuel, .ok text⟩
    | .error e => ⟨p.trace cfg fuel, .error (.generation e)⟩

/-- A run of a sampler; `none` if it has not ended after `fuel` steps. -/
def runSampler {b : Backend} (s : Sampler b) (fuel : Nat) (cfg : Config) : Option Attempt :=
  (s.generate cfg fuel).map fun result => ⟨s.program.trace cfg fuel, result⟩

/-! ## Items -/

/-- A text as the hexadecimal numerals of its bytes. -/
def hexBytes (text : String) : String :=
  String.join (text.toUTF8.toList.map fun b => Text.padded 16 2 b.toNat)

/-- The line that shows a text. -/
def outputLine (args : Arguments) (text : String) : String :=
  (if args.has .hex then hexBytes text else text) ++ "\n"

/-- A diagnostic with its source, unless that is empty. -/
def withNonemptySource (source : String) (d : Diagnostic) : Diagnostic :=
  if source = "" then d else d.withSource source

/-- The outcome of an item, by the result of its last run. -/
def conclusion (w : World) (args : Arguments) (source : String) :
    Except SamplerError String → Outcome
  | .ok text => .print (outputLine args text)
  | .error e => report w args (withNonemptySource source (.ofSamplerError e))

/-- The outcome of an item, by its attempts. -/
def item (w : World) (args : Arguments) (source : String) (tries : List Attempt) : Outcome :=
  (Outcome.note (String.join (tries.map (·.trace)))).andThen
    (match tries.getLast? with
      | none => .failure
      | some a => conclusion w args source a.result)

/-- As many items as the arguments ask for; `none` if a run of one of them has not ended. -/
def produce (w : World) (args : Arguments) (cfg : Config) (source : String)
    (run : Config → Option Attempt) : Option Outcome :=
  ((series run settled (max 1 (args.attempts.getD 1).toNat) (args.count.getD 1).toNat cfg).mapM
    (List.mapM id)).map fun results => .all (results.map (item w args source))

/-- The listing of a program as JSON, if the arguments ask for it. -/
def dump (args : Arguments) (p : Program) : Outcome :=
  if args.has .dump then .print (p.toJson.indented ++ "\n") else .nothing

/-! ## Sessions -/

/-- The outcome for a pattern. -/
def patternSession (w : World) (args : Arguments) (cfg : Config) (source : String) (fuel : Nat) :
    Option Outcome :=
  match Sampler.ofSource w.backend args.patternOptions source with
  | .error e => some (report w args ((Diagnostic.ofSamplerError e).withSource source))
  | .ok s => (produce w args cfg source (runSampler s fuel)).map (dump args s.program).andThen

/-- The outcome for some patterns, one after the other. -/
def linesSession (w : World) (args : Arguments) (cfg : Config) (lines : List String) (fuel : Nat) :
    Option Outcome :=
  (lines.mapM fun line => patternSession w args cfg line fuel).map Outcome.all

/-- The outcome for a program from a file; what it writes is not checked. -/
def programSession (w : World) (args : Arguments) (cfg : Config) (name : String) (fuel : Nat) :
    Option Outcome :=
  match w.files name with
  | .error why => some (report w args (.error ("cannot read " ++ name ++ ": " ++ why)))
  | .ok text =>
    match Program.load text with
    | .error e =>
      some (report w args
        (.error ("invalid program " ++ name ++ ": " ++ e.message (w.programFault text))))
    | .ok p => (produce w args cfg "" (runProgram p fuel)).map (dump args p).andThen

/-- The lines of a text, without their line feeds and the carriage returns before those. -/
def textLines : List Char → List (List Char)
  | [] => []
  | '\n' :: cs => [] :: textLines cs
  | '\r' :: '\n' :: cs => [] :: textLines cs
  | c :: cs =>
    match textLines cs with
    | [] => [[c]]
    | line :: rest => (c :: line) :: rest

/-- The patterns of a file: its lines, but for the empty ones. -/
def patternsOf (text : List Char) : List String :=
  ((textLines text).filter (· ≠ [])).map String.ofList

/-- The outcome for the pattern or the patterns that the arguments give. -/
def patternsSession (w : World) (args : Arguments) (cfg : Config) (fuel : Nat) : Option Outcome :=
  match args.file, args.pattern with
  | some name, _ =>
    match w.files name with
    | .error why => some (report w args (.error ("cannot read " ++ name ++ ": " ++ why)))
    | .ok text => linesSession w args cfg (patternsOf text) fuel
  | none, some source => patternSession w args cfg source fuel
  | none, none =>
    some (report w args ((Diagnostic.error "no pattern given").withSuggestion
      "pass a PATTERN, --file FILE or --program FILE"))

/-- The explanation of an error code. -/
def explanation (w : World) (args : Arguments) (code : String) : Outcome :=
  match Catalogue.lookup? code with
  | some entry => .print entry.explanation
  | none => report w args (.error ("unknown error code '" ++ code ++ "'"))

/-- The list of all error codes. -/
def codeList : String :=
  String.join (Catalogue.entries.map fun e => e.code ++ "  " ++ e.title ++ "\n")

/-- What a session comes to; `none` if one of its runs has not ended after `fuel` steps. -/
def session (w : World) (args : Arguments) (fuel : Nat) : Option Outcome :=
  match args.explain with
  | some code => some (explanation w args code)
  | none =>
    if args.has .listErrors then some (.print codeList)
    else
      match settings w args with
      | .error d => some (report w args d)
      | .ok cfg =>
        match args.program with
        | some name => programSession w args cfg name fuel
        | none => patternsSession w args cfg fuel

/-- The name and version of the program. -/
def versionLine : String := "regexgen 0.1.0\n"

/-- What a command comes to; `none` if one of its runs has not ended after `fuel` steps. -/
def Command.outcome (w : World) (fuel : Nat) : Command → Option Outcome
  | .version => some (.print versionLine)
  | .session args => CommandLine.session w args fuel

end PatternSampler.CommandLine
