import PatternSampler.Generation.Machine
import PatternSampler.Program.Layout
import PatternSampler.Text.Quoted
/-!
# Samplers

A sampler writes texts for a pattern and checks each of them against the pattern.  The check is
made by a library of its own (`Backend`), so that it does not rest on the reading that the text
was written from; what that library says of a pattern or a text is taken as it comes.
-/
set_option autoImplicit false

namespace PatternSampler

/-! ## The library that matches -/

/-- What the library says when it refuses a pattern or gives up on a text. -/
structure MatchError where
  message : String
  deriving DecidableEq, Repr

/-- A library that looks for patterns in texts. -/
structure Backend where
  /-- the library's own form of a pattern -/
  Regex : Type
  /-- reads a pattern -/
  build : PatternOptions → String → Except MatchError Regex
  /-- whether a pattern occurs in a text -/
  isMatch : Regex → String → Except MatchError Bool

/-! ## Failures -/

/-- Why a pattern has no sampler, or a sampler no text. -/
inductive SamplerError where
  /-- the library refuses the pattern -/
  | patternInvalid (e : MatchError)
  | compile (e : CompileError)
  | generation (e : GenerationError)
  /-- the text that was written does not match the pattern -/
  | mismatch (output : String)
  /-- the library gave up on the text that was written -/
  | matcher (e : MatchError)
  deriving DecidableEq, Repr

/-- The wording of a failure. -/
def SamplerError.message : SamplerError → String
  | .patternInvalid e => "invalid pattern: " ++ e.message
  | .compile e => "cannot compile pattern: " ++ e.message
  | .generation e => e.message
  | .mismatch output =>
    "generated string " ++ Text.quote output ++ " does not match the pattern"
  | .matcher e => "matcher failed: " ++ e.message

/-! ## Samplers -/

/-- A pattern in the form of the library that checks, and its program. -/
structure Sampler (b : Backend) where
  regex : b.Regex
  program : Program

namespace Sampler

variable {b : Backend}

/-- The sampler of a pattern.  What the library refuses is not laid out. -/
def ofSource (b : Backend) (options : PatternOptions) (source : String) :
    Except SamplerError (Sampler b) :=
  match b.build options source with
  | .error e => .error (.patternInvalid e)
  | .ok regex =>
    match Program.ofSource options source.toList with
    | .error e => .error (.compile e)
    | .ok program => .ok ⟨regex, program⟩

/-- A text, provided that it matches. -/
def check (s : Sampler b) (text : String) : Except SamplerError String :=
  match b.isMatch s.regex text with
  | .error e => .error (.matcher e)
  | .ok false => .error (.mismatch text)
  | .ok true => .ok text

/-- The text that is written under some settings; `none` if the program has not ended after `fuel`
steps. -/
def generate (s : Sampler b) (cfg : Config) (fuel : Nat) : Option (Except SamplerError String) :=
  match s.program.generate cfg fuel with
  | none => none
  | some (.error e) => some (.error (.generation e))
  | some (.ok text) => some (s.check text)

end Sampler

end PatternSampler
