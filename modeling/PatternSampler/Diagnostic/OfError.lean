import PatternSampler.Diagnostic.Basic
import PatternSampler.Diagnostic.Catalogue
import PatternSampler.Sampler
/-!
# Diagnostics of errors

The diagnostic of each error of the library: its code, its wording, where it points, and advice.
-/
set_option autoImplicit false

namespace PatternSampler

namespace Diagnostic

/-- The diagnostic of a text without a token.  It points at the text, or at one byte of it. -/
def ofLexError (e : LexError) : Diagnostic :=
  let width := max 1 (Text.byteLength e.snippet)
  (error ("unexpected '" ++ String.ofList e.snippet ++ "'"))
    |>.withCode "RGX-L001"
    |>.withSpan ⟨e.position, e.position + width⟩ "here"
    |>.withSuggestion e.cause.suggestion

/-- The diagnostic of a sequence of tokens that is no pattern; the catalogue's hint is advice. -/
def ofParseError (e : ParseError) : Diagnostic :=
  let d := ((error e.cause.message).withCode e.cause.code).withSpan e.span "here"
  match (Catalogue.lookup? e.cause.code).bind (·.hint) with
  | some hint => d.withSuggestion hint
  | none => d

/-- The diagnostic of a text that is no pattern. -/
def ofPatternError : PatternError → Diagnostic
  | .lex e => ofLexError e
  | .parse e => ofParseError e

/-- The code of a fault of a program. -/
def programCode : ProgramError → String
  | .unknownOpcode .. => "RGX-C001"
  | .truncated .. => "RGX-C002"
  | .classIndex .. | .stringIndex .. => "RGX-C003"
  | .character .. => "RGX-C004"
  | .negativeCount .. => "RGX-C005"
  | .jumpTarget .. => "RGX-C006"

/-- The diagnostic of a fault of a program. -/
def ofProgramError (e : ProgramError) : Diagnostic := (error e.message).withCode (programCode e)

/-- The diagnostic of a pattern without a program. -/
def ofCompileError : CompileError → Diagnostic
  | .pattern e => ofPatternError e
  | .program e => ofProgramError e

/-- The diagnostic of a run that failed. -/
def ofGenerationError (e : GenerationError) : Diagnostic :=
  match e with
  | .noChoice .. =>
    (error e.message).withCode "RGX-G001"
      |>.withSuggestion "widen the alphabet with --alphabet so it overlaps the class"
  | .unresolvedReference .. =>
    (error e.message).withCode "RGX-G002"
      |>.withNote "the referenced group must close before the reference is reached"
  | .noLoopCount .. => (error e.message).withCode "RGX-G003"
  | .noMark .. => (error e.message).withCode "RGX-G004"
  | .openLookaround _ => (error e.message).withCode "RGX-G005"
  | .program fault => ofProgramError fault

/-- The diagnostic of a pattern without a sampler, or a sampler without a text. -/
def ofSamplerError (e : SamplerError) : Diagnostic :=
  match e with
  | .patternInvalid _ => (error e.message).withCode "RGX-V001"
  | .compile fault => ofCompileError fault
  | .generation fault => ofGenerationError fault
  | .mismatch _ =>
    (error e.message).withCode "RGX-V002"
      |>.withNote "choices are made greedily without backtracking"
      |>.withSuggestion "retry with other seeds using --attempts"
  | .matcher _ => (error e.message).withCode "RGX-V003"

end Diagnostic

end PatternSampler
