import PatternSampler.CommandLine.Session
import PatternSampler.Matching.Matcher
/-!
# The world of the program

The surroundings that the program runs in: texts are checked with the matcher of this library, and
what is wrong with a pattern or with a text of JSON is put in words of its own.
-/
set_option autoImplicit false

namespace PatternSampler

/-- The matcher of this library. -/
def Matching.backend : Backend where
  Regex := Matching.Matcher
  build options source :=
    match Matching.Matcher.ofSource options source.toList with
    | none => .error ⟨"the matcher cannot read it"⟩
    | some m => .ok m
  isMatch m text :=
    match m.verdict text with
    | .matched => .ok true
    | .unmatched => .ok false
    | .gaveUp => .error ⟨"Error executing regex: Max limit for backtracking count exceeded"⟩

namespace CommandLine

/-- The wording of a fault of a JSON text. -/
def faultMessage : Json.Fault → String
  | .noValue line column =>
    "EOF while parsing a value at line " ++ Text.decimal line ++ " column " ++ Text.decimal column
  | .malformed => "malformed JSON text"

/-- The world with some files. -/
def World.native (files : String → Except String (List Char)) (isTerminal : Bool) : World where
  backend := Matching.backend
  files := files
  isTerminal := isTerminal
  settingsFault _ := faultMessage
  programFault _ := faultMessage

end CommandLine

end PatternSampler
