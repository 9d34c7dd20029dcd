import PatternSampler.CharClass.Codec
import PatternSampler.Program.Basic
/-!
# Programs as JSON

A program travels as its words, its classes and its strings.  Reading one checks it again, so every
program that has been loaded is a valid one.
-/
set_option autoImplicit false

namespace PatternSampler

/-- Why a text does not load as a program. -/
inductive LoadError where
  | json (fault : Json.Fault)
  | program (e : ProgramError)
  deriving DecidableEq, Repr

/-- The wording of a load error, by that of the faults of JSON texts. -/
def LoadError.message (wording : Json.Fault → String) : LoadError → String
  | .json fault => wording fault
  | .program e => e.message

/-- A code as JSON. -/
def Code.toJson (code : Code) : Json :=
  .obj [
    ("codes", .arr (code.words.toList.map fun w => .int w.toInt)),
    ("classes", .arr (code.classes.toList.map CharClass.toJson)),
    ("strings", .arr (code.strings.toList.map Json.text))]

/-- A code from JSON; the words are required, missing tables are empty. -/
def Code.ofJson? (v : Json) : Option Code :=
  match v.fields? ["codes", "classes", "strings"] with
  | some [codes, classes, strings] =>
    match Json.required (Json.toList? Json.toInt32?) codes,
      Json.optional (Json.toList? CharClass.ofJson?) [] classes,
      Json.optional (Json.toList? Json.toText?) [] strings with
    | some codes, some classes, some strings =>
      some ⟨codes.toArray, classes.toArray, strings.toArray⟩
    | _, _, _ => none
  | _ => none

namespace Program

/-- A program as JSON. -/
def toJson (p : Program) : Json := p.code.toJson

/-- A program from JSON. -/
def ofJson (v : Json) : Except LoadError Program :=
  match Code.ofJson? v with
  | none => .error (.json .malformed)
  | some code =>
    match ofCode code with
    | .error e => .error (.program e)
    | .ok p => .ok p

/-- A program from the text of its JSON. -/
def load (text : List Char) : Except LoadError Program := Json.readAs .json ofJson text

end Program

end PatternSampler
