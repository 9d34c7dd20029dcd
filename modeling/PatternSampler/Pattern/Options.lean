import PatternSampler.Json.Record
/-!
# Options of a pattern

Flags that change how a pattern is read.  They shape the code it is laid out as and the matcher
that checks what the code writes.
-/
set_option autoImplicit false

namespace PatternSampler

/-- Flags that change how a pattern is read. -/
structure PatternOptions where
  caseInsensitive : Bool
  multiLine : Bool
  dotMatchesNewLine : Bool
  deriving DecidableEq, Repr

namespace PatternOptions

/-- Every flag off. -/
def default : PatternOptions := ⟨false, false, false⟩

/-- Options from JSON; a missing flag is off. -/
def ofJson? (v : Json) : Option PatternOptions :=
  match v.fields? ["case_insensitive", "multi_line", "dot_matches_new_line"] with
  | some [caseInsensitive, multiLine, dotMatchesNewLine] =>
    match Json.optional Json.toBool? false caseInsensitive,
      Json.optional Json.toBool? false multiLine,
      Json.optional Json.toBool? false dotMatchesNewLine with
    | some caseInsensitive, some multiLine, some dotMatchesNewLine =>
      some ⟨caseInsensitive, multiLine, dotMatchesNewLine⟩
    | _, _, _ => none
  | _ => none

end PatternOptions

end PatternSampler
