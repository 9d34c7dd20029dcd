import PatternSampler.Diagnostic.Basic
import PatternSampler.Diagnostic.Catalogue
import PatternSampler.Json.Value
import PatternSampler.Text.Lines
/-!
# Diagnostics as JSON

A diagnostic as one line of JSON.  What is not there is left out; with a source, each label also
tells its place and, where its span cuts the source between characters, the text under it.  Places
are counted in machine words: `render` lets a column that does not fit wrap around, and `render?`
gives up on one.
-/
set_option autoImplicit false

namespace PatternSampler.JsonLine

/-- A member that is left out when there is no value for it. -/
def member {α : Type} (key : String) (f : α → Json) : Option α → List (String × Json)
  | some a => [(key, f a)]
  | none => []

/-- What a label tells about a source. -/
def sourceMembers (source : Option (List Char)) (span : Span) : List (String × Json) :=
  match source with
  | none => []
  | some cs =>
    let place := (Text.LineIndex.ofSource cs).lookup span.start
    [("line", .int place.line), ("col", .int place.column)]
      ++ member "text" (fun piece => .text (String.ofList piece))
        (Text.slice? span.start span.stop cs)

/-- A label as JSON. -/
def labelJson (source : Option (List Char)) (l : Label) : Json :=
  .obj ([
    ("start", .int l.span.start), ("end", .int l.span.stop), ("message", .text l.message),
    ("primary", .bool l.isPrimary)] ++ sourceMembers source l.span)

/-- A diagnostic as JSON. -/
def toJson (d : Diagnostic) : Json :=
  .obj (
    [("severity", .text d.severity.name)]
    ++ member "code" .text d.code
    ++ member "title" .text ((d.code.bind Catalogue.lookup?).map (·.title))
    ++ [("message", .text d.message),
      ("labels", .arr (d.labels.map (labelJson (d.source.map (·.toList))))),
      ("notes", .arr (d.notes.map Json.text))]
    ++ member "suggestion" .text d.suggestion)

/-- A diagnostic as one line of JSON. -/
def render (d : Diagnostic) : String := (toJson d).compact

/-- Whether the place of each label fits in machine words. -/
def located (d : Diagnostic) : Bool :=
  d.source.all fun source => d.labels.all fun l =>
    ((Text.LineIndex.ofSource source.toList).locate? l.span.start).isSome

/-- A diagnostic as one line of JSON; `none` if the place of a label does not fit. -/
def render? (d : Diagnostic) : Option String := if located d then some (render d) else none

end PatternSampler.JsonLine
