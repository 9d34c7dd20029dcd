import PatternSampler.Pattern.Span
/-!
# Diagnostics

A diagnostic is a message about a fault, with what a reader needs to mend it: a code that the
catalogue explains, labels that point into the source, notes and a suggestion.
-/
set_option autoImplicit false

namespace PatternSampler

/-- How grave a diagnostic is. -/
inductive Severity where
  | error
  | warning
  deriving DecidableEq, Repr

/-- The severity's name. -/
def Severity.name : Severity → String
  | .error => "error"
  | .warning => "warning"

/-- A remark on a span of the source. -/
structure Label where
  span : Span
  message : String
  isPrimary : Bool
  deriving DecidableEq, Repr

/-- A message about a fault. -/
structure Diagnostic where
  severity : Severity
  code : Option String
  message : String
  labels : List Label
  notes : List String
  suggestion : Option String
  source : Option String
  deriving DecidableEq, Repr

namespace Diagnostic

/-- An error that is only a message. -/
def error (message : String) : Diagnostic := ⟨.error, none, message, [], [], none, none⟩

/-- The diagnostic with a code. -/
def withCode (d : Diagnostic) (code : String) : Diagnostic := { d with code := some code }

/-- The diagnostic with one more label. -/
def withLabel (d : Diagnostic) (label : Label) : Diagnostic :=
  { d with labels := d.labels ++ [label] }

/-- The diagnostic with one more label, which shows where the fault is. -/
def withSpan (d : Diagnostic) (span : Span) (message : String) : Diagnostic :=
  d.withLabel ⟨span, message, true⟩

/-- The diagnostic with one more note. -/
def withNote (d : Diagnostic) (note : String) : Diagnostic := { d with notes := d.notes ++ [note] }

/-- The diagnostic with a suggestion. -/
def withSuggestion (d : Diagnostic) (suggestion : String) : Diagnostic :=
  { d with suggestion := some suggestion }

/-- The diagnostic with the source that its labels point into. -/
def withSource (d : Diagnostic) (source : String) : Diagnostic := { d with source := some source }

/-- The first label that shows where the fault is. -/
def primary? (d : Diagnostic) : Option Label := d.labels.find? (·.isPrimary)

end Diagnostic

end PatternSampler
