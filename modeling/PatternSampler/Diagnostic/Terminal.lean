import PatternSampler.Diagnostic.Basic
import PatternSampler.Diagnostic.Catalogue
import PatternSampler.Text.Lines
import PatternSampler.Text.Numeral
/-!
# Diagnostics on a terminal

A diagnostic is laid out as a list of fragments, each with a style or none.  The plain rendering
joins their texts; the coloured one puts the escape sequences of its style around each styled
fragment.  Columns count bytes, while indents and carets are drawn per character.
-/
set_option autoImplicit false

namespace PatternSampler.Terminal

/-! ## Fragments -/

/-- How a fragment is shown. -/
inductive Style where
  | bold
  | boldRed
  | cyan
  | dim
  deriving DecidableEq, Repr

/-- The parameters of a style's escape sequence. -/
def Style.parameters : Style → String
  | .bold => "1"
  | .boldRed => "1;31"
  | .cyan => "36"
  | .dim => "2"

/-- A piece of text with a style, or none. -/
structure Fragment where
  style : Option Style
  text : String
  deriving DecidableEq, Repr

/-- A piece of text without a style. -/
def plain (text : String) : Fragment := ⟨none, text⟩

/-- A piece of text with a style. -/
def styled (style : Style) (text : String) : Fragment := ⟨some style, text⟩

/-- A fragment with the escape sequences of its style. -/
def Fragment.paint (f : Fragment) : String :=
  match f.style with
  | none => f.text
  | some style => "\x1b[" ++ style.parameters ++ "m" ++ f.text ++ "\x1b[0m"

/-- The text of a list of fragments, coloured or not. -/
def join (colour : Bool) (fs : List Fragment) : String :=
  String.join (fs.map fun f => if colour then f.paint else f.text)

/-! ## Layout -/

/-- `n` blanks. -/
def blanks (n : Nat) : String := String.ofList (List.replicate n ' ')

/-- The first line: severity, code and message. -/
def headline (d : Diagnostic) : List Fragment :=
  (match d.severity with
    | .error => [styled .boldRed "error"]
    | .warning => [styled .cyan "warning"])
  ++ (match d.code with
    | some code => [styled .boldRed ("[" ++ code ++ "]")]
    | none => [])
  ++ [plain ": ", styled .bold d.message, plain "\n"]

/-- How many characters stand before a column of a line; beyond the line, or inside a character,
the bytes are counted instead. -/
def indentOf (lineText : List Char) (column : Nat) : Nat :=
  match Text.splitAtByte? (column - 1) lineText with
  | some (before, _) => before.length
  | none => column - 1

/-- How many carets mark a span: one for each of its characters, or bytes where it does not cut the
source between characters, and at least one. -/
def caretCount (source : List Char) (span : Span) : Nat :=
  max 1 (match Text.slice? span.start span.stop source with
    | some cs => cs.length
    | none => span.stop - span.start)

/-- The excerpt of the source that shows where the fault is. -/
def excerpt (source : List Char) (label : Label) : List Fragment :=
  let index := Text.LineIndex.ofSource source
  let place := index.place label.span.start
  let lineText := index.lineText source place.line
  let number := Text.decimal place.line
  let pad := blanks number.length
  let pipe := styled .cyan "|"
  [plain "  ", styled .cyan "-->",
    plain (" " ++ number ++ ":" ++ Text.decimal place.column ++ "\n"),
    plain (pad ++ " "), pipe, plain "\n",
    styled .cyan number, plain " ", pipe, plain (" " ++ String.ofList lineText ++ "\n"),
    plain (pad ++ " "), pipe, plain (" " ++ blanks (indentOf lineText place.column)),
    styled .boldRed (String.ofList (List.replicate (caretCount source label.span) '^'))]
  ++ (if label.message = "" then [] else [plain " ", styled .boldRed label.message])
  ++ [plain "\n", plain (pad ++ " "), pipe, plain "\n"]

/-- A line of the remarks at the end. -/
def remark (text : String) : List Fragment :=
  [plain "  ", styled .dim "=", plain (" " ++ text ++ "\n")]

/-- The remarks at the end: secondary labels, notes, the suggestion, and where to read more. -/
def remarks (d : Diagnostic) : List Fragment :=
  ((d.labels.filter fun l => !l.isPrimary && l.message != "").flatMap fun l => remark l.message)
  ++ (d.notes.flatMap fun note => remark ("note: " ++ note))
  ++ (match d.suggestion with
    | some suggestion => remark ("suggestion: " ++ suggestion)
    | none => [])
  ++ (match d.code with
    | some code =>
      if (Catalogue.lookup? code).isSome then
        remark ("help: run `regexgen --explain " ++ code ++ "` for details")
      else []
    | none => [])

/-- A diagnostic as fragments. -/
def fragments (d : Diagnostic) : List Fragment :=
  headline d
  ++ (match d.primary?, d.source with
    | some label, some source => excerpt source.toList label
    | _, _ => [])
  ++ remarks d

/-- A diagnostic as a terminal shows it, coloured or not. -/
def render (colour : Bool) (d : Diagnostic) : String := join colour (fragments d)

end PatternSampler.Terminal
