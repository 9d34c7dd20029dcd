import PatternSampler.Pattern.Token
import PatternSampler.Text.Numeral
/-!
# What can be wrong with a pattern

The causes for which a sequence of tokens is no pattern, each with its code and its wording.
-/
set_option autoImplicit false

namespace PatternSampler

/-- Why a sequence of tokens is no pattern. -/
inductive ParseCause where
  /-- the pattern stops where an item has to follow -/
  | endOfPattern
  /-- a closing parenthesis without an open group -/
  | unmatchedClose
  /-- a group without its closing parenthesis -/
  | unclosedGroup
  /-- a quantifier after a quantifier -/
  | nestedQuantifier
  /-- a quantifier after nothing that repeats -/
  | nothingToRepeat
  /-- bounds whose minimum exceeds their maximum -/
  | boundsOutOfOrder (min max : Nat)
  /-- a reference to a group number that the pattern does not reach -/
  | unknownGroup (index total : Nat)
  /-- a reference to a name that is not defined yet -/
  | unknownName (name : String)
  /-- a group name that is taken -/
  | duplicateName (name : String)
  /-- a group that opens with `(?` in a way that patterns do not have -/
  | unsupportedGroup
  /-- a class without its closing bracket -/
  | unclosedClass
  /-- an escape that means nothing inside a class -/
  | escapeInClass (text : List Char)
  /-- a range whose end is no character or comes before its start -/
  | invalidRange (text : List Char)
  /-- a class inside a class -/
  | nestedClass
  /-- a POSIX class name -/
  | posixClass (text : List Char)
  /-- a set operator -/
  | setOperator (text : List Char)
  deriving DecidableEq, Repr

namespace ParseCause

/-- The code under which the catalogue explains the cause. -/
def code : ParseCause → String
  | endOfPattern => "RGX-P001"
  | unmatchedClose => "RGX-P002"
  | unclosedGroup => "RGX-P003"
  | nestedQuantifier => "RGX-P004"
  | nothingToRepeat => "RGX-P005"
  | boundsOutOfOrder .. => "RGX-P006"
  | unknownGroup .. | unknownName _ => "RGX-P007"
  | duplicateName _ => "RGX-P008"
  | unsupportedGroup => "RGX-P009"
  | unclosedClass => "RGX-P010"
  | escapeInClass _ => "RGX-P011"
  | invalidRange _ => "RGX-P012"
  | nestedClass | posixClass _ | setOperator _ => "RGX-P013"

/-- The wording of the cause. -/
def message : ParseCause → String
  | endOfPattern => "unexpected end of pattern"
  | unmatchedClose => "unmatched ')'"
  | unclosedGroup => "unclosed group"
  | nestedQuantifier => "nested quantifier"
  | nothingToRepeat => "quantifier has nothing to repeat"
  | boundsOutOfOrder min max =>
    "quantifier range \x7b" ++ Text.decimal min ++ "," ++ Text.decimal max ++ "\x7d is out of order"
  | unknownGroup index total =>
    "reference to group " ++ Text.decimal index ++ ", but the pattern has " ++ Text.decimal total
      ++ " groups"
  | unknownName name => "reference to unknown group '" ++ name ++ "'"
  | duplicateName name => "group name '" ++ name ++ "' is already defined"
  | unsupportedGroup => "unsupported group syntax '(?'"
  | unclosedClass => "unclosed character class"
  | escapeInClass text => "'" ++ String.ofList text ++ "' is not allowed in a character class"
  | invalidRange text => "invalid class range '" ++ String.ofList text ++ "'"
  | nestedClass => "nested character classes are not supported"
  | posixClass text => "POSIX class '" ++ String.ofList text ++ "' is not supported"
  | setOperator text => "class set operator '" ++ String.ofList text ++ "' is not supported"

end ParseCause

/-- A sequence of tokens that is no pattern. -/
structure ParseError where
  cause : ParseCause
  /-- how many tokens had been taken when the error was found -/
  position : Nat
  /-- the text at fault -/
  span : Span
  deriving DecidableEq, Repr

/-- The wording of a parse error. -/
def ParseError.message (e : ParseError) : String :=
  "Parse error at token " ++ Text.decimal e.position ++ ": " ++ e.cause.message

end PatternSampler
