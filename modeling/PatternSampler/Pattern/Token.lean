import PatternSampler.CharClass.Basic
import PatternSampler.Pattern.Span
/-!
# Tokens of a pattern

The tokens that the text of a pattern splits into.  A `Lexeme` is a token together with the text
that spells it and where that text lies.
-/
set_option autoImplicit false

namespace PatternSampler

/-- A token of a pattern. -/
inductive Token where
  /-- a group that captures nothing -/
  | nonCapture
  | lookAhead
  | negLookAhead
  | lookBehind
  | negLookBehind
  /-- a capturing group with a name -/
  | namedGroup (name : String)
  /-- a plain capturing group -/
  | openGroup
  | closeGroup
  | openNegatedClass
  | openClass
  | closeClass
  | pipe
  | star
  | plus
  | question
  /-- a repetition with bounds, the upper one possibly missing -/
  | bounds (min : Nat) (max : Option Nat)
  /-- an opening brace that starts no bounds -/
  | brace
  | caret
  | dollar
  | dot
  | dash
  /-- a backslash and the letter of a category -/
  | classEscape (category : Category)
  /-- a backslash and the letter of an assertion -/
  | assertEscape (letter : Char)
  /-- a backslash and a group number -/
  | backref (group : Nat)
  /-- a reference to a group by name -/
  | namedBackref (name : String)
  /-- a character given by its code point -/
  | hex (c : Char)
  /-- a control character given by its letter -/
  | control (c : Char)
  /-- a backslash before a character that is no letter and no digit -/
  | escaped (c : Char)
  /-- any other character -/
  | literal (c : Char)
  deriving DecidableEq, Repr

/-- A token where it stands. -/
structure Lexeme where
  token : Token
  span : Span
  text : List Char
  deriving DecidableEq, Repr

end PatternSampler
