import PatternSampler.CharClass.Basic
import PatternSampler.Text.Numeral
/-!
# The display of a class

A class as listings show it: its ranges and categories between brackets, in pattern notation.
-/
set_option autoImplicit false

namespace PatternSampler.CharClass

/-- A character as it stands between the brackets: the characters with a meaning there take a
backslash, and everything outside printable ASCII is written as its code point. -/
def displayChar (c : Char) : List Char :=
  if c = '\\' ∨ c = ']' ∨ c = '[' ∨ c = '^' ∨ c = '-' then ['\\', c]
  else if c = '\n' then ['\\', 'n']
  else if c = '\r' then ['\\', 'r']
  else if c = '\t' then ['\\', 't']
  else if c.toNat < 0x20 ∨ 0x7E < c.toNat then
    ['\\', 'u', '\x7b'] ++ (Text.hexUpper4 c.toNat).toList ++ ['\x7d']
  else [c]

/-- A range: its two ends, or its one character. -/
def displayRange (r : CharRange) : List Char :=
  if r.first = r.last then displayChar r.first
  else displayChar r.first ++ '-' :: displayChar r.last

/-- The display of a class. -/
def display (cls : CharClass) : String :=
  String.ofList <|
    (if cls.negated then ['[', '^'] else ['['])
      ++ cls.ranges.flatMap displayRange
      ++ cls.categories.flatMap (·.spelling.toList)
      ++ [']']

end PatternSampler.CharClass
