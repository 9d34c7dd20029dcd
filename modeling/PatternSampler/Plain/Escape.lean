import PatternSampler.CharClass.Basic
import PatternSampler.Unicode.Property
import PatternSampler.Unicode.Ranges
import PatternSampler.Unicode.Word
/-!
# Escapes of plain expressions

What a backslash introduces in the text of a plain expression: a mark that stands for itself, a
category of characters, or a property of characters.
-/
set_option autoImplicit false

namespace PatternSampler.Plain

open Unicode

/-- What stands for characters in a text. -/
inductive Mark where
  | char (c : Char)
  /-- a character of an ordered table -/
  | category (members : RangeTable)
  /-- a character with a property; properties have names here, but no members -/
  | property
  deriving DecidableEq, Repr

/-! ## Categories -/

/-- The characters of a category. -/
def categoryMembers : Category → RangeTable
  | .digit => decimalDigits
  | .notDigit => RangeTable.complement decimalDigits
  | .word => wordCharacters
  | .notWord => RangeTable.complement wordCharacters
  | .space => blanks
  | .notSpace => RangeTable.complement blanks

/-- The letters that stand for a category. -/
def categoryLetters : List (Char × Category) := [
  ('d', .digit), ('D', .notDigit), ('w', .word), ('W', .notWord), ('s', .space), ('S', .notSpace)]

/-! ## Properties -/

/-- What stands before and after the first place where a sign stands. -/
def cut? (sign : List Char) : List Char → Option (List Char × List Char)
  | [] => none
  | c :: cs =>
    if sign.isPrefixOf (c :: cs) then some ([], (c :: cs).drop sign.length)
    else (cut? sign cs).map fun (before, after) => (c :: before, after)

/-- Whether the text between the braces of a property is a name that is known, or a known name and
one of its values with a sign between them. -/
def isProperty (text : List Char) : Bool :=
  match ["!=", ":", "="].findSome? fun sign => cut? sign.toList text with
  | some (name, value) => isSetValue name value
  | none => isSetName text

/-- Reads a property, its letter already taken: one letter, or a name in braces. -/
def readProperty : List Char → Option (Mark × List Char)
  | '\x7b' :: cs =>
    match cs.span (· ≠ '\x7d') with
    | (name, _ :: rest) => if isProperty name then some (.property, rest) else none
    | _ => none
  | c :: cs => if isProperty [c] then some (.property, cs) else none
  | [] => none

/-! ## Escapes -/

/-- Whether a character may stand for itself after a backslash. -/
def isSelfEscape (c : Char) : Bool :=
  decide (c.toNat < 0x80) && !c.isAlphanum && c != '<' && c != '>'

/-- Reads an escape, its backslash already taken. -/
def readEscape : List Char → Option (Mark × List Char)
  | [] => none
  | c :: cs =>
    match categoryLetters.lookup c with
    | some k => some (.category (categoryMembers k), cs)
    | none =>
      if c = 'p' ∨ c = 'P' then readProperty cs
      else if isSelfEscape c then some (.char c, cs)
      else none

end PatternSampler.Plain
