import PatternSampler.Matching.Expression
import PatternSampler.Matching.Filler
import PatternSampler.Text.Numeral
import PatternSampler.Unicode.Alphabetic
/-!
# Escapes of the matcher

What a backslash introduces.  Most letters have a meaning of their own, some of them only outside
sets, and a letter without one is refused; a character that is no letter stands for itself.
-/
set_option autoImplicit false

namespace PatternSampler.Matching

/-- A reference to a group. -/
inductive Reference where
  | number (group : Nat)
  | named (id : List Char)
  /-- so many groups further on, or back from the latest one if negative -/
  | relative (steps : Int)
  deriving DecidableEq, Repr

/-- What a backslash introduces. -/
inductive Escape where
  | literal (c : Char)
  /-- a character given by its code point -/
  | codePoint (c : Char)
  /-- a category or property, as the text of a plain expression -/
  | text (source : List Char)
  | assert (a : Assertion)
  | reference (r : Reference)
  /-- any character -/
  | any
  /-- nothing but line feeds follows -/
  | beforeNewlines
  | searchStart
  | matchStart
  deriving DecidableEq, Repr

/-! ## Names and references -/

/-- Whether a group name of the matcher can hold the character. -/
def isIdChar (c : Char) : Bool := c == '_' || Unicode.isAlphanumeric c

/-- Reads a name up to a closing character. -/
def readId (close : Char) (cs : List Char) : Option (List Char × List Char) :=
  match cs.span isIdChar with
  | ([], _) => none
  | (_, []) => none
  | (id, c :: rest) => if c = close then some (id, rest) else none

/-- Reads a number of 64 bits. -/
def readNumber (cs : List Char) : Option (Nat × List Char) :=
  let (digits, rest) := cs.span (·.isDigit)
  let n := Text.ofDigits digits
  if digits = [] ∨ UInt64.size ≤ n then none else some (n, rest)

/-- Reads a number with a sign. -/
def readSteps : List Char → Option (Reference × List Char)
  | '+' :: cs => (readNumber cs).map fun (n, rest) => (.relative n, rest)
  | '-' :: cs => (readNumber cs).map fun (n, rest) => (.relative (-n), rest)
  | _ => none

/-- Reads a name or a number with a sign up to a closing character. -/
def readReference (close : Char) (cs : List Char) : Option (Reference × List Char) :=
  match readSteps cs with
  | some (r, c :: rest) => if c = close then some (r, rest) else none
  | some (_, []) => none
  | none => (readId close cs).map fun (id, rest) => (.named id, rest)

/-! ## Word boundaries -/

/-- The word boundaries that are written in braces, each with what follows the opening one. -/
def boundaryNames : List (List Char × Assertion) := [
  ("start\x7d".toList, .wordStart), ("end\x7d".toList, .wordEnd),
  ("start-half\x7d".toList, .wordStartHalf), ("end-half\x7d".toList, .wordEndHalf)]

/-- Whether a text that follows a brace can belong to a quantifier. -/
def startsBounds : List Char → Bool
  | c :: _ => c.isDigit || c == ','
  | [] => false

/-- Reads the name of a word boundary, its opening brace already taken. -/
def readBoundary (cs : List Char) : Option (Escape × List Char) :=
  (boundaryNames.find? fun b => b.1.isPrefixOf cs).map fun b =>
    (.assert b.2, cs.drop b.1.length)

/-! ## Code points -/

/-- The character with a code point. -/
def codePointOf (digits rest : List Char) : Option (Escape × List Char) :=
  (Text.scalar? (Text.ofHexDigits digits)).map fun c => (.codePoint c, rest)

/-- Reads the digits of a code point and a closing brace; at most `count` digits are left, and
blanks and comments may come before each. -/
def readBraced (isSpaced : Bool) :
    Nat → List Char → List Char → Option (Escape × List Char)
  | count, digits, cs =>
    match skipFiller isSpaced cs with
    | some ('\x7d' :: rest) => if digits = [] then none else codePointOf digits.reverse rest
    | some (c :: rest) =>
      match count with
      | 0 => none
      | count + 1 =>
        if Text.isHexDigit c then readBraced isSpaced count (c :: digits) rest else none
    | _ => none

/-- Reads a code point: as many hexadecimal digits as the letter asks for, or from one to eight in
braces. -/
def readCodePoint (isSpaced : Bool) (count : Nat) (cs : List Char) : Option (Escape × List Char) :=
  match skipFiller isSpaced cs with
  | none => none
  | some cs =>
    let digits := (cs.take count).takeWhile Text.isHexDigit
    if digits.length = count then codePointOf digits (cs.drop count)
    else
      match cs with
      | '\x7b' :: cs => readBraced isSpaced 8 [] cs
      | _ => none

/-! ## Properties -/

/-- Reads a property, its letter already taken; whether there is one of that name shows later. -/
def readPropertyText (letter : Char) : List Char → Option (Escape × List Char)
  | '\x7b' :: cs =>
    match cs.span (· ≠ '\x7d') with
    | (name, _ :: rest) => some (.text ('\\' :: letter :: '\x7b' :: name ++ ['\x7d']), rest)
    | _ => none
  | c :: cs => some (.text ['\\', letter, c], cs)
  | [] => none

/-! ## Escapes -/

/-- The letters that stand for a character. -/
def controlLetters : List (Char × Char) := [
  ('a', '\x07'), ('f', '\x0c'), ('n', '\n'), ('r', '\r'), ('t', '\t'), ('v', '\x0b'), ('e', '\x1b')]

/-- The letters that stand for a set of characters. -/
def setLetters : List (Char × String) := [
  ('d', "\\d"), ('D', "\\D"), ('w', "\\w"), ('W', "\\W"), ('s', "\\s"), ('S', "\\S"),
  ('h', "[0-9A-Fa-f]"), ('H', "[^0-9A-Fa-f]")]

/-- The characters that stand for a meaning of their own outside sets. -/
def outerLetters : List (Char × Escape) := [
  ('A', .assert (.edge .textStart)), ('z', .assert (.edge .textEnd)), ('Z', .beforeNewlines),
  ('b', .assert .wordBoundary), ('B', .assert .notWordBoundary), ('<', .assert .wordStart),
  ('>', .assert .wordEnd), ('G', .searchStart), ('K', .matchStart), ('O', .any)]

/-- The letters that stand for themselves within sets. -/
def innerLetters : List Char := ['k', 'A', 'z', 'B', 'G', 'K']

/-- Reads what a character stands for within sets and without. -/
def readCommon (isSpaced : Bool) (c : Char) (cs : List Char) : Option (Escape × List Char) :=
  match controlLetters.lookup c, setLetters.lookup c with
  | some d, _ => some (.literal d, cs)
  | none, some source => some (.text source.toList, cs)
  | none, none =>
    if c = 'x' then readCodePoint isSpaced 2 cs
    else if c = 'u' then readCodePoint isSpaced 4 cs
    else if c = 'U' then readCodePoint isSpaced 8 cs
    else if c = 'p' ∨ c = 'P' then readPropertyText c cs
    else if c.isAlpha then none
    else some (.literal c, cs)

/-- Reads an escape inside a set, its backslash already taken. -/
def readEscapeInSet (isSpaced : Bool) : List Char → Option (Escape × List Char)
  | [] => none
  | c :: cs =>
    if c.isDigit then none
    else if c = 'b' then some (.literal '\x08', cs)
    else if innerLetters.contains c then some (.literal c, cs)
    else readCommon isSpaced c cs

/-- Reads an escape outside sets, its backslash already taken. -/
def readEscape (isSpaced : Bool) : List Char → Option (Escape × List Char)
  | [] => none
  | 'k' :: '<' :: cs => (readReference '>' cs).map fun (r, rest) => (.reference r, rest)
  | 'k' :: '\'' :: cs => (readReference '\'' cs).map fun (r, rest) => (.reference r, rest)
  | 'b' :: '\x7b' :: cs =>
    if startsBounds cs then some (.assert .wordBoundary, '\x7b' :: cs) else readBoundary cs
  | 'B' :: '\x7b' :: cs =>
    if startsBounds cs then some (.assert .notWordBoundary, '\x7b' :: cs) else none
  | c :: cs =>
    match outerLetters.lookup c with
    | some e => some (e, cs)
    | none =>
      if c.isDigit then
        (readNumber (c :: cs)).map fun (n, rest) => (.reference (.number n), rest)
      else readCommon isSpaced c cs

end PatternSampler.Matching
