import PatternSampler.Matching.Escape
/-!
# Where a set ends

The matcher finds the end of a set by counting brackets that are not escaped, and writes the set
down as the text of a plain expression, its escapes resolved.  What that text means, and whether it
is a set at all, shows when it is read.
-/
set_option autoImplicit false

namespace PatternSampler.Matching

/-- Whether a character has to be escaped to stand for itself in a set. -/
def isMarkInSet (c : Char) : Bool := "\\.+*?()|[]\x7b\x7d^$#&-~".contains c

/-- A character that stands for itself in a set. -/
def quoteInSet (c : Char) : List Char := if isMarkInSet c then ['\\', c] else [c]

/-- The text that an escape stands for in a set. -/
def setTextOf : Escape → Option (List Char)
  | .literal c => some (quoteInSet c)
  | .codePoint c => some (quoteInSet c)
  | .text source => some source
  | _ => none

/-- Reads text until `depth` more brackets are closed than opened, each step taking at least one
character of at most `fuel`.  The text comes in reverse order, after what has been read. -/
def readSetText (isSpaced : Bool) :
    Nat → Nat → List Char → List Char → Option (List Char × List Char)
  | 0, _, _, _ => none
  | _, _, _, [] => none
  | fuel + 1, depth, done, c :: cs =>
    if c = '\\' then
      match readEscapeInSet isSpaced cs with
      | none => none
      | some (e, rest) =>
        match setTextOf e with
        | none => none
        | some source => readSetText isSpaced fuel depth (source.reverse ++ done) rest
    else if c = ']' then
      if depth = 1 then some (c :: done, cs)
      else readSetText isSpaced fuel (depth - 1) (c :: done) cs
    else readSetText isSpaced fuel (if c = '[' then depth + 1 else depth) (c :: done) cs

/-- Reads a set, its opening bracket already taken, and leaves its text.  A closing bracket that
comes first stands for itself. -/
def readSet (isSpaced : Bool) (cs : List Char) : Option (List Char × List Char) :=
  let (done, cs) := match cs with
    | '^' :: ']' :: cs => (['[', '^', ']'], cs)
    | '^' :: cs => (['[', '^'], cs)
    | ']' :: cs => (['[', ']'], cs)
    | cs => (['['], cs)
  (readSetText isSpaced (cs.length + 1) 1 done.reverse cs).map fun (done, rest) =>
    (done.reverse, rest)

end PatternSampler.Matching
