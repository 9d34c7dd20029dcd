import PatternSampler.Text.Numeral
/-!
# JSON values and their text

A JSON value, and the two layouts in which the library writes one: compact, and indented by two
blanks with one element per line.  Both escape the quote, the backslash and the control characters
below U+0020 and write every other character raw.
-/
set_option autoImplicit false

namespace PatternSampler

/-- A JSON value. `real` is a number with a fraction or an exponent, kept as written, and `broken` a
string whose escapes leave half a surrogate pair over, or an object with such a name; the library
reads both but never writes them, and can only pass over what is broken. -/
inductive Json where
  | null
  | bool (b : Bool)
  | int (n : Int)
  | real (numeral : String)
  | text (s : String)
  | broken
  | arr (elements : List Json)
  | obj (members : List (String × Json))
  deriving Repr, Inhabited

namespace Json

/-! ## Writing text -/

/-- A character as it stands between the quotes of a JSON string. -/
def escapeChar (c : Char) : List Char :=
  if c = '"' then ['\\', '"']
  else if c = '\\' then ['\\', '\\']
  else if c = '\x08' then ['\\', 'b']
  else if c = '\t' then ['\\', 't']
  else if c = '\n' then ['\\', 'n']
  else if c = '\x0c' then ['\\', 'f']
  else if c = '\r' then ['\\', 'r']
  else if c.toNat < 0x20 then
    ['\\', 'u', '0', '0', Nat.digitChar (c.toNat / 16), Nat.digitChar (c.toNat % 16)]
  else [c]

/-- A text between quotes. -/
def writeText (s : String) : List Char := '"' :: (s.toList.flatMap escapeChar ++ ['"'])

/-- The JSON spelling of a truth value. -/
def writeBool (b : Bool) : List Char := if b then "true".toList else "false".toList

/-! ## The compact layout -/

mutual

/-- The compact text of a value. -/
def write : Json → List Char
  | .null => "null".toList
  | .bool b => writeBool b
  | .int n => (Text.signed n).toList
  | .real numeral => numeral.toList
  | .text s => writeText s
  | .broken => writeText ""
  | .arr elements => '[' :: (writeElements elements ++ [']'])
  | .obj members => '\x7b' :: (writeMembers members ++ ['\x7d'])

/-- The elements of an array, with commas between. -/
def writeElements : List Json → List Char
  | [] => []
  | [v] => write v
  | v :: w :: rest => write v ++ ',' :: writeElements (w :: rest)

/-- The members of an object, with commas between. -/
def writeMembers : List (String × Json) → List Char
  | [] => []
  | [(k, v)] => writeText k ++ ':' :: write v
  | (k, v) :: m :: rest => writeText k ++ ':' :: (write v ++ ',' :: writeMembers (m :: rest))

end

/-- The compact text of a value. -/
def compact (v : Json) : String := String.ofList v.write

/-! ## The indented layout -/

/-- A line feed and `depth` levels of indentation. -/
def newLine (depth : Nat) : List Char := '\n' :: List.replicate (2 * depth) ' '

mutual

/-- The indented text of a value that stands `depth` levels deep. -/
def writeIndented (depth : Nat) : Json → List Char
  | .arr [] => ['[', ']']
  | .arr (v :: rest) =>
    '[' :: (writeIndentedElements (depth + 1) (v :: rest) ++ newLine depth ++ [']'])
  | .obj [] => ['\x7b', '\x7d']
  | .obj (m :: rest) =>
    '\x7b' :: (writeIndentedMembers (depth + 1) (m :: rest) ++ newLine depth ++ ['\x7d'])
  | .null => "null".toList
  | .bool b => writeBool b
  | .int n => (Text.signed n).toList
  | .real numeral => numeral.toList
  | .text s => writeText s
  | .broken => writeText ""

/-- The elements of an array, each on a line of its own. -/
def writeIndentedElements (depth : Nat) : List Json → List Char
  | [] => []
  | [v] => newLine depth ++ writeIndented depth v
  | v :: w :: rest =>
    newLine depth ++ writeIndented depth v ++ ',' :: writeIndentedElements depth (w :: rest)

/-- The members of an object, each on a line of its own. -/
def writeIndentedMembers (depth : Nat) : List (String × Json) → List Char
  | [] => []
  | [(k, v)] => newLine depth ++ writeText k ++ ':' :: ' ' :: writeIndented depth v
  | (k, v) :: m :: rest =>
    newLine depth ++ writeText k ++ ':' :: ' ' :: (writeIndented depth v
      ++ ',' :: writeIndentedMembers depth (m :: rest))

end

/-- The indented text of a value. -/
def indented (v : Json) : String := String.ofList (v.writeIndented 0)

end Json

end PatternSampler
