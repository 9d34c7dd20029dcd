import PatternSampler.Json.Value
import PatternSampler.Text.Bytes
/-!
# Reading JSON

A strict reader: no leading zeros, no trailing commas, no raw control characters in strings,
nothing but blanks after the value.  `-0` and every number with a fraction or an exponent read as
`Json.real`, since none of them counts as an integer.

The reader's step functions take the remaining text and return what they read and the text after
it, so that each is stated with an arbitrary rest.
-/
set_option autoImplicit false

namespace PatternSampler.Json

/-! ## Blanks and strings -/

/-- The four blanks that JSON allows between tokens. -/
def isSpace (c : Char) : Bool := c == ' ' || c == '\n' || c == '\t' || c == '\r'

/-- The text after the blanks at its start. -/
def skipSpace (cs : List Char) : List Char := cs.dropWhile isSpace

/-- One unit of a string literal: a character, or half of a surrogate pair. -/
inductive Piece where
  | char (c : Char)
  | half (n : Nat)
  deriving DecidableEq, Repr

/-- The unit that a four digit escape stands for. -/
def Piece.ofCode (n : Nat) : Piece :=
  match Text.scalar? n with
  | some c => .char c
  | none => .half n

/-- The value of four hexadecimal digits. -/
def hex4? (a b c d : Char) : Option Nat :=
  match Text.hexDigit? a, Text.hexDigit? b, Text.hexDigit? c, Text.hexDigit? d with
  | some a, some b, some c, some d => some (((a * 16 + b) * 16 + c) * 16 + d)
  | _, _, _, _ => none

/-- The character that a one letter escape stands for. -/
def shortEscape? (c : Char) : Option Char :=
  if c = '"' then some '"'
  else if c = '\\' then some '\\'
  else if c = '/' then some '/'
  else if c = 'b' then some '\x08'
  else if c = 'f' then some '\x0c'
  else if c = 'n' then some '\n'
  else if c = 'r' then some '\r'
  else if c = 't' then some '\t'
  else none

/-- Reads a string literal, its opening quote already taken. -/
def readPieces : List Char → Option (List Piece × List Char)
  | [] => none
  | '"' :: rest => some ([], rest)
  | '\\' :: 'u' :: a :: b :: c :: d :: rest =>
    match hex4? a b c d, readPieces rest with
    | some n, some (pieces, after) => some (Piece.ofCode n :: pieces, after)
    | _, _ => none
  | '\\' :: c :: rest =>
    match shortEscape? c, readPieces rest with
    | some e, some (pieces, after) => some (.char e :: pieces, after)
    | _, _ => none
  | c :: rest =>
    if c = '\\' || c.toNat < 0x20 then none
    else
      match readPieces rest with
      | some (pieces, after) => some (.char c :: pieces, after)
      | none => none

/-- Joins surrogate pairs; fails if half of one is left over. -/
def joinPieces : List Piece → Option (List Char)
  | [] => some []
  | .char c :: rest => (joinPieces rest).map (c :: ·)
  | .half high :: .half low :: rest =>
    if high < 0xDC00 && 0xDC00 ≤ low then
      (joinPieces rest).map
        (Char.ofNat (0x10000 + (high - 0xD800) * 0x400 + (low - 0xDC00)) :: ·)
    else none
  | .half _ :: _ => none

/-- Reads a string literal as a value, its opening quote already taken. -/
def readText (cs : List Char) : Option (Json × List Char) :=
  match readPieces cs with
  | none => none
  | some (pieces, rest) =>
    match joinPieces pieces with
    | some chars => some (.text (String.ofList chars), rest)
    | none => some (.broken, rest)

/-! ## Numbers -/

/-- The digits at the start of a text, and the text after them. -/
def digits (cs : List Char) : List Char × List Char := cs.span (·.isDigit)

/-- The whole part of a number: a lone zero, or digits that do not start with one. -/
def readWhole (cs : List Char) : Option (List Char × List Char) :=
  match digits cs with
  | ([], _) => none
  | ('0' :: _ :: _, _) => none
  | (ds, rest) => some (ds, rest)

/-- The fraction of a number, if one follows: a point and at least one digit. -/
def readFraction : List Char → Option (List Char × List Char)
  | '.' :: cs =>
    match digits cs with
    | ([], _) => none
    | (ds, rest) => some ('.' :: ds, rest)
  | cs => some ([], cs)

/-- The exponent of a number, if one follows: its letter, a sign or none, at least one digit. -/
def readExponent : List Char → Option (List Char × List Char)
  | [] => some ([], [])
  | e :: cs =>
    if e = 'e' || e = 'E' then
      let (sign, cs) := match cs with
        | '+' :: cs => (['+'], cs)
        | '-' :: cs => (['-'], cs)
        | cs => ([], cs)
      match digits cs with
      | ([], _) => none
      | (ds, rest) => some (e :: (sign ++ ds), rest)
    else some ([], e :: cs)

/-- Reads a number. -/
def readNumber (cs : List Char) : Option (Json × List Char) :=
  let (minus, cs) := match cs with
    | '-' :: cs => (true, cs)
    | cs => (false, cs)
  match readWhole cs with
  | none => none
  | some (whole, cs) =>
    match readFraction cs with
    | none => none
    | some (fraction, cs) =>
      match readExponent cs with
      | none => none
      | some (exponent, rest) =>
        let value := Text.ofDigits whole
        if fraction = [] ∧ exponent = [] ∧ ¬(minus ∧ value = 0) then
          some (.int (if minus then -(value : Int) else value), rest)
        else
          some (.real (String.ofList
            ((if minus then ['-'] else []) ++ whole ++ fraction ++ exponent)), rest)

/-! ## Values -/

/-- The object with some members; it is broken if one of the names is. -/
def ofMembers (members : List (Json × Json)) : Json :=
  let named := members.filterMap fun
    | (.text k, v) => some (k, v)
    | _ => none
  if named.length = members.length then .obj named else .broken

mutual

/-- Reads a value, with at most `fuel` nested steps. -/
def readValue : Nat → List Char → Option (Json × List Char)
  | 0, _ => none
  | fuel + 1, cs =>
    match skipSpace cs with
    | '"' :: rest => readText rest
    | '[' :: rest =>
      match skipSpace rest with
      | ']' :: rest => some (.arr [], rest)
      | rest =>
        match readElements fuel rest with
        | some (vs, rest) => some (.arr vs, rest)
        | none => none
    | '\x7b' :: rest =>
      match skipSpace rest with
      | '\x7d' :: rest => some (.obj [], rest)
      | rest =>
        match readMembers fuel rest with
        | some (ms, rest) => some (ofMembers ms, rest)
        | none => none
    | 't' :: 'r' :: 'u' :: 'e' :: rest => some (.bool true, rest)
    | 'f' :: 'a' :: 'l' :: 's' :: 'e' :: rest => some (.bool false, rest)
    | 'n' :: 'u' :: 'l' :: 'l' :: rest => some (.null, rest)
    | cs => readNumber cs

/-- Reads the elements of an array, at least one, up to the closing bracket. -/
def readElements : Nat → List Char → Option (List Json × List Char)
  | 0, _ => none
  | fuel + 1, cs =>
    match readValue fuel cs with
    | none => none
    | some (v, rest) =>
      match skipSpace rest with
      | ']' :: rest => some ([v], rest)
      | ',' :: rest =>
        match readElements fuel rest with
        | some (vs, rest) => some (v :: vs, rest)
        | none => none
      | _ => none

/-- Reads the members of an object, at least one, up to the closing brace; each name is read as a
value. -/
def readMembers : Nat → List Char → Option (List (Json × Json) × List Char)
  | 0, _ => none
  | fuel + 1, cs =>
    match skipSpace cs with
    | '"' :: rest =>
      match readText rest with
      | some (k, rest) =>
        match skipSpace rest with
        | ':' :: rest =>
          match readValue fuel rest with
          | none => none
          | some (v, rest) =>
            match skipSpace rest with
            | '\x7d' :: rest => some ([(k, v)], rest)
            | ',' :: rest =>
              match readMembers fuel rest with
              | some (ms, rest) => some ((k, v) :: ms, rest)
              | none => none
            | _ => none
        | _ => none
      | none => none
    | _ => none

end

/-- Why a text is not the JSON that was asked for. -/
inductive Fault where
  /-- the text holds nothing but blanks; the place is where it ends -/
  | noValue (line column : Nat)
  /-- the text is not JSON, or not of the wanted shape -/
  | malformed
  deriving DecidableEq, Repr

/-- The fault of a text that holds nothing but blanks. -/
def noValueFault (cs : List Char) : Fault :=
  .noValue (cs.count '\n' + 1) (Text.byteLength (cs.reverse.takeWhile (· ≠ '\n')))

/-- Reads the value at the start of a text and leaves the text after it. -/
def readFirst (cs : List Char) : Except Fault (Json × List Char) :=
  if skipSpace cs = [] then .error (noValueFault cs)
  else
    match readValue (2 * cs.length + 2) cs with
    | some r => .ok r
    | none => .error .malformed

/-- Reads a text that holds one value and `decode`s it.  Text after the value is refused only
once the value itself is accepted. -/
def readAs {ε α : Type} (fault : Fault → ε) (decode : Json → Except ε α) (cs : List Char) :
    Except ε α :=
  match readFirst cs with
  | .error e => .error (fault e)
  | .ok (v, rest) =>
    match decode v with
    | .error e => .error e
    | .ok a => if skipSpace rest = [] then .ok a else .error (fault .malformed)

end PatternSampler.Json
