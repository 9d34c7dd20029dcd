import PatternSampler.Pattern.Token
import PatternSampler.Text.Bytes
import PatternSampler.Text.Numeral
/-!
# Splitting a pattern into tokens

`scan` finds the longest token at the start of a text; `lex` splits a whole text into lexemes, or
says where no token fits and what the text there should have been.
-/
set_option autoImplicit false

namespace PatternSampler

/-! ## Faults -/

/-- What is wrong with the text at a place where no token fits. -/
inductive LexCause where
  /-- a Unicode property, which patterns do not have -/
  | propertyEscape
  /-- a `\x` without two hexadecimal digits -/
  | shortByteEscape
  /-- a `\u` without the four hexadecimal digits of a character -/
  | shortCodeEscape
  /-- a `\k` without a name -/
  | namelessReference
  /-- a backslash at the end of the text -/
  | loneBackslash
  /-- a backslash before a character that takes none -/
  | unknownEscape (c : Char)
  /-- a token whose number is too large -/
  | unexpected (c : Char)
  deriving DecidableEq, Repr

/-- Advice on how to mend the text. -/
def LexCause.suggestion : LexCause → String
  | .propertyEscape =>
    "Unicode property classes are not supported; spell the range out, e.g. [a-zA-Z]"
  | .shortByteEscape => "Write \\x with exactly two hex digits, e.g. \\x41"
  | .shortCodeEscape => "Write \\u with exactly four hex digits, e.g. \\u00e9"
  | .namelessReference => "Name the group in angle brackets: \\k<name>"
  | .loneBackslash =>
    "A pattern cannot end with a lone backslash; write \\\\ for a literal one"
  | .unknownEscape c =>
    "Unknown escape '\\" ++ String.singleton c ++ "'; write '" ++ String.singleton c
      ++ "' or escape punctuation only"
  | .unexpected c => "Unexpected character(s): '" ++ String.singleton c ++ "'"

/-- The cause of a fault, read off the first two characters of the text that has no token. -/
def LexCause.ofText (first : Char) (rest : List Char) : LexCause :=
  if first = '\\' then
    match rest with
    | [] => .loneBackslash
    | 'p' :: _ => .propertyEscape
    | 'P' :: _ => .propertyEscape
    | 'x' :: _ => .shortByteEscape
    | 'u' :: _ => .shortCodeEscape
    | 'k' :: _ => .namelessReference
    | c :: _ => .unknownEscape c
  else .unexpected first

/-- A text that does not split into tokens. -/
structure LexError where
  cause : LexCause
  /-- the byte at which no token fits -/
  position : Nat
  /-- the text there, as far as some token could go -/
  snippet : List Char
  deriving DecidableEq, Repr

/-- The wording of a lexical error. -/
def LexError.message (e : LexError) : String :=
  "Lex error at position " ++ Text.decimal e.position ++ ": '" ++ String.ofList e.snippet
    ++ "'. " ++ e.cause.suggestion

/-! ## One token -/

/-- What stands at the start of a text.  Either way `extra` counts the characters that belong to
it after the first one. -/
inductive Scan where
  | token (t : Token) (extra : Nat)
  /-- no token; the characters counted are as far as one could go -/
  | fault (extra : Nat)
  deriving DecidableEq, Repr

/-- Whether a group name can start with the character. -/
def isNameStart (c : Char) : Bool := c.isAlpha || c == '_'

/-- Whether a group name can go on with the character. -/
def isNameChar (c : Char) : Bool := c.isAlphanum || c == '_'

/-- As much of a group name as the text starts with. -/
def namePart : List Char → List Char
  | [] => []
  | c :: cs => if isNameStart c then c :: cs.takeWhile isNameChar else []

/-- The group name at the start of the text, if the closing angle bracket follows it. -/
def angleName? (cs : List Char) : Option (List Char) :=
  let name := namePart cs
  match name, cs.drop name.length with
  | _ :: _, '>' :: _ => some name
  | _, _ => none

/-- The opener of a group, its parenthesis already taken. -/
def scanGroup : List Char → Scan
  | '?' :: ':' :: _ => .token .nonCapture 2
  | '?' :: '=' :: _ => .token .lookAhead 2
  | '?' :: '!' :: _ => .token .negLookAhead 2
  | '?' :: '<' :: '=' :: _ => .token .lookBehind 3
  | '?' :: '<' :: '!' :: _ => .token .negLookBehind 3
  | '?' :: '<' :: cs =>
    match angleName? cs with
    | some name => .token (.namedGroup (String.ofList name)) (name.length + 3)
    | none => .token .openGroup 0
  | '?' :: 'P' :: '<' :: cs =>
    match angleName? cs with
    | some name => .token (.namedGroup (String.ofList name)) (name.length + 4)
    | none => .token .openGroup 0
  | _ => .token .openGroup 0

/-- The greatest bound of a repetition. -/
def maxBound : Nat := 4294967295

/-- The bounds of a repetition, their brace already taken, or a brace on its own. -/
def scanBrace (cs : List Char) : Scan :=
  let low := cs.takeWhile (·.isDigit)
  match low, cs.drop low.length with
  | [], _ => .token .brace 0
  | _, '}' :: _ =>
    let n := Text.ofDigits low
    if n ≤ maxBound then .token (.bounds n (some n)) (low.length + 1)
    else .fault (low.length + 1)
  | _, ',' :: rest =>
    let high := rest.takeWhile (·.isDigit)
    match high, rest.drop high.length with
    | [], '}' :: _ =>
      let m := Text.ofDigits low
      if m ≤ maxBound then .token (.bounds m none) (low.length + 2)
      else .fault (low.length + 2)
    | _, '}' :: _ =>
      let m := Text.ofDigits low
      let n := Text.ofDigits high
      if m ≤ maxBound ∧ n ≤ maxBound then
        .token (.bounds m (some n)) (low.length + high.length + 2)
      else .fault (low.length + high.length + 2)
    | _, _ => .token .brace 0
  | _, _ => .token .brace 0

/-- The greatest group number. -/
def maxGroup : Nat := 18446744073709551615

/-- A character by its code point in `count` hexadecimal digits, its backslash and letter already
taken. -/
def scanHex (count : Nat) (cs : List Char) : Scan :=
  let found := (cs.take count).takeWhile Text.isHexDigit
  if found.length = count then
    match Text.scalar? (Text.ofHexDigits found) with
    | some c => .token (.hex c) (count + 1)
    | none => .fault (count + 1)
  else .fault (found.length + 1)

/-- A group number, its backslash already taken. -/
def scanBackref (cs : List Char) : Scan :=
  let ds := cs.takeWhile (·.isDigit)
  if Text.ofDigits ds ≤ maxGroup then .token (.backref (Text.ofDigits ds)) ds.length
  else .fault ds.length

/-- A reference by name, its backslash and letter already taken. -/
def scanReference : List Char → Scan
  | '<' :: cs =>
    match angleName? cs with
    | some name => .token (.namedBackref (String.ofList name)) (name.length + 3)
    | none => .fault ((namePart cs).length + 2)
  | _ => .fault 1

/-- The category that a letter stands for after a backslash. -/
def category? (c : Char) : Option Category :=
  if c = 'd' then some .digit
  else if c = 'D' then some .notDigit
  else if c = 'w' then some .word
  else if c = 'W' then some .notWord
  else if c = 's' then some .space
  else if c = 'S' then some .notSpace
  else none

/-- The control character that a letter stands for after a backslash. -/
def control? (c : Char) : Option Char :=
  if c = 'n' then some '\n'
  else if c = 'r' then some '\r'
  else if c = 't' then some '\t'
  else if c = 'f' then some '\x0c'
  else if c = 'v' then some '\x0b'
  else if c = '0' then some '\x00'
  else none

/-- An escape, its backslash already taken. -/
def scanEscape : List Char → Scan
  | [] => .fault 0
  | c :: cs =>
    if !c.isAlphanum then .token (.escaped c) 1
    else if '1' ≤ c ∧ c ≤ '9' then scanBackref (c :: cs)
    else if c = 'k' then scanReference cs
    else if c = 'x' then scanHex 2 cs
    else if c = 'u' then scanHex 4 cs
    else if c = 'b' ∨ c = 'B' ∨ c = 'A' ∨ c = 'z' ∨ c = 'Z' ∨ c = 'G' then
      .token (.assertEscape c) 1
    else
      match category? c with
      | some k => .token (.classEscape k) 1
      | none =>
        match control? c with
        | some d => .token (.control d) 1
        | none => .fault 0

/-- The longest token at the start of the text `c :: cs`. -/
def scan (c : Char) (cs : List Char) : Scan :=
  if c = '\\' then scanEscape cs
  else if c = '(' then scanGroup cs
  else if c = '{' then scanBrace cs
  else if c = '[' then
    match cs with
    | '^' :: _ => .token .openNegatedClass 1
    | _ => .token .openClass 0
  else if c = ')' then .token .closeGroup 0
  else if c = ']' then .token .closeClass 0
  else if c = '|' then .token .pipe 0
  else if c = '*' then .token .star 0
  else if c = '+' then .token .plus 0
  else if c = '?' then .token .question 0
  else if c = '^' then .token .caret 0
  else if c = '$' then .token .dollar 0
  else if c = '.' then .token .dot 0
  else if c = '-' then .token .dash 0
  else .token (.literal c) 0

/-! ## A whole text -/

/-- Splits a text that starts at a given byte. -/
def lexFrom (position : Nat) : List Char → Except LexError (List Lexeme)
  | [] => .ok []
  | c :: cs =>
    match scan c cs with
    | .fault extra => .error ⟨LexCause.ofText c cs, position, c :: cs.take extra⟩
    | .token t extra =>
      let text := c :: cs.take extra
      let stop := position + Text.byteLength text
      match lexFrom stop (cs.drop extra) with
      | .error e => .error e
      | .ok lexemes => .ok (⟨t, ⟨position, stop⟩, text⟩ :: lexemes)
  termination_by cs => cs.length
  decreasing_by simp only [List.length_drop, List.length_cons]; omega

/-- Splits a pattern's text into lexemes. -/
def lex (source : List Char) : Except LexError (List Lexeme) := lexFrom 0 source

end PatternSampler
