import PatternSampler.Pattern.Options
import PatternSampler.Plain.Basic
import PatternSampler.Plain.SetText
import PatternSampler.Text.Numeral
/-!
# Reading a plain expression

Reads the text of a plain expression.  The readers of the grammar take the flags in force and the
remaining text, and leave what they read, the text after it and the flags in force there.  Their
`fuel` bounds the nesting of calls; a text cannot need more than `fuelFor` grants.
-/
set_option autoImplicit false

namespace PatternSampler.Plain

/-! ## Flags -/

/-- How a text is meant. -/
structure Flags where
  ignoreCase : Bool
  /-- whether `^` and `$` hold at every line -/
  multiLine : Bool
  /-- whether `.` takes line feeds -/
  dotAll : Bool
  /-- whether repetitions prefer few copies, and many if a question mark follows -/
  swapsGreed : Bool
  deriving DecidableEq, Repr

namespace Flags

/-- Every flag off. -/
def default : Flags := ⟨false, false, false, false⟩

/-- The flags that options stand for. -/
def ofOptions (o : PatternOptions) : Flags :=
  ⟨o.caseInsensitive, o.multiLine, o.dotMatchesNewLine, false⟩

/-- The flags after a letter that sets or lifts one; `none` if there is no such letter. -/
def change (flags : Flags) (on : Bool) : Char → Option Flags
  | 'i' => some { flags with ignoreCase := on }
  | 'm' => some { flags with multiLine := on }
  | 's' => some { flags with dotAll := on }
  | 'U' => some { flags with swapsGreed := on }
  | 'u' => some flags
  | 'x' => some flags
  | 'R' => some flags
  | _ => none

end Flags

/-- What a reader leaves. -/
abbrev Reading (α : Type) : Type := Option (α × List Char × Flags)

/-! ## Items without parts -/

/-- The expression of a character. -/
def ofChar (flags : Flags) (c : Char) : Plain :=
  if flags.ignoreCase then ofMembers (Unicode.caseClosure [(c.toNat, c.toNat)]) else .literal [c]

/-- The expression of a mark. -/
def ofMark (flags : Flags) : Mark → Plain
  | .char c => ofChar flags c
  | .category members => ofMembers members
  | .property => .set []

/-- The expression of a dot. -/
def ofDot (flags : Flags) : Plain :=
  .set (if flags.dotAll then [(0, 0x10FFFF)] else [(0, 0x9), (0xB, 0x10FFFF)])

/-- The edge of a caret. -/
def caret (flags : Flags) : Edge := if flags.multiLine then .lineStart else .textStart

/-- The edge of a dollar sign. -/
def dollar (flags : Flags) : Edge := if flags.multiLine then .lineEnd else .textEnd

/-! ## Quantifiers -/

/-- How often an item is repeated. -/
structure Bounds where
  min : Nat
  max : Option Nat
  deriving DecidableEq, Repr

/-- The greatest bound. -/
def maxBound : Nat := 4294967295

/-- Reads a bound with blanks around it. -/
def readBound (cs : List Char) : Option (Nat × List Char) :=
  let (digits, rest) := (cs.dropWhile Unicode.isBlank).span (·.isDigit)
  let n := Text.ofDigits digits
  if digits = [] ∨ maxBound < n then none else some (n, rest.dropWhile Unicode.isBlank)

/-- Reads bounds in braces, the opening one already taken; they must be in order. -/
def readBounds (cs : List Char) : Option (Bounds × List Char) :=
  match readBound cs with
  | some (min, '\x7d' :: rest) => some (⟨min, some min⟩, rest)
  | some (min, ',' :: '\x7d' :: rest) => some (⟨min, none⟩, rest)
  | some (min, ',' :: rest) =>
    match readBound rest with
    | some (max, '\x7d' :: rest) => if min ≤ max then some (⟨min, some max⟩, rest) else none
    | _ => none
  | _ => none

/-- Whether a character starts a quantifier. -/
def startsQuantifier (c : Char) : Bool := c == '?' || c == '*' || c == '+' || c == '\x7b'

/-- Reads a quantifier. -/
def readQuantifier : List Char → Option (Bounds × List Char)
  | '?' :: rest => some (⟨0, some 1⟩, rest)
  | '*' :: rest => some (⟨0, none⟩, rest)
  | '+' :: rest => some (⟨1, none⟩, rest)
  | '\x7b' :: rest => readBounds rest
  | _ => none

/-- Reads a quantifier, and a question mark that may follow, and puts an item under them. -/
def readRepetition (flags : Flags) (item : Plain) (cs : List Char) : Option (Plain × List Char) :=
  match readQuantifier cs with
  | none => none
  | some (b, '?' :: rest) => some (repeated item b.min b.max (!flags.swapsGreed), rest)
  | some (b, rest) => some (repeated item b.min b.max flags.swapsGreed, rest)

/-! ## Groups -/

/-- How a group starts. -/
inductive GroupStart where
  | capture
  /-- flags for the group itself -/
  | scoped (flags : Flags)
  /-- flags for what follows, and no group -/
  | alone (flags : Flags)
  deriving DecidableEq, Repr

/-- Reads flags; `met` lists the letters so far, latest first, and no letter comes twice. -/
def readFlags (flags : Flags) (met : List Char) : List Char → Option (GroupStart × List Char)
  | [] => none
  | ':' :: cs => if met.head? = some '-' then none else some (.scoped flags, cs)
  | ')' :: cs => if met = [] ∨ met.head? = some '-' then none else some (.alone flags, cs)
  | c :: cs =>
    if met.contains c then none
    else if c = '-' then readFlags flags (c :: met) cs
    else
      match flags.change (!met.contains '-') c with
      | none => none
      | some flags => readFlags flags (c :: met) cs

/-- Reads the name of a group and the bracket after it. -/
def readName (cs : List Char) : Option (GroupStart × List Char) :=
  match cs.span (· ≠ '>') with
  | (c :: name, _ :: rest) =>
    let isFirst := fun (c : Char) => c == '_' || Unicode.isWord c && !Unicode.isNumeric c
    let isNext := fun (c : Char) => isFirst c || Unicode.isNumeric c || "[].".contains c
    if isFirst c && name.all isNext then some (.capture, rest) else none
  | _ => none

/-- Reads the start of a group, its parenthesis already taken.  Nothing looks around. -/
def readGroupStart (flags : Flags) : List Char → Option (GroupStart × List Char)
  | '?' :: '<' :: '=' :: _ => none
  | '?' :: '<' :: '!' :: _ => none
  | '?' :: '<' :: cs => readName cs
  | '?' :: 'P' :: '<' :: cs => readName cs
  | '?' :: cs => readFlags flags [] cs
  | cs => some (.capture, cs)

/-! ## The grammar -/

mutual

/-- Reads a choice; the arms found so far come latest first. -/
def readChoice : Nat → Flags → List Plain → List Char → Reading Plain
  | 0, _, _, _ => none
  | fuel + 1, flags, arms, cs =>
    match readSequence fuel flags [] false cs with
    | some (arm, '|' :: rest, flags) => readChoice fuel flags (arm :: arms) rest
    | some (arm, rest, flags) => some (ofArms (arm :: arms).reverse, rest, flags)
    | none => none

/-- Reads a sequence; the items found so far come latest first, and `isOpen` tells whether the
latest can be repeated. -/
def readSequence : Nat → Flags → List Plain → Bool → List Char → Reading Plain
  | 0, _, _, _, _ => none
  | _, flags, items, _, [] => some (ofItems items.reverse, [], flags)
  | fuel + 1, flags, items, isOpen, c :: cs =>
    if c = '|' ∨ c = ')' then some (ofItems items.reverse, c :: cs, flags)
    else if startsQuantifier c then
      match items, isOpen with
      | item :: items, true =>
        match readRepetition flags item (c :: cs) with
        | none => none
        | some (item, rest) => readSequence fuel flags (item :: items) true rest
      | _, _ => none
    else if c = '(' then
      match readGroup fuel flags cs with
      | none => none
      | some (some item, rest, flags) => readSequence fuel flags (item :: items) true rest
      | some (none, rest, flags) => readSequence fuel flags items false rest
    else
      match readAtom flags c cs with
      | none => none
      | some (item, rest) => readSequence fuel flags (item :: items) true rest

/-- Reads a group, its parenthesis already taken; `none` stands for flags alone. -/
def readGroup : Nat → Flags → List Char → Reading (Option Plain)
  | 0, _, _ => none
  | fuel + 1, flags, cs =>
    match readGroupStart flags cs with
    | none => none
    | some (.alone flags, rest) => some (none, rest, flags)
    | some (.capture, rest) =>
      match readChoice fuel flags [] rest with
      | some (body, ')' :: rest, _) => some (some (.group body), rest, flags)
      | _ => none
    | some (.scoped inner, rest) =>
      match readChoice fuel inner [] rest with
      | some (body, ')' :: rest, _) => some (some body, rest, flags)
      | _ => none

/-- Reads an item that is no group. -/
def readAtom (flags : Flags) (c : Char) (cs : List Char) : Option (Plain × List Char) :=
  if c = '.' then some (ofDot flags, cs)
  else if c = '^' then some (.edge (caret flags), cs)
  else if c = '$' then some (.edge (dollar flags), cs)
  else if c = '[' then
    (readSet flags.ignoreCase cs).map fun (members, rest) => (ofMembers members, rest)
  else if c = '\\' then (readEscape cs).map fun (m, rest) => (ofMark flags m, rest)
  else some (ofChar flags c, cs)

end

/-- Fuel that suffices for a text: each of its characters adds at most three nested calls. -/
def fuelFor (cs : List Char) : Nat := 3 * cs.length + 3

/-- The plain expression that a text spells. -/
def ofText (flags : Flags) (cs : List Char) : Option Plain :=
  match readChoice (fuelFor cs) flags [] cs with
  | some (e, [], _) => some e
  | _ => none

end PatternSampler.Plain
