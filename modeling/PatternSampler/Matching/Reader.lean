import PatternSampler.Matching.SetText
import PatternSampler.Pattern.Options
/-!
# Reading an expression

Reads the text of a pattern the way the matcher understands it.  The readers of the grammar take
the state of the reading and the remaining text, and leave a new state and the text after what they
read.  Their `fuel` bounds the nesting of calls; a pattern cannot need more than `fuelFor` grants.
-/
set_option autoImplicit false

namespace PatternSampler.Matching

/-! ## State -/

/-- How a pattern is meant. -/
structure Flags where
  ignoreCase : Bool
  /-- whether `^` and `$` hold at every line -/
  multiLine : Bool
  /-- whether `.` takes line feeds -/
  dotAll : Bool
  /-- whether blanks and comments between items are skipped -/
  isSpaced : Bool
  /-- whether repetitions prefer few copies, and many if a question mark follows -/
  swapsGreed : Bool
  deriving DecidableEq, Repr

namespace Flags

/-- The flags that options stand for. -/
def ofOptions (o : PatternOptions) : Flags :=
  ⟨o.caseInsensitive, o.multiLine, o.dotMatchesNewLine, false, false⟩

/-- The flags after a letter that sets or lifts one; `none` if there is no such letter. -/
def change (flags : Flags) (on : Bool) : Char → Option Flags
  | 'i' => some { flags with ignoreCase := on }
  | 'm' => some { flags with multiLine := on }
  | 's' => some { flags with dotAll := on }
  | 'x' => some { flags with isSpaced := on }
  | 'U' => some { flags with swapsGreed := on }
  | 'u' => if on then some flags else none
  | _ => none

end Flags

/-- What a reading has met so far. -/
structure ReadState where
  /-- how many groups have been opened -/
  groups : Nat
  /-- the named groups, latest first -/
  names : List (List Char × Nat)
  /-- the groups that are referred to -/
  references : List Nat
  /-- whether a reference was made by number -/
  isNumbered : Bool
  flags : Flags
  deriving DecidableEq, Repr

namespace ReadState

/-- Nothing has been met. -/
def start (flags : Flags) : ReadState := ⟨0, [], [], false, flags⟩

/-- One more group. -/
def openGroup (st : ReadState) : ReadState := { st with groups := st.groups + 1 }

/-- One more group, with a name. -/
def openNamed (st : ReadState) (name : List Char) : ReadState :=
  { st with groups := st.groups + 1, names := (name, st.groups + 1) :: st.names }

/-- The group that a name stands for: one defined by now, or the number that the name spells. -/
def named? (st : ReadState) (id : List Char) : Option Nat :=
  match st.names.lookup id with
  | some group => some group
  | none => if id.all (·.isDigit) then some (Text.ofDigits id) else none

/-- The group that is some steps away from the latest one, which is one step back. -/
def relative? (st : ReadState) (steps : Int) : Option Nat :=
  (if steps < 0 then st.groups + steps + 1 else st.groups + steps).toNat?

/-- The group that a reference stands for, and the state after it. -/
def refer? (st : ReadState) (r : Reference) : Option (Nat × ReadState) :=
  let found := match r with
    | .number group => some group
    | .named id => st.named? id
    | .relative steps => st.relative? steps
  let isNumber := match r with
    | .number _ => true
    | _ => false
  found.map fun group => (group, { st with
    references := group :: st.references, isNumbered := st.isNumbered || isNumber })

/-- Whether groups are referred to by number although some have names. -/
def mixesReferences (st : ReadState) : Bool := st.isNumbered && !st.names.isEmpty

/-- Whether every reference goes to a group that there is. -/
def referencesHold (st : ReadState) : Bool :=
  st.references.all fun group => decide (1 ≤ group) && decide (group ≤ st.groups)

/-- The text after blanks and comments. -/
def skip (st : ReadState) (cs : List Char) : Option (List Char) := skipFiller st.flags.isSpaced cs

end ReadState

/-- What a reader finds: a value, the text after it and the new state. -/
abbrev Found (α : Type) : Type := Option (α × List Char × ReadState)

/-! ## Quantifiers -/

/-- How often an item is repeated; the bounds need not be in order. -/
structure Bounds where
  min : Nat
  max : Option Nat
  deriving DecidableEq, Repr

/-- The bound that stands for no bound. -/
def noBound : Nat := UInt64.size - 1

/-- Reads the upper bound and the brace after it. -/
def readUpper (st : ReadState) (min : Nat) (cs : List Char) : Option (Bounds × List Char) :=
  match st.skip cs with
  | none => none
  | some cs =>
    let (max, cs) := (readNumber cs).getD (noBound, cs)
    match st.skip cs with
    | some ('\x7d' :: rest) => some (⟨min, if max = noBound then none else some max⟩, rest)
    | _ => none

/-- Reads bounds in braces, the opening one already taken; a missing lower bound is zero. -/
def readBounds (st : ReadState) (cs : List Char) : Option (Bounds × List Char) :=
  match st.skip cs with
  | none => none
  | some cs =>
    match readNumber cs with
    | none =>
      match cs with
      | ',' :: rest => readUpper st 0 rest
      | _ => none
    | some (min, rest) =>
      match st.skip rest with
      | some (',' :: rest) => readUpper st min rest
      | some ('\x7d' :: rest) => some (⟨min, if min = noBound then none else some min⟩, rest)
      | _ => none

/-- Reads a quantifier. -/
def readQuantifier (st : ReadState) : List Char → Option (Bounds × List Char)
  | '?' :: rest => some (⟨0, some 1⟩, rest)
  | '*' :: rest => some (⟨0, none⟩, rest)
  | '+' :: rest => some (⟨1, none⟩, rest)
  | '\x7b' :: rest => readBounds st rest
  | _ => none

/-- Puts an item under its quantifier and reads what may follow that: a question mark for few
copies, a plus sign for a choice that is never taken back. -/
def readSuffix (st : ReadState) (item : Expression) (b : Bounds) (cs : List Char) :
    Found Expression :=
  if !item.isRepeatable then none
  else
    match st.skip cs with
    | none => none
    | some cs =>
      let (isMarked, cs) := match cs with
        | '?' :: rest => (true, rest)
        | cs => (false, cs)
      let repeated := .repetition item b.min b.max (isMarked != st.flags.swapsGreed)
      match cs with
      | '+' :: rest => some (.atomic repeated, rest, st)
      | cs => some (repeated, cs, st)

/-! ## Items without parts -/

/-- The assertion of a caret. -/
def caret (flags : Flags) : Expression :=
  .assert (.edge (if flags.multiLine then .lineStart else .textStart))

/-- The assertion of a dollar sign. -/
def dollar (flags : Flags) : Expression :=
  .assert (.edge (if flags.multiLine then .lineEnd else .textEnd))

/-- What line feeds up to the end of the text match. -/
def trailingNewlines : Expression := .text "\n*$".toList false

/-- The expression of an escape.  A character that a backslash makes itself does not fold. -/
def ofEscape (st : ReadState) : Escape → Option (Expression × ReadState)
  | .literal c => some (.literal c false, st)
  | .codePoint c => some (.literal c st.flags.ignoreCase, st)
  | .text source => some (.text source st.flags.ignoreCase, st)
  | .assert a => some (.assert a, st)
  | .reference r =>
    (st.refer? r).map fun (group, st) => (.backref group st.flags.ignoreCase, st)
  | .any => some (.any true, st)
  | .beforeNewlines => some (.lookAround trailingNewlines false false, st)
  | .searchStart => some (.searchStart, st)
  | .matchStart => some (.matchStart, st)

/-- Reads an escape, its backslash already taken. -/
def readEscaped (st : ReadState) (cs : List Char) : Found Expression :=
  match readEscape st.flags.isSpaced cs with
  | none => none
  | some (e, rest) => (ofEscape st e).map fun (x, st) => (x, rest, st)

/-! ## Groups -/

/-- How a group starts, after its parenthesis. -/
inductive GroupStart where
  | look (negative behind : Bool)
  | capture
  | named (name : List Char)
  /-- a reference to a group by name -/
  | reference (name : List Char)
  /-- a group whose choices are never taken back -/
  | atomic
  /-- a choice by whether something matches -/
  | conditional
  /-- flags, alone or for the group that they start -/
  | flags
  deriving DecidableEq, Repr

/-- Reads the start of a group, its parenthesis already taken. -/
def readGroupStart : List Char → Option (GroupStart × List Char)
  | '?' :: '=' :: cs => some (.look false false, cs)
  | '?' :: '!' :: cs => some (.look true false, cs)
  | '?' :: '<' :: '=' :: cs => some (.look false true, cs)
  | '?' :: '<' :: '!' :: cs => some (.look true true, cs)
  | '?' :: '<' :: cs => (readId '>' cs).map fun (id, rest) => (.named id, rest)
  | '?' :: '\'' :: cs => (readId '\'' cs).map fun (id, rest) => (.named id, rest)
  | '?' :: 'P' :: '<' :: cs => (readId '>' cs).map fun (id, rest) => (.named id, rest)
  | '?' :: 'P' :: '=' :: cs => (readId ')' cs).map fun (id, rest) => (.reference id, rest)
  | '?' :: 'P' :: '>' :: _ => none
  | '?' :: '>' :: cs => some (.atomic, cs)
  | '?' :: '(' :: cs => some (.conditional, cs)
  | '?' :: cs => some (.flags, cs)
  | cs => some (.capture, cs)

/-- What ends a list of flags. -/
inductive FlagsEnd where
  /-- a parenthesis: the flags hold from here on -/
  | alone
  /-- a colon: the flags hold for the group -/
  | scoped
  deriving DecidableEq, Repr

/-- Reads flags of a list that starts with `whole`, and `isNegative` tells whether they are being
lifted.  Each step takes at least one character of at most `fuel`. -/
def readFlags (whole : List Char) :
    Nat → Flags → Bool → List Char → Option (FlagsEnd × Flags × List Char)
  | 0, _, _, _ => none
  | fuel + 1, flags, isNegative, cs =>
    match skipFiller flags.isSpaced cs with
    | none => none
    | some [] => none
    | some (c :: cs) =>
      let taken := whole.length - (cs.length + 1)
      let isBare := isNegative && taken == 1
      if c = ')' then if taken = 0 || isBare then none else some (.alone, flags, cs)
      else if c = ':' then if isBare then none else some (.scoped, flags, cs)
      else if c = '-' then if isNegative then none else readFlags whole fuel flags true cs
      else
        match flags.change (!isNegative) c with
        | none => none
        | some flags => readFlags whole fuel flags isNegative cs

/-- Takes the parenthesis that closes a group. -/
def readClose (e : Expression) (cs : List Char) (st : ReadState) : Found Expression :=
  match st.skip cs with
  | some (')' :: rest) => some (e, rest, st)
  | _ => none

/-- Reads the reference that a conditional may ask for. -/
def readCondition : List Char → Option (Reference × List Char)
  | '\'' :: cs => readReference '\'' cs
  | '<' :: cs => readReference '>' cs
  | c :: cs =>
    if c.isDigit then (readNumber (c :: cs)).map fun (n, rest) => (.number n, rest)
    else readSteps (c :: cs)
  | [] => none

/-- Whether a conditional asks for a reference. -/
def asksReference : List Char → Bool
  | c :: _ => c.isDigit || c == '+' || c == '-' || c == '\'' || c == '<'
  | [] => false

/-! ## The grammar -/

mutual

/-- Reads a choice. -/
def readChoice : Nat → ReadState → List Char → Found Expression
  | 0, _, _ => none
  | fuel + 1, st, cs =>
    match readSequence fuel st [] cs with
    | none => none
    | some (first, rest, st) =>
      match st.skip rest with
      | none => none
      | some ('|' :: rest) => readArms fuel st [first] rest
      | some rest => if st.mixesReferences then none else some (first, rest, st)

/-- Reads the arms of a choice after those given, latest first, and a bar. -/
def readArms : Nat → ReadState → List Expression → List Char → Found Expression
  | 0, _, _, _ => none
  | fuel + 1, st, arms, cs =>
    match readSequence fuel st [] cs with
    | none => none
    | some (arm, rest, st) =>
      match st.skip rest with
      | none => none
      | some ('|' :: rest) => readArms fuel st (arm :: arms) rest
      | some rest => some (.alternate (arm :: arms).reverse, rest, st)

/-- Reads the items of a sequence after those given, latest first, until one takes no text. -/
def readSequence : Nat → ReadState → List Expression → List Char → Found Expression
  | 0, _, _, _ => none
  | fuel + 1, st, items, cs =>
    match readItem fuel st cs with
    | none => none
    | some (item, rest, st) =>
      if rest.length = cs.length then some (.ofItems items.reverse, cs, st)
      else readSequence fuel st (if item.isEmpty then items else item :: items) rest

/-- Reads an item and its quantifier, if it has one. -/
def readItem : Nat → ReadState → List Char → Found Expression
  | 0, _, _ => none
  | fuel + 1, st, cs =>
    match readAtom fuel st cs with
    | none => none
    | some (item, rest, st) =>
      match st.skip rest with
      | none => none
      | some rest =>
        match readQuantifier st rest with
        | none => some (item, rest, st)
        | some (b, rest) => readSuffix st item b rest

/-- Reads an item without its quantifier.  Where none starts, it is empty and takes no text. -/
def readAtom : Nat → ReadState → List Char → Found Expression
  | 0, _, _ => none
  | fuel + 1, st, cs =>
    match st.skip cs with
    | none => none
    | some [] => some (.empty, [], st)
    | some (c :: rest) =>
      if c = '*' ∨ c = '+' ∨ c = '?' ∨ c = '|' ∨ c = ')' then some (.empty, c :: rest, st)
      else if c = '.' then some (.any st.flags.dotAll, rest, st)
      else if c = '^' then some (caret st.flags, rest, st)
      else if c = '$' then some (dollar st.flags, rest, st)
      else if c = '(' then readGroup fuel st rest
      else if c = '\\' then readEscaped st rest
      else if c = '[' then
        (readSet st.flags.isSpaced rest).map fun (source, rest) =>
          (.text source st.flags.ignoreCase, rest, st)
      else some (.literal c st.flags.ignoreCase, rest, st)

/-- Reads a group, its parenthesis already taken. -/
def readGroup : Nat → ReadState → List Char → Found Expression
  | 0, _, _ => none
  | fuel + 1, st, cs =>
    match (st.skip cs).bind readGroupStart with
    | none => none
    | some (.look negative behind, rest) =>
      readEnclosed fuel st (fun body => .lookAround body negative behind) rest
    | some (.capture, rest) =>
      readEnclosed fuel st.openGroup (.group (st.groups + 1)) rest
    | some (.named name, rest) =>
      readEnclosed fuel (st.openNamed name) (.group (st.groups + 1)) rest
    | some (.atomic, rest) => readEnclosed fuel st .atomic rest
    | some (.conditional, rest) => readConditional fuel st rest
    | some (.reference name, rest) =>
      (ofEscape st (.reference (.named name))).map fun (e, st) => (e, rest, st)
    | some (.flags, rest) =>
      match readFlags rest (rest.length + 1) st.flags false rest with
      | none => none
      | some (.alone, flags, rest) => some (.empty, rest, { st with flags })
      | some (.scoped, flags, rest) =>
        match readEnclosed fuel { st with flags } id rest with
        | none => none
        | some (e, rest, inner) => some (e, rest, { inner with flags := st.flags })

/-- Reads a conditional, its two parentheses already taken.  One without arms asks whether a group
has matched. -/
def readConditional : Nat → ReadState → List Char → Found Expression
  | 0, _, _ => none
  | fuel + 1, st, cs =>
    let condition : Found Expression :=
      if asksReference cs then
        match readCondition cs with
        | none => none
        | some (r, rest) =>
          (st.refer? r).bind fun (group, st) => readClose (.hasMatched group) rest st
      else readEnclosed fuel st id cs
    match condition with
    | none => none
    | some (condition, rest, st) =>
      match readChoice fuel st rest with
      | none => none
      | some (arms, after, st) =>
        if after.length = rest.length then
          match condition with
          | .hasMatched group => readClose (.hasMatched group) after st
          | _ => none
        else readClose (.ofArms condition arms) after st

/-- Reads the body of a group and the parenthesis that closes it. -/
def readEnclosed : Nat → ReadState → (Expression → Expression) → List Char → Found Expression
  | 0, _, _, _ => none
  | fuel + 1, st, wrap, cs =>
    match readChoice fuel st cs with
    | none => none
    | some (body, rest, st) => readClose (wrap body) rest st

end

/-- Fuel that suffices for a text: each of its characters adds at most seven nested calls. -/
def fuelFor (cs : List Char) : Nat := 8 * cs.length + 8

/-- An expression with its groups. -/
structure Reading where
  expression : Expression
  groups : Nat
  /-- the groups that are referred to -/
  references : List Nat
  deriving Repr

/-- Reads an expression; `none` if the text has none that the matcher reads. -/
def readExpression (options : PatternOptions) (source : List Char) : Option Reading :=
  match readChoice (fuelFor source) (.start (.ofOptions options)) source with
  | some (e, [], st) => if st.referencesHold then some ⟨e, st.groups, st.references⟩ else none
  | _ => none

end PatternSampler.Matching
