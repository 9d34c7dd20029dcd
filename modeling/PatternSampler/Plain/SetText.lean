import PatternSampler.Plain.Escape
import PatternSampler.Unicode.CaseFold
/-!
# Sets between brackets

The items of a set are characters, ranges, categories and properties, besides inner sets and signs
for what sets have in common.  A closing bracket that comes first stands for itself, as do dashes
that come first, and a dash before a closing bracket or another dash makes no range.
-/
set_option autoImplicit false

namespace PatternSampler.Plain

open Unicode

/-! ## Items -/

/-- The items of a set: the ranges found, in any order, and whether there are others, whose members
are left open. -/
structure SetItems where
  ranges : RangeTable
  isOpen : Bool
  deriving DecidableEq, Repr

namespace SetItems

/-- No items. -/
def empty : SetItems := ⟨[], false⟩

/-- One more range. -/
def push (s : SetItems) (first last : Char) : SetItems :=
  { s with ranges := (first.toNat, last.toNat) :: s.ranges }

/-- One more item whose members are left open. -/
def opened (s : SetItems) : SetItems := { s with isOpen := true }

/-- The items and what a mark stands for. -/
def add (s : SetItems) : Mark → SetItems
  | .char c => s.push c c
  | .category members => { s with ranges := members ++ s.ranges }
  | .property => s.opened

/-- The members of a set: its items, with what is equal to one up to case if case does not count,
or all other characters if the set is negated.  A set that is left open has none. -/
def members (s : SetItems) (ignoreCase negated : Bool) : RangeTable :=
  if s.isOpen then []
  else
    let table := RangeTable.normalize s.ranges
    let table := if ignoreCase then caseClosure table else table
    if negated then RangeTable.complement table else table

end SetItems

/-! ## Reading -/

/-- What has been read of the innermost set. -/
inductive SetStart where
  | nothing
  | dashes
  | items
  deriving DecidableEq, Repr

/-- Reads a mark of a set. -/
def readMark : List Char → Option (Mark × List Char)
  | '\\' :: cs => readEscape cs
  | c :: cs => some (.char c, cs)
  | [] => none

/-- Whether a dash that is followed by the text makes a range. -/
def dashJoins : List Char → Bool
  | ']' :: _ => false
  | '-' :: _ => false
  | _ => true

/-- Reads a mark, or a range from a mark to another; both must be characters, and in order. -/
def readRange (s : SetItems) (cs : List Char) : Option (SetItems × List Char) :=
  match readMark cs with
  | none => none
  | some (first, '-' :: rest) =>
    if dashJoins rest then
      match first, readMark rest with
      | .char a, some (.char b, rest) => if a ≤ b then some (s.push a b, rest) else none
      | _, _ => none
    else some (s.add first, '-' :: rest)
  | some (first, rest) => some (s.add first, rest)

/-- Reads the items of a set and its closing bracket, while `depth` inner sets are open.  Each turn
takes text, so the length of the text is fuel enough. -/
def readItems : Nat → SetStart → Nat → SetItems → List Char → Option (SetItems × List Char)
  | 0, _, _, _, _ => none
  | fuel + 1, start, depth, s, cs =>
    match start, cs with
    | .nothing, '-' :: cs => readItems fuel .dashes depth (s.push '-' '-') cs
    | .dashes, '-' :: cs => readItems fuel .dashes depth (s.push '-' '-') cs
    | .nothing, ']' :: cs => readItems fuel .items depth (s.push ']' ']') cs
    | _, ']' :: cs => if depth = 0 then some (s, cs) else readItems fuel .items (depth - 1) s cs
    | _, '[' :: '^' :: cs => readItems fuel .nothing (depth + 1) s.opened cs
    | _, '[' :: cs => readItems fuel .nothing (depth + 1) s.opened cs
    | _, '&' :: '&' :: cs => readItems fuel .items depth s.opened cs
    | _, '-' :: '-' :: cs => readItems fuel .items depth s.opened cs
    | _, '~' :: '~' :: cs => readItems fuel .items depth s.opened cs
    | _, cs =>
      match readRange s cs with
      | none => none
      | some (s, cs) => readItems fuel .items depth s cs

/-- Reads a set, its opening bracket already taken, and leaves its members. -/
def readSet (ignoreCase : Bool) (cs : List Char) : Option (RangeTable × List Char) :=
  let (negated, cs) := match cs with
    | '^' :: cs => (true, cs)
    | cs => (false, cs)
  (readItems (cs.length + 1) .nothing 0 .empty cs).map fun (s, rest) =>
    (s.members ignoreCase negated, rest)

end PatternSampler.Plain
