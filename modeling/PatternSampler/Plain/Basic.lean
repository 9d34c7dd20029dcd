import PatternSampler.Unicode.Ranges
/-!
# Plain expressions

Expressions that never look back on what has been matched, so that an automaton can run them.  They
are kept in a simplified form: nothing is repeated that matches only the empty text, neighbouring
characters are one literal, and a choice between single characters is a set.
-/
set_option autoImplicit false

namespace PatternSampler

/-- An edge of a text or of a line, as a condition on a position. -/
inductive Plain.Edge where
  | textStart
  | textEnd
  | lineStart
  | lineEnd
  deriving DecidableEq, Repr

/-- A plain expression. -/
inductive Plain where
  | empty
  /-- the given characters, at least one -/
  | literal (cs : List Char)
  /-- a character of an ordered table -/
  | set (members : Unicode.RangeTable)
  | edge (e : Plain.Edge)
  | group (body : Plain)
  | repetition (body : Plain) (min : Nat) (max : Option Nat) (isLazy : Bool)
  | concat (items : List Plain)
  | alternate (arms : List Plain)
  deriving Repr, Inhabited

namespace Plain

/-! ## Lengths -/

mutual

/-- Whether an expression matches the empty text at most. -/
def isEmptyOnly : Plain → Bool
  | .empty | .edge _ => true
  | .literal _ | .set _ => false
  | .group body => body.isEmptyOnly
  | .repetition body _ _ _ => body.isEmptyOnly
  | .concat items => areEmptyOnly items
  | .alternate arms => areEmptyOnly arms

/-- Whether every expression of a list matches the empty text at most. -/
def areEmptyOnly : List Plain → Bool
  | [] => true
  | e :: es => e.isEmptyOnly && areEmptyOnly es

end

mutual

/-- Whether an expression never matches the empty text, as far as its parts show. -/
def needsText : Plain → Bool
  | .empty | .edge _ => false
  | .literal _ => true
  | .set members => !members.isEmpty
  | .group body => body.needsText
  | .repetition body min _ _ => decide (0 < min) && body.needsText
  | .concat items => anyNeedsText items
  | .alternate arms => allNeedText arms

/-- Whether some expression of a list never matches the empty text. -/
def anyNeedsText : List Plain → Bool
  | [] => false
  | e :: es => e.needsText || anyNeedsText es

/-- Whether no expression of a list matches the empty text. -/
def allNeedText : List Plain → Bool
  | [] => true
  | e :: es => e.needsText && allNeedText es

end

/-! ## Simplified forms -/

/-- The set with the given ranges, in any order; a set of one character is a literal. -/
def ofMembers (members : Unicode.RangeTable) : Plain :=
  match members with
  | [(first, last)] => if first = last then .literal [Char.ofNat first] else .set members
  | members => .set members

/-- A repetition.  What matches only the empty text is repeated once at most. -/
def repeated (body : Plain) (min : Nat) (max : Option Nat) (isLazy : Bool) : Plain :=
  let (min, max) :=
    if body.isEmptyOnly then (Nat.min min 1, some (Nat.min (max.getD 1) 1)) else (min, max)
  if max = some 0 then .empty
  else if min = 1 ∧ max = some 1 then body
  else .repetition body min max isLazy

/-- Puts an item before the items of a sequence. -/
def prepend (item : Plain) (items : List Plain) : List Plain :=
  match item, items with
  | .empty, items => items
  | .literal cs, .literal ds :: items => .literal (cs ++ ds) :: items
  | .concat inner, items =>
    match inner.getLast?, items with
    | some (.literal cs), .literal ds :: items => inner.dropLast ++ .literal (cs ++ ds) :: items
    | _, items => inner ++ items
  | item, items => item :: items

/-- A sequence of items. -/
def ofItems (items : List Plain) : Plain :=
  match items.foldr prepend [] with
  | [] => .empty
  | [item] => item
  | items => .concat items

/-- The character that an expression stands for. -/
def char? : Plain → Option (Nat × Nat)
  | .literal [c] => some (c.toNat, c.toNat)
  | _ => none

/-- The members of an expression that is a set. -/
def members? : Plain → Option Unicode.RangeTable
  | .set members => some members
  | _ => none

/-- The items of an expression that is a sequence. -/
def items? : Plain → Option (List Plain)
  | .concat items => some items
  | _ => none

mutual

/-- Whether two expressions are the same. No two groups are, because each has a place of its own. -/
def isSame : Plain → Plain → Bool
  | .empty, .empty => true
  | .literal cs, .literal ds => cs == ds
  | .set members, .set others => members == others
  | .edge e, .edge f => e == f
  | .repetition body min max isLazy, .repetition other least most lazily =>
    body.isSame other && min == least && max == most && isLazy == lazily
  | .concat items, .concat others => areSame items others
  | .alternate arms, .alternate others => areSame arms others
  | _, _ => false

/-- Whether two lists have the same expressions. -/
def areSame : List Plain → List Plain → Bool
  | [], [] => true
  | e :: es, f :: fs => e.isSame f && areSame es fs
  | _, _ => false

end

/-- How many items two sequences have in common at the start. -/
def commonLength : List Plain → List Plain → Nat
  | e :: es, f :: fs => if e.isSame f then commonLength es fs + 1 else 0
  | _, _ => 0

/-- What sequences have in common at the start, and the rest of each. -/
def factor : List (List Plain) → List Plain × List (List Plain)
  | [] => ([], [])
  | first :: others =>
    let n := others.foldl (fun n items => Nat.min n (commonLength first items)) first.length
    (first.take n, (first :: others).map (·.drop n))

/-- A choice between arms.  Arms that are characters are a set, arms that are sets are another, and
what arms have in common at the start is taken out, as long as there is `fuel`. -/
def ofArmsWithin (fuel : Nat) (arms : List Plain) : Plain :=
  let arms := arms.flatMap fun
    | .alternate inner => inner
    | arm => [arm]
  match arms with
  | [arm] => arm
  | arms =>
    match arms.mapM char?, arms.mapM members?, arms.mapM items? with
    | some chars, _, _ => ofMembers (Unicode.RangeTable.normalize chars)
    | none, some tables, _ => ofMembers (Unicode.RangeTable.normalize tables.flatten)
    | none, none, some sequences =>
      match fuel, factor sequences with
      | fuel + 1, (common :: others, rests) =>
        ofItems (common :: others ++ [ofArmsWithin fuel (rests.map ofItems)])
      | _, _ => .alternate arms
    | none, none, none => .alternate arms

/-- A choice between arms.  What they have in common is shorter than the first of them. -/
def ofArms (arms : List Plain) : Plain :=
  ofArmsWithin ((arms.head?.bind items?).getD []).length arms

end Plain

end PatternSampler
