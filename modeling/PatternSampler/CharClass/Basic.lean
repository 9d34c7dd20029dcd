import PatternSampler.Unicode.Numeric
/-!
# Character classes

A character class is a list of ranges and a list of categories, possibly negated.  The
constructors and `pushRange` keep the ranges in normal form: sorted, disjoint and not adjacent,
where adjacency is taken over Unicode scalar values (U+D7FF is next to U+E000).  A class may also
be given as plain data, and is then used as it stands.

Membership in a category is known only within bounds: `Category.surely` holds of the characters
that every matcher counts in, `Category.possibly` of those that some matcher does.  `contains` is
conservative in both directions, so that a member is one whatever the matcher's own set.
-/
set_option autoImplicit false

namespace PatternSampler

/-! ## Neighbours -/

/-- The next Unicode scalar value, if there is one. -/
def nextChar? (c : Char) : Option Char :=
  if c.toNat = 0xD7FF then some '\uE000'
  else if c.toNat = 0x10FFFF then none
  else some (Char.ofNat (c.toNat + 1))

/-! ## Ranges -/

/-- The characters from `first` to `last`, both included; empty if `last` comes before `first`. -/
structure CharRange where
  first : Char
  last : Char
  deriving DecidableEq, Repr

namespace CharRange

/-- Whether a character lies in the range. -/
def contains (r : CharRange) (c : Char) : Bool := decide (r.first ≤ c) && decide (c ≤ r.last)

/-- The range with its ends in order. -/
def ordered (r : CharRange) : CharRange := if r.last < r.first then ⟨r.last, r.first⟩ else r

/-- The order of ranges: by first character, then by last. -/
def le (a b : CharRange) : Bool :=
  decide (a.first < b.first) || (decide (a.first = b.first) && decide (a.last ≤ b.last))

/-- Whether `b`, which does not start before `a`, overlaps or immediately follows `a`. -/
def reaches (a b : CharRange) : Bool :=
  match nextChar? a.last with
  | none => true
  | some n => decide (b.first ≤ n)

/-- The range `a` extended to the end of `b`. -/
def extend (a b : CharRange) : CharRange := if a.last < b.last then ⟨a.first, b.last⟩ else a

/-- Inserts a range into a sorted list, before the first range that is not smaller. -/
def insert (r : CharRange) : List CharRange → List CharRange
  | [] => [r]
  | s :: rest => if r.le s then r :: s :: rest else s :: insert r rest

/-- The ranges in order. -/
def sort (rs : List CharRange) : List CharRange := rs.foldr insert []

/-- Joins a range with those of a sorted list that it reaches, one after the other. -/
def joinInto (r : CharRange) : List CharRange → List CharRange
  | [] => [r]
  | s :: rest => if r.reaches s then joinInto (r.extend s) rest else r :: joinInto s rest

/-- Joins the ranges of a sorted list wherever two overlap or are adjacent. -/
def join : List CharRange → List CharRange
  | [] => []
  | r :: rest => joinInto r rest

/-- The normal form of a list of ranges. -/
def normalize (rs : List CharRange) : List CharRange := join (sort (rs.map ordered))

end CharRange

/-! ## Categories -/

/-- A shorthand class. -/
inductive Category where
  | digit
  | notDigit
  | word
  | notWord
  | space
  | notSpace
  deriving DecidableEq, Repr

namespace Category

/-- Whether a character is ASCII. -/
def isAscii (c : Char) : Bool := decide (c.toNat < 0x80)

/-- Whether a character is an ASCII letter, an ASCII digit or the low line. -/
def isAsciiWord (c : Char) : Bool := c.isAlphanum || c == '_'

/-- The characters that every matcher counts in. -/
def surely : Category → Char → Bool
  | .digit, c => c.isDigit
  | .notDigit, c => !Unicode.isNumeric c
  | .word, c => isAsciiWord c
  | .notWord, c => isAscii c && !isAsciiWord c
  | .space, c => Unicode.isBlank c
  | .notSpace, c => !Unicode.isBlank c

/-- The characters that some matcher counts in. -/
def possibly : Category → Char → Bool
  | .digit, c => Unicode.isNumeric c
  | .notDigit, c => !c.isDigit
  | .word, c => isAsciiWord c || !isAscii c
  | .notWord, c => !isAsciiWord c
  | .space, c => Unicode.isBlank c
  | .notSpace, c => !Unicode.isBlank c

/-- The escape that spells the category in a pattern. -/
def spelling : Category → String
  | .digit => "\\d"
  | .notDigit => "\\D"
  | .word => "\\w"
  | .notWord => "\\W"
  | .space => "\\s"
  | .notSpace => "\\S"

/-- The category's name. -/
def name : Category → String
  | .digit => "Digit"
  | .notDigit => "NotDigit"
  | .word => "Word"
  | .notWord => "NotWord"
  | .space => "Space"
  | .notSpace => "NotSpace"

/-- All categories. -/
def all : List Category := [.digit, .notDigit, .word, .notWord, .space, .notSpace]

/-- The category of a given name. -/
def ofName? (s : String) : Option Category := all.find? (·.name == s)

end Category

/-! ## Classes -/

/-- A character class: what its ranges and categories cover, or everything else. -/
structure CharClass where
  negated : Bool
  ranges : List CharRange
  categories : List Category
  deriving DecidableEq, Repr

namespace CharClass

/-- The class of the given ranges and categories, its ranges in normal form. -/
def ofRanges (negated : Bool) (ranges : List CharRange) (categories : List Category) :
    CharClass :=
  ⟨negated, CharRange.normalize ranges, categories⟩

/-- The class without members. -/
def empty : CharClass := ⟨false, [], []⟩

/-- The characters from `first` to `last`. -/
def range (first last : Char) : CharClass := ofRanges false [⟨first, last⟩] []

/-- One character. -/
def single (c : Char) : CharClass := range c c

/-- Every character but one. -/
def notChar (c : Char) : CharClass := ofRanges true [⟨c, c⟩] []

/-- A category on its own. -/
def ofCategory (k : Category) : CharClass := ofRanges false [] [k]

/-- Every character. -/
def any : CharClass := ofRanges true [] []

/-- Adds a range, given by its ends in either order. -/
def pushRange (cls : CharClass) (a b : Char) : CharClass :=
  { cls with ranges := CharRange.normalize (cls.ranges ++ [⟨a, b⟩]) }

/-- Adds a category, unless it is there already. -/
def pushCategory (cls : CharClass) (k : Category) : CharClass :=
  if k ∈ cls.categories then cls else { cls with categories := cls.categories ++ [k] }

/-- Turns members into non-members and back. -/
def negate (cls : CharClass) : CharClass := { cls with negated := !cls.negated }

/-- Whether a character is a member, whatever set each category stands for within its bounds. -/
def contains (cls : CharClass) (c : Char) : Bool :=
  let inRanges := cls.ranges.any (·.contains c)
  if cls.negated then !(inRanges || cls.categories.any (·.possibly c))
  else inRanges || cls.categories.any (·.surely c)

/-- The first character at or above `candidate` that a list of sorted ranges leaves out. -/
def firstGap? (candidate : Char) : List CharRange → Option Char
  | [] => some candidate
  | r :: rest =>
    if r.last < candidate then firstGap? candidate rest
    else if candidate < r.first then some candidate
    else
      match nextChar? r.last with
      | none => none
      | some n => firstGap? n rest

/-- A member that needs no alphabet.  A class with categories has none; else it is the start of
the first range, or for a negated class the first character from the space up that the ranges
leave out. -/
def witness? (cls : CharClass) : Option Char :=
  if cls.categories ≠ [] then none
  else if cls.negated then firstGap? ' ' cls.ranges
  else cls.ranges.head?.map (·.first)

end CharClass

end PatternSampler
