import PatternSampler.CharClass.Basic
/-!
# Pattern trees

The tree that a pattern denotes, and a pattern as a whole: its tree, its number of capture groups
and the names of those that have one.
-/
set_option autoImplicit false

namespace PatternSampler

/-- A zero-width assertion. -/
inductive Anchor where
  | lineStart
  | lineEnd
  | textStart
  | textEnd
  | textEndNewline
  | searchStart
  | wordBoundary
  | notWordBoundary
  deriving DecidableEq, Repr

/-- A node of a pattern tree. -/
inductive Node where
  | empty
  | char (c : Char)
  /-- any character, as the options have it -/
  | any
  | charClass (cls : CharClass)
  | concat (items : List Node)
  | alternate (arms : List Node)
  /-- a group that captures nothing -/
  | group (body : Node)
  | capture (index : Nat) (body : Node)
  /-- from `min` to `max` copies, or any number from `min` on; `isLazy` prefers few -/
  | repetition (body : Node) (min : Nat) (max : Option Nat) (isLazy : Bool)
  /-- the text captured by a group -/
  | backref (group : Nat)
  | assert (anchor : Anchor)
  | lookAround (body : Node) (negative behind : Bool)
  deriving Repr, Inhabited

namespace Node

/-- Whether the node can stand under a quantifier. -/
def isRepeatable : Node → Bool
  | empty | assert _ | repetition .. | lookAround .. => false
  | _ => true

/-- Whether the node is itself a quantified one. -/
def isRepetition : Node → Bool
  | repetition .. => true
  | _ => false

/-- The one character that the node stands for, possibly inside groups that capture nothing. -/
def char? : Node → Option Char
  | char c => some c
  | group body => body.char?
  | _ => none

/-- The node for a sequence of items: nothing, the item itself, or their concatenation. -/
def ofItems : List Node → Node
  | [] => empty
  | [item] => item
  | items => concat items

/-- The node for a list of arms: the arm itself if there is but one, or the choice among them. -/
def ofArms : List Node → Node
  | [arm] => arm
  | arms => alternate arms

end Node

/-- A pattern that has been read. -/
structure Pattern where
  root : Node
  /-- how many capture groups there are -/
  captureCount : Nat
  /-- the named groups and their numbers, in order of appearance -/
  names : List (String × Nat)
  deriving Repr, Inhabited

/-- The number of the group with a given name. -/
def Pattern.groupIndex? (p : Pattern) (name : String) : Option Nat :=
  (p.names.find? (·.1 == name)).map (·.2)

end PatternSampler
