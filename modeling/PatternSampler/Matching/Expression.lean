import PatternSampler.Plain.Basic
/-!
# Expressions of the matcher

The matcher has a reader of its own, so that what it checks does not rest on the reading that the
checked text was written from.  Its expressions know more than those that a text is written from.
-/
set_option autoImplicit false

namespace PatternSampler.Matching

/-- A condition on a position of a text. -/
inductive Assertion where
  | edge (e : Plain.Edge)
  | wordBoundary
  | notWordBoundary
  | wordStart
  | wordEnd
  /-- no word character comes before -/
  | wordStartHalf
  /-- no word character follows -/
  | wordEndHalf
  deriving DecidableEq, Repr

/-- Whether an assertion looks at word characters. -/
def Assertion.isAboutWords : Assertion → Bool
  | .edge _ => false
  | _ => true

/-- An expression. -/
inductive Expression where
  | empty
  /-- any character, line feeds among them or not -/
  | any (newLines : Bool)
  /-- a character, or one that is equal to it up to case -/
  | literal (c : Char) (folds : Bool)
  /-- a set or a category, as the text of a plain expression -/
  | text (source : List Char) (folds : Bool)
  | assert (a : Assertion)
  | concat (items : List Expression)
  | alternate (arms : List Expression)
  | group (index : Nat) (body : Expression)
  | repetition (body : Expression) (min : Nat) (max : Option Nat) (isLazy : Bool)
  | backref (number : Nat) (folds : Bool)
  | lookAround (body : Expression) (negative behind : Bool)
  /-- where the search began -/
  | searchStart
  /-- where the match is to begin -/
  | matchStart
  /-- an expression whose choices are never taken back -/
  | atomic (body : Expression)
  /-- whether a group has matched -/
  | hasMatched (number : Nat)
  /-- one of two expressions, by whether another one matches -/
  | conditional (condition yes no : Expression)
  deriving Repr, Inhabited

namespace Expression

/-- Whether an expression is the empty one. -/
def isEmpty : Expression → Bool
  | .empty => true
  | _ => false

/-- Whether an expression can be repeated. -/
def isRepeatable : Expression → Bool
  | .empty | .lookAround .. | .searchStart | .matchStart | .hasMatched _ => false
  | _ => true

/-- The expression for a sequence of items. -/
def ofItems : List Expression → Expression
  | [] => .empty
  | [e] => e
  | es => .concat es

/-- The conditional with the given arms, the first of them for what holds. -/
def ofArms (condition : Expression) : Expression → Expression
  | .alternate (yes :: [no]) => .conditional condition yes no
  | .alternate (yes :: arms) => .conditional condition yes (.alternate arms)
  | yes => .conditional condition yes .empty

end Expression

end PatternSampler.Matching
