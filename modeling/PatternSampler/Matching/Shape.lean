import PatternSampler.Matching.Expression
/-!
# The shape of an expression

How long the pieces are that an expression matches, and whether an automaton can run it: one that
looks back on what has been matched, or around, needs a machine that can take its choices back.
-/
set_option autoImplicit false

namespace PatternSampler.Matching.Expression

/-! ## Lengths -/

mutual

/-- The fewest characters that an expression matches, as far as its parts show. -/
def least : Expression → Nat
  | .any _ | .literal .. | .text .. => 1
  | .concat items => totalLeast items
  | .alternate arms => smallestLeast arms
  | .group _ body => body.least
  | .repetition body min _ _ => min * body.least
  | .atomic body => body.least
  | .conditional condition yes no => condition.least + Nat.min yes.least no.least
  | .empty | .assert _ | .backref .. | .lookAround .. | .searchStart | .matchStart
  | .hasMatched _ => 0

/-- The fewest characters that a sequence matches. -/
def totalLeast : List Expression → Nat
  | [] => 0
  | e :: es => e.least + totalLeast es

/-- The fewest characters that an arm of a choice matches. -/
def smallestLeast : List Expression → Nat
  | [] => 0
  | [e] => e.least
  | e :: es => Nat.min e.least (smallestLeast es)

end

mutual

/-- Whether an expression matches pieces of one length only, as far as its parts show. -/
def isFixed : Expression → Bool
  | .concat items => areFixed items
  | .alternate arms => areFixed arms && areAlike arms
  | .group _ body => body.isFixed
  | .repetition body min max _ => body.isFixed && max == some min
  | .backref .. => false
  | .atomic body => body.isFixed
  | .conditional condition yes no =>
    condition.isFixed && yes.isFixed && no.isFixed && yes.least == no.least
  | _ => true

/-- Whether each expression of a list matches pieces of one length only. -/
def areFixed : List Expression → Bool
  | [] => true
  | e :: es => e.isFixed && areFixed es

/-- Whether the fewest characters that the expressions of a list match are as many. -/
def areAlike : List Expression → Bool
  | e :: f :: es => e.least == f.least && areAlike (f :: es)
  | _ => true

end

/-! ## Difficulty -/

mutual

/-- Whether an expression is beyond an automaton, if the given groups are referred to. -/
def isHard (references : List Nat) : Expression → Bool
  | .empty | .any _ | .literal .. | .text .. => false
  | .assert a => a.isAboutWords
  | .concat items => areHard references items
  | .alternate arms => areHard references arms
  | .group index body => references.contains index || body.isHard references
  | .repetition body _ _ _ => body.isHard references
  | _ => true

/-- Whether some expression of a list is beyond an automaton. -/
def areHard (references : List Nat) : List Expression → Bool
  | [] => false
  | e :: es => e.isHard references || areHard references es

end

/-! ## Simplification -/

/-- The number of the group that stands for the whole match. -/
def wholeMatch : Nat := 0

/-- An expression without the lookahead that it ends in: whether something follows the match does
not depend on whether it belongs to the match. -/
def withoutLookahead : Expression → Expression
  | .concat items =>
    match items.getLast? with
    | some (.lookAround body false false) =>
      .concat [.group wholeMatch (.concat items.dropLast), body]
    | _ => .concat items
  | e => e

/-- Whether an expression matches only at the start of a text. -/
def isAnchored : Expression → Bool
  | .assert (.edge .textStart) => true
  | .concat (.assert (.edge .textStart) :: _) => true
  | _ => false

end PatternSampler.Matching.Expression
