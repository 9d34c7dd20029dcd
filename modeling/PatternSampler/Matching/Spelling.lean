import PatternSampler.Matching.Expression
import PatternSampler.Text.Numeral
/-!
# Expressions as text

Writes the expressions that an automaton can run as the text of a plain expression.
-/
set_option autoImplicit false

namespace PatternSampler.Matching

/-! ## Parts -/

/-- Whether a character has to be escaped to stand for itself. -/
def isMark (c : Char) : Bool := "\\.+*?()|[]\x7b\x7d^$#".contains c

/-- A character that stands for itself. -/
def quote (c : Char) : List Char := if isMark c then ['\\', c] else [c]

/-- A text for which case does not count. -/
def folded (folds : Bool) (text : List Char) : List Char :=
  if folds then "(?i:".toList ++ text ++ [')'] else text

/-- A text in parentheses, if it needs any. -/
def enclosed (needed : Bool) (text : List Char) : List Char :=
  if needed then "(?:".toList ++ text ++ [')'] else text

/-- The text of an edge. -/
def edgeText : Plain.Edge → List Char
  | .textStart => ['^']
  | .textEnd => ['$']
  | .lineStart => "(?m:^)".toList
  | .lineEnd => "(?m:$)".toList

/-- The text of a quantifier. -/
def quantifierText (min : Nat) (max : Option Nat) : List Char :=
  match min, max with
  | 0, some 1 => ['?']
  | 0, none => ['*']
  | 1, none => ['+']
  | min, none => '\x7b' :: (Text.decimal min).toList ++ [',', '\x7d']
  | min, some max =>
    if min = max then '\x7b' :: (Text.decimal min).toList ++ ['\x7d']
    else '\x7b' :: (Text.decimal min).toList ++ ',' :: (Text.decimal max).toList ++ ['\x7d']

/-! ## Expressions -/

/-- How tightly the surroundings of a text bind: as nothing at all, an arm of a choice, an item of a
sequence, or the body of a repetition. -/
inductive Binding where
  | none
  | arm
  | item
  | body
  deriving DecidableEq, Repr

/-- The place of a binding among the others, weakest first. -/
def Binding.rank : Binding → Nat
  | .none => 0
  | .arm => 1
  | .item => 2
  | .body => 3

namespace Expression

mutual

/-- The text of an expression.  One that is beyond an automaton has none. -/
def spelling (around : Binding) : Expression → List Char
  | .any newLines => if newLines then "(?s:.)".toList else ['.']
  | .literal c folds => folded folds (quote c)
  | .text source folds => folded folds source
  | .assert (.edge a) => edgeText a
  | .concat items => enclosed (decide (1 < around.rank)) (itemsSpelling items)
  | .alternate arms => enclosed (decide (0 < around.rank)) (armsSpelling arms)
  | .group _ body => '(' :: body.spelling .none ++ [')']
  | .repetition body min max isLazy =>
    enclosed (decide (2 < around.rank))
      (body.spelling .body ++ quantifierText min max ++ if isLazy then ['?'] else [])
  | _ => []

/-- The text of a sequence. -/
def itemsSpelling : List Expression → List Char
  | [] => []
  | e :: es => e.spelling .item ++ itemsSpelling es

/-- The text of a choice. -/
def armsSpelling : List Expression → List Char
  | [] => []
  | [e] => e.spelling .arm
  | e :: es => e.spelling .arm ++ '|' :: armsSpelling es

end

end Expression

end PatternSampler.Matching
