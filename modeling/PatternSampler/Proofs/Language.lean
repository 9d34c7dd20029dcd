import Mathlib.Logic.Function.Basic
import PatternSampler.Pattern.Options
import PatternSampler.Pattern.Node
/-!
# The language of a tree

Which texts a tree describes, without any program.  A node relates a word to where the word stands
and to what the groups hold before and after it, so that references and assertions have a meaning
of their own.  Case is never ignored here, and a repetition may take any number of copies within
its bounds, empty ones included.
-/
set_option autoImplicit false

namespace PatternSampler

/-! ## Characters -/

/-- What every matcher counts in, some matcher does. -/
theorem Category.possibly_of_surely {k : Category} {c : Char} (h : k.surely c = true) :
    k.possibly c = true := by
  have hdigit : c.isDigit = true → Unicode.isNumeric c = true := fun hc =>
    Unicode.isNumeric_of_isDecimalDigit (Unicode.isDecimalDigit_of_isDigit hc)
  cases k with
  | digit => exact hdigit h
  | notDigit =>
    simp only [surely, possibly, Bool.not_eq_true', ← Bool.not_eq_true] at h ⊢
    exact mt hdigit h
  | word =>
    rw [possibly, Bool.or_eq_true]
    exact .inl h
  | notWord => exact (Bool.and_eq_true_iff.mp h).2
  | space => exact h
  | notSpace => exact h

/-- What a matcher counts in each category, within the bounds that every matcher keeps. -/
structure Membership where
  Holds : Category → Char → Prop
  of_surely : ∀ {k : Category} {c : Char}, k.surely c = true → Holds k c
  possibly_of : ∀ {k : Category} {c : Char}, Holds k c → k.possibly c = true

/-- The matcher that counts in as few characters as any does. -/
def Membership.least : Membership := ⟨fun k c => k.surely c = true, id, Category.possibly_of_surely⟩

/-- The ranges and categories of a class cover a character. -/
def CharClass.Covers (T : Membership) (cls : CharClass) (c : Char) : Prop :=
  (∃ r ∈ cls.ranges, r.contains c = true) ∨ ∃ k ∈ cls.categories, T.Holds k c

/-- The class has a character as a member: one that is covered, or one that is not if the class is
negated. -/
def CharClass.Denotes (T : Membership) (cls : CharClass) (c : Char) : Prop :=
  if cls.negated then ¬cls.Covers T c else cls.Covers T c

/-! ## Readings -/

/-- The texts that groups have captured last. -/
abbrev Groups : Type := Nat → Option (List Char)

/-- A word where it stands in a text, with what the groups hold before and after it. -/
structure Reading where
  before : List Char
  word : List Char
  after : List Char
  /-- what the groups hold where the word starts -/
  start : Groups
  /-- what the groups hold where the word ends -/
  finish : Groups

/-- The readings that a node allows. -/
abbrev Meaning : Type := Reading → Prop

namespace Meaning

/-- The empty word. -/
def nothing : Meaning := fun r => r.word = [] ∧ r.finish = r.start

/-- One character of some kind. -/
def one (P : Char → Prop) : Meaning := fun r => ∃ c, r.word = [c] ∧ P c ∧ r.finish = r.start

/-- One word, then another. -/
def andThen (A B : Meaning) : Meaning := fun r =>
  ∃ u v held, r.word = u ++ v ∧ A ⟨r.before, u, v ++ r.after, r.start, held⟩ ∧
    B ⟨r.before ++ u, v, r.after, held, r.finish⟩

/-- `n` words in a row. -/
def times (A : Meaning) : Nat → Meaning
  | 0 => nothing
  | n + 1 => A.andThen (times A n)

/-- Some number of words in a row, from `min` to `max` or from `min` on. -/
def repeated (A : Meaning) (min : Nat) (max : Option Nat) : Meaning := fun r =>
  ∃ n, min ≤ n ∧ (∀ m ∈ max, n ≤ m) ∧ A.times n r

/-- A word that a group captures. -/
def captured (A : Meaning) (index : Nat) : Meaning := fun r =>
  ∃ held, A { r with finish := held } ∧ r.finish = Function.update held index (some r.word)

/-- The word that a group holds. -/
def reference (group : Nat) : Meaning := fun r => r.start group = some r.word ∧ r.finish = r.start

/-- The empty word between texts that meet a condition. -/
def between (P : List Char → List Char → Prop) : Meaning := fun r =>
  r.word = [] ∧ r.finish = r.start ∧ P r.before r.after

/-- The empty word before a word of some meaning. -/
def ahead (A : Meaning) : Meaning := fun r =>
  r.word = [] ∧ ∃ seen rest, r.after = seen ++ rest ∧ A { r with word := seen, after := rest }

/-- The empty word after a word of some meaning. -/
def behind (A : Meaning) : Meaning := fun r =>
  r.word = [] ∧ ∃ rest seen, r.before = rest ++ seen ∧ A { r with before := rest, word := seen }

/-- The empty word where another meaning allows none. -/
def without (A : Meaning) : Meaning := fun r =>
  r.word = [] ∧ r.finish = r.start ∧ ∀ held, ¬A { r with finish := held }

end Meaning

/-! ## Trees -/

/-- Whether a word character stands next, given the text from there. -/
def Membership.WordNext (T : Membership) (cs : List Char) : Prop := ∃ c ∈ cs.head?, T.Holds .word c

/-- The assertion holds between two texts. -/
def Anchor.Holds (T : Membership) (options : PatternOptions) (before after : List Char) :
    Anchor → Prop
  | .lineStart => before = [] ∨ options.multiLine = true ∧ before.getLast? = some '\n'
  | .lineEnd => after = [] ∨ options.multiLine = true ∧ after.head? = some '\n'
  | .textStart => before = []
  | .textEnd => after = []
  | .textEndNewline => ∀ c ∈ after, c = '\n'
  | .searchStart => before = []
  | .wordBoundary => ¬(T.WordNext before.reverse ↔ T.WordNext after)
  | .notWordBoundary => T.WordNext before.reverse ↔ T.WordNext after

namespace Node

mutual

/-- The readings of a node. -/
def meaning (T : Membership) (options : PatternOptions) : Node → Meaning
  | .empty => .nothing
  | .char c => .one (· = c)
  | .any => .one fun c => options.dotMatchesNewLine = true ∨ c ≠ '\n'
  | .charClass cls => .one (cls.Denotes T)
  | .concat items => meaningOfItems T options items
  | .alternate arms => meaningOfArms T options arms
  | .group body => meaning T options body
  | .capture index body => (meaning T options body).captured index
  | .repetition body min max _ => (meaning T options body).repeated min max
  | .backref index => .reference index
  | .assert anchor => .between fun before after => anchor.Holds T options before after
  | .lookAround body negative behind =>
    let seen : Meaning :=
      if behind then (meaning T options body).behind else (meaning T options body).ahead
    if negative then seen.without else seen

/-- The readings of items one after the other. -/
def meaningOfItems (T : Membership) (options : PatternOptions) : List Node → Meaning
  | [] => .nothing
  | item :: rest => (meaning T options item).andThen (meaningOfItems T options rest)

/-- The readings of any one of several arms. -/
def meaningOfArms (T : Membership) (options : PatternOptions) : List Node → Meaning
  | [] => fun _ => False
  | arm :: rest => fun r => meaning T options arm r ∨ meaningOfArms T options rest r

end

/-- The tree reads a whole text, starting with nothing captured. -/
def Language (T : Membership) (options : PatternOptions) (n : Node) (text : List Char) : Prop :=
  ∃ held, n.meaning T options ⟨[], text, [], fun _ => none, held⟩

end Node

end PatternSampler
