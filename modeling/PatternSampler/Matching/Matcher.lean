import PatternSampler.Matching.Assembly
import PatternSampler.Matching.Machine
import PatternSampler.Matching.Reader
/-!
# Matchers

A matcher tells whether a pattern occurs in a text.  A pattern that an automaton can run is read
once more as a plain expression, with the options of the pattern; any other has code for the
machine.
-/
set_option autoImplicit false

namespace PatternSampler.Matching

/-- What a pattern is looked for with. -/
inductive Matcher where
  | plain (e : Plain)
  /-- code, and how many slots it has -/
  | machine (code : Array Instruction) (slots : Nat)
  deriving Repr

namespace Matcher

/-- The instructions after which a search ends at the latest. -/
def fuel : Nat := 1 <<< 60

/-- The plain expression of an expression that an automaton can run. -/
def plain? (options : PatternOptions) (e : Expression) : Option Plain :=
  match Plain.ofText (.ofOptions options) (e.spelling .none) with
  | some p => if p.fits then some p else none
  | none => none

/-- The matcher of a pattern; `none` if it is refused. -/
def ofSource (options : PatternOptions) (source : List Char) : Option Matcher :=
  match readExpression options source with
  | none => none
  | some found =>
    let e := found.expression.withoutLookahead
    if e.isHard found.references then
      (e.searchCode found.references 0 (2 * (found.groups + 1))).map fun (code, slots) =>
        .machine code.toArray slots
    else (plain? options e).map .plain

/-- Whether the pattern of a matcher occurs in a text. -/
def verdict (m : Matcher) (text : String) : Verdict :=
  let text := text.toList.toArray
  match m with
  | .plain e => if e.occursIn text then .matched else .unmatched
  | .machine code slots =>
    run code text fuel ⟨0, 0, Array.replicate slots none⟩ ⟨[], 0, 0⟩

end Matcher

end PatternSampler.Matching
