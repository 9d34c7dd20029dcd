import PatternSampler.Matching.Expression
import PatternSampler.Plain.Automaton
/-!
# Instructions of the matching machine

The code of an expression that is beyond an automaton.  Parts that an automaton can run are single
instructions.  Slots hold positions and counts.
-/
set_option autoImplicit false

namespace PatternSampler.Matching

/-- An instruction.  Addresses are places in the code. -/
inductive Instruction where
  /-- the text matches -/
  | accept
  | any (newLines : Bool)
  | literal (cs : List Char)
  /-- takes the piece that an expression prefers, given with its automaton -/
  | plain (e : Plain) (automaton : Plain.Automaton)
  /-- a piece that an expression matches ends here -/
  | plainBehind (e : Plain)
  | assert (a : Assertion)
  /-- the search began here; `isFirst` tells that nothing need come before -/
  | searchStart (isFirst : Bool)
  /-- takes a copy of the piece between the positions in a slot and the next -/
  | copy (slot : Nat) (folds : Bool)
  /-- goes so many characters back -/
  | goBack (n : Nat)
  /-- goes on at the first address, and after a failure at the second -/
  | split (first second : Nat)
  | jump (target : Nat)
  /-- puts the position into a slot -/
  | save (slot : Nat)
  /-- puts zero into a slot -/
  | clear (slot : Nat)
  /-- takes the position from a slot -/
  | restore (slot : Nat)
  /-- counts one more copy of what follows in a slot, or leaves for `exit` -/
  | count (min : Nat) (max : Option Nat) (isLazy : Bool) (exit slot : Nat)
  /-- like `count`, and leaves also if the copy before took no text; `last` is the slot for where it
  began -/
  | countMoves (min : Nat) (isLazy : Bool) (exit slot last : Nat)
  /-- fails, and takes back the choices since the instruction after this one was put off -/
  | refuse
  /-- fails -/
  | never
  deriving Repr

end PatternSampler.Matching
