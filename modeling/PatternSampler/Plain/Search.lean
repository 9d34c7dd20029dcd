import Std.Data.HashSet
import PatternSampler.Plain.Basic
/-!
# Searching with a plain expression

An expression leads from a position to those where a piece that it matches can end.  Sets of
positions are taken through an expression at once, as increasing lists, so that no position is
visited twice by a loop.
-/
set_option autoImplicit false

namespace PatternSampler.Plain

/-! ## Edges -/

/-- Whether a line starts at a position. -/
def startsLine (text : Array Char) (i : Nat) : Bool := i == 0 || text[i - 1]? == some '\n'

/-- Whether a line ends at a position. -/
def endsLine (text : Array Char) (i : Nat) : Bool := i == text.size || text[i]? == some '\n'

/-- Whether a position is at an edge. -/
def Edge.holds (text : Array Char) (i : Nat) : Edge → Bool
  | .textStart => i == 0
  | .textEnd => i == text.size
  | .lineStart => startsLine text i
  | .lineEnd => endsLine text i

/-! ## Sets of positions -/

/-- The positions of a list in increasing order, each once. -/
def increasing (ps : List Nat) : List Nat :=
  match ps with
  | [] => []
  | [i] => [i]
  | ps => (Std.HashSet.ofList ps).toList.mergeSort

/-- Where `n` copies of a step lead, one after the other. Once a copy changes nothing, none does. -/
def copies (step : List Nat → List Nat) : Nat → List Nat → List Nat
  | _, [] => []
  | 0, ps => ps
  | n + 1, ps =>
    let next := step ps
    if next = ps then ps else copies step n next

/-- What has been visited after at most `n` copies of a step, from what was visited last. -/
def spread (step : List Nat → List Nat) : Nat → List Nat → Std.HashSet Nat → Std.HashSet Nat
  | _, [], visited => visited
  | 0, _, visited => visited
  | n + 1, latest, visited =>
    let next := (step latest).filter fun i => !visited.contains i
    spread step n next (visited.insertMany next)

/-- Where a repetition leads.  More copies than there are characters lead nowhere new. -/
def repetitionReach (size min : Nat) (max : Option Nat) (step : List Nat → List Nat)
    (ps : List Nat) : List Nat :=
  let ps := copies step min ps
  let more := match max with
    | none => size + 1
    | some max => Nat.min (max - min) (size + 1)
  if more = 0 then ps else increasing (spread step more ps (.ofList ps)).toList

/-! ## Expressions -/

/-- Where a literal ends that starts at a position. -/
def literalEnd? (text : Array Char) : List Char → Nat → Option Nat
  | [], i => some i
  | c :: cs, i => if text[i]? = some c then literalEnd? text cs (i + 1) else none

/-- Where a character of a table ends that stands at a position. -/
def memberEnd? (text : Array Char) (members : Unicode.RangeTable) (i : Nat) : Option Nat :=
  match text[i]? with
  | some c => if members.holds c.toNat then some (i + 1) else none
  | none => none

mutual

/-- Where an expression leads from some of the given positions. -/
def reach (text : Array Char) : Plain → List Nat → List Nat
  | .empty, ps => ps
  | .literal cs, ps => ps.filterMap (literalEnd? text cs)
  | .set members, ps => ps.filterMap (memberEnd? text members)
  | .edge e, ps => ps.filter fun i => e.holds text i
  | .group body, ps => body.reach text ps
  | .repetition body min max _, ps =>
    repetitionReach text.size min max (fun qs => body.reach text qs) ps
  | .concat items, ps => reachAll text items ps
  | .alternate arms, ps => increasing (reachAny text arms ps)

/-- Where a sequence of expressions leads. -/
def reachAll (text : Array Char) : List Plain → List Nat → List Nat
  | [], ps => ps
  | e :: es, ps => reachAll text es (e.reach text ps)

/-- Where the arms of a choice lead, one arm after the other. -/
def reachAny (text : Array Char) : List Plain → List Nat → List Nat
  | [], _ => []
  | e :: es, ps => e.reach text ps ++ reachAny text es ps

end

/-- Whether some piece of a text matches an expression; most do so from the start on. -/
def occursIn (e : Plain) (text : Array Char) : Bool :=
  !(e.reach text [0]).isEmpty || !(e.reach text (List.range (text.size + 1))).isEmpty

/-- Whether some piece of a text that ends at a position matches an expression. -/
def endsAt (e : Plain) (text : Array Char) (stop : Nat) : Bool :=
  (e.reach text (List.range (stop + 1))).contains stop

end PatternSampler.Plain
