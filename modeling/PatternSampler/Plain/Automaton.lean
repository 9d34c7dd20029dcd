import PatternSampler.Plain.Search
/-!
# The automaton of a plain expression

Of the pieces that an expression matches at a position, the preferred one is the one that a search
finds first which tries the arms of a choice in their order, and one more copy before none unless a
repetition is lazy.  The automaton fixes that order: each of its states either tests the text, or
offers two states of which the first is preferred.  A state that has been left without success at
a position is not tried there again.
-/
set_option autoImplicit false

namespace PatternSampler.Plain

/-- A state of an automaton; the states after it are given by number. -/
inductive State where
  | accept
  /-- takes a character of a table -/
  | member (members : Unicode.RangeTable) (next : Nat)
  /-- stands at an edge -/
  | edge (e : Edge) (next : Nat)
  | split (first second : Nat)
  deriving DecidableEq, Repr

/-- States, and the one to start from. -/
structure Automaton where
  states : Array State
  start : Nat
  deriving DecidableEq, Repr

/-! ## Construction -/

/-- States for a part of an expression: by the state that follows and the states so far, the state
that the part starts from and the states then. -/
abbrev Part : Type := Nat → Array State → Nat × Array State

namespace Part

/-- One more state. -/
def add (s : State) (states : Array State) : Nat × Array State := (states.size, states.push s)

/-- The choice between going on inside a repetition and leaving it. -/
def branch (isLazy : Bool) (inside outside : Nat) : State :=
  if isLazy then .split outside inside else .split inside outside

/-- A sequence of characters. -/
def literal (cs : List Char) : Part := fun next states =>
  cs.foldr (fun c (acc : Nat × Array State) => add (.member [(c.toNat, c.toNat)] acc.1) acc.2)
    (next, states)

/-- `n` copies. -/
def times (part : Part) : Nat → Part
  | 0, next, states => (next, states)
  | n + 1, next, states =>
    let (start, states) := part next states
    times part n start states

/-- Up to `n` copies, after each of which the repetition may be left for `outside`. -/
def upTo (isLazy : Bool) (part : Part) (outside : Nat) : Nat → Part
  | 0, next, states => (next, states)
  | n + 1, next, states =>
    let (inside, states) := part next states
    let (start, states) := add (branch isLazy inside outside) states
    upTo isLazy part outside n start states

/-- At least one copy; also leaves the state that follows each copy. -/
def loop (isLazy : Bool) (part : Part) (next : Nat) (states : Array State) :
    (Nat × Nat) × Array State :=
  let back := states.size
  let (inside, states) := part back (states.push .accept)
  ((inside, back), states.setIfInBounds back (branch isLazy inside next))

/-- Any number of copies, each of which takes text if `needsText`. If none need do so, leaving
before the first copy differs from leaving after one. -/
def star (needsText isLazy : Bool) (part : Part) : Part := fun next states =>
  let ((inside, back), states) := loop isLazy part next states
  if needsText then (back, states) else add (branch isLazy inside next) states

/-- A repetition. -/
def repeated (needsText : Bool) (min : Nat) (max : Option Nat) (isLazy : Bool) (part : Part) :
    Part := fun next states =>
  match max, min with
  | some max, min =>
    let (start, states) := upTo isLazy part next (max - min) next states
    times part min start states
  | none, 0 => star needsText isLazy part next states
  | none, min + 1 =>
    let ((start, _), states) := loop isLazy part next states
    times part min start states

end Part

mutual

/-- The states of an expression. -/
def part : Plain → Part
  | .empty, next, states => (next, states)
  | .literal cs, next, states => Part.literal cs next states
  | .set members, next, states => Part.add (.member members next) states
  | .edge e, next, states => Part.add (.edge e next) states
  | .group body, next, states => body.part next states
  | .repetition body min max isLazy, next, states =>
    Part.repeated body.needsText min max isLazy (fun n s => body.part n s) next states
  | .concat items, next, states => partAll items next states
  | .alternate arms, next, states => partAny arms next states

/-- The states of a sequence. -/
def partAll : List Plain → Part
  | [], next, states => (next, states)
  | e :: es, next, states =>
    let (start, states) := partAll es next states
    e.part start states

/-- The states of a choice. -/
def partAny : List Plain → Part
  | [], next, states => (next, states)
  | [e], next, states => e.part next states
  | e :: es, next, states =>
    let (second, states) := partAny es next states
    let (first, states) := e.part next states
    Part.add (.split first second) states

end

/-- The automaton of an expression. -/
def automaton (e : Plain) : Automaton :=
  let (start, states) := e.part 0 #[.accept]
  ⟨states, start⟩

/-! ## Search -/

/-- Goes on with the pairs of a state and a position that are to be tried, in their order. -/
def Automaton.search (a : Automaton) (text : Array Char) :
    Nat → List (Nat × Nat) → Std.HashSet (Nat × Nat) → Option Nat
  | 0, _, _ => none
  | _, [], _ => none
  | fuel + 1, (s, i) :: rest, visited =>
    if visited.contains (s, i) then a.search text fuel rest visited
    else
      let visited := visited.insert (s, i)
      match a.states[s]? with
      | none => none
      | some .accept => some i
      | some (.member members next) =>
        match memberEnd? text members i with
        | some j => a.search text fuel ((next, j) :: rest) visited
        | none => a.search text fuel rest visited
      | some (.edge e next) =>
        if e.holds text i then a.search text fuel ((next, i) :: rest) visited
        else a.search text fuel rest visited
      | some (.split first second) =>
        a.search text fuel ((first, i) :: (second, i) :: rest) visited

/-- Fuel that suffices for a text: every pair of a state and a position adds at most two pairs. -/
def Automaton.fuelFor (a : Automaton) (text : Array Char) : Nat :=
  2 * a.states.size * (text.size + 1) + 2

/-- Where the preferred piece ends that starts at a position. -/
def Automaton.end? (a : Automaton) (text : Array Char) (i : Nat) : Option Nat :=
  a.search text (a.fuelFor text) [(a.start, i)] {}

/-- Where the preferred piece of an expression ends that starts at a position. Its automaton is
asked only if there is a choice. -/
def end? (e : Plain) (a : Automaton) (text : Array Char) (i : Nat) : Option Nat :=
  match e.reach text [i] with
  | [] => none
  | [j] => some j
  | _ => a.end? text i

end PatternSampler.Plain
