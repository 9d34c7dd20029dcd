import Std.Data.HashMap
import PatternSampler.Plain.Basic
import PatternSampler.Plain.Utf8
/-!
# The size of a plain expression

An expression is run by an automaton over the bytes of a text, in which its repetitions are written
out, and one whose automaton takes too much memory is refused.  Two are built: one that reads
forward, and one that reads backward and ignores groups.  This module counts their states without
building them.
-/
set_option autoImplicit false

namespace PatternSampler.Plain

/-- The way an automaton reads a text. -/
inductive Direction where
  | forward
  | backward
  deriving DecidableEq, Repr

/-! ## Costs -/

/-- What a part of an automaton costs. -/
structure Cost where
  /-- its states -/
  states : Nat
  /-- those of its states that do more than pass on to another one -/
  lasting : Nat
  /-- the bytes for the links that its states list -/
  links : Nat
  /-- whether it ends in a choice, which lists a link to whatever follows -/
  isOpen : Bool
  deriving DecidableEq, Repr

namespace Cost

/-- The bytes of a state without the links it lists. -/
def stateBytes : Nat := 32

/-- The bytes of a link of a choice. -/
def choiceLink : Nat := 4

/-- The bytes of a link that a byte range takes. -/
def rangeLink : Nat := 8

/-- A state that only passes on. -/
def passing : Cost := ⟨1, 0, 0, false⟩

/-- A state that tests something and lists no links. -/
def test : Cost := ⟨1, 1, 0, false⟩

/-- A choice with some of its links, whose place in its surroundings is settled. -/
def choice (links : Nat) : Cost := ⟨1, 1, choiceLink * links, false⟩

/-- The bytes for the link from the end of a part to what follows. -/
def exit (c : Cost) : Nat := if c.isOpen then choiceLink else 0

/-- Two parts without a link between them. -/
def beside (c d : Cost) : Cost :=
  ⟨c.states + d.states, c.lasting + d.lasting, c.links + d.links, d.isOpen⟩

/-- Two parts, one after the other. -/
def andThen (c d : Cost) : Cost :=
  let both := c.beside d
  { both with links := both.links + c.exit }

/-- `n` copies of a part, one after the other. -/
def times (c : Cost) : Nat → Cost
  | 0 => passing
  | n + 1 =>
    ⟨(n + 1) * c.states, (n + 1) * c.lasting, (n + 1) * c.links + n * c.exit, c.isOpen⟩

/-- Any number of copies of a part, or at least one. -/
def loop (c : Cost) (isPlus needsText : Bool) : Cost :=
  if isPlus || needsText then
    { c with
      states := c.states + 1, lasting := c.lasting + 1, links := c.links + c.exit + choiceLink
      isOpen := true }
  else
    ⟨c.states + 3, c.lasting + 2, c.links + c.exit + 4 * choiceLink, false⟩

/-- Up to `n` copies of a part. -/
def upTo (c : Cost) (n : Nat) : Cost :=
  ⟨n * (c.states + 1) + 1, n * (c.lasting + 1), n * (c.links + c.exit + 2 * choiceLink), false⟩

/-- From `min` to `max` copies of a part. -/
def repeated (c : Cost) (needsText : Bool) (min : Nat) (max : Option Nat) : Cost :=
  match min, max with
  | 0, none => c.loop false needsText
  | 1, none => c.loop true needsText
  | min, none => (c.times (min - 1)).andThen (c.loop true needsText)
  | 0, some 1 => c.upTo 1
  | min, some max => if min = max then c.times min else (c.times min).andThen (c.upTo (max - min))

/-- The bytes of a part. -/
def bytes (c : Cost) : Nat := stateBytes * c.states + c.links

end Cost

/-! ## Sets -/

/-- The states of a set so far.  A state is found again by its links, in a table of few places where
a newer state takes the place of an older one. -/
structure StateTable where
  states : Nat
  links : Nat
  places : Std.HashMap Nat (List Nat × Nat)

namespace StateTable

/-- No states. -/
def empty : StateTable := ⟨0, 0, {}⟩

/-- The place of a state in a table with `size` places. -/
def place (size : Nat) (key : List Nat) : Nat :=
  let mix := fun (h : UInt64) (n : Nat) => (h ^^^ n.toUInt64) * 1099511628211
  (key.foldl mix 14695981039346656037).toNat % size

/-- The state with the given links, as its number, counted from `first`. -/
def find (t : StateTable) (first size links : Nat) (key : List Nat) : Nat × StateTable :=
  let i := place size key
  let fresh := (first + t.states,
    ⟨t.states + 1, t.links + links, t.places.insert i (key, first + t.states)⟩)
  match t.places[i]? with
  | some (found, n) => if found = key then (n, t) else fresh
  | none => fresh

end StateTable

/-- The number that the first states of a set get.  It has a bearing on which states share a
place. -/
def firstState : Nat := 5

/-- The states that read the rest of some sequences forward, which agree in the bytes before; states
with the same links are one.  `depth` bounds the bytes of a sequence. -/
def forwardState : Nat → List Utf8.Sequence → StateTable → Nat × StateTable
  | 0, _, t => (firstState - 1, t)
  | depth + 1, seqs, t =>
    if seqs.all (·.isEmpty) then (firstState - 1, t)
    else
      let groups := seqs.splitBy fun s r => s.head? == r.head?
      let (key, t) := groups.foldl (fun (acc : List Nat × StateTable) group =>
        match group.head?.bind (·.head?) with
        | some (first, last) =>
          let (next, t) := forwardState depth (group.map (·.tail)) acc.2
          (acc.1 ++ [first, last, next], t)
        | none => acc) ([], t)
      t.find firstState 10000 (Cost.rangeLink * groups.length) key

/-- The states that read a sequence backward, from the state for what comes after it; states with
the same link are one. -/
def backwardStates (t : StateTable) (seq : Utf8.Sequence) : StateTable :=
  (seq.foldl (fun (acc : Nat × StateTable) (first, last) =>
    acc.2.find firstState 1000 0 [acc.1, first, last]) (firstState - 1, t)).2

/-- The cost of a set. -/
def setCost (direction : Direction) (members : Unicode.RangeTable) : Cost :=
  if members.all fun r => decide (r.2 < 0x80) then
    ⟨2, 1, Cost.rangeLink * members.length, false⟩
  else
    let seqs := Utf8.ofTable members
    match direction with
    | .forward =>
      let (_, t) := forwardState 5 seqs .empty
      ⟨t.states + 1, t.states, t.links, false⟩
    | .backward =>
      let t := seqs.foldl backwardStates .empty
      ⟨t.states + 2, t.states + 1, Cost.choiceLink * seqs.length, false⟩

/-! ## Choices between words -/

/-- The pieces of a list before, between and after the elements that a test picks. -/
def piecesBetween {α : Type} (isPicked : α → Bool) : List α → List (List α)
  | [] => [[]]
  | x :: xs =>
    match isPicked x, piecesBetween isPicked xs with
    | true, pieces => [] :: pieces
    | false, piece :: pieces => (x :: piece) :: pieces
    | false, [] => [[x]]

/-- The cost of the states that read words in their order of preference: words with the same start
share its states, unless a word that ends there comes between.  `depth` exceeds the lengths of the
words. -/
def wordsCost : Nat → List (List Nat) → Cost
  | 0, _ => ⟨0, 0, 0, false⟩
  | depth + 1, words =>
    if words.all (·.isEmpty) then ⟨0, 0, 0, false⟩
    else
      let words := if words.head? = some [] then [] :: words.dropWhile (·.isEmpty) else words
      let chunks := piecesBetween (·.isEmpty) words
      let full := chunks.filter (!·.isEmpty)
      let ways := full.length + (chunks.length - 1)
      let start : Cost := ⟨1, if ways = 1 then 0 else 1, Cost.choiceLink * ways, false⟩
      full.foldl (fun (all : Cost) (chunk : List (List Nat)) =>
        let firsts := (chunk.filterMap fun word => word.head?).eraseDups
        let links := if firsts.length = 1 then 0 else Cost.rangeLink * firsts.length
        firsts.foldl (fun (all : Cost) first =>
          let rests := (chunk.filter fun word => word.head? == some first).map (·.tail)
          all.beside (wordsCost depth rests)) (all.beside ⟨1, 1, links, false⟩)) start

/-- The bytes of a word in the order in which they are read. -/
def wordBytes (direction : Direction) (cs : List Char) : List Nat :=
  let bytes := cs.flatMap fun c => Utf8.bytes c.toNat
  match direction with
  | .forward => bytes
  | .backward => bytes.reverse

/-- The characters of an expression that is a literal. -/
def word? : Plain → Option (List Char)
  | .literal cs => some cs
  | _ => none

/-! ## Expressions -/

mutual

/-- The cost of an expression. -/
def cost (direction : Direction) : Plain → Cost
  | .empty => .passing
  | .edge _ => .test
  | .literal cs => Cost.times .test ((cs.map (·.utf8Size)).sum)
  | .set members => setCost direction members
  | .group body =>
    match direction with
    | .forward => (Cost.test.andThen (body.cost direction)).andThen .test
    | .backward => body.cost direction
  | .repetition body min max _ => (body.cost direction).repeated body.needsText min max
  | .concat items =>
    let costs := costs direction items
    let costs := match direction with
      | .forward => costs
      | .backward => costs.reverse
    match costs with
    | [] => .passing
    | c :: costs => costs.foldl Cost.andThen c
  | .alternate arms =>
    match arms.mapM word? with
    | some words =>
      let words := words.map (wordBytes direction)
      let longest := (words.map (·.length)).foldl Nat.max 0
      Cost.passing.beside (wordsCost (longest + 1) words)
    | none =>
      let costs := costs direction arms
      costs.foldr (fun arm all => arm.andThen all)
        (Cost.beside (.choice costs.length) .passing)

/-- The costs of expressions. -/
def costs (direction : Direction) : List Plain → List Cost
  | [] => []
  | e :: es => e.cost direction :: costs direction es

end

/-! ## Limits -/

/-- The cost of the states around an expression: those that let a match start anywhere, one where it
ends, and going forward two that mark it. -/
def frame : Direction → Cost
  | .forward => ⟨6, 5, Cost.rangeLink + 2 * Cost.choiceLink, false⟩
  | .backward => ⟨4, 4, Cost.rangeLink + 2 * Cost.choiceLink, false⟩

/-- The bytes that an automaton may take. -/
def maxBytes : Nat := 10 * 1024 * 1024

/-- Whether an expression is not too large. -/
def fits (e : Plain) : Bool :=
  [Direction.forward, .backward].all fun direction =>
    decide (((frame direction).andThen (e.cost direction)).bytes ≤ maxBytes)

/-- The bytes that a search backward needs at least to keep the sets of states it meets: the links
of a few of them, what they hold, and the lists it works with. -/
def searchBytes (states : Nat) : Nat :=
  let setBytes := 16 + 9 + 4 + 5 * states
  5 * 256 * 4 + 8 * states + 4 * states + (3 * 40 + 2 * setBytes) + 5 * 16 + 5 * 4 + setBytes

/-- The bytes that a search may take. -/
def maxSearchBytes : Nat := 2 * 1024 * 1024

/-- Whether an expression can be searched for backward. -/
def fitsBackward (e : Plain) : Bool :=
  decide (searchBytes ((frame .backward).andThen (e.cost .backward)).lasting ≤ maxSearchBytes)

end PatternSampler.Plain
