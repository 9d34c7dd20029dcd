import PatternSampler.Matching.Instruction
import PatternSampler.Text.Bytes
import PatternSampler.Unicode.CaseFold
import PatternSampler.Unicode.Word
/-!
# The matching machine

Runs code on a text.  At a choice the machine puts one of the two ways off, and after a failure it
takes up the one that it put off last.  It gives up once it has failed too often, or has put off too
much.
-/
set_option autoImplicit false

namespace PatternSampler.Matching

/-- What is known about a text. -/
inductive Verdict where
  | matched
  | unmatched
  /-- the machine has failed too often to go on -/
  | gaveUp
  deriving DecidableEq, Repr

/-! ## Assertions -/

/-- Whether a word character stands at a position. -/
def wordAt (text : Array Char) (i : Nat) : Bool := (text[i]?.map Unicode.isWord).getD false

/-- Whether a word character stands before a position. -/
def wordBefore (text : Array Char) (i : Nat) : Bool := decide (0 < i) && wordAt text (i - 1)

/-- Whether an assertion holds at a position. -/
def Assertion.holds (text : Array Char) (i : Nat) : Assertion → Bool
  | .edge a => a.holds text i
  | .wordBoundary => wordBefore text i != wordAt text i
  | .notWordBoundary => wordBefore text i == wordAt text i
  | .wordStart => !wordBefore text i && wordAt text i
  | .wordEnd => wordBefore text i && !wordAt text i
  | .wordStartHalf => !wordBefore text i
  | .wordEndHalf => !wordAt text i

/-! ## Copies -/

/-- Whether two texts are equal up to case, character by character. -/
def sameFolds : List Char → List Char → Bool
  | [], _ => true
  | _ :: _, [] => false
  | c :: cs, d :: ds => Unicode.sameFold c d && sameFolds cs ds

/-- Whether a text occurs in another one up to case. -/
def occursFolded (piece : List Char) : List Char → Bool
  | [] => piece.isEmpty
  | c :: cs => sameFolds piece (c :: cs) || occursFolded piece cs

/-- Whether an ASCII text is equal to another one up to the case of ASCII letters. -/
def sameAscii (here piece : List Char) : Bool := here.map Char.toLower == piece.map Char.toLower

/-- Whether what stands at a position counts as a copy of a piece of as many bytes.  Where case does
not count, text beyond ASCII is a copy if the piece occurs in it. -/
def isCopy (folds : Bool) (piece here : List Char) : Bool :=
  here == piece ||
    (folds && if here.all fun c => decide (c.toNat < 0x80) then sameAscii here piece
      else occursFolded piece here)

/-- Where a copy of the piece between two positions ends that starts at `i`. -/
def copyEnd? (text : Array Char) (folds : Bool) (first last i : Nat) : Option Nat :=
  let piece := (text.extract first last).toList
  let bytes := Text.byteLength piece
  match Text.splitAtByte? bytes (text.extract i (i + bytes)).toList with
  | some (here, _) => if isCopy folds piece here then some (i + here.length) else none
  | none => none

/-! ## Threads -/

/-- A way on: the address of the next instruction, the position in the text, and the slots, which
hold nothing at first. -/
structure Thread where
  address : Nat
  position : Nat
  slots : Array (Option Nat)
  deriving DecidableEq, Repr

namespace Thread

/-- The next instruction. -/
def next (t : Thread) : Thread := { t with address := t.address + 1 }

/-- The next instruction at another position. -/
def nextAt (t : Thread) (i : Nat) : Thread := { t with address := t.address + 1, position := i }

/-- Another instruction. -/
def goto (t : Thread) (target : Nat) : Thread := { t with address := target }

/-- What a slot holds. -/
def slot? (t : Thread) (slot : Nat) : Option Nat := (t.slots[slot]?).join

/-- The count in a slot. -/
def countOf (t : Thread) (slot : Nat) : Nat := (t.slot? slot).getD 0

/-- A slot with another value. -/
def put (t : Thread) (slot n : Nat) : Thread :=
  { t with slots := t.slots.setIfInBounds slot (some n) }

end Thread

/-! ## Instructions -/

/-- What an instruction does. -/
inductive Turn where
  | go (t : Thread)
  /-- goes on, and puts another way off -/
  | fork (t later : Thread)
  | fail
  /-- fails, and drops what was put off since the way to an address -/
  | failTo (address : Nat)
  | stop (v : Verdict)
  deriving Repr

namespace Turn

/-- Goes on at a position, if there is one. -/
def move (t : Thread) : Option Nat → Turn
  | some i => .go (t.nextAt i)
  | none => .fail

/-- Goes on if something holds. -/
def check (t : Thread) (ok : Bool) : Turn := if ok then .go t.next else .fail

/-- A choice between a copy more, and leaving, which is open after `min` copies. -/
def again (t exit : Thread) (count min : Nat) (isLazy : Bool) : Turn :=
  if count < min then .go t.next
  else if isLazy then .fork exit t.next
  else .fork t.next exit

end Turn

/-- The turn of an instruction, while `waiting` ways are put off. -/
def turn (text : Array Char) (waiting : Nat) (t : Thread) : Instruction → Turn
  | .accept => .stop .matched
  | .any newLines =>
    match text[t.position]? with
    | some c => if newLines || c != '\n' then .go (t.nextAt (t.position + 1)) else .fail
    | none => .fail
  | .literal cs => .move t (Plain.literalEnd? text cs t.position)
  | .plain e a => .move t (e.end? a text t.position)
  | .plainBehind e => .check t (e.endsAt text t.position)
  | .assert a => .check t (a.holds text t.position)
  | .searchStart isFirst =>
    if t.position = 0 then .go t.next
    else if isFirst && waiting == 1 then .stop .unmatched
    else .fail
  | .copy slot folds =>
    match t.slot? slot, t.slot? (slot + 1) with
    | some first, some last => .move t (copyEnd? text folds first last t.position)
    | _, _ => .fail
  | .goBack n => if n ≤ t.position then .go (t.nextAt (t.position - n)) else .fail
  | .split first second => .fork (t.goto first) (t.goto second)
  | .jump target => .go (t.goto target)
  | .save slot => .go (t.put slot t.position).next
  | .clear slot => .go (t.put slot 0).next
  | .restore slot => .go (t.nextAt (t.countOf slot))
  | .count min max isLazy exit slot =>
    let n := t.countOf slot
    if max = some n then .go (t.goto exit)
    else
      let t := t.put slot (n + 1)
      .again t (t.goto exit) n min isLazy
  | .countMoves min isLazy exit slot last =>
    let n := t.countOf slot
    if min < n ∧ t.slot? last = some t.position then .go (t.goto exit)
    else
      let t := t.put slot (n + 1)
      let t := if n < min then t else t.put last t.position
      .again t (t.goto exit) n min isLazy
  | .refuse => .failTo (t.address + 1)
  | .never => .fail

/-! ## Runs -/

/-- A run: the ways that are put off, latest first, with their number, and how many failures there
have been. -/
structure Run where
  waiting : List Thread
  depth : Nat
  failures : Nat

/-- How many ways can be put off. -/
def maxDepth : Nat := 1000000

/-- How many failures the machine recovers from. -/
def maxFailures : Nat := 1000000

/-- The ways that were put off before the latest one to an address. -/
def dropTo (address : Nat) : List Thread → Nat → List Thread × Nat
  | [], depth => ([], depth)
  | t :: ts, depth => if t.address = address then (ts, depth - 1) else dropTo address ts (depth - 1)

/-- Goes on until the run stops; `gaveUp` also after as many instructions as there is fuel. -/
def run (code : Array Instruction) (text : Array Char) : Nat → Thread → Run → Verdict
  | 0, _, _ => .gaveUp
  | fuel + 1, t, r =>
    match turn text r.depth t (code[t.address]?.getD .never) with
    | .go t => run code text fuel t r
    | .fork t later =>
      if r.depth < maxDepth then
        run code text fuel t ⟨later :: r.waiting, r.depth + 1, r.failures⟩
      else .gaveUp
    | .stop v => v
    | .fail => retry fuel r.waiting r.depth r.failures
    | .failTo address =>
      let (waiting, depth) := dropTo address r.waiting r.depth
      retry fuel waiting depth r.failures
where
  /-- Takes up the way that was put off last. -/
  retry (fuel : Nat) : List Thread → Nat → Nat → Verdict
    | [], _, _ => .unmatched
    | t :: waiting, depth, failures =>
      if failures < maxFailures then run code text fuel t ⟨waiting, depth - 1, failures + 1⟩
      else .gaveUp

end PatternSampler.Matching
