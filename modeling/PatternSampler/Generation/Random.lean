/-!
# Random draws

A stream of random words from a seed, and uniform draws below a bound.  The state moves on by a
constant; a word is the state mixed by one multiplication to 128 bits, its halves combined.  An
index below `n` is the high half of the word times `n`.  Words whose low half falls below
`2^64 mod n` are drawn again, since they would favour some indices.
-/
set_option autoImplicit false

namespace PatternSampler

/-- The state of a stream of random words. -/
structure Rng where
  state : UInt64
  deriving DecidableEq, Repr

namespace Rng

/-- By how much the state moves on for each word. -/
def increment : UInt64 := 0x2d358dccaa6c78a5

/-- What the state is mixed with. -/
def mixer : UInt64 := 0x8bb84b93962eacc9

/-- The next word of the stream. -/
def next (r : Rng) : UInt64 × Rng :=
  let s := r.state + increment
  let t := s.toNat * (s ^^^ mixer).toNat
  (UInt64.ofNat t ^^^ UInt64.ofNat (t >>> 64), ⟨s⟩)

/-- The high half of a word times `n`. -/
def high (word : UInt64) (n : Nat) : Nat := (word.toNat * n) >>> 64

/-- The low half of a word times `n`. -/
def low (word : UInt64) (n : Nat) : Nat := (word.toNat * n) % UInt64.size

/-- How many low halves are refused for the bound `n`. -/
def refusedBelow (n : Nat) : Nat := (UInt64.size - n) % n

/-- The high half of the given word, or of the first later one that is not refused.  After
`retries` further words the last one is taken as it is. -/
def accept (n : Nat) : Nat → UInt64 → Rng → Nat × Rng
  | 0, word, r => (high word n, r)
  | retries + 1, word, r =>
    if low word n < refusedBelow n then
      let (word, r) := r.next
      accept n retries word r
    else (high word n, r)

/-- How many words are drawn again at most.  The state returns to where it was after as many, so a
draw that needs more would never end. -/
def maxRetries : Nat := UInt64.size

/-- An index below `n`, for `n` from 1 to 2^64 - 1. -/
def below (n : Nat) (r : Rng) : Nat × Rng :=
  let (word, r) := r.next
  if low word n < n then accept n maxRetries word r else (high word n, r)

/-- One of the given characters; `none`, with no word drawn, if there are none. -/
def pick (choices : List Char) (r : Rng) : Option Char × Rng :=
  match choices with
  | [] => (none, r)
  | c :: cs =>
    let drawn := r.below (c :: cs).length
    ((c :: cs)[drawn.1]?, drawn.2)

/-- Appends a character to a text, drawn from an array of choices. -/
def appendDraw (choices : Array Char) (text : String × Rng) : String × Rng :=
  let drawn := text.2.below choices.size
  (text.1.push (choices.getD drawn.1 ' '), drawn.2)

/-- Appends `count` characters to a text, each drawn independently from an array of choices. -/
def appendDraws (choices : Array Char) (count : Nat) (text : String) (r : Rng) : String × Rng :=
  Nat.repeat (appendDraw choices) count (text, r)

/-- Appends `count` draws from the given characters to a text; `none`, with no word drawn, if there
are none to choose from. -/
def fill (text : String) (choices : List Char) (count : Nat) (r : Rng) : Option String × Rng :=
  match choices with
  | [] => (none, r)
  | c :: cs =>
    let (text, r) := appendDraws (c :: cs).toArray count text r
    (some text, r)

end Rng

end PatternSampler
