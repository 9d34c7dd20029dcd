import PatternSampler.Unicode.Ranges
/-!
# Ranges of characters as ranges of bytes

In UTF-8 the characters of a range are those whose bytes lie, one by one, in the byte ranges of one
of several sequences.  A range is cut where the number of bytes changes, around the code points that
no character has, and where a byte would take other values than its neighbours allow.
-/
set_option autoImplicit false

namespace PatternSampler.Plain.Utf8

/-- Inclusive ranges of bytes, one for each byte of a character. -/
abbrev Sequence : Type := List (Nat × Nat)

/-- The last code points with one, two and three bytes. -/
def lengthLimits : List Nat := [0x7F, 0x7FF, 0xFFFF]

/-- The place of a range where its number of bytes changes, as the last code point before it. -/
def lengthCut? (first last : Nat) : Option Nat :=
  lengthLimits.find? fun limit => decide (first ≤ limit) && decide (limit < last)

/-- The place where a range has to be cut for its last `k` bytes to take all values while the bytes
before them vary. -/
def blockCut? (first last k : Nat) : Option Nat :=
  let block := Nat.pow 64 k
  if first / block = last / block then none
  else if first % block ≠ 0 then some (first / block * block + block - 1)
  else if last % block ≠ block - 1 then some (last / block * block - 1)
  else none

/-- The first place where a range has to be cut. -/
def cut? (first last : Nat) : Option Nat :=
  match lengthCut? first last with
  | some n => some n
  | none => if last ≤ 0x7F then none else [1, 2, 3].findSome? (blockCut? first last)

/-- The pieces of a range, in order, after at most `2 ^ depth - 1` cuts. -/
def pieces : Nat → Nat → Nat → List (Nat × Nat)
  | 0, first, last => [(first, last)]
  | depth + 1, first, last =>
    match cut? first last with
    | some n => pieces depth first n ++ pieces depth (n + 1) last
    | none => [(first, last)]

/-- The bytes of a code point. -/
def bytes (n : Nat) : List Nat := (String.utf8EncodeChar (Char.ofNat n)).map (·.toNat)

/-- The parts of a range on either side of the code points that no character has. -/
def around (first last : Nat) : List (Nat × Nat) :=
  if first < 0xE000 ∧ 0xD7FF < last then
    [(first, 0xD7FF), (0xE000, last)].filter fun r => decide (r.1 ≤ r.2)
  else [(first, last)]

/-- The sequences of a range, in order. -/
def ofRange (first last : Nat) : List Sequence :=
  (around first last).flatMap fun (first, last) =>
    (pieces 12 first last).map fun (first, last) => (bytes first).zip (bytes last)

/-- The sequences of an ordered table. -/
def ofTable (table : Unicode.RangeTable) : List Sequence :=
  table.flatMap fun (first, last) => ofRange first last

end PatternSampler.Plain.Utf8
