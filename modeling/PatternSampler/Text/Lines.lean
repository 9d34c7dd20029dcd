import PatternSampler.Text.Bytes
/-!
# Lines of a source

A byte offset into a source is shown as a line and a column, both counted from one, the column in
bytes.  A `LineIndex` holds the byte at which each line starts; offsets beyond the end of the
source belong to its last line.  `place` counts without a bound; `lookup` finds the line by
halving and counts in machine words, and `locate?` does so where no sum wraps around.
-/
set_option autoImplicit false

namespace PatternSampler.Text

/-- The byte offsets that follow a line feed, counted from `offset`. -/
def lineStartsFrom (offset : Nat) : List Char → List Nat
  | [] => []
  | c :: cs =>
    if c = '\n' then (offset + c.utf8Size) :: lineStartsFrom (offset + c.utf8Size) cs
    else lineStartsFrom (offset + c.utf8Size) cs

/-- The byte at which each line of a source starts, in order. -/
structure LineIndex where
  starts : List Nat
  deriving DecidableEq, Repr

/-- A line and a column, both counted from one. -/
structure Place where
  line : Nat
  column : Nat
  deriving DecidableEq, Repr

namespace LineIndex

/-- The line index of a source: its first line starts at byte 0. -/
def ofSource (source : List Char) : LineIndex := ⟨0 :: lineStartsFrom 0 source⟩

/-- The starts at or before an offset. -/
def startsUpTo (index : LineIndex) (offset : Nat) : List Nat :=
  index.starts.takeWhile (· ≤ offset)

/-- The place of a byte offset. -/
def place (index : LineIndex) (offset : Nat) : Place :=
  let before := index.startsUpTo offset
  ⟨before.length, offset - before.getLastD 0 + 1⟩

end LineIndex

/-! ## Lookup in machine words -/

/-- The end of the indices that satisfy `p` among the `size` many from `base` on.  The half in which
they end is kept until one index is left. -/
def bisect (p : Nat → Bool) (base size : Nat) : Nat :=
  if 1 < size then
    if p (base + size / 2) then bisect p (base + size / 2) (size - size / 2)
    else bisect p base (size - size / 2)
  else if size = 1 ∧ p base = true then base + 1 else base

/-- How many elements at the front of a list satisfy `p`, found by halving. -/
def partitionPoint {α : Type} (p : α → Bool) (xs : List α) : Nat :=
  bisect (fun i => xs[i]?.any p) 0 xs.length

namespace LineIndex

/-- The place of an offset found by halving, in machine words: `none` where the index has no such
entry, a difference is below zero or a sum does not fit. -/
def locate? (index : LineIndex) (offset : Nat) : Option Place :=
  let line := max (partitionPoint (· ≤ offset) index.starts) 1
  match index.starts[line - 1]? with
  | none => none
  | some start =>
    if start ≤ offset ∧ offset - start + 1 < UInt64.size then some ⟨line, offset - start + 1⟩
    else none

/-- The place of an offset found by halving, where a sum that does not fit wraps around. -/
def lookup (index : LineIndex) (offset : Nat) : Place :=
  let line := max (partitionPoint (· ≤ offset) index.starts) 1
  ⟨line, (offset - index.starts.getD (line - 1) 0 + 1) % UInt64.size⟩

end LineIndex

/-! ## Texts of lines -/

/-- `cs` without the characters at its end that satisfy `p`. -/
def trimEnd (p : Char → Bool) (cs : List Char) : List Char := (cs.reverse.dropWhile p).reverse

/-- The text of a line, counted from one, without its terminator; empty where there is no such
line. -/
def LineIndex.lineText (index : LineIndex) (source : List Char) (line : Nat) : List Char :=
  match line with
  | 0 => []
  | i + 1 =>
    match index.starts[i]? with
    | none => []
    | some start =>
      let stop := (index.starts[i + 1]?).getD (byteLength source)
      trimEnd (· == '\r') (trimEnd (· == '\n') ((slice? start stop source).getD []))

end PatternSampler.Text
