/-!
# Sets of characters given by ranges of code points

The Unicode tables of this library are lists of inclusive code point ranges in increasing order.
Membership is one pass over the list that stops as soon as a range lies beyond the code point.  Sets
that a pattern spells out are brought into order by `RangeTable.normalize` and negated by
`RangeTable.complement`.
-/
set_option autoImplicit false

namespace PatternSampler.Unicode

/-- Inclusive ranges of code points. -/
abbrev RangeTable : Type := List (Nat × Nat)

namespace RangeTable

/-- Whether some range of the table holds the code point `n`. -/
def holds : RangeTable → Nat → Bool
  | [], _ => false
  | r :: rs, n => if n < r.1 then false else if n ≤ r.2 then true else holds rs n

/-- Joins neighbours that overlap or touch, of ranges that start in increasing order. -/
def join : RangeTable → RangeTable
  | [] => []
  | [r] => [r]
  | r :: q :: rest =>
    if q.1 ≤ r.2 + 1 then join ((r.1, max r.2 q.2) :: rest) else r :: join (q :: rest)
  termination_by table => table.length

/-- The ranges in increasing order, as few as possible. -/
def normalize (ranges : RangeTable) : RangeTable :=
  join (ranges.mergeSort fun r q => decide (r.1 ≤ q.1))

/-- The code point after `n` that a character can have. -/
def after (n : Nat) : Nat := if n = 0xD7FF then 0xE000 else n + 1

/-- The code point before `n` that a character can have. -/
def before (n : Nat) : Nat := if n = 0xE000 then 0xD7FF else n - 1

/-- The ranges from `start` on that lie between those of an ordered table. -/
def gaps (start : Nat) : RangeTable → RangeTable
  | [] => if start ≤ 0x10FFFF then [(start, 0x10FFFF)] else []
  | r :: rs =>
    if start < r.1 then (start, before r.1) :: gaps (after r.2) rs else gaps (after r.2) rs

/-- The code points that an ordered table leaves out. -/
def complement (table : RangeTable) : RangeTable := gaps 0 table

end RangeTable

end PatternSampler.Unicode
