/-!
# Marks

The text written so far, cut into nested segments: each open group writes into a segment of its
own, which is appended to the one around it when the group closes.  A group that closes under a
number leaves its text to be copied by references.
-/
set_option autoImplicit false

namespace PatternSampler

/-- The texts captured by groups, each group once. -/
abbrev Captures : Type := List (Int32 × String)

namespace Captures

/-- The text captured last by a group. -/
def get? (c : Captures) (group : Int32) : Option String :=
  (c.find? (·.1 == group)).map (·.2)

/-- Remembers a group's text in place of what it captured before. -/
def put (c : Captures) (group : Int32) (text : String) : Captures :=
  (group, text) :: c.filter (·.1 != group)

theorem get?_put_self (c : Captures) (group : Int32) (text : String) :
    (c.put group text).get? group = some text := by
  simp [get?, put]

theorem get?_put_of_ne (c : Captures) {group other : Int32} (h : other ≠ group) (text : String) :
    (c.put group text).get? other = c.get? other := by
  have hpred : ∀ e : Int32 × String, ((e.1 != group) = true ∧ (e.1 == other) = true) ↔
      (e.1 == other) = true := by
    intro e
    simp only [bne_iff_ne, beq_iff_eq, and_iff_right_iff_imp]
    rintro rfl
    exact h
  simp only [get?, put, List.find?_cons, beq_eq_false_iff_ne.mpr h.symm, List.find?_filter, hpred,
    Bool.decide_eq_true]

end Captures

/-- Nested segments of text. -/
structure Marks where
  /-- the innermost segment -/
  current : String
  /-- the segments around it, innermost first -/
  outer : List String
  captures : Captures
  deriving DecidableEq, Repr

namespace Marks

/-- No text and no open group. -/
def empty : Marks := ⟨"", [], []⟩

/-- Writes a text. -/
def write (m : Marks) (text : String) : Marks := { m with current := m.current ++ text }

/-- Writes a character. -/
def writeChar (m : Marks) (c : Char) : Marks := { m with current := m.current.push c }

/-- Opens a group. -/
def push (m : Marks) : Marks := { m with current := "", outer := m.current :: m.outer }

/-- Closes the innermost group, under a number or not; `none` if no group is open. -/
def pop? (m : Marks) (group : Option Int32) : Option Marks :=
  match m.outer with
  | [] => none
  | parent :: outer =>
    some {
      current := parent ++ m.current
      outer
      captures := match group with
        | some g => m.captures.put g m.current
        | none => m.captures }

/-- The text captured last by a group. -/
def capture? (m : Marks) (group : Int32) : Option String := m.captures.get? group

/-- The whole text, the open groups closed. -/
def finish (m : Marks) : String := m.outer.foldl (fun inner parent => parent ++ inner) m.current

end Marks

end PatternSampler
