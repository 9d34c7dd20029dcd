/-!
# Byte measures of text

Positions in a pattern are byte offsets into its UTF-8 form, while the library works on lists of
characters.  This module measures a text in bytes and cuts it at byte offsets.  Main statements:
`byteLength_append`, and `splitAtByte?_eq_some_iff`, by which a cut exists exactly where one
character ends and the next begins.
-/
set_option autoImplicit false

namespace PatternSampler.Text

/-- How many bytes the UTF-8 form of a text takes. -/
def byteLength : List Char → Nat
  | [] => 0
  | c :: cs => c.utf8Size + byteLength cs

@[simp] theorem byteLength_nil : byteLength [] = 0 := rfl

@[simp] theorem byteLength_cons (c : Char) (cs : List Char) :
    byteLength (c :: cs) = c.utf8Size + byteLength cs := rfl

@[simp] theorem byteLength_append (xs ys : List Char) :
    byteLength (xs ++ ys) = byteLength xs + byteLength ys := by
  induction xs with
  | nil => simp
  | cons c cs ih => simp [ih, Nat.add_assoc]

/-- Cuts a text after `n` bytes; fails inside a character and beyond the end. -/
def splitAtByte? (n : Nat) : List Char → Option (List Char × List Char)
  | [] => if n = 0 then some ([], []) else none
  | c :: cs =>
    if n = 0 then some ([], c :: cs)
    else if c.utf8Size ≤ n then
      (splitAtByte? (n - c.utf8Size) cs).map fun (before, after) => (c :: before, after)
    else none

theorem splitAtByte?_zero (cs : List Char) : splitAtByte? 0 cs = some ([], cs) := by
  cases cs <;> rfl

theorem splitAtByte?_append (before after : List Char) :
    splitAtByte? (byteLength before) (before ++ after) = some (before, after) := by
  induction before with
  | nil => exact splitAtByte?_zero after
  | cons c before ih =>
    have hc : 0 < c.utf8Size := Char.utf8Size_pos c
    rw [List.cons_append, splitAtByte?, byteLength_cons, if_neg (by omega),
      if_pos (Nat.le_add_right ..), Nat.add_sub_cancel_left, ih, Option.map_some]

theorem splitAtByte?_eq_some_iff {n : Nat} {cs before after : List Char} :
    splitAtByte? n cs = some (before, after) ↔ cs = before ++ after ∧ byteLength before = n := by
  constructor
  · intro h
    induction cs generalizing n before with
    | nil =>
      rw [splitAtByte?, Option.ite_none_right_eq_some, Option.some.injEq, Prod.mk.injEq] at h
      obtain ⟨rfl, rfl, rfl⟩ := h
      exact ⟨rfl, rfl⟩
    | cons c cs ih =>
      rw [splitAtByte?] at h
      split at h
      · rename_i hn
        obtain ⟨rfl, rfl⟩ := Prod.mk.inj (Option.some.inj h)
        exact ⟨rfl, hn.symm⟩
      · split at h
        · rename_i hle
          obtain ⟨⟨inner, rest⟩, hsplit, heq⟩ := Option.map_eq_some_iff.mp h
          obtain ⟨rfl, rfl⟩ := Prod.mk.inj heq
          obtain ⟨rfl, hlength⟩ := ih hsplit
          exact ⟨rfl, by rw [byteLength_cons, hlength, Nat.add_sub_cancel' hle]⟩
        · simp at h
  · rintro ⟨rfl, rfl⟩
    exact splitAtByte?_append before after

/-- The piece of a text between two byte offsets, where both lie between characters, in order. -/
def slice? (start stop : Nat) (cs : List Char) : Option (List Char) :=
  if start ≤ stop then
    match splitAtByte? start cs with
    | none => none
    | some (_, rest) => (splitAtByte? (stop - start) rest).map (·.1)
  else none

end PatternSampler.Text
