import Mathlib.Algebra.Group.Nat.Defs
import PatternSampler.CharClass.Choices
import PatternSampler.Generation.Random
/-!
# Draws one at a time

An index drawn below a bound is below it, so a pick is one of the choices, and several draws in one
go are as many picks one after the other.
-/
set_option autoImplicit false

namespace PatternSampler

namespace Rng

/-! ## Indices -/

theorem high_lt (word : UInt64) {n : Nat} (hn : 0 < n) : high word n < n := by
  have hword : word.toNat < 2 ^ 64 := word.toNat_lt
  rw [high, Nat.shiftRight_eq_div_pow]
  exact Nat.div_lt_of_lt_mul (Nat.mul_lt_mul_of_pos_right hword hn)

theorem accept_lt {n : Nat} (hn : 0 < n) (retries : Nat) (word : UInt64) (r : Rng) :
    (accept n retries word r).1 < n := by
  induction retries generalizing word r with
  | zero => exact high_lt word hn
  | succ retries ih =>
    rw [accept]
    split
    · exact ih _ _
    · exact high_lt word hn

theorem below_lt {n : Nat} (hn : 0 < n) (r : Rng) : (below n r).1 < n := by
  unfold below
  -- how many words may be drawn again does not matter
  generalize r.next = drawn
  generalize maxRetries = retries
  obtain ⟨word, r⟩ := drawn
  dsimp only
  split
  · exact accept_lt hn retries word r
  · exact high_lt word hn

/-! ## Characters -/

/-- A pick is the choice at an index drawn below their number. -/
theorem pick_cons (c : Char) (cs : List Char) (r : Rng) :
    pick (c :: cs) r =
      (some ((c :: cs).toArray.getD (r.below (c :: cs).length).1 ' '),
        (r.below (c :: cs).length).2) := by
  have hlt := below_lt (Nat.zero_lt_succ cs.length) r
  rw [pick]
  generalize r.below (c :: cs).length = drawn at hlt ⊢
  rw [Array.getD_eq_getD_getElem?, List.getElem?_toArray, List.getElem?_eq_getElem hlt,
    Option.getD_some]

theorem pick_mem {choices : List Char} {c : Char} {r r' : Rng}
    (h : pick choices r = (some c, r')) : c ∈ choices := by
  cases choices with
  | nil => simp [pick] at h
  | cons d ds =>
    rw [pick] at h
    generalize r.below (d :: ds).length = drawn at h
    exact List.mem_of_getElem? (congrArg Prod.fst h)

theorem repeat_succ {α : Type} (f : α → α) (n : Nat) (a : α) :
    Nat.repeat f (n + 1) a = Nat.repeat f n (f a) := by
  induction n with
  | zero => rfl
  | succ n ih => rw [Nat.repeat, ih, Nat.repeat]

theorem exists_pick (c : Char) (cs : List Char) (r : Rng) :
    ∃ d r', pick (c :: cs) r = (some d, r') := ⟨_, _, pick_cons c cs r⟩

/-- The first of several draws is a pick. -/
theorem appendDraws_succ {c d : Char} {cs : List Char} {r r' : Rng}
    (h : pick (c :: cs) r = (some d, r')) (count : Nat) (text : String) :
    appendDraws (c :: cs).toArray (count + 1) text r =
      appendDraws (c :: cs).toArray count (text.push d) r' := by
  rw [pick_cons] at h
  rw [appendDraws, repeat_succ, appendDraw, appendDraws]
  dsimp only
  rw [List.size_toArray]
  generalize r.below (c :: cs).length = drawn at h ⊢
  rw [Option.some.inj (congrArg Prod.fst h), ← (Prod.mk.inj h).2]

theorem fill_of_appendDraws {c : Char} {cs : List Char} {count : Nat} {text text' : String}
    {r r' : Rng} (h : appendDraws (c :: cs).toArray count text r = (text', r')) :
    fill text (c :: cs) count r = (some text', r') := by
  rw [fill, h]

theorem exists_pick_of_ne_nil {choices : List Char} (h : choices ≠ []) (r : Rng) :
    ∃ d r', pick choices r = (some d, r') := by
  cases choices with
  | nil => exact absurd rfl h
  | cons c cs => exact exists_pick c cs r

theorem exists_fill (text : String) {choices : List Char} (h : choices ≠ []) (count : Nat)
    (r : Rng) : ∃ text' r', fill text choices count r = (some text', r') := by
  cases choices with
  | nil => exact absurd rfl h
  | cons c cs =>
    obtain ⟨p, hp⟩ : ∃ p, appendDraws (c :: cs).toArray count text r = p := ⟨_, rfl⟩
    exact ⟨p.1, p.2, fill_of_appendDraws hp⟩

/-- Drawing appends as many characters as it is asked for, all of them choices. -/
theorem exists_appendDraws_eq (c : Char) (cs : List Char) (count : Nat) (text : String) (r : Rng) :
    ∃ drawn : List Char, (appendDraws (c :: cs).toArray count text r).1 =
      text ++ String.ofList drawn ∧ drawn.length = count ∧ ∀ d ∈ drawn, d ∈ c :: cs := by
  induction count with
  | zero => exact ⟨[], by simp [appendDraws, Nat.repeat], rfl, by simp⟩
  | succ count ih =>
    obtain ⟨drawn, htext, hlength, hdrawn⟩ := ih
    have hstep : appendDraws (c :: cs).toArray (count + 1) text r =
        appendDraw (c :: cs).toArray (appendDraws (c :: cs).toArray count text r) := rfl
    rw [hstep, appendDraw]
    generalize appendDraws (c :: cs).toArray count text r = before at htext
    have hlt := below_lt (Nat.zero_lt_succ cs.length) before.2
    rw [List.size_toArray]
    generalize before.2.below (c :: cs).length = index at hlt
    refine ⟨drawn ++ [(c :: cs)[index.1]], ?_, by simp [hlength], ?_⟩
    · rw [Array.getD_eq_getD_getElem?, List.getElem?_toArray, List.getElem?_eq_getElem hlt,
        Option.getD_some, String.ofList_append, ← String.append_assoc, ← htext]
      rfl
    · rw [List.forall_mem_append, List.forall_mem_singleton]
      exact ⟨hdrawn, List.getElem_mem hlt⟩

theorem exists_drawn_of_fill {choices : List Char} {count : Nat} {text text' : String}
    {r r' : Rng} (h : fill text choices count r = (some text', r')) :
    ∃ drawn : List Char, text' = text ++ String.ofList drawn ∧ drawn.length = count ∧
      ∀ d ∈ drawn, d ∈ choices := by
  cases choices with
  | nil => simp [fill] at h
  | cons c cs =>
    have hdrawn := exists_appendDraws_eq c cs count text r
    rw [fill] at h
    generalize appendDraws (c :: cs).toArray count text r = result at h hdrawn
    rwa [← Option.some.inj (Prod.mk.inj h).1]

theorem length_fill {choices : List Char} {count : Nat} {text text' : String} {r r' : Rng}
    (h : fill text choices count r = (some text', r')) : text'.length = text.length + count := by
  obtain ⟨drawn, rfl, hlength, -⟩ := exists_drawn_of_fill h
  rw [String.length_append, String.length_ofList, hlength]

end Rng

/-! ## Choices of a class -/

theorem CharClass.choices?_ne_nil {cls : CharClass} {alphabet choices : List Char}
    (h : cls.choices? alphabet = some choices) : choices ≠ [] := by
  unfold CharClass.choices? at h
  split at h
  · obtain ⟨c, -, rfl⟩ := Option.map_eq_some_iff.mp h
    simp
  · rw [← Option.some.inj h]
    simp

/-- A class offers its members in the alphabet or, where there are none, its witness. -/
def CharClass.Offers (cls : CharClass) (alphabet : List Char) (c : Char) : Prop :=
  c ∈ alphabet ∧ cls.contains c = true ∨
    (∀ a ∈ alphabet, cls.contains a = false) ∧ cls.witness? = some c

theorem CharClass.offers_of_choices? {cls : CharClass} {alphabet choices : List Char}
    (h : cls.choices? alphabet = some choices) {c : Char} (hc : c ∈ choices) :
    cls.Offers alphabet c := by
  unfold choices? at h
  split at h
  · rename_i hnone
    obtain ⟨d, hd, rfl⟩ := Option.map_eq_some_iff.mp h
    rw [List.mem_singleton.mp hc]
    refine .inr ⟨fun a ha => ?_, hd⟩
    simpa using List.filter_eq_nil_iff.mp hnone a ha
  · rename_i hsome
    rw [← Option.some.inj h, ← hsome] at hc
    exact .inl (List.mem_filter.mp hc)

end PatternSampler
