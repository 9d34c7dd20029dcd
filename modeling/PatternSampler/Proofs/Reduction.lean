import Mathlib.Logic.Function.Iterate
import PatternSampler.Generation.Random
/-!
# Indices from words

An index below `n` is drawn by multiplying a random word by `n` and taking the high half of the
product, unless the low half says that the word is refused; then the next word is tried.
`Returns` is that loop in machine words, without a bound on its rounds.  Two words of the stream
differ by one, so no bound refuses both; and the stream runs through all its states, so that every
draw meets one of them (`exists_accepted`).  Main statement: `returns_iff`, by which `below` is
what the loop returns.
-/
set_option autoImplicit false

namespace PatternSampler

namespace Rng

variable {n : UInt64} {r : Rng}

/-! ## Halves of a product -/

/-- The product of a word and a bound, in 128 bits. -/
def product (word n : UInt64) : BitVec 128 := word.toBitVec.setWidth 128 * n.toBitVec.setWidth 128

theorem toNat_product (word n : UInt64) : (product word n).toNat = word.toNat * n.toNat := by
  have hword := word.toNat_lt
  have hn := n.toNat_lt
  have hlt : word.toNat * n.toNat < 2 ^ 128 :=
    calc word.toNat * n.toNat < 2 ^ 64 * 2 ^ 64 := Nat.mul_lt_mul'' hword hn
      _ = 2 ^ 128 := rfl
  rw [product, BitVec.toNat_mul, BitVec.toNat_setWidth_of_le (by decide),
    BitVec.toNat_setWidth_of_le (by decide), UInt64.toNat_toBitVec, UInt64.toNat_toBitVec,
    Nat.mod_eq_of_lt hlt]

theorem high_eq (word n : UInt64) : high word n.toNat = (product word n >>> 64).toNat := by
  rw [BitVec.toNat_ushiftRight, toNat_product, high]

theorem low_eq (word n : UInt64) : low word n.toNat = (word * n).toNat := by
  rw [UInt64.toNat_mul, low]

theorem toNat_pos (hn : n ≠ 0) : 0 < n.toNat :=
  Nat.pos_of_ne_zero fun h => hn (UInt64.toNat_inj.mp h)

theorem refusedBelow_eq (hn : n ≠ 0) : refusedBelow n.toNat = (-n % n).toNat := by
  have hlt : UInt64.size - n.toNat < UInt64.size := Nat.sub_lt (by decide) (toNat_pos hn)
  rw [UInt64.toNat_mod, UInt64.toNat_neg, Nat.mod_eq_of_lt hlt]
  rfl

/-- The next word is refused: the low half of its product falls below what the bound refuses. -/
def Refused (n : UInt64) (r : Rng) : Prop := r.next.1 * n < -n % n

theorem refused_iff (hn : n ≠ 0) :
    Refused n r ↔ low r.next.1 n.toNat < refusedBelow n.toNat := by
  rw [Refused, UInt64.lt_iff_toNat_lt, low_eq, refusedBelow_eq hn]

/-- Of two neighbouring words a bound refuses one at most. -/
theorem not_refused_of_succ {r' : Rng} (hn : n ≠ 0) (hnext : r'.next.1 = r.next.1 + 1)
    (h : Refused n r) : ¬Refused n r' := by
  have hlt := Nat.mod_lt (UInt64.size - n.toNat) (toNat_pos hn)
  have hle := Nat.mod_le (UInt64.size - n.toNat) n.toNat
  have hn' := n.toNat_lt_size
  rw [Refused, hnext, UInt64.add_mul, UInt64.one_mul]
  rw [Refused] at h
  rw [UInt64.lt_iff_toNat_lt, ← refusedBelow_eq hn, refusedBelow] at h ⊢
  -- the products differ by `n`, and the sum does not wrap
  rw [UInt64.toNat_add, Nat.mod_eq_of_lt (by change _ < UInt64.size; omega)]
  omega

/-! ## States of the stream -/

/-- The stream without its next word. -/
def skip (r : Rng) : Rng := r.next.2

theorem state_iterate_skip (j : Nat) (r : Rng) :
    (skip^[j] r).state = r.state + UInt64.ofNat j * increment := by
  induction j with
  | zero => simp
  | succ j ih =>
    have hskip (r : Rng) : (skip r).state = r.state + increment := rfl
    rw [Function.iterate_succ_apply', hskip, ih, UInt64.ofNat_add, UInt64.add_mul,
      UInt64.add_assoc]
    rfl

/-- The increment is odd, so that the stream runs through all its states. -/
theorem exists_iterate_skip_eq (r s : Rng) : ∃ j, j < maxRetries ∧ skip^[j] r = s := by
  have hinverse : (3666594518771085101 : UInt64) * increment = 1 := by decide
  obtain ⟨steps, hsteps⟩ : ∃ steps, r.state + steps * increment = s.state := by
    refine ⟨(s.state - r.state) * 3666594518771085101, ?_⟩
    rw [UInt64.mul_assoc, hinverse, UInt64.mul_one, UInt64.add_comm, UInt64.sub_add_cancel]
  refine ⟨steps.toNat, steps.toNat_lt_size, ?_⟩
  have hstate := state_iterate_skip steps.toNat r
  rw [UInt64.ofNat_toNat, hsteps] at hstate
  generalize skip^[steps.toNat] r = reached at hstate
  cases reached
  cases s
  exact congrArg Rng.mk hstate

/-- A stream whose next word is 8572604967580522734. -/
def lowerNeighbour : Rng := ⟨6345547068 - increment⟩

/-- A stream whose next word is 8572604967580522735. -/
def upperNeighbour : Rng := ⟨1431856618 - increment⟩

theorem next_neighbours : upperNeighbour.next.1 = lowerNeighbour.next.1 + 1 := by decide

/-- Every stream comes to a word that is not refused. -/
theorem exists_accepted (hn : n ≠ 0) (r : Rng) :
    ∃ j, j < maxRetries ∧ ¬Refused n (skip^[j] r) := by
  by_cases h : Refused n lowerNeighbour
  · obtain ⟨j, hj, heq⟩ := exists_iterate_skip_eq r upperNeighbour
    exact ⟨j, hj, heq ▸ not_refused_of_succ hn next_neighbours h⟩
  · obtain ⟨j, hj, heq⟩ := exists_iterate_skip_eq r lowerNeighbour
    exact ⟨j, hj, heq ▸ h⟩

/-! ## The loop -/

/-- Words are drawn until one is not refused; the high half of its product is the index, and the
last state is the one behind it. -/
inductive Returns (n : UInt64) : Rng → Nat → Rng → Prop
  | accept {r : Rng} (h : ¬Refused n r) :
    Returns n r (product r.next.1 n >>> 64).toNat r.next.2
  | redraw {r r' : Rng} {i : Nat} (h : Refused n r) (hnext : Returns n r.next.2 i r') :
    Returns n r i r'

theorem Returns.unique {i i' : Nat} {s s' : Rng} (h : Returns n r i s) (h' : Returns n r i' s') :
    i = i' ∧ s = s' := by
  induction h with
  | accept haccept =>
    cases h' with
    | accept => exact ⟨rfl, rfl⟩
    | redraw hrefused => exact absurd hrefused haccept
  | redraw hrefused _ ih =>
    cases h' with
    | accept haccept => exact absurd hrefused haccept
    | redraw _ hnext => exact ih hnext

theorem accept_zero (n : Nat) (word : UInt64) (r : Rng) :
    accept n 0 word r = (high word n, r) := rfl

theorem accept_succ (n retries : Nat) (word : UInt64) (r : Rng) :
    accept n (retries + 1) word r =
      if low word n < refusedBelow n then accept n retries r.next.1 r.next.2
      else (high word n, r) := rfl

theorem returns_accept (hn : n ≠ 0) {j retries : Nat} (hj : j ≤ retries)
    (haccept : ¬Refused n (skip^[j] r)) :
    Returns n r (accept n.toNat retries r.next.1 r.next.2).1
      (accept n.toNat retries r.next.1 r.next.2).2 := by
  induction retries generalizing j r with
  | zero =>
    obtain rfl := Nat.le_zero.mp hj
    rw [Function.iterate_zero_apply] at haccept
    rw [accept_zero, high_eq]
    exact .accept haccept
  | succ retries ih =>
    rw [accept_succ]
    by_cases hrefused : Refused n r
    · rw [if_pos ((refused_iff hn).mp hrefused)]
      cases j with
      | zero => exact absurd hrefused haccept
      | succ j =>
        rw [Function.iterate_succ_apply] at haccept
        exact .redraw hrefused (ih (Nat.le_of_succ_le_succ hj) haccept)
    · rw [if_neg (mt (refused_iff hn).mpr hrefused), high_eq]
      exact .accept hrefused

theorem below_eq (n : Nat) (r : Rng) :
    below n r =
      if low r.next.1 n < n then accept n maxRetries r.next.1 r.next.2
      else (high r.next.1 n, r.next.2) := by
  unfold below
  generalize maxRetries = retries
  rfl

/-- What the loop returns is what `below` gives. -/
theorem returns_below (hn : n ≠ 0) (r : Rng) :
    Returns n r (below n.toNat r).1 (below n.toNat r).2 := by
  obtain ⟨j, hj, haccept⟩ := exists_accepted hn r
  rw [below_eq]
  -- only that `j` is within the number of retries matters
  generalize maxRetries = retries at hj ⊢
  split
  · exact returns_accept hn (Nat.le_of_lt hj) haccept
  · rename_i hlow
    have hlt : refusedBelow n.toNat < n.toNat := Nat.mod_lt _ (toNat_pos hn)
    have haccept : ¬Refused n r := by
      rw [refused_iff hn]
      omega
    rw [high_eq]
    exact .accept haccept

theorem returns_iff (hn : n ≠ 0) {i : Nat} {s : Rng} :
    Returns n r i s ↔ below n.toNat r = (i, s) := by
  have hreturns := returns_below hn r
  generalize below n.toNat r = drawn at hreturns ⊢
  constructor
  · intro h
    obtain ⟨hi, hs⟩ := hreturns.unique h
    exact Prod.ext hi hs
  · rintro rfl
    exact hreturns

end Rng

end PatternSampler
