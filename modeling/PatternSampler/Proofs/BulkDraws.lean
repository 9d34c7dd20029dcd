import PatternSampler.Proofs.Draws
import PatternSampler.Proofs.Reduction
/-!
# Draws in one go

Appending several draws in one go writes what as many picks give, one after the other, and leaves
the stream where they leave it.  Main statement: `fill_eq_picks`, which also says that every draw
returns and that the index it returns is one of the choices.
-/
set_option autoImplicit false

namespace PatternSampler

namespace Rng

variable {choices : List Char} {r : Rng}

/-- What `count` picks give, one after the other. -/
def picks (choices : List Char) : Nat → Rng → List (Option Char) × Rng
  | 0, r => ([], r)
  | count + 1, r =>
    let first := pick choices r
    let rest := picks choices count first.2
    (first.1 :: rest.1, rest.2)

theorem picks_succ {c : Char} {r' : Rng} (h : pick choices r = (some c, r')) (count : Nat) :
    picks choices (count + 1) r =
      (some c :: (picks choices count r').1, (picks choices count r').2) := by
  rw [picks, h]

theorem fill_zero (h : choices ≠ []) (text : String) (r : Rng) :
    fill text choices 0 r = (some text, r) := by
  cases choices with
  | nil => exact absurd rfl h
  | cons c cs => rfl

theorem fill_succ {c : Char} {r' : Rng} (h : pick choices r = (some c, r')) (text : String)
    (count : Nat) : fill text choices (count + 1) r = fill (text.push c) choices count r' := by
  cases choices with
  | nil => simp [pick] at h
  | cons d ds => rw [fill, fill, appendDraws_succ h]

/-- The first of several draws in one go are picks, and the others go on from there. -/
theorem exists_picks_eq (h : choices ≠ []) (count : Nat) (r : Rng) :
    ∃ drawn r', picks choices count r = (drawn.map some, r') ∧ drawn.length = count ∧
      (∀ c ∈ drawn, c ∈ choices) ∧
      ∀ text more, fill text choices (count + more) r =
        fill (text ++ String.ofList drawn) choices more r' := by
  induction count generalizing r with
  | zero =>
    refine ⟨[], r, rfl, rfl, fun c hc => absurd hc List.not_mem_nil, fun text more => ?_⟩
    rw [Nat.zero_add, String.ofList_nil, String.append_empty]
  | succ count ih =>
    obtain ⟨c, r₁, hpick⟩ := exists_pick_of_ne_nil h r
    obtain ⟨drawn, r', hpicks, hlength, hmem, hfill⟩ := ih r₁
    refine ⟨c :: drawn, r', ?_, by rw [List.length_cons, hlength], ?_, fun text more => ?_⟩
    · rw [picks_succ hpick, hpicks, List.map_cons]
    · exact List.forall_mem_cons.mpr ⟨pick_mem hpick, hmem⟩
    · have hpush : text.push c ++ String.ofList drawn = text ++ String.ofList (c :: drawn) := by
        rw [← String.append_singleton, String.append_assoc, String.singleton_eq_ofList,
          ← String.ofList_append, List.singleton_append]
      rw [Nat.add_right_comm, fill_succ hpick, hfill, hpush]

theorem pick_eq_of_below (h : choices ≠ []) {i : Nat} {r' : Rng}
    (hbelow : below choices.length r = (i, r')) : pick choices r = (choices[i]?, r') := by
  cases choices with
  | nil => exact absurd rfl h
  | cons c cs => rw [pick, hbelow]

/-- Draws in one go are as many picks, with the same characters and the same state behind them; a
first part of them may be drawn before the others.  Every draw returns, and its index is that of a
choice. -/
theorem fill_eq_picks (h : choices ≠ []) (text : String) (count : Nat) (r : Rng) :
    (∃ drawn r', picks choices count r = (drawn.map some, r') ∧
      fill text choices count r = (some (text ++ String.ofList drawn), r') ∧
      drawn.length = count ∧ (∀ c ∈ drawn, c ∈ choices) ∧
      ∀ more, fill text choices (count + more) r =
        fill (text ++ String.ofList drawn) choices more r') ∧
    ∀ n : UInt64, n.toNat = choices.length →
      (∃ i r', Returns n r i r') ∧
      ∀ i r', Returns n r i r' → i < choices.length ∧ pick choices r = (choices[i]?, r') := by
  constructor
  · obtain ⟨drawn, r', hpicks, hlength, hmem, hfill⟩ := exists_picks_eq h count r
    have hall := hfill text 0
    rw [Nat.add_zero, fill_zero h] at hall
    exact ⟨drawn, r', hpicks, hall, hlength, hmem, hfill text⟩
  · intro n hn
    have hpos : 0 < choices.length := List.length_pos_iff.mpr h
    have hne : n ≠ 0 := by
      rintro rfl
      exact Nat.ne_of_lt hpos hn
    refine ⟨⟨_, _, returns_below hne r⟩, fun i r' hreturns => ?_⟩
    have hbelow := (returns_iff hne).mp hreturns
    rw [hn] at hbelow
    have hlt := below_lt hpos r
    rw [hbelow] at hlt
    exact ⟨hlt, pick_eq_of_below h hbelow⟩

/-- A stream whose first word is zero, which three choices refuse: three draws take four words. -/
def zeroFirst : Rng := ⟨-increment⟩

theorem refused_zeroFirst : Refused 3 zeroFirst := by
  unfold Refused
  decide

theorem fill_eq_picks_zeroFirst :
    ['x', 'y', 'z'] ≠ [] ∧
      fill "ab" ['x', 'y', 'z'] 3 zeroFirst = (some "abyxx", ⟨3 * increment⟩) ∧
      (∀ more, fill "ab" ['x', 'y', 'z'] (3 + more) zeroFirst =
        fill "abyxx" ['x', 'y', 'z'] more ⟨3 * increment⟩) ∧
      Refused 3 zeroFirst ∧ ∃ i r', Returns 3 zeroFirst i r' ∧ i < 3 := by
  have hpicks : picks ['x', 'y', 'z'] 3 zeroFirst =
      ([some 'y', some 'x', some 'x'], ⟨3 * increment⟩) := by decide +kernel
  have htext : "ab" ++ String.ofList ['y', 'x', 'x'] = "abyxx" := by decide
  obtain ⟨⟨drawn, r', heq, hfill, -, -, hmore⟩, hreturns⟩ :=
    @fill_eq_picks ['x', 'y', 'z'] (by decide) "ab" 3 zeroFirst
  obtain ⟨hdrawn, rfl⟩ := Prod.mk.inj (heq.symm.trans hpicks)
  obtain rfl : drawn = ['y', 'x', 'x'] :=
    (List.map_inj_right fun _ _ => Option.some.inj).mp hdrawn
  rw [htext] at hfill hmore
  obtain ⟨⟨i, r', hreturn⟩, hbelow⟩ := hreturns 3 rfl
  exact ⟨by decide, hfill, hmore, refused_zeroFirst, i, r', hreturn, (hbelow i r' hreturn).1⟩

end Rng

end PatternSampler
