import PatternSampler.Generation.Machine
import PatternSampler.Proofs.Emission
/-!
# Steps and runs

`Machine.after` is the state after a number of steps, and `Machine.Leads` says what a state comes
to sooner or later.  A run has steps left to make exactly as long as there is a state after them,
and it ends as its state leads to.
-/
set_option autoImplicit false

namespace PatternSampler.Machine

variable {code : Code} {cfg : Config}

/-! ## Steps one by one -/

/-- The state after `n` steps; `none` if the run is over before. -/
def after (code : Code) (cfg : Config) : Nat → Machine → Option Machine
  | 0, m => some m
  | n + 1, m =>
    match m.step code cfg with
    | .error _ => none
    | .ok m => after code cfg n m

/-- Beyond the code there is no instruction to execute. -/
theorem lt_size_of_step {m m' : Machine} (h : m.step code cfg = .ok m') :
    m.ip < code.words.size := by
  unfold step at h
  split at h
  · simp at h
  · rename_i hat
    exact Code.lt_size_of_instructionAt hat

theorem after_succ {m m' : Machine} (h : m.step code cfg = .ok m') (n : Nat) :
    m.after code cfg (n + 1) = m'.after code cfg n := by
  simp only [after, h]

theorem after_succ_eq_some {m m'' : Machine} {n : Nat} (h : m.after code cfg (n + 1) = some m'') :
    ∃ m', m.step code cfg = .ok m' ∧ m'.after code cfg n = some m'' := by
  simp only [after] at h
  split at h
  · simp at h
  · exact ⟨_, ‹_›, h⟩

/-- What every step keeps, a run keeps. -/
theorem invariant_after {I : Machine → Prop}
    (hkeeps : ∀ m m', I m → m.step code cfg = .ok m' → I m') {m m' : Machine} {n : Nat} (h : I m)
    (hafter : m.after code cfg n = some m') : I m' := by
  induction n generalizing m with
  | zero =>
    obtain rfl := Option.some.inj hafter
    exact h
  | succ n ih =>
    obtain ⟨m₁, hstep, hrest⟩ := after_succ_eq_some hafter
    exact ih (hkeeps m m₁ h hstep) hrest

/-- The steps of a run may be cut anywhere. -/
theorem after_add {m m' : Machine} {n : Nat} (h : m.after code cfg n = some m') (k : Nat) :
    m.after code cfg (n + k) = m'.after code cfg k := by
  induction n generalizing m with
  | zero =>
    obtain rfl := Option.some.inj h
    rw [Nat.zero_add]
  | succ n ih =>
    obtain ⟨m₁, hstep, hrest⟩ := after_succ_eq_some h
    rw [Nat.add_right_comm, after_succ hstep, ih hrest]

/-- A run that makes some steps makes any fewer before. -/
theorem exists_after_of_le {m m' : Machine} {n k : Nat} (h : m.after code cfg n = some m')
    (hk : k ≤ n) : ∃ m'', m.after code cfg k = some m'' := by
  induction n generalizing m k with
  | zero =>
    obtain rfl := Nat.le_zero.mp hk
    exact ⟨m, rfl⟩
  | succ n ih =>
    obtain ⟨m₁, hstep, hrest⟩ := after_succ_eq_some h
    cases k with
    | zero => exact ⟨m, rfl⟩
    | succ k =>
      rw [after_succ hstep]
      exact ih hrest (Nat.le_of_succ_le_succ hk)

/-- A run is not over exactly while it can make its steps. -/
theorem run_eq_none_iff {m : Machine} (fuel : Nat) :
    run code cfg fuel m = none ↔ (m.after code cfg fuel).isSome := by
  induction fuel generalizing m with
  | zero => simp [run, after]
  | succ fuel ih =>
    simp only [run, after]
    cases hstep : m.step code cfg with
    | error e =>
      simp only [Option.isSome_none, Bool.false_eq_true, iff_false]
      split <;> simp
    | ok m' =>
      rw [if_pos (lt_size_of_step hstep)]
      exact ih

/-- A state that a run ends in comes after some number of steps. -/
theorem exists_after_of_run {m m' : Machine} {fuel : Nat}
    (h : run code cfg fuel m = some (.ok m')) : ∃ n, m.after code cfg n = some m' := by
  induction fuel generalizing m with
  | zero => simp [run] at h
  | succ fuel ih =>
    rw [run] at h
    split at h
    · split at h
      · simp at h
      · rename_i hstep
        obtain ⟨n, hn⟩ := ih h
        exact ⟨n + 1, by rw [after_succ hstep, hn]⟩
    · exact ⟨0, congrArg some (Except.ok.inj (Option.some.inj h))⟩

/-- A run that is over stays so with more steps left to make. -/
theorem run_of_le {m : Machine} {fuel fuel' : Nat} {r : Except GenerationError Machine}
    (h : run code cfg fuel m = some r) (hle : fuel ≤ fuel') : run code cfg fuel' m = some r := by
  induction fuel generalizing m fuel' with
  | zero => simp [run] at h
  | succ fuel ih =>
    obtain ⟨fuel', rfl⟩ := Nat.exists_eq_add_of_le' (Nat.le_trans (Nat.le_add_left 1 fuel) hle)
    simp only [run] at h ⊢
    by_cases hlt : m.ip < code.words.size
    · rw [if_pos hlt] at h ⊢
      cases hstep : m.step code cfg with
      | error e => simpa only [hstep] using h
      | ok m' =>
        simp only [hstep] at h ⊢
        exact ih h (Nat.le_of_succ_le_succ hle)
    · rwa [if_neg hlt] at h ⊢

/-! ## What a state leads to -/

/-- The state comes to the given state, or ends with the given error. -/
inductive Leads (code : Code) (cfg : Config) : Machine → Except GenerationError Machine → Prop where
  | here (m : Machine) : Leads code cfg m (.ok m)
  | step {m m' : Machine} {r : Except GenerationError Machine} :
    m.step code cfg = .ok m' → Leads code cfg m' r → Leads code cfg m r
  | fail {m : Machine} {e : GenerationError} :
    m.ip < code.words.size → m.step code cfg = .error e → Leads code cfg m (.error e)

theorem Leads.trans {m m' : Machine} {r : Except GenerationError Machine}
    (h : Leads code cfg m (.ok m')) (h' : Leads code cfg m' r) : Leads code cfg m r := by
  generalize hs : (Except.ok m' : Except GenerationError Machine) = s at h
  induction h with
  | here m =>
    obtain rfl := Except.ok.inj hs
    exact h'
  | step hstep _ ih => exact .step hstep (ih hs)
  | fail => simp at hs

/-- A state that leads to an error, or to a state beyond the code, ends its run so. -/
theorem Leads.run {m : Machine} {r : Except GenerationError Machine} (h : Leads code cfg m r)
    (hr : ∀ m', r = .ok m' → code.words.size ≤ m'.ip) :
    ∃ steps, ∀ fuel ≥ steps, Machine.run code cfg fuel m = some r := by
  induction h with
  | here m =>
    refine ⟨1, fun fuel hfuel => ?_⟩
    obtain ⟨fuel, rfl⟩ := Nat.exists_eq_add_of_le' hfuel
    have hend := hr m rfl
    rw [Machine.run, if_neg (by omega)]
  | step hstep _ ih =>
    obtain ⟨steps, hsteps⟩ := ih hr
    refine ⟨steps + 1, fun fuel hfuel => ?_⟩
    obtain ⟨fuel, rfl⟩ := Nat.exists_eq_add_of_le' (Nat.le_trans (Nat.le_add_left 1 steps) hfuel)
    rw [Machine.run, if_pos (lt_size_of_step hstep)]
    simp only [hstep]
    exact hsteps fuel (by omega)
  | fail hlt hstep =>
    refine ⟨1, fun fuel hfuel => ?_⟩
    obtain ⟨fuel, rfl⟩ := Nat.exists_eq_add_of_le' hfuel
    rw [Machine.run, if_pos hlt]
    simp only [hstep]

end PatternSampler.Machine

namespace PatternSampler

/-- A generation is a run from the start, of which the text is kept. -/
theorem Program.generate_eq_map_run (p : Program) (cfg : Config) (fuel : Nat) :
    p.generate cfg fuel =
      (Machine.run p.code cfg fuel (.start cfg)).map (Except.map fun m => m.marks.finish) := by
  unfold generate
  cases Machine.run p.code cfg fuel (.start cfg) with
  | none => rfl
  | some r => cases r <;> rfl

/-- A generation that is over stays so with more steps left to make. -/
theorem Program.generate_of_le {p : Program} {cfg : Config} {fuel fuel' : Nat}
    {r : Except GenerationError String} (h : p.generate cfg fuel = some r) (hle : fuel ≤ fuel') :
    p.generate cfg fuel' = some r := by
  rw [generate_eq_map_run] at h ⊢
  obtain ⟨s, hrun, rfl⟩ := Option.map_eq_some_iff.mp h
  rw [Machine.run_of_le hrun hle, Option.map_some]

end PatternSampler
