import Mathlib.Data.FinEnum
import Mathlib.Order.Filter.AtTopBot.Basic
import Mathlib.Order.Filter.Finite
import PatternSampler.CommandLine.Session
import PatternSampler.Proofs.Series
import PatternSampler.Proofs.Simulation
import PatternSampler.Proofs.Verdict
/-!
# Sessions that end

A session has an outcome as soon as the steps granted are enough for each of its runs, and more
steps do not change it (`session_persistent`).  The program of a pattern ends unless it is too
long to be addressed, so the runs of a sampler come to an attempt under every seed, and whatever
number of items is asked for comes to an outcome (`exists_endsIn_runSampler`, `endsIn_produce`).
-/
set_option autoImplicit false

namespace PatternSampler

/-! ## Values that take steps -/

section Values

variable {α β : Type} {f : Nat → Option α} {a : α}

/-- What there is, more steps do not change. -/
def Persistent (f : Nat → Option α) : Prop := ∀ ⦃m n a⦄, m ≤ n → f m = some a → f n = some a

/-- From some number of steps on there is this value. -/
def EndsIn (f : Nat → Option α) (a : α) : Prop := ∀ᶠ fuel in Filter.atTop, f fuel = some a

theorem Persistent.endsIn {fuel : Nat} (h : Persistent f) (ha : f fuel = some a) : EndsIn f a :=
  Filter.eventually_atTop.mpr ⟨fuel, fun _ hle => h hle ha⟩

theorem persistent_const (o : Option α) : Persistent fun _ => o := fun _ _ _ _ ha => ha

theorem Persistent.map (h : Persistent f) (g : α → β) : Persistent fun fuel => (f fuel).map g := by
  intro m n b hle hb
  obtain ⟨a, ha, rfl⟩ := Option.map_eq_some_iff.mp hb
  exact congrArg (Option.map g) (h hle ha)

theorem endsIn_const (a : α) : EndsIn (fun _ => some a) a :=
  Filter.Eventually.of_forall fun _ => rfl

theorem EndsIn.map (h : EndsIn f a) (g : α → β) : EndsIn (fun fuel => (f fuel).map g) (g a) :=
  Filter.Eventually.mono h fun _ ha => congrArg (Option.map g) ha

/-- There is at most one value in the end. -/
theorem EndsIn.unique {a' : α} (h : EndsIn f a) (h' : EndsIn f a') : a = a' := by
  obtain ⟨fuel, ha, ha'⟩ := (Filter.Eventually.and h h').exists
  exact Option.some.inj (ha.symm.trans ha')

theorem mapM_eq_some_iff {g : β → Option α} {bs : List β} {as : List α} :
    bs.mapM g = some as ↔ bs.map g = as.map some := by
  induction bs generalizing as with
  | nil => cases as <;> simp
  | cons b bs ih =>
    rw [List.mapM_cons, List.map_cons]
    cases hb : g b with
    | none => cases as <;> simp
    | some a =>
      cases hbs : bs.mapM g with
      | none =>
        have hnone : ∀ as', bs.map g ≠ List.map some as' := fun as' h => by simp [ih.mpr h] at hbs
        cases as <;> simp [hnone]
      | some as' =>
        have hsome : bs.map g = as'.map some := ih.mp hbs
        cases as with
        | nil => simp
        | cons a' as => simp [hsome, (List.map_injective_iff.mpr (Option.some_injective α)).eq_iff]

theorem mapM_rows_eq_some_iff {rows : List (List (Option α))} {values : List (List α)} :
    rows.mapM (List.mapM id) = some values ↔ rows = values.map (List.map some) := by
  rw [mapM_eq_some_iff]
  induction rows generalizing values with
  | nil => cases values <;> simp
  | cons row rows ih => cases values <;> simp [mapM_eq_some_iff, ih]

variable {g : β → Nat → Option α} {bs : List β}

theorem Persistent.mapM (h : ∀ b, Persistent (g b)) :
    Persistent fun fuel => bs.mapM fun b => g b fuel := by
  intro m n as hle has
  rw [mapM_eq_some_iff] at has ⊢
  induction bs generalizing as with
  | nil => exact has
  | cons b bs ih =>
    cases as with
    | nil => simp at has
    | cons a as =>
      rw [List.map_cons, List.map_cons, List.cons.injEq] at has ⊢
      exact ⟨h b hle has.1, ih has.2⟩

theorem EndsIn.mapM {value : β → α} (h : ∀ b ∈ bs, EndsIn (g b) (value b)) :
    EndsIn (fun fuel => bs.mapM fun b => g b fuel) (bs.map value) := by
  have hall : ∀ᶠ fuel in Filter.atTop, ∀ b ∈ bs, g b fuel = some (value b) :=
    (Filter.eventually_all_finite (List.finite_toSet bs)).mpr h
  refine Filter.Eventually.mono hall fun fuel hvalues => mapM_eq_some_iff.mpr ?_
  rw [List.map_map]
  exact List.map_congr_left hvalues

end Values

/-! ## Programs -/

/-- A run that is over shows no more with more steps left to make. -/
theorem Machine.trace_of_run {code : Code} {cfg : Config} {m : Machine} {fuel fuel' : Nat}
    {r : Except GenerationError Machine} (h : run code cfg fuel m = some r) (hle : fuel ≤ fuel') :
    trace code cfg fuel' m = trace code cfg fuel m := by
  induction fuel generalizing m fuel' with
  | zero => simp [run] at h
  | succ fuel ih =>
    obtain ⟨fuel', rfl⟩ := Nat.exists_eq_add_of_le' (Nat.le_trans (Nat.le_add_left 1 fuel) hle)
    simp only [run, step] at h
    simp only [trace]
    by_cases hlt : m.ip < code.words.size
    · rw [if_pos hlt] at h ⊢
      rw [if_pos hlt]
      cases hat : code.instructionAt m.ip with
      | error e => rfl
      | ok i =>
        simp only [hat] at h ⊢
        cases hexec : m.exec code cfg i with
        | error e => rfl
        | ok m' =>
          simp only [hexec] at h ⊢
          rw [ih h (Nat.le_of_succ_le_succ hle)]
    · rw [if_neg hlt, if_neg hlt]

namespace Program

variable {p : Program} {cfg : Config}

theorem trace_of_generate {fuel fuel' : Nat} {r : Except GenerationError String}
    (h : p.generate cfg fuel = some r) (hle : fuel ≤ fuel') :
    p.trace cfg fuel' = p.trace cfg fuel := by
  rw [generate_eq_map_run] at h
  obtain ⟨s, hrun, -⟩ := Option.map_eq_some_iff.mp h
  rw [trace, trace, Machine.trace_of_run hrun hle]

theorem generate_persistent (p : Program) (cfg : Config) : Persistent (p.generate cfg) :=
  fun _ _ _ hle h => generate_of_le h hle

/-- The program of a pattern ends under any settings, unless it is too long to be addressed. -/
theorem exists_endsIn_generate {options : PatternOptions} {source : List Char}
    (h : ofSource options source = .ok p) (hfits : p.code.Fits) (cfg : Config) :
    ∃ r, EndsIn (p.generate cfg) r := by
  unfold ofSource at h
  split at h
  · simp at h
  · rename_i pattern hparse
    split at h
    · simp at h
    · rename_i q hq
      obtain rfl := Except.ok.inj h
      have hcode : q.code = Layout.layoutRoot options pattern.root := ofCode_eq_ok_iff.mp hq
      rw [hcode] at hfits
      exact ⟨_, Filter.eventually_atTop.mpr (generate_of_layoutRoot hcode hfits)⟩

end Program

/-! ## Runs -/

namespace CommandLine

section Runs

variable {b : Backend} {cfg : Config}

theorem runProgram_persistent (p : Program) (cfg : Config) :
    Persistent fun fuel => runProgram p fuel cfg := by
  intro m n a hle h
  simp only [runProgram] at h ⊢
  obtain ⟨r, hr, rfl⟩ := Option.map_eq_some_iff.mp h
  rw [p.generate_persistent cfg hle hr, Option.map_some, Program.trace_of_generate hr hle]

theorem runSampler_eq (s : Sampler b) (fuel : Nat) (cfg : Config) :
    runSampler s fuel cfg = (s.program.generate cfg fuel).map fun
      | .ok text => ⟨s.program.trace cfg fuel, s.check text⟩
      | .error e => ⟨s.program.trace cfg fuel, .error (.generation e)⟩ := by
  rw [runSampler, Sampler.generate]
  rcases s.program.generate cfg fuel with _ | _ | _ <;> rfl

theorem runSampler_persistent (s : Sampler b) (cfg : Config) :
    Persistent fun fuel => runSampler s fuel cfg := by
  intro m n a hle h
  simp only [runSampler_eq] at h ⊢
  obtain ⟨r, hr, rfl⟩ := Option.map_eq_some_iff.mp h
  rw [s.program.generate_persistent cfg hle hr, Option.map_some, Program.trace_of_generate hr hle]

/-- A run of the sampler of a pattern comes to an attempt. -/
theorem exists_endsIn_runSampler {options : PatternOptions} {source : String} {s : Sampler b}
    (h : Sampler.ofSource b options source = .ok s) (hfits : s.program.code.Fits) (cfg : Config) :
    ∃ a, EndsIn (fun fuel => runSampler s fuel cfg) a := by
  have hprogram : Program.ofSource options source.toList = .ok s.program := by
    unfold Sampler.ofSource at h
    split at h
    · simp at h
    · split at h
      · simp at h
      · rename_i hprogram
        rw [hprogram, ← Except.ok.inj h]
  obtain ⟨r, hr⟩ := Program.exists_endsIn_generate hprogram hfits cfg
  obtain ⟨fuel, hfuel⟩ := Filter.Eventually.exists hr
  obtain ⟨a, ha⟩ : ∃ a, runSampler s fuel cfg = some a := by
    rw [runSampler_eq, hfuel]
    exact ⟨_, rfl⟩
  exact ⟨a, (runSampler_persistent s cfg).endsIn ha⟩

end Runs

/-! ## Items -/

section Items

variable {w : World} {args : Arguments} {cfg : Config} {source : String}

/-- There is an outcome if each item has its attempts. -/
theorem produce_eq_some_iff {run : Config → Option Attempt} {o : Outcome} :
    produce w args cfg source run = some o ↔ ∃ results : List (List Attempt),
      series run settled (max 1 (args.attempts.getD 1).toNat) (args.count.getD 1).toNat cfg =
        results.map (List.map some) ∧ o = .all (results.map (item w args source)) := by
  simp only [produce, Option.map_eq_some_iff, mapM_rows_eq_some_iff, eq_comm (a := o)]

theorem produce_persistent {run : Nat → Config → Option Attempt}
    (h : ∀ c, Persistent fun fuel => run fuel c) :
    Persistent fun fuel => produce w args cfg source (run fuel) := by
  intro m n o hle ho
  obtain ⟨results, hresults, rfl⟩ := produce_eq_some_iff.mp ho
  exact produce_eq_some_iff.mpr ⟨results, series_carried (fun c _ hc => h c hle hc) hresults, rfl⟩

/-- Runs that all come to an attempt make for an outcome.  There are only so many seeds, so some
number of steps is enough for all of them. -/
theorem endsIn_produce {run : Nat → Config → Option Attempt} {attempt : Config → Attempt}
    (h : ∀ c, EndsIn (fun fuel => run fuel c) (attempt c)) :
    EndsIn (fun fuel => produce w args cfg source (run fuel))
      (.all ((series attempt Attempt.isGood (max 1 (args.attempts.getD 1).toNat)
        (args.count.getD 1).toNat cfg).map (item w args source))) := by
  have hall : ∀ᶠ fuel in Filter.atTop, ∀ seed : UInt64,
      run fuel (cfg.withSeed seed) = some (attempt (cfg.withSeed seed)) :=
    Filter.eventually_all.mpr fun seed => h (cfg.withSeed seed)
  refine Filter.Eventually.mono hall fun fuel hruns => produce_eq_some_iff.mpr ⟨_, ?_, rfl⟩
  rw [series_congr (fun c => some (attempt c)) fun n => hruns _]
  exact series_map some attempt settled _ _ cfg

end Items

/-! ## Sessions -/

section Sessions

variable {w : World} {args : Arguments} {cfg : Config}

theorem patternSession_persistent (source : String) :
    Persistent (patternSession w args cfg source) := by
  unfold patternSession
  split
  · exact persistent_const _
  · exact (produce_persistent fun c => runSampler_persistent _ c).map _

theorem programSession_persistent (name : String) :
    Persistent (programSession w args cfg name) := by
  unfold programSession
  split
  · exact persistent_const _
  · split
    · exact persistent_const _
    · exact (produce_persistent fun c => runProgram_persistent _ c).map _

theorem linesSession_persistent (lines : List String) :
    Persistent (linesSession w args cfg lines) :=
  (Persistent.mapM fun line => patternSession_persistent line).map Outcome.all

theorem patternsSession_persistent : Persistent (patternsSession w args cfg) := by
  unfold patternsSession
  split
  · split
    · exact persistent_const _
    · exact linesSession_persistent _
  · exact patternSession_persistent _
  · exact persistent_const _

/-- More steps do not change what a session comes to. -/
theorem session_persistent (w : World) (args : Arguments) : Persistent (session w args) := by
  unfold session
  split
  · exact persistent_const _
  · split
    · exact persistent_const _
    · split
      · exact persistent_const _
      · split
        · exact programSession_persistent _
        · exact patternsSession_persistent

end Sessions

end CommandLine

end PatternSampler
