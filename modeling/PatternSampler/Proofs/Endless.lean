import Mathlib.Data.Finite.Prod
import Mathlib.Data.Int.Interval
import Mathlib.Data.Set.Finite.Lattice
import Mathlib.Order.WellQuasiOrder
import PatternSampler.Proofs.Acceptance
import PatternSampler.Proofs.Draws
import PatternSampler.Proofs.Stepping
/-!
# Runs without end

A check of each jump on its own does not see how a loop branch and the loop counts set inside its
body work together, so there are programs that run for ever.  A run does exactly when it recurs:
when it comes back to an instruction with the innermost loop count it had there, no fewer groups
open, and none of the counts below used in between.
-/
set_option autoImplicit false

namespace PatternSampler

/-! ## Captured groups -/

theorem Captures.isSome_get?_iff (c : Captures) (g : Int32) :
    (c.get? g).isSome ↔ ∃ p ∈ c, p.1 = g := by
  simp [Captures.get?]

theorem Captures.isSome_get?_put (c : Captures) (group g : Int32) (text : String) :
    ((c.put group text).get? g).isSome ↔ group = g ∨ (c.get? g).isSome := by
  simp only [isSome_get?_iff, put, List.mem_cons, List.mem_filter, bne_iff_ne,
    exists_eq_or_imp]
  by_cases hg : group = g
  · simp [hg]
  · simp only [hg, false_or]
    constructor
    · rintro ⟨p, ⟨hp, -⟩, hpg⟩
      exact ⟨p, hp, hpg⟩
    · rintro ⟨p, hp, hpg⟩
      exact ⟨p, ⟨hp, fun heq => hg (heq.symm.trans hpg)⟩, hpg⟩

namespace Machine

variable {code : Code} {cfg : Config}

/-! ## States that go the same way -/

/-- The second state goes the way of the first as long as that does not use the counts `s` at the
bottom: it has the same counts above others, no fewer open groups, and no fewer captured ones. -/
structure Mirrors (s s' : List Int) (m m' : Machine) : Prop where
  ip : m'.ip = m.ip
  counts : ∃ t, m.counts = t ++ s ∧ m'.counts = t ++ s'
  depth : m.marks.outer.length ≤ m'.marks.outer.length
  captured : ∀ g, (m.marks.capture? g).isSome → (m'.marks.capture? g).isSome

namespace Mirrors

variable {s s' : List Int} {m m' m₁ : Machine}

theorem next (h : Mirrors s s' m m') (i : Instruction) : Mirrors s s' (m.next i) (m'.next i) := by
  refine ⟨?_, h.counts, h.depth, h.captured⟩
  simp only [Machine.next, h.ip]

theorem write (h : Mirrors s s' m m') (text text' : String) :
    Mirrors s s' (m.write text) (m'.write text') := ⟨h.ip, h.counts, h.depth, h.captured⟩

theorem drawn (h : Mirrors s s' m m') (r r' : Rng) :
    Mirrors s s' { m with rng := r } { m' with rng := r' } :=
  ⟨h.ip, h.counts, h.depth, h.captured⟩

theorem push (h : Mirrors s s' m m') :
    Mirrors s s' { m with marks := m.marks.push } { m' with marks := m'.marks.push } := by
  refine ⟨h.ip, h.counts, ?_, h.captured⟩
  simp only [Marks.push, List.length_cons]
  exact Nat.succ_le_succ h.depth

theorem pushCount (h : Mirrors s s' m m') (c : Int) :
    Mirrors s s' { m with counts := c :: m.counts } { m' with counts := c :: m'.counts } := by
  obtain ⟨t, ht, ht'⟩ := h.counts
  exact ⟨h.ip, ⟨c :: t, by rw [ht, List.cons_append], by rw [ht', List.cons_append]⟩, h.depth,
    h.captured⟩

theorem close (h : Mirrors s s' m m') {i : Instruction} {group : Option Int32}
    (hclose : m.close i group = .ok m₁) :
    ∃ m₁', m'.close i group = .ok m₁' ∧ Mirrors s s' m₁ m₁' := by
  have hdepth := h.depth
  cases houter : m.marks.outer with
  | nil => simp [Machine.close, Marks.pop?, houter] at hclose
  | cons parent outer =>
    cases houter' : m'.marks.outer with
    | nil => simp [houter, houter'] at hdepth
    | cons parent' outer' =>
      simp only [Machine.close, Marks.pop?, houter, houter', Except.ok.injEq] at hclose ⊢
      refine ⟨_, rfl, ?_⟩
      subst hclose
      refine ⟨h.ip, h.counts, by simpa [houter, houter'] using hdepth, fun g hg => ?_⟩
      cases group with
      | none => exact h.captured g hg
      | some group =>
        simp only [Marks.capture?, Captures.isSome_get?_put] at hg ⊢
        exact hg.imp id (h.captured g)

theorem draw (h : Mirrors s s' m m') {i : Instruction} {cls : CharClass}
    (hdraw : m.draw cfg i cls = .ok m₁) :
    ∃ m₁', m'.draw cfg i cls = .ok m₁' ∧ Mirrors s s' m₁ m₁' := by
  unfold Machine.draw at hdraw ⊢
  cases hcopies : i.copies cfg.repetitionCap with
  | zero =>
    simp only [hcopies, Except.ok.injEq] at hdraw ⊢
    exact ⟨m', rfl, hdraw ▸ h⟩
  | succ count =>
    cases hchoices : cls.choices? cfg.alphabet with
    | none => simp [hcopies, hchoices] at hdraw
    | some choices =>
      -- a class that offers characters does so whatever the random words are
      have hne := CharClass.choices?_ne_nil hchoices
      obtain ⟨text, r, hfill⟩ := Rng.exists_fill m.marks.current hne (count + 1) m.rng
      obtain ⟨text', r', hfill'⟩ := Rng.exists_fill m'.marks.current hne (count + 1) m'.rng
      simp only [hcopies, hchoices, hfill, hfill', Except.ok.injEq] at hdraw ⊢
      refine ⟨_, rfl, ?_⟩
      subst hdraw
      exact ⟨h.ip, h.counts, h.depth, h.captured⟩

/-- A loop branch uses the innermost count only. -/
theorem branch (h : Mirrors s s' m m') (hs : s = [] ∨ s.length < m.counts.length)
    {i : Instruction} (hbranch : m.branch cfg i = .ok m₁) :
    ∃ m₁', m'.branch cfg i = .ok m₁' ∧ Mirrors s s' m₁ m₁' := by
  obtain ⟨t, ht, ht'⟩ := h.counts
  cases t with
  | nil =>
    have hempty : m.counts = [] := by
      rcases hs with rfl | hlt
      · exact ht
      · rw [ht, List.nil_append] at hlt
        exact absurd hlt (Nat.lt_irrefl _)
    simp [Machine.branch, hempty] at hbranch
  | cons count t =>
    simp only [Machine.branch, ht, ht', List.cons_append] at hbranch ⊢
    by_cases hlimit : i.loopLimit cfg.repetitionCap ≤ count
    · rw [if_pos hlimit] at hbranch ⊢
      obtain rfl := Except.ok.inj hbranch
      refine ⟨_, rfl, ?_⟩
      have hpopped : Mirrors s s' { m with counts := t ++ s } { m' with counts := t ++ s' } :=
        ⟨h.ip, ⟨t, rfl, rfl⟩, h.depth, h.captured⟩
      exact hpopped.next i
    · rw [if_neg hlimit] at hbranch ⊢
      unfold Machine.jump at hbranch ⊢
      by_cases htarget : (i.operand 0).toInt < 0
      · simp [htarget] at hbranch
      · simp only [htarget, if_false, Except.ok.injEq] at hbranch ⊢
        refine ⟨_, rfl, ?_⟩
        subst hbranch
        exact ⟨rfl, ⟨(count + 1) :: t, rfl, rfl⟩, h.depth, h.captured⟩

theorem jump (h : Mirrors s s' m m') {i : Instruction} (hjump : m.jump i = .ok m₁) :
    ∃ m₁', m'.jump i = .ok m₁' ∧ Mirrors s s' m₁ m₁' := by
  unfold Machine.jump at hjump ⊢
  by_cases htarget : (i.operand 0).toInt < 0
  · simp [htarget] at hjump
  · simp only [htarget, if_false, Except.ok.injEq] at hjump ⊢
    refine ⟨_, rfl, ?_⟩
    subst hjump
    exact ⟨rfl, h.counts, h.depth, h.captured⟩

theorem andNext {i : Instruction} {r r' : Except GenerationError Machine}
    (hr : ∀ m₂, r = .ok m₂ → ∃ m₂', r' = .ok m₂' ∧ Mirrors s s' m₂ m₂')
    (h : Machine.andNext i r = .ok m₁) :
    ∃ m₁', Machine.andNext i r' = .ok m₁' ∧ Mirrors s s' m₁ m₁' := by
  cases r with
  | error e => simp [Machine.andNext] at h
  | ok m₂ =>
    obtain ⟨m₂', rfl, hm⟩ := hr m₂ rfl
    obtain rfl := Except.ok.inj h
    exact ⟨_, rfl, hm.next i⟩

theorem chars (h : Mirrors s s' m m') {i : Instruction} {matter : Matter} {r : Repetition}
    (hop : i.opcode = .chars matter r) (hexec : m.exec code cfg i = .ok m₁) :
    ∃ m₁', m'.exec code cfg i = .ok m₁' ∧ Mirrors s s' m₁ m₁' := by
  cases r with
  | lazyLoop =>
    simp only [Machine.exec, hop, Except.ok.injEq] at hexec ⊢
    exact ⟨_, rfl, hexec ▸ h.next i⟩
  | _ =>
    cases matter with
    | one =>
      cases hchar : i.char? with
      | none => simp [Machine.exec, hop, hchar] at hexec
      | some c =>
        simp only [Machine.exec, hop, hchar, Except.ok.injEq] at hexec ⊢
        exact ⟨_, rfl, hexec ▸ (h.write _ _).next i⟩
    | notOne =>
      cases hchar : i.char? with
      | none => simp [Machine.exec, hop, hchar] at hexec
      | some c =>
        simp only [Machine.exec, hop, hchar] at hexec ⊢
        exact andNext (fun m₂ hm₂ => h.draw hm₂) hexec
    | set =>
      cases hclass : code.class? (i.operand 0) with
      | none => simp [Machine.exec, hop, hclass] at hexec
      | some cls =>
        simp only [Machine.exec, hop, hclass] at hexec ⊢
        exact andNext (fun m₂ hm₂ => h.draw hm₂) hexec

/-- What executes at a state executes at one that mirrors it. -/
theorem exec (h : Mirrors s s' m m') (hs : s = [] ∨ s.length < m.counts.length)
    {i : Instruction} (hexec : m.exec code cfg i = .ok m₁) :
    ∃ m₁', m'.exec code cfg i = .ok m₁' ∧ Mirrors s s' m₁ m₁' := by
  cases hop : i.opcode with
  | chars matter r => exact h.chars hop hexec
  | multi =>
    simp only [Machine.exec, hop] at hexec ⊢
    cases hstring : code.string? (i.operand 0) with
    | none => simp [hstring] at hexec
    | some text =>
      simp only [hstring, Except.ok.injEq] at hexec ⊢
      exact ⟨_, rfl, hexec ▸ (h.write _ _).next i⟩
  | ref =>
    simp only [Machine.exec, hop] at hexec ⊢
    cases hcapture : m.marks.capture? (i.operand 0) with
    | none => simp [hcapture] at hexec
    | some text =>
      obtain ⟨text', hcapture'⟩ := Option.isSome_iff_exists.mp
        (h.captured (i.operand 0) (by rw [hcapture]; rfl))
      simp only [hcapture, hcapture', Except.ok.injEq] at hexec ⊢
      exact ⟨_, rfl, hexec ▸ (h.write text text').next i⟩
  | boundary | ecmaBoundary =>
    simp only [Machine.exec, hop, Except.ok.injEq] at hexec ⊢
    exact ⟨_, rfl, hexec ▸ (h.write _ _).next i⟩
  | nonboundary | nonEcmaBoundary =>
    simp only [Machine.exec, hop] at hexec ⊢
    by_cases halphabet : cfg.alphabet = []
    · simp [halphabet, Rng.pick] at hexec
    · obtain ⟨d, r, hpick⟩ := Rng.exists_pick_of_ne_nil halphabet m.rng
      obtain ⟨d', r', hpick'⟩ := Rng.exists_pick_of_ne_nil halphabet m'.rng
      simp only [hpick, hpick', Except.ok.injEq] at hexec ⊢
      exact ⟨_, rfl, hexec ▸ ((h.drawn r r').write _ _).next i⟩
  | setmark | nullmark =>
    simp only [Machine.exec, hop, Except.ok.injEq] at hexec ⊢
    exact ⟨_, rfl, hexec ▸ h.push.next i⟩
  | capturemark | getmark | branchmark | lazybranchmark =>
    simp only [Machine.exec, hop] at hexec ⊢
    exact andNext (fun m₂ hm₂ => h.close hm₂) hexec
  | nullcount | setcount =>
    simp only [Machine.exec, hop, Except.ok.injEq] at hexec ⊢
    exact ⟨_, rfl, hexec ▸ (h.pushCount _).next i⟩
  | branchcount | lazybranchcount =>
    simp only [Machine.exec, hop] at hexec ⊢
    exact h.branch hs hexec
  | goto =>
    simp only [Machine.exec, hop] at hexec ⊢
    exact h.jump hexec
  | setjump =>
    simp only [Machine.exec, hop] at hexec ⊢
    cases hlook : code.lookaround i.offset with
    | error e => simp [hlook] at hexec
    | ok extent =>
      simp only [hlook] at hexec ⊢
      cases hneg : extent.negative with
      | true =>
        simp only [hneg, if_true, Except.ok.injEq] at hexec ⊢
        refine ⟨_, rfl, ?_⟩
        subst hexec
        exact ⟨rfl, h.counts, h.depth, h.captured⟩
      | false =>
        simp only [hneg, Bool.false_eq_true, if_false, Except.ok.injEq] at hexec ⊢
        exact ⟨_, rfl, hexec ▸ h.next i⟩
  | _ =>
    simp only [Machine.exec, hop, Except.ok.injEq] at hexec ⊢
    exact ⟨_, rfl, hexec ▸ h.next i⟩

theorem step (h : Mirrors s s' m m') (hs : s = [] ∨ s.length < m.counts.length)
    (hstep : m.step code cfg = .ok m₁) :
    ∃ m₁', m'.step code cfg = .ok m₁' ∧ Mirrors s s' m₁ m₁' := by
  unfold Machine.step at hstep ⊢
  rw [h.ip]
  cases hat : code.instructionAt m.ip with
  | error e => simp [hat] at hstep
  | ok i =>
    simp only [hat] at hstep ⊢
    exact h.exec hs hstep

/-- A run that leaves the counts `s` alone is made from a state that mirrors its start, too. -/
theorem after (h : Mirrors s s' m m') {n : Nat}
    (hs : ∀ k < n, ∀ mk, m.after code cfg k = some mk → s = [] ∨ s.length < mk.counts.length)
    (hn : m.after code cfg n = some m₁) :
    ∃ m₁', m'.after code cfg n = some m₁' ∧ Mirrors s s' m₁ m₁' := by
  induction n generalizing m m' with
  | zero =>
    obtain rfl := Option.some.inj hn
    exact ⟨m', rfl, h⟩
  | succ n ih =>
    obtain ⟨m₂, hstep, hrest⟩ := after_succ_eq_some hn
    obtain ⟨m₂', hstep', h₂⟩ := h.step (hs 0 (Nat.succ_pos n) m rfl) hstep
    rw [after_succ hstep']
    refine ih h₂ (fun k hk mk hmk => hs (k + 1) (Nat.succ_lt_succ hk) mk ?_) hrest
    rw [after_succ hstep, hmk]

end Mirrors

/-! ## What a step keeps -/

/-- A loop count that an operand can set or a loop branch can count up to. -/
def IsCount (c : Int) : Prop := -2 ^ 31 ≤ c ∧ c < 2 ^ 31

/-- What holds of every step: groups that have captured something stay captured, and loop counts
that are new are within their range. -/
structure Advances (m m₁ : Machine) : Prop where
  captured : ∀ g, (m.marks.capture? g).isSome → (m₁.marks.capture? g).isSome
  counts : ∀ c ∈ m₁.counts, c ∈ m.counts ∨ IsCount c

namespace Advances

variable {m m₁ : Machine} {i : Instruction}

theorem of_eq (hcaptures : m₁.marks.captures = m.marks.captures) (hcounts : m₁.counts = m.counts) :
    Advances m m₁ := by
  refine ⟨fun g hg => ?_, fun c hc => .inl (hcounts ▸ hc)⟩
  rwa [Marks.capture?, hcaptures]

theorem andNext {r : Except GenerationError Machine} (hr : ∀ m₂, r = .ok m₂ → Advances m m₂)
    (h : Machine.andNext i r = .ok m₁) : Advances m m₁ := by
  cases r with
  | error e => simp [Machine.andNext] at h
  | ok m₂ =>
    obtain rfl := Except.ok.inj h
    exact ⟨(hr m₂ rfl).captured, (hr m₂ rfl).counts⟩

theorem draw {cls : CharClass} (h : m.draw cfg i cls = .ok m₁) : Advances m m₁ := by
  unfold Machine.draw at h
  split at h
  · obtain rfl := Except.ok.inj h
    exact of_eq rfl rfl
  · split at h
    · simp at h
    · split at h
      · simp at h
      · obtain rfl := Except.ok.inj h
        exact of_eq rfl rfl

theorem close {group : Option Int32} (h : m.close i group = .ok m₁) : Advances m m₁ := by
  unfold Machine.close Marks.pop? at h
  cases houter : m.marks.outer with
  | nil => simp [houter] at h
  | cons parent outer =>
    simp only [houter, Except.ok.injEq] at h
    subst h
    cases group with
    | none => exact of_eq rfl rfl
    | some group =>
      refine ⟨fun g hg => ?_, fun c hc => .inl hc⟩
      rw [Marks.capture?, Captures.isSome_get?_put]
      exact .inr hg

theorem jump (h : m.jump i = .ok m₁) : Advances m m₁ := by
  unfold Machine.jump at h
  simp only at h
  split at h
  · simp at h
  · obtain rfl := Except.ok.inj h
    exact of_eq rfl rfl

theorem loopLimit_le (i : Instruction) (cap : UInt64) : i.loopLimit cap < 2 ^ 31 := by
  unfold Instruction.loopLimit
  have hlt := (i.operand 1).toInt_lt
  split
  · omega
  · split <;> omega

theorem branch (h : m.branch cfg i = .ok m₁) (hm : ∀ c ∈ m.counts, IsCount c) : Advances m m₁ := by
  unfold Machine.branch at h
  cases hcounts : m.counts with
  | nil => simp [hcounts] at h
  | cons count outer =>
    simp only [hcounts] at h
    split at h
    · obtain rfl := Except.ok.inj h
      refine ⟨fun g hg => hg, fun c hc => .inl ?_⟩
      rw [hcounts]
      exact List.mem_cons_of_mem count hc
    · rename_i hlt
      have hlimit := loopLimit_le i cfg.repetitionCap
      have hcount := (hm count (by rw [hcounts]; exact List.mem_cons_self)).1
      have hjump := jump h
      refine ⟨hjump.captured, fun c hc => ?_⟩
      rcases hjump.counts c hc with hc | hc
      · rcases List.mem_cons.mp hc with rfl | hc
        · exact .inr ⟨by omega, by omega⟩
        · exact .inl (by rw [hcounts]; exact List.mem_cons_of_mem count hc)
      · exact .inr hc

theorem chars {matter : Matter} {r : Repetition} (hop : i.opcode = .chars matter r)
    (h : m.exec code cfg i = .ok m₁) : Advances m m₁ := by
  cases r with
  | lazyLoop =>
    simp only [Machine.exec, hop, Except.ok.injEq] at h
    exact h ▸ of_eq rfl rfl
  | _ =>
    cases matter with
    | one =>
      simp only [Machine.exec, hop] at h
      split at h
      · simp at h
      · exact Except.ok.inj h ▸ of_eq rfl rfl
    | notOne =>
      simp only [Machine.exec, hop] at h
      split at h
      · simp at h
      · exact andNext (fun m₂ hm₂ => draw hm₂) h
    | set =>
      simp only [Machine.exec, hop] at h
      split at h
      · simp at h
      · exact andNext (fun m₂ hm₂ => draw hm₂) h

theorem exec (h : m.exec code cfg i = .ok m₁) (hm : ∀ c ∈ m.counts, IsCount c) :
    Advances m m₁ := by
  cases hop : i.opcode with
  | chars matter r => exact chars hop h
  | multi | ref | nonboundary | nonEcmaBoundary =>
    simp only [Machine.exec, hop] at h
    split at h
    · simp at h
    · exact Except.ok.inj h ▸ of_eq rfl rfl
  | capturemark | getmark | branchmark | lazybranchmark =>
    simp only [Machine.exec, hop] at h
    exact andNext (fun m₂ hm₂ => close hm₂) h
  | nullcount | setcount =>
    simp only [Machine.exec, hop, Except.ok.injEq] at h
    subst h
    refine ⟨fun g hg => hg, fun c hc => ?_⟩
    rcases List.mem_cons.mp hc with rfl | hc
    · exact .inr ⟨(i.operand 0).le_toInt, (i.operand 0).toInt_lt⟩
    · exact .inl hc
  | branchcount | lazybranchcount =>
    simp only [Machine.exec, hop] at h
    exact branch h hm
  | goto =>
    simp only [Machine.exec, hop] at h
    exact jump h
  | setjump =>
    simp only [Machine.exec, hop] at h
    split at h
    · simp at h
    · split at h <;> exact Except.ok.inj h ▸ of_eq rfl rfl
  | _ =>
    simp only [Machine.exec, hop, Except.ok.injEq] at h
    exact h ▸ of_eq rfl rfl

theorem step (h : m.step code cfg = .ok m₁) (hm : ∀ c ∈ m.counts, IsCount c) :
    Advances m m₁ := by
  unfold Machine.step at h
  split at h
  · simp at h
  · exact exec h hm

/-- What every step keeps, a run keeps. -/
theorem after {n : Nat} (h : m.after code cfg n = some m₁) (hm : ∀ c ∈ m.counts, IsCount c) :
    Advances m m₁ ∧ ∀ c ∈ m₁.counts, IsCount c := by
  induction n generalizing m with
  | zero =>
    obtain rfl := Option.some.inj h
    exact ⟨of_eq rfl rfl, hm⟩
  | succ n ih =>
    obtain ⟨m₂, hstep, hrest⟩ := after_succ_eq_some h
    have hfirst := step hstep hm
    obtain ⟨hothers, hcounts⟩ := ih hrest fun c hc => (hfirst.counts c hc).elim (hm c) id
    refine ⟨⟨fun g hg => hothers.captured g (hfirst.captured g hg), fun c hc => ?_⟩, hcounts⟩
    exact .inr (hcounts c hc)

end Advances

/-! ## Runs that recur -/

/-- In `n` steps the run comes from `m` to `m'`, where it stands as it did: at the same instruction,
with the same innermost loop count and no fewer open groups.  On the way it has only used that count
and those set since. -/
structure Recurs (code : Code) (cfg : Config) (n : Nat) (m m' : Machine) : Prop where
  reach : m.after code cfg n = some m'
  ip : m'.ip = m.ip
  head : m'.counts.head? = m.counts.head?
  depth : m.marks.outer.length ≤ m'.marks.outer.length
  kept : ∀ k ≤ n, ∀ mk, m.after code cfg k = some mk → m.counts.length ≤ mk.counts.length

namespace Recurs

variable {m m' : Machine} {n : Nat}

/-- Where a run has recurred, it does so again after as many steps. -/
theorem again (h : Recurs code cfg n m m') (hm : ∀ c ∈ m.counts, IsCount c) :
    ∃ m'', Recurs code cfg n m' m'' := by
  have hcaptured := (Advances.after h.reach hm).1.captured
  -- the counts below the innermost one do not matter, and may differ
  obtain ⟨t, s, s', ht, ht', hs⟩ : ∃ t s s', m.counts = t ++ s ∧ m'.counts = t ++ s' ∧
      (t = [] ∧ s = [] ∧ s' = [] ∨ t.length = 1) := by
    have hhead := h.head
    cases hcounts : m.counts with
    | nil =>
      rw [hcounts] at hhead
      exact ⟨[], [], [], rfl, List.head?_eq_none_iff.mp hhead, .inl ⟨rfl, rfl, rfl⟩⟩
    | cons c s =>
      rw [hcounts, List.head?_cons] at hhead
      obtain ⟨s', hs'⟩ := List.head?_eq_some_iff.mp hhead
      exact ⟨[c], s, s', rfl, hs', .inr rfl⟩
  have hmirrors : Mirrors s s' m m' := ⟨h.ip, ⟨t, ht, ht'⟩, h.depth, hcaptured⟩
  have habove : t.length = 1 → ∀ k ≤ n, ∀ mk, m.after code cfg k = some mk →
      s.length < mk.counts.length := by
    intro hone k hk mk hmk
    have hkept := h.kept k hk mk hmk
    rw [ht, List.length_append] at hkept
    omega
  have hleave : ∀ k < n, ∀ mk, m.after code cfg k = some mk →
      s = [] ∨ s.length < mk.counts.length := fun k hk mk hmk =>
    hs.imp (fun hnil => hnil.2.1) fun hone => habove hone k (Nat.le_of_lt hk) mk hmk
  obtain ⟨m'', hreach, hmirrors'⟩ := hmirrors.after hleave h.reach
  obtain ⟨u, hu, hu'⟩ := hmirrors'.counts
  refine ⟨m'', hreach, hmirrors'.ip, ?_, hmirrors'.depth, fun k hk mk' hmk' => ?_⟩
  · rcases hs with ⟨-, rfl, rfl⟩ | hone
    · rw [hu, hu']
    · have hlt := habove hone n (Nat.le_refl n) m' h.reach
      rw [hu, List.length_append] at hlt
      cases u with
      | nil => simp at hlt
      | cons c u => rw [hu, hu', List.cons_append, List.cons_append, List.head?_cons, List.head?_cons]
  · obtain ⟨mk, hmk⟩ := exists_after_of_le h.reach hk
    obtain ⟨mk'', hmk'', hmirrors''⟩ :=
      hmirrors.after (fun j hj => hleave j (Nat.lt_of_lt_of_le hj hk)) hmk
    obtain rfl : mk'' = mk' := Option.some.inj (hmk''.symm.trans hmk')
    obtain ⟨v, hv, hv'⟩ := hmirrors''.counts
    rcases hs with ⟨rfl, -, rfl⟩ | hone
    · rw [ht']
      exact Nat.zero_le _
    · have hlt := habove hone k hk mk hmk
      rw [hv, List.length_append] at hlt
      rw [ht', hv', List.length_append, List.length_append]
      omega

/-- A run that has recurred never ends. -/
theorem endless (h : Recurs code cfg n m m') (hn : 0 < n) (hm : ∀ c ∈ m.counts, IsCount c)
    (k : Nat) : (m.after code cfg k).isSome := by
  -- the run recurs as often as one likes, so it makes as many steps
  have hmany : ∀ j, ∃ mj mj', m.after code cfg (n * j) = some mj ∧
      Recurs code cfg n mj mj' := by
    intro j
    induction j with
    | zero => exact ⟨m, m', rfl, h⟩
    | succ j ih =>
      obtain ⟨mj, mj', hmj, hrec⟩ := ih
      have hcounts := (Advances.after hmj hm).2
      obtain ⟨mj'', hrec'⟩ := hrec.again hcounts
      refine ⟨mj', mj'', ?_, hrec'⟩
      rw [Nat.mul_succ, after_add hmj, hrec.reach]
  obtain ⟨mk, -, hmk, -⟩ := hmany k
  obtain ⟨m'', hm''⟩ := exists_after_of_le hmk (Nat.le_mul_of_pos_left k hn)
  rw [hm'']
  rfl

end Recurs

/-! ## Every run without end recurs -/

/-- From some step on, a run without end never has fewer loop counts than at that step. -/
theorem exists_lowest (state : ℕ → Machine) (N : ℕ) :
    ∃ n ≥ N, ∀ k ≥ n, (state n).counts.length ≤ (state k).counts.length := by
  obtain ⟨n, hn, hmin⟩ := (measure fun n => (state n).counts.length).wf.has_min {n | N ≤ n}
    ⟨N, Nat.le_refl N⟩
  exact ⟨n, hn, fun k hk => Nat.le_of_not_lt (hmin k (Nat.le_trans hn hk))⟩

/-- The instruction at hand and the innermost loop count. -/
def position (m : Machine) : ℕ × Option ℤ := (m.ip, m.counts.head?)

/-- The positions within a code. -/
def positions (size : ℕ) : Set (ℕ × Option ℤ) :=
  {ip | ip < size} ×ˢ insert none (some '' {c | IsCount c})

instance (size : ℕ) : Finite (positions size) :=
  ((Set.finite_Iio size).prod (((Set.finite_Ico _ _).image some).insert none)).to_subtype

theorem position_mem {m m' : Machine} (hstep : m.step code cfg = .ok m')
    (hm : ∀ c ∈ m.counts, IsCount c) :
    m.position ∈ positions code.words.size := by
  refine ⟨lt_size_of_step hstep, ?_⟩
  cases hcounts : m.counts with
  | nil => exact .inl (by simp [position, hcounts])
  | cons c s =>
    have hc := hm c (by rw [hcounts]; exact List.mem_cons_self)
    exact .inr ⟨c, hc, by simp [position, hcounts]⟩

/-- A run without end recurs. -/
theorem exists_recurs {m : Machine} (hm : ∀ c ∈ m.counts, IsCount c)
    (hend : ∀ n, (m.after code cfg n).isSome) :
    ∃ i n mi mj, 0 < n ∧ m.after code cfg i = some mi ∧ Recurs code cfg n mi mj := by
  choose state hstate using fun n => Option.isSome_iff_exists.mp (hend n)
  have hshift : ∀ i k, (state i).after code cfg k = some (state (i + k)) := fun i k => by
    rw [← after_add (hstate i), hstate]
  choose lowest hle hlowest using exists_lowest state
  -- the lowest steps, one after the other
  let stair : ℕ → ℕ := Nat.rec (lowest 0) fun _ n => lowest (n + 1)
  have hlow : ∀ n, ∀ k ≥ stair n, (state (stair n)).counts.length ≤ (state k).counts.length := by
    intro n
    cases n with
    | zero => exact hlowest 0
    | succ n => exact hlowest (stair n + 1)
  have hmono : StrictMono stair := strictMono_nat_of_lt_succ fun n => hle (stair n + 1)
  -- two of them have the same position, and the later one at least as many open groups
  have hposition : ∀ n, (state n).position ∈ positions code.words.size := by
    intro n
    obtain ⟨m', hstep, -⟩ := after_succ_eq_some (hshift n 1)
    exact position_mem hstep (Advances.after (hstate n) hm).2
  let place : ℕ → positions code.words.size × ℕ := fun n =>
    (⟨_, hposition (stair n)⟩, (state (stair n)).marks.outer.length)
  obtain ⟨a, b, hab, hsame, hdepth⟩ :=
    (Finite.wellQuasiOrdered Eq).prod wellQuasiOrdered_le place
  have hlt : stair a < stair b := hmono hab
  have hpos : (state (stair a)).position = (state (stair b)).position := congrArg Subtype.val hsame
  obtain ⟨hip, hhead⟩ := Prod.mk.inj hpos
  refine ⟨stair a, stair b - stair a, _, state (stair b), by omega, hstate (stair a), ?_⟩
  refine ⟨?_, hip.symm, hhead.symm, hdepth, fun k _ mk hmk => ?_⟩
  · rw [hshift, Nat.add_sub_cancel' (Nat.le_of_lt hlt)]
  · rw [hshift] at hmk
    obtain rfl := Option.some.inj hmk
    exact hlow a _ (Nat.le_add_right _ _)

end Machine

/-! ## Programs -/

open Machine

/-- A generation has no outcome as long as there are steps to make. -/
theorem Program.generate_eq_none (p : Program) (cfg : Config) (fuel : ℕ) :
    p.generate cfg fuel = none ↔ ((start cfg).after p.code cfg fuel).isSome := by
  rw [← run_eq_none_iff, Program.generate]
  cases run p.code cfg fuel (start cfg) with
  | none => simp
  | some r => cases r <;> simp

/-- A generation that comes to a state from which its run recurs has no outcome. -/
theorem Program.generate_of_recurs {p : Program} {cfg : Config} {i n : ℕ} {mi mj : Machine}
    (hn : 0 < n) (hreach : (start cfg).after p.code cfg i = some mi)
    (hrec : Recurs p.code cfg n mi mj) (fuel : ℕ) : p.generate cfg fuel = none := by
  have hstart : ∀ c ∈ (start cfg).counts, IsCount c := fun c hc => absurd hc List.not_mem_nil
  have hall := hrec.endless hn (Advances.after hreach hstart).2 fuel
  obtain ⟨m, hm⟩ := Option.isSome_iff_exists.mp hall
  rw [← after_add hreach] at hm
  obtain ⟨m', hm'⟩ := exists_after_of_le hm (Nat.le_add_left fuel i)
  rw [Program.generate_eq_none, hm']
  rfl

/-- The one way in which a program runs for ever is to come back, with no fewer open groups, to an
instruction with the innermost loop count it had there, and to use none of the counts below in
between.  Every other run ends. -/
theorem Program.endless_iff_recurs (p : Program) (cfg : Config) :
    (∀ fuel, p.generate cfg fuel = none) ↔
      ∃ i n mi mj, 0 < n ∧ (start cfg).after p.code cfg i = some mi ∧
        Recurs p.code cfg n mi mj := by
  constructor
  · intro hend
    refine exists_recurs (fun c hc => absurd hc List.not_mem_nil) fun n => ?_
    exact (p.generate_eq_none cfg n).mp (hend n)
  · rintro ⟨i, n, mi, mj, hn, hreach, hrec⟩
    exact Program.generate_of_recurs hn hreach hrec

/-- Two loop branches, where the body of the second sets the count that the first one takes away. -/
def endlessCode : Code := ⟨#[38, 5, 28, 5, 0, 27, 0, 28, 2, 5], #[], #[]⟩

theorem check_endlessCode :
    endlessCode.check = .ok [⟨0, .goto, ⟨0⟩, [5]⟩, ⟨2, .branchcount, ⟨0⟩, [5, 0]⟩,
      ⟨5, .setcount, ⟨0⟩, [0]⟩, ⟨7, .branchcount, ⟨0⟩, [2, 5]⟩] :=
  Code.Reads.check_eq_ok ⟨rfl, rfl, rfl, rfl, rfl⟩ rfl

/-- Not every program ends: its counts are taken away and set anew in turn. -/
theorem Program.generate_endlessCode :
    ∃ p, Program.ofCode endlessCode = .ok p ∧ ∀ fuel, p.generate .default fuel = none := by
  refine ⟨_, Program.ofCode_eq_ok check_endlessCode, ?_⟩
  have hreach : (start .default).after endlessCode .default 1 =
      some { start .default with ip := 5 } := rfl
  have hrec : Recurs endlessCode .default 3 { start .default with ip := 5 }
      { start .default with ip := 5 } :=
    ⟨rfl, rfl, rfl, Nat.le_refl _, fun _ _ _ _ => Nat.zero_le _⟩
  exact Program.generate_of_recurs (Nat.succ_pos 2) hreach hrec

end PatternSampler
