import PatternSampler.Proofs.Endless
import PatternSampler.Proofs.Safety
/-!
# Passes of counted loops

A loop branch compares the innermost loop count with its limit, and either goes back to the body
with the count raised by one or drops the count and goes on.  If the body always comes back to the
branch with the counts as they were, the number of passes follows from the count that the loop
starts with.  The induction is on how far the count is below the limit, where the count may be
negative and the limit the smaller of an operand and the repetition cap.  Main statement:
`counted_loop_passes`.
-/
set_option autoImplicit false

namespace PatternSampler

namespace Instruction

/-- The limit of a loop branch: none for a lazy or an unbounded one, which goes round no more often
than it has to, and otherwise the smaller of its operand and the repetition cap. -/
def passLimit (i : Instruction) (cap : UInt64) : Int :=
  if i.opcode = .lazybranchcount ∨ i.operand 1 = unbounded then 0
  else min (i.operand 1).toInt cap.toNat

/-- An operand is never above the bound that the cap is cut to. -/
theorem loopLimit_eq_passLimit (i : Instruction) (cap : UInt64) :
    i.loopLimit cap = i.passLimit cap := by
  have hlt := (i.operand 1).toInt_lt
  unfold loopLimit passLimit
  split
  · rename_i hop
    rw [if_pos (.inl hop)]
  · rename_i hop
    by_cases hunbounded : i.operand 1 = unbounded
    · rw [if_pos hunbounded, if_pos (.inr hunbounded)]
    · rw [if_neg hunbounded, if_neg (not_or.mpr ⟨hop, hunbounded⟩)]
      omega

end Instruction

namespace Machine

variable {code : Code} {cfg : Config}

/-! ## Trails -/

/-- The states of a run before each of its first `n` steps. -/
def trail (code : Code) (cfg : Config) : Nat → Machine → List Machine
  | 0, _ => []
  | n + 1, m =>
    m :: match m.step code cfg with
      | .error _ => []
      | .ok m' => trail code cfg n m'

variable {m m' s : Machine} {n : Nat}

theorem trail_succ (h : m.step code cfg = .ok m') (n : Nat) :
    m.trail code cfg (n + 1) = m :: m'.trail code cfg n := by
  simp only [trail, h]

/-- The trail of a run may be cut where the run may. -/
theorem trail_add (h : m.after code cfg n = some m') (k : Nat) :
    m.trail code cfg (n + k) = m.trail code cfg n ++ m'.trail code cfg k := by
  induction n generalizing m with
  | zero =>
    obtain rfl := Option.some.inj h
    rw [Nat.zero_add, trail, List.nil_append]
  | succ n ih =>
    obtain ⟨m₁, hstep, hrest⟩ := after_succ_eq_some h
    rw [Nat.add_right_comm, trail_succ hstep, trail_succ hstep, ih hrest, List.cons_append]

/-- The states on a trail are states of the run. -/
theorem exists_after_of_mem_trail (hs : s ∈ m.trail code cfg n) :
    ∃ k, m.after code cfg k = some s := by
  induction n generalizing m with
  | zero => simp [trail] at hs
  | succ n ih =>
    rw [trail] at hs
    rcases List.mem_cons.mp hs with rfl | hs
    · exact ⟨0, rfl⟩
    · split at hs
      · simp at hs
      · rename_i hstep
        obtain ⟨k, hk⟩ := ih hs
        exact ⟨k + 1, by rw [after_succ hstep, hk]⟩

/-- On the trail of a run no count leaves its range. -/
theorem isCount_of_mem_trail (hm : ∀ c ∈ m.counts, IsCount c) (hs : s ∈ m.trail code cfg n) :
    ∀ c ∈ s.counts, IsCount c := by
  obtain ⟨k, hk⟩ := exists_after_of_mem_trail hs
  exact (Advances.after hk hm).2

/-! ## Going round -/

/-- Where among two offsets the states stand, one after the other. -/
def visits (b t : Nat) (states : List Machine) : List Nat :=
  (states.map ip).filter fun a => a = b ∨ a = t

theorem visits_append (b t : Nat) (states others : List Machine) :
    visits b t (states ++ others) = visits b t states ++ visits b t others := by
  simp only [visits, List.map_append, List.filter_append]

theorem visits_cons_start {b t : Nat} {states : List Machine} (hip : m.ip = b)
    (hrest : ∀ s ∈ states, s.ip ≠ b ∧ s.ip ≠ t) : visits b t (m :: states) = [b] := by
  have hnone : visits b t states = [] := by
    apply List.filter_eq_nil_iff.mpr
    intro a ha
    obtain ⟨s, hs, rfl⟩ := List.mem_map.mp ha
    simpa using hrest s hs
  simp only [visits, List.map_cons, hip] at hnone ⊢
  rw [List.filter_cons_of_pos (by simp), hnone]

/-- Whatever the count above the counts `outer` is, a run from the body's start `b` comes to the
branch at `t`, with the counts as they were and without having been at either offset in between.
The body may need more of the state, `keeps`, as long as it also keeps it. -/
def Returns (code : Code) (cfg : Config) (keeps : Marks → Rng → Prop) (outer : List Int)
    (b t : Nat) : Prop :=
  ∀ (m : Machine) (c : Int32), m.ip = b → m.counts = c.toInt :: outer → keeps m.marks m.rng →
    ∃ n m', m.after code cfg n = some m' ∧ m'.ip = t ∧ m'.counts = m.counts ∧
      keeps m'.marks m'.rng ∧ ∀ s ∈ (m.trail code cfg n).tail, s.ip ≠ b ∧ s.ip ≠ t

/-- After `n` steps, the last of them at the branch at `t`, the run is at the offset `exit` in the
state `m'`, with the counts `outer`.  On its way it has come to the body's start `b` and to the
branch in the order of `stops`. -/
structure Leaves (code : Code) (cfg : Config) (keeps : Marks → Rng → Prop) (outer : List Int)
    (b t exit : Nat) (m : Machine) (stops : List Nat) (n : Nat) (m' : Machine) : Prop where
  reach : m.after code cfg n = some m'
  ip : m'.ip = exit
  counts : m'.counts = outer
  kept : keeps m'.marks m'.rng
  last : (m.trail code cfg n).getLast?.map Machine.ip = some t
  visits : visits b t (m.trail code cfg n) = stops

variable {keeps : Marks → Rng → Prop} {outer : List Int} {b t exit : Nat}

theorem Leaves.after {m₁ : Machine} {stops : List Nat} {k : Nat}
    (h : Leaves code cfg keeps outer b t exit m₁ stops n m')
    (hreach : m.after code cfg k = some m₁) :
    Leaves code cfg keeps outer b t exit m (Machine.visits b t (m.trail code cfg k) ++ stops)
      (k + n) m' := by
  obtain ⟨last, hlast, hip⟩ := Option.map_eq_some_iff.mp h.last
  refine ⟨?_, h.ip, h.counts, h.kept, ?_, ?_⟩
  · rw [after_add hreach, h.reach]
  · rw [trail_add hreach, List.getLast?_append, hlast, Option.some_or, Option.map_some, hip]
  · rw [trail_add hreach, visits_append, h.visits]

/-- A pass through the body shows as one visit of its start. -/
theorem visits_of_returns (h : m.after code cfg n = some m') (hip : m.ip = b) (hip' : m'.ip = t)
    (hne : b ≠ t) (hbetween : ∀ s ∈ (m.trail code cfg n).tail, s.ip ≠ b ∧ s.ip ≠ t) :
    Machine.visits b t (m.trail code cfg n) = [b] := by
  cases n with
  | zero =>
    obtain rfl := Option.some.inj h
    exact absurd (hip.symm.trans hip') hne
  | succ n =>
    obtain ⟨m₁, hstep, -⟩ := after_succ_eq_some h
    rw [trail_succ hstep] at hbetween ⊢
    exact visits_cons_start hip hbetween

theorem trail_one (h : m.step code cfg = .ok m') : m.trail code cfg 1 = [m] := by
  rw [trail_succ h, trail]

/-- A step from the branch shows as a visit of it. -/
theorem visits_of_step (h : m.step code cfg = .ok m') (hip : m.ip = t) :
    Machine.visits b t (m.trail code cfg 1) = [t] := by
  simp [trail_one h, Machine.visits, hip]

/-! ## The branch -/

variable {i : Instruction} {c : Int}

theorem step_of_branch (hat : code.instructionAt t = .ok i)
    (hop : i.opcode = .branchcount ∨ i.opcode = .lazybranchcount) (hip : m.ip = t) :
    m.step code cfg = m.branch cfg i := by
  simp only [step, hip, hat]
  rcases hop with hop | hop <;> simp only [exec, hop]

theorem branch_of_le (hcounts : m.counts = c :: outer)
    (hle : i.passLimit cfg.repetitionCap ≤ c) :
    m.branch cfg i = .ok { m with ip := m.ip + i.width, counts := outer } := by
  rw [← Instruction.loopLimit_eq_passLimit] at hle
  simp only [branch, hcounts, if_pos hle, next]

theorem branch_of_lt (hcounts : m.counts = c :: outer)
    (hlt : c < i.passLimit cfg.repetitionCap) (htarget : (i.operand 0).toInt = b) :
    m.branch cfg i = .ok { m with ip := b, counts := (c + 1) :: outer } := by
  rw [← Instruction.loopLimit_eq_passLimit, ← Int.not_le] at hlt
  simp only [branch, hcounts, if_neg hlt, jump, htarget, Int.toNat_natCast]
  rw [if_neg (by omega)]

theorem passLimit_le (i : Instruction) (cap : UInt64) : i.passLimit cap < 2 ^ 31 := by
  rw [← Instruction.loopLimit_eq_passLimit]
  exact Advances.loopLimit_le i cap

/-- From the branch, the body is passed as often as the count is below the limit. -/
theorem exists_leaves_of_branch (hat : code.instructionAt t = .ok i)
    (hop : i.opcode = .branchcount ∨ i.opcode = .lazybranchcount)
    (htarget : (i.operand 0).toInt = b) (hne : b ≠ t)
    (hbody : Returns code cfg keeps outer b t) (passes : Nat) (m : Machine) (c : Int)
    (hc : IsCount c) (hip : m.ip = t) (hcounts : m.counts = c :: outer)
    (hkeeps : keeps m.marks m.rng)
    (hpasses : (i.passLimit cfg.repetitionCap - c).toNat = passes) :
    ∃ n m', Leaves code cfg keeps outer b t (t + i.width) m
      (t :: (List.replicate passes [b, t]).flatten) n m' := by
  have hstep : m.step code cfg = m.branch cfg i := step_of_branch hat hop hip
  induction passes generalizing m c with
  | zero =>
    rw [branch_of_le hcounts (by omega), hip] at hstep
    have hreach : m.after code cfg 1 = some { m with ip := t + i.width, counts := outer } := by
      rw [after_succ hstep, Machine.after]
    refine ⟨1, _, hreach, rfl, rfl, hkeeps, ?_, ?_⟩
    · rw [trail_one hstep, List.getLast?_singleton, Option.map_some, hip]
    · exact visits_of_step hstep hip
  | succ passes ih =>
    have hlt : c < i.passLimit cfg.repetitionCap := by omega
    have hlimit := passLimit_le i cfg.repetitionCap
    have hc' : IsCount (c + 1) := ⟨by have := hc.1; omega, by omega⟩
    rw [branch_of_lt hcounts hlt htarget] at hstep
    -- the body starts with the count raised by one, and hands it back to the branch
    obtain ⟨k, m₁, hreach, hip₁, hcounts₁, hkeeps₁, hbetween⟩ :=
      hbody { m with ip := b, counts := (c + 1) :: outer } (Int32.ofInt (c + 1)) rfl
        (by rw [Int32.toInt_ofInt_of_le hc'.1 hc'.2]) hkeeps
    obtain ⟨n, m', hleaves⟩ := ih m₁ (c + 1) hc' hip₁ hcounts₁ hkeeps₁ (by omega)
      (step_of_branch hat hop hip₁)
    have hfirst : m.after code cfg 1 = some { m with ip := b, counts := (c + 1) :: outer } := by
      rw [after_succ hstep, Machine.after]
    have hleft := (hleaves.after hreach).after hfirst
    rw [visits_of_returns hreach rfl hip₁ hne hbetween, visits_of_step hstep hip] at hleft
    rw [List.replicate_succ, List.flatten_cons]
    exact ⟨_, m', hleft⟩

/-- From the body's start there is one pass more than from the branch. -/
theorem exists_leaves_of_body (hat : code.instructionAt t = .ok i)
    (hop : i.opcode = .branchcount ∨ i.opcode = .lazybranchcount)
    (htarget : (i.operand 0).toInt = b) (hne : b ≠ t)
    (hbody : Returns code cfg keeps outer b t) (k : Int32) (hip : m.ip = b)
    (hcounts : m.counts = k.toInt :: outer) (hkeeps : keeps m.marks m.rng) :
    ∃ n m', Leaves code cfg keeps outer b t (t + i.width) m
      (List.replicate (1 + (i.passLimit cfg.repetitionCap - k.toInt).toNat) [b, t]).flatten
        n m' := by
  obtain ⟨n₁, m₁, hreach, hip₁, hcounts₁, hkeeps₁, hbetween⟩ := hbody m k hip hcounts hkeeps
  obtain ⟨n, m', hleaves⟩ := exists_leaves_of_branch hat hop htarget hne hbody _ m₁ k.toInt
    ⟨k.le_toInt, k.toInt_lt⟩ hip₁ (hcounts₁.trans hcounts) hkeeps₁ rfl
  have hleft := hleaves.after hreach
  rw [visits_of_returns hreach hip hip₁ hne hbetween] at hleft
  rw [Nat.add_comm 1, List.replicate_succ, List.flatten_cons]
  exact ⟨n₁ + n, m', hleft⟩

end Machine

/-! ## Loops of a program -/

namespace Program

open Machine (IsCount Returns Leaves trail)

/-- A loop branch whose body always comes back to it is left after as many passes as the count the
loop starts with is below the limit, and one more if it starts with the body.  The counts are then
those from before the loop, and none has left the range of an operand on the way. -/
theorem counted_loop_passes (p : Program) (cfg : Config) (i : Instruction)
    (hi : i ∈ p.instructions) (hop : i.opcode = .branchcount ∨ i.opcode = .lazybranchcount)
    (b : Nat) (htarget : (i.operand 0).toInt = b) (hne : b ≠ i.offset)
    (keeps : Marks → Rng → Prop) (outer : List Int) (houter : ∀ c ∈ outer, IsCount c)
    (hbody : Returns p.code cfg keeps outer b i.offset) :
    (∀ opening ∈ p.instructions, opening.opcode = .setcount ∨ opening.opcode = .nullcount →
      ∀ m : Machine, m.ip = opening.offset → m.counts = outer →
        m.step p.code cfg = .ok { m with
          ip := opening.offset + 2
          counts := (opening.operand 0).toInt :: outer }) ∧
    ∀ (k : Int32) (m : Machine), m.counts = k.toInt :: outer → keeps m.marks m.rng →
      (m.ip = b → ∃ n m',
        Leaves p.code cfg keeps outer b i.offset (i.offset + 3) m
          (List.replicate (1 + (max 0 (i.passLimit cfg.repetitionCap - k.toInt)).toNat)
            [b, i.offset]).flatten n m' ∧
        ∀ s ∈ m.trail p.code cfg n, ∀ c ∈ s.counts, IsCount c) ∧
      (m.ip = i.offset → ∃ n m',
        Leaves p.code cfg keeps outer b i.offset (i.offset + 3) m
          (i.offset :: (List.replicate (max 0 (i.passLimit cfg.repetitionCap - k.toInt)).toNat
            [b, i.offset]).flatten) n m' ∧
        ∀ s ∈ m.trail p.code cfg n, ∀ c ∈ s.counts, IsCount c) := by
  have hat := p.reads.instructionAt_of_mem hi
  have hwidth : i.width = 3 := by
    rw [Instruction.width]
    rcases hop with hop | hop <;> rw [hop] <;> rfl
  refine ⟨?_, ?_⟩
  · intro opening hopening hopens m hip hcounts
    have hread := p.reads.instructionAt_of_mem hopening
    simp only [Machine.step, hip, hread]
    rcases hopens with hopens | hopens <;>
      simp only [Machine.exec, hopens, Machine.next, hip, hcounts, Instruction.width] <;> rfl
  · intro k m hcounts hkeeps
    have hk : IsCount k.toInt := ⟨k.le_toInt, k.toInt_lt⟩
    have hm : ∀ c ∈ m.counts, IsCount c := by
      rw [hcounts]
      exact List.forall_mem_cons.mpr ⟨hk, houter⟩
    have hmax : (max 0 (i.passLimit cfg.repetitionCap - k.toInt)).toNat =
        (i.passLimit cfg.repetitionCap - k.toInt).toNat := by omega
    rw [hmax, ← hwidth]
    constructor
    · intro hip
      obtain ⟨n, m', hleaves⟩ :=
        Machine.exists_leaves_of_body hat hop htarget hne hbody k hip hcounts hkeeps
      exact ⟨n, m', hleaves, fun s hs => Machine.isCount_of_mem_trail hm hs⟩
    · intro hip
      obtain ⟨n, m', hleaves⟩ := Machine.exists_leaves_of_branch hat hop htarget hne hbody _ m
        k.toInt hk hip hcounts hkeeps rfl
      exact ⟨n, m', hleaves, fun s hs => Machine.isCount_of_mem_trail hm hs⟩

/-- A loop around one character whose count starts at -2 and whose limit is 1. -/
def countedCode : Code := ⟨#[27, -2, 9, 97, 28, 2, 1], #[], #[]⟩

theorem check_countedCode :
    countedCode.check = .ok [⟨0, .setcount, ⟨0⟩, [-2]⟩, ⟨2, .chars .one .single, ⟨0⟩, [97]⟩,
      ⟨4, .branchcount, ⟨0⟩, [2, 1]⟩] :=
  Code.Reads.check_eq_ok ⟨rfl, rfl, rfl, rfl⟩ rfl

def countedProgram : Program := ⟨_, _, check_countedCode⟩

theorem returns_countedCode (cfg : Config) (outer : List Int) :
    Returns countedCode cfg (fun _ _ => True) outer 2 4 := by
  intro m c hip hcounts _
  have hat : countedCode.instructionAt m.ip = .ok ⟨2, .chars .one .single, ⟨0⟩, [97]⟩ := by
    rw [hip]
    rfl
  have hstep : m.step countedCode cfg =
      .ok { m with ip := 4, marks := m.marks.write "a" } := by
    simp only [Machine.step, hat, Machine.exec, Machine.next, Machine.write]
    rw [hip]
    rfl
  have hreach : m.after countedCode cfg 1 =
      some { m with ip := 4, marks := m.marks.write "a" } := by
    rw [Machine.after_succ hstep, Machine.after]
  refine ⟨1, _, hreach, rfl, rfl, trivial, ?_⟩
  rw [Machine.trail_one hstep]
  simp

/-- The character is passed four times, with the counts -2, -1, 0 and 1. -/
theorem counted_loop_passes_fromBelow :
    ∃ m, (Machine.start .default).step countedProgram.code .default = .ok m ∧ m.ip = 2 ∧
      ∃ n m', m.after countedProgram.code .default n = some m' ∧ m'.ip = 7 ∧ m'.counts = [] ∧
        Machine.visits 2 4 (m.trail countedProgram.code .default n) = [2, 4, 2, 4, 2, 4, 2, 4] := by
  obtain ⟨hopen, hloop⟩ := counted_loop_passes countedProgram .default
    ⟨4, .branchcount, ⟨0⟩, [2, 1]⟩ (by simp [countedProgram]) (.inl rfl) 2 rfl (by decide)
    (fun _ _ => True) [] (by simp) (returns_countedCode .default [])
  have hstep := hopen ⟨0, .setcount, ⟨0⟩, [-2]⟩ (by simp [countedProgram]) (.inl rfl)
    (Machine.start .default) rfl rfl
  obtain ⟨n, m', hleaves, -⟩ :=
    (hloop (-2) ⟨2, .empty, [-2], ⟨Config.default.seed⟩⟩ rfl trivial).1 rfl
  exact ⟨_, hstep, rfl, n, m', hleaves.reach, hleaves.ip, hleaves.counts, hleaves.visits⟩

end Program

end PatternSampler
