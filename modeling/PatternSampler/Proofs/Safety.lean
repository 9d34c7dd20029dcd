import Mathlib.Data.List.Permutation
import PatternSampler.Proofs.Acceptance
import PatternSampler.Proofs.Stepping
/-!
# Checked programs do not go wrong

A program that has been checked splits into its instructions, and a run never leaves them: every
state it comes to is at the start of an instruction or at the end of the code, and so is every
offset that the scan of a lookaround comes to.  An error that ends a run is never one that the check
would have found, and it names the instruction it arose at.
-/
set_option autoImplicit false

namespace PatternSampler

/-! ## What a check guarantees -/

namespace Code

variable {code : Code}

/-- A code that splits into instructions reads as them. -/
theorem reads_of_instructionsFrom {a : Nat} {is : List Instruction} (ha : a ≤ code.words.size)
    (h : code.instructionsFrom a = .ok is) : code.Reads a is code.words.size := by
  induction is generalizing a with
  | nil =>
    rw [instructionsFrom] at h
    split at h
    · split at h
      · simp at h
      · split at h <;> simp at h
    · show a = code.words.size
      omega
  | cons i is ih =>
    rw [instructionsFrom] at h
    split at h
    · split at h
      · simp at h
      · rename_i hat
        split at h
        · simp at h
        · rename_i hrest
          obtain ⟨rfl, rfl⟩ := List.cons.inj (Except.ok.inj h)
          exact ⟨hat, ih (instructionAt_bounds hat).2 hrest⟩
    · simp at h

theorem Reads.instructionAt_of_mem {a b : Nat} {is : List Instruction} {i : Instruction}
    (h : code.Reads a is b) (hi : i ∈ is) : code.instructionAt i.offset = .ok i := by
  induction is generalizing a with
  | nil => simp at hi
  | cons j is ih =>
    rcases List.mem_cons.mp hi with rfl | hi
    · rw [instructionAt_offset h.1]
      exact h.1
    · exact ih h.2 hi

/-- After an instruction comes another, or the end. -/
theorem Reads.starts_next {a b : Nat} {is : List Instruction} {i : Instruction}
    (h : code.Reads a is b) (hi : i ∈ is) : Layout.Starts is b (i.offset + i.width) := by
  obtain ⟨before, after, rfl⟩ := List.append_of_mem hi
  obtain ⟨m, -, hat, hafter⟩ := Reads.append_iff.mp h
  rw [instructionAt_offset hat]
  exact Layout.starts_of_reads hafter fun j hj =>
    List.mem_append_right _ (List.mem_cons_of_mem i hj)

end Code

namespace Program

variable {p : Program} {i : Instruction}

/-- An offset at which an instruction of the program starts, or the end of its code. -/
def IsBoundary (p : Program) (a : Nat) : Prop := Layout.Starts p.instructions p.size a

theorem reads (p : Program) : p.code.Reads 0 p.instructions p.size := by
  have hchecked := p.checked
  unfold Code.check at hchecked
  split at hchecked
  · simp at hchecked
  · rename_i hsplit
    split at hchecked
    · simp at hchecked
    · rw [← Except.ok.inj hchecked]
      exact Code.reads_of_instructionsFrom (Nat.zero_le _) hsplit

theorem fault?_eq_none (hi : i ∈ p.instructions) : p.code.fault? p.instructions i = none := by
  have hchecked := p.checked
  unfold Code.check at hchecked
  split at hchecked
  · simp at hchecked
  · split at hchecked
    · simp at hchecked
    · rename_i hnone
      rw [Except.ok.inj hchecked] at hnone
      exact List.findSome?_eq_none_iff.mp hnone i hi

/-- The operands of a program's instructions meet their rules. -/
theorem operandFault?_eq_none (hi : i ∈ p.instructions) : p.code.operandFault? i = none := by
  have h := fault?_eq_none hi
  unfold Code.fault? at h
  split at h
  · simp at h
  · assumption

/-- A jump of a program goes to the start of an instruction. -/
theorem jump_target (hi : i ∈ p.instructions) (hjump : i.opcode.isJump = true) :
    0 ≤ (i.operand 0).toInt ∧ p.IsBoundary (i.operand 0).toInt.toNat := by
  have h := fault?_eq_none hi
  simp only [Code.fault?, operandFault?_eq_none hi] at h
  split at h
  · simp at h
  · simp only [Code.jumpFault?, hjump, Bool.true_and, Bool.not_eq_true', ite_eq_right_iff,
      reduceCtorEq, imp_false, Bool.not_eq_false, Code.jumpAllowed, Bool.and_eq_true,
      decide_eq_true_eq, List.any_eq_true] at h
    exact ⟨h.1.1, .inr h.1.2⟩

theorem char?_isSome (hi : i ∈ p.instructions) {matter : Matter} {r : Repetition}
    (hop : i.opcode = .chars matter r) (hmatter : matter ≠ .set) : ∃ c, i.char? = some c := by
  have h := operandFault?_eq_none hi
  simp only [Code.operandFault?, hop] at h
  cases hchar : i.char? with
  | some c => exact ⟨c, rfl⟩
  | none => cases matter <;> simp_all

theorem class?_isSome (hi : i ∈ p.instructions) {r : Repetition}
    (hop : i.opcode = .chars .set r) : ∃ cls, p.code.class? (i.operand 0) = some cls := by
  have h := operandFault?_eq_none hi
  simp only [Code.operandFault?, hop] at h
  split at h
  · exact ⟨_, ‹_›⟩
  · simp at h

theorem string?_isSome (hi : i ∈ p.instructions) (hop : i.opcode = .multi) :
    ∃ text, p.code.string? (i.operand 0) = some text := by
  have h := operandFault?_eq_none hi
  simp only [Code.operandFault?, hop] at h
  split at h
  · exact ⟨_, ‹_›⟩
  · simp at h

theorem isBoundary_zero (p : Program) : p.IsBoundary 0 :=
  Layout.starts_of_reads p.reads fun _ hj => hj

theorem isBoundary_next (hi : i ∈ p.instructions) : p.IsBoundary (i.offset + i.width) :=
  p.reads.starts_next hi

/-- At a boundary within the code an instruction is read, and it is one of the program's. -/
theorem IsBoundary.instructionAt {a : Nat} (h : p.IsBoundary a) (ha : a < p.size) :
    ∃ i ∈ p.instructions, i.offset = a ∧ p.code.instructionAt a = .ok i := by
  rcases h with rfl | ⟨i, hi, rfl⟩
  · exact absurd ha (Nat.lt_irrefl _)
  · exact ⟨i, hi, rfl, p.reads.instructionAt_of_mem hi⟩

end Program

/-! ## Scans -/

namespace Code

/-- The scan for the end of a lookaround, together with the offsets that it comes to. -/
def scanVisiting (code : Code) (opener : Nat) (at_ depth : Nat) (negative : Bool) :
    List Nat × Except GenerationError Extent :=
  if at_ < code.words.size then
    match code.instructionAt at_ with
    | .error e => ([at_], .error (.program e))
    | .ok i =>
      match i.opcode, depth with
      | .setjump, _ => (scanVisiting code opener (at_ + i.width) (depth + 1) negative).map
          (at_ :: ·) id
      | .backjump, 0 => (scanVisiting code opener (at_ + i.width) 0 true).map (at_ :: ·) id
      | .forejump, 0 => ([at_], .ok ⟨at_ + i.width, negative⟩)
      | .forejump, inner + 1 => (scanVisiting code opener (at_ + i.width) inner negative).map
          (at_ :: ·) id
      | _, _ => (scanVisiting code opener (at_ + i.width) depth negative).map (at_ :: ·) id
  else ([at_], .error (.openLookaround opener))
  termination_by code.words.size - at_
  decreasing_by
    all_goals
      have := Code.width_pos i
      omega

/-- Taking down the offsets changes nothing about the scan. -/
theorem scanVisiting_snd (code : Code) (opener at_ depth : Nat) (negative : Bool) :
    (code.scanVisiting opener at_ depth negative).2 =
      code.scanLookaround opener at_ depth negative := by
  fun_induction scanVisiting code opener at_ depth negative with
  | case1 at_ depth negative hlt e hat =>
    rw [scanLookaround, if_pos hlt]
    simp only [hat]
  | case2 at_ depth negative hlt i hat hop ih
  | case5 at_ negative hlt i hat inner hop ih
  | case3 at_ negative hlt i hat hop ih =>
    rw [scanLookaround, if_pos hlt]
    simp only [hat, hop, Prod.map_snd, id_eq]
    exact ih
  | case4 at_ negative hlt i hat hop =>
    rw [scanLookaround, if_pos hlt]
    simp only [hat, hop]
  | case6 at_ depth negative hlt i hat hset hback hfore hinner ih =>
    rw [scanLookaround, if_pos hlt]
    simp only [hat]
    exact ih
  | case7 at_ depth negative hge =>
    rw [scanLookaround, if_neg hge]

end Code

/-! ## Errors -/

namespace GenerationError

/-- The offset that an error of a run names. -/
def offset? : GenerationError → Option Nat
  | noChoice offset _ | unresolvedReference offset _ | noLoopCount offset _ | noMark offset _
  | openLookaround offset => some offset
  | program _ => none

/-- The opcode that an error of a run names. -/
def opcode? : GenerationError → Option Opcode
  | noChoice _ opcode | noLoopCount _ opcode | noMark _ opcode => some opcode
  | unresolvedReference .. | openLookaround _ | program _ => none

/-- The error names the offset of an instruction, and no opcode but that of the instruction. -/
def Names (e : GenerationError) (i : Instruction) : Prop :=
  e.offset? = some i.offset ∧ ∀ op ∈ e.opcode?, op = i.opcode

end GenerationError

namespace Program

variable {p : Program} {i : Instruction}

/-! ## Steps -/

/-- What a scan may come to: a boundary after the lookaround, or an error that names its opener. -/
def ScanSafe (p : Program) (opener : Nat) : Except GenerationError Extent → Prop
  | .ok extent => p.IsBoundary extent.stop
  | .error e => e = .openLookaround opener

/-- A scan that starts at a boundary comes to boundaries only. -/
theorem scanVisiting_safe {opener at_ depth : Nat} {negative : Bool} (hstart : p.IsBoundary at_) :
    (∀ a ∈ (p.code.scanVisiting opener at_ depth negative).1, p.IsBoundary a) ∧
      p.ScanSafe opener (p.code.scanVisiting opener at_ depth negative).2 := by
  have hread : ∀ {a : Nat}, p.IsBoundary a → a < p.code.words.size →
      ∃ j, p.code.instructionAt a = .ok j ∧ p.IsBoundary (a + j.width) := fun ha hlt => by
    obtain ⟨j, hj, rfl, hread⟩ := ha.instructionAt hlt
    exact ⟨j, hread, isBoundary_next hj⟩
  fun_induction Code.scanVisiting p.code opener at_ depth negative with
  | case1 at_ depth negative hlt e hat =>
    obtain ⟨j, hj, -⟩ := hread hstart hlt
    simp [hat] at hj
  | case2 at_ depth negative hlt j hat hop ih
  | case3 at_ negative hlt j hat hop ih
  | case5 at_ negative hlt j hat inner hop ih
  | case6 at_ depth negative hlt j hat hset hback hfore hinner ih =>
    obtain ⟨j', hj', hnext⟩ := hread hstart hlt
    obtain rfl : j = j' := Except.ok.inj (hat.symm.trans hj')
    obtain ⟨hvisits, houtcome⟩ := ih hnext
    exact ⟨List.forall_mem_cons.mpr ⟨hstart, hvisits⟩, houtcome⟩
  | case4 at_ negative hlt j hat hop =>
    obtain ⟨j', hj', hnext⟩ := hread hstart hlt
    obtain rfl : j = j' := Except.ok.inj (hat.symm.trans hj')
    exact ⟨List.forall_mem_singleton.mpr hstart, hnext⟩
  | case7 at_ depth negative hge =>
    exact ⟨List.forall_mem_singleton.mpr hstart, rfl⟩

theorem isBoundary_inside (hi : i ∈ p.instructions) (hop : i.opcode = .setjump) :
    p.IsBoundary (i.offset + Opcode.setjump.width) := by
  have hnext := isBoundary_next hi
  rwa [Instruction.width, hop] at hnext

theorem lookaround_safe (hi : i ∈ p.instructions) (hop : i.opcode = .setjump) :
    p.ScanSafe i.offset (p.code.lookaround i.offset) := by
  rw [Code.lookaround, ← Code.scanVisiting_snd]
  exact (scanVisiting_safe (isBoundary_inside hi hop)).2

/-- What an instruction may come to: a state at a boundary, or an error that names it. -/
def Safe (p : Program) (i : Instruction) : Except GenerationError Machine → Prop
  | .ok m => p.IsBoundary m.ip
  | .error e => e.Names i

/-- An instruction that does not jump leaves the offset to the step. -/
def Stays (i : Instruction) : Except GenerationError Machine → Prop
  | .ok m => m.ip = i.offset
  | .error e => e.Names i

variable {m : Machine} {cfg : Config}

theorem safe_next (hi : i ∈ p.instructions) (hip : m.ip = i.offset) :
    p.Safe i (.ok (m.next i)) := by
  show p.IsBoundary (m.ip + i.width)
  rw [hip]
  exact isBoundary_next hi

theorem safe_andNext (hi : i ∈ p.instructions) {r : Except GenerationError Machine}
    (hr : Stays i r) : p.Safe i (Machine.andNext i r) := by
  cases r with
  | error e => exact hr
  | ok m => exact safe_next hi hr

theorem stays_draw (hip : m.ip = i.offset) (cls : CharClass) : Stays i (m.draw cfg i cls) := by
  unfold Machine.draw
  split
  · exact hip
  · split
    · exact ⟨rfl, by simp [GenerationError.opcode?]⟩
    · split
      · exact ⟨rfl, by simp [GenerationError.opcode?]⟩
      · exact hip

theorem stays_close (hip : m.ip = i.offset) (group : Option Int32) : Stays i (m.close i group) := by
  unfold Machine.close
  split
  · exact ⟨rfl, by simp [GenerationError.opcode?]⟩
  · exact hip

theorem safe_jump (hi : i ∈ p.instructions) (hjump : i.opcode.isJump = true) :
    p.Safe i (m.jump i) := by
  obtain ⟨hnonneg, htarget⟩ := jump_target hi hjump
  simp only [Machine.jump, if_neg (Int.not_lt.mpr hnonneg)]
  exact htarget

theorem safe_branch (hi : i ∈ p.instructions) (hjump : i.opcode.isJump = true)
    (hip : m.ip = i.offset) : p.Safe i (m.branch cfg i) := by
  unfold Machine.branch
  split
  · exact ⟨rfl, by simp [GenerationError.opcode?]⟩
  · split
    · exact safe_next hi hip
    · exact safe_jump hi hjump

theorem safe_chars (hi : i ∈ p.instructions) (hip : m.ip = i.offset) {matter : Matter}
    {r : Repetition} (hop : i.opcode = .chars matter r) : p.Safe i (m.exec p.code cfg i) := by
  cases r with
  | lazyLoop =>
    simp only [Machine.exec, hop]
    exact safe_next hi hip
  | _ =>
    cases matter with
    | one =>
      obtain ⟨c, hchar⟩ := char?_isSome hi hop (by simp)
      simp only [Machine.exec, hop, hchar]
      exact safe_next hi hip
    | notOne =>
      obtain ⟨c, hchar⟩ := char?_isSome hi hop (by simp)
      simp only [Machine.exec, hop, hchar]
      exact safe_andNext hi (stays_draw hip _)
    | set =>
      obtain ⟨cls, hcls⟩ := class?_isSome hi hop
      simp only [Machine.exec, hop, hcls]
      exact safe_andNext hi (stays_draw hip _)

/-- Every instruction of a program is safe to execute. -/
theorem safe_exec (hi : i ∈ p.instructions) (hip : m.ip = i.offset) :
    p.Safe i (m.exec p.code cfg i) := by
  cases hop : i.opcode with
  | chars matter r => exact safe_chars hi hip hop
  | multi =>
    obtain ⟨text, htext⟩ := string?_isSome hi hop
    simp only [Machine.exec, hop, htext]
    exact safe_next hi hip
  | ref =>
    simp only [Machine.exec, hop]
    split
    · exact ⟨rfl, by simp [GenerationError.opcode?]⟩
    · exact safe_next hi hip
  | nonboundary | nonEcmaBoundary =>
    simp only [Machine.exec, hop]
    split
    · exact ⟨rfl, by simp [GenerationError.opcode?, hop]⟩
    · exact safe_next hi hip
  | capturemark | getmark | branchmark | lazybranchmark =>
    simp only [Machine.exec, hop]
    exact safe_andNext hi (stays_close hip _)
  | branchcount | lazybranchcount =>
    simp only [Machine.exec, hop]
    exact safe_branch hi (by rw [hop]; rfl) hip
  | goto =>
    simp only [Machine.exec, hop]
    exact safe_jump hi (by rw [hop]; rfl)
  | setjump =>
    have hscan := lookaround_safe hi hop
    simp only [Machine.exec, hop]
    split
    · rename_i e he
      rw [he] at hscan
      obtain rfl : e = .openLookaround i.offset := hscan
      exact ⟨rfl, by simp [GenerationError.opcode?]⟩
    · rename_i extent hextent
      rw [hextent] at hscan
      split
      · exact hscan
      · exact safe_next hi hip
  | _ =>
    simp only [Machine.exec, hop]
    exact safe_next hi hip

theorem safe_step (cfg : Config) (hip : p.IsBoundary m.ip) (hlt : m.ip < p.size) :
    ∃ i ∈ p.instructions, p.Safe i (m.step p.code cfg) := by
  obtain ⟨i, hi, hoffset, hread⟩ := hip.instructionAt hlt
  refine ⟨i, hi, ?_⟩
  simp only [Machine.step, hread]
  exact safe_exec hi hoffset.symm

theorem isBoundary_of_step {m' : Machine} (hip : p.IsBoundary m.ip)
    (h : m.step p.code cfg = .ok m') : p.IsBoundary m'.ip := by
  obtain ⟨i, -, hsafe⟩ := safe_step cfg hip (Machine.lt_size_of_step h)
  rwa [h] at hsafe

/-! ## Runs -/

theorem isBoundary_after {m' : Machine} {n : Nat} (hip : p.IsBoundary m.ip)
    (h : m.after p.code cfg n = some m') : p.IsBoundary m'.ip :=
  Machine.invariant_after (fun _ _ => isBoundary_of_step) hip h

theorem names_of_run {fuel : Nat} {e : GenerationError} (hip : p.IsBoundary m.ip)
    (h : Machine.run p.code cfg fuel m = some (.error e)) : ∃ i ∈ p.instructions, e.Names i := by
  induction fuel generalizing m with
  | zero => simp [Machine.run] at h
  | succ fuel ih =>
    rw [Machine.run] at h
    split at h
    · obtain ⟨i, hi, hsafe⟩ := safe_step cfg hip ‹_›
      split at h
      · rename_i hstep
        obtain rfl := Except.error.inj (Option.some.inj h)
        rw [hstep] at hsafe
        exact ⟨i, hi, hsafe⟩
      · rename_i hstep
        rw [hstep] at hsafe
        exact ih hsafe h
    · simp at h

/-- A run of a program stays at its instructions, and so does every scan of a lookaround.  An error
that ends a run names an instruction, and is none that checking the program would have found. -/
theorem runs_safely (p : Program) (cfg : Config) :
    (∀ n m, (Machine.start cfg).after p.code cfg n = some m → p.IsBoundary m.ip) ∧
    (∀ i ∈ p.instructions, i.opcode = .setjump →
      let scan := p.code.scanVisiting i.offset (i.offset + Opcode.setjump.width) 0 false
      scan.2 = p.code.lookaround i.offset ∧ ∀ a ∈ scan.1, p.IsBoundary a) ∧
    ∀ fuel e, p.generate cfg fuel = some (.error e) →
      (∀ e', e ≠ .program e') ∧
        ∃ i ∈ p.instructions, p.code.instructionAt i.offset = .ok i ∧ e.Names i := by
  refine ⟨fun n m h => isBoundary_after p.isBoundary_zero h, fun i hi hop => ⟨?_, ?_⟩,
    fun fuel e h => ?_⟩
  · exact Code.scanVisiting_snd _ _ _ _ _
  · exact (scanVisiting_safe (isBoundary_inside hi hop)).1
  · have hrun : Machine.run p.code cfg fuel (Machine.start cfg) = some (.error e) := by
      obtain ⟨r, hr, hmap⟩ := Option.map_eq_some_iff.mp (p.generate_eq_map_run cfg fuel ▸ h)
      cases r with
      | error e' => rw [hr, Except.error.inj hmap]
      | ok m => simp [Except.map] at hmap
    obtain ⟨i, hi, hnames⟩ := names_of_run p.isBoundary_zero hrun
    refine ⟨?_, i, hi, p.reads.instructionAt_of_mem hi, hnames⟩
    rintro e' rfl
    simp [GenerationError.Names, GenerationError.offset?] at hnames

/-- A negative lookaround before a reference to a group that captures nothing. -/
def danglingCode : Code := ⟨#[34, 9, 97, 35, 36, 13, 1], #[], #[]⟩

theorem check_danglingCode :
    danglingCode.check = .ok [⟨0, .setjump, ⟨0⟩, []⟩, ⟨1, .chars .one .single, ⟨0⟩, [97]⟩,
      ⟨3, .backjump, ⟨0⟩, []⟩, ⟨4, .forejump, ⟨0⟩, []⟩, ⟨5, .ref, ⟨0⟩, [1]⟩] :=
  Code.Reads.check_eq_ok ⟨rfl, rfl, rfl, rfl, rfl, rfl⟩ rfl

/-- The run skips the lookaround, whose scan comes to two more instructions, and fails at the
reference. -/
theorem runs_safely_danglingCode :
    ∃ p, ofCode danglingCode = .ok p ∧
      (∃ m, (Machine.start .default).after p.code .default 1 = some m ∧ m.ip = 5 ∧
        p.IsBoundary m.ip) ∧
      (danglingCode.scanVisiting 0 1 0 false = ([1, 3, 4], .ok ⟨5, true⟩) ∧
        ∀ a ∈ [1, 3, 4], p.IsBoundary a) ∧
      p.generate .default 2 = some (.error (.unresolvedReference 5 1)) ∧
        ∃ i ∈ p.instructions, p.code.instructionAt i.offset = .ok i ∧
          (GenerationError.unresolvedReference 5 1).Names i := by
  have hafter : (Machine.start .default).after danglingCode .default 1 =
      some { Machine.start .default with ip := 5 } := by cbv
  have hscan : danglingCode.scanVisiting 0 1 0 false = ([1, 3, 4], .ok ⟨5, true⟩) := by cbv
  have hrun : Machine.run danglingCode .default 2 (.start .default) =
      some (.error (.unresolvedReference 5 1)) := by cbv
  let p : Program := ⟨danglingCode, _, check_danglingCode⟩
  have hgenerate : p.generate .default 2 = some (.error (.unresolvedReference 5 1)) := by
    rw [generate_eq_map_run]
    exact congrArg _ hrun
  obtain ⟨hstates, hscans, herrors⟩ := runs_safely p .default
  have hvisits := (hscans ⟨0, .setjump, ⟨0⟩, []⟩ List.mem_cons_self rfl).2
  refine ⟨p, ofCode_eq_ok check_danglingCode, ⟨_, hafter, rfl, hstates 1 _ hafter⟩,
    ⟨hscan, fun a ha => hvisits a ?_⟩, hgenerate, (herrors 2 _ hgenerate).2⟩
  show a ∈ (danglingCode.scanVisiting 0 1 0 false).1
  rwa [hscan]

end Program

end PatternSampler
