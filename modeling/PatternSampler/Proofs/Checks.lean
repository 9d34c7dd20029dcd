import PatternSampler.Proofs.Safety
/-!
# What the checks ask

A code is accepted exactly if it splits into instructions that all meet the rules for their
operands.  `Code.Meets` says what the rules are, one for each kind of operand, whatever the order in
which the checks look at them.
-/
set_option autoImplicit false

namespace PatternSampler

/-! ## Operands -/

theorem Text.scalar?_eq_some_iff {n : Nat} {c : Char} : scalar? n = some c ↔ n = c.toNat := by
  constructor
  · intro h
    unfold scalar? at h
    split at h
    · rename_i hvalid
      rw [← Option.some.inj h, Char.ofNat, dif_pos hvalid]
      rfl
    · simp at h
  · rintro rfl
    exact scalar?_toNat c

theorem Instruction.char?_eq_some_iff {i : Instruction} {c : Char} :
    i.char? = some c ↔ (i.operand 0).toInt = c.toNat := by
  unfold Instruction.char?
  dsimp only
  split
  · simp only [reduceCtorEq, false_iff]
    omega
  · rw [Text.scalar?_eq_some_iff]
    omega

/-- The operand stands for a place in a table of the given size. -/
def Code.Indexes (operand : Int32) (size : Nat) : Prop :=
  0 ≤ operand.toInt ∧ operand.toInt < size

theorem Code.class?_eq_none_iff {code : Code} {operand : Int32} :
    code.class? operand = none ↔ ¬Indexes operand code.classes.size := by
  unfold Code.class? Indexes
  split
  · simp only [true_iff]
    omega
  · rw [Array.getElem?_eq_none_iff]
    omega

theorem Code.string?_eq_none_iff {code : Code} {operand : Int32} :
    code.string? operand = none ↔ ¬Indexes operand code.strings.size := by
  unfold Code.string? Indexes
  split
  · simp only [true_iff]
    omega
  · rw [Array.getElem?_eq_none_iff]
    omega

/-! ## Rules -/

namespace Code

/-- The rules for the operands of an instruction, `is` being the instructions to jump to. -/
structure Meets (code : Code) (is : List Instruction) (i : Instruction) : Prop where
  /-- a class is one of the table -/
  classIndex : ∀ r, i.opcode = .chars .set r → Indexes (i.operand 0) code.classes.size
  /-- a string is one of the table -/
  stringIndex : i.opcode = .multi → Indexes (i.operand 0) code.strings.size
  /-- a character is a Unicode scalar value -/
  character : ∀ matter r, i.opcode = .chars matter r → matter ≠ .set →
    ∃ c : Char, (i.operand 0).toInt = c.toNat
  /-- a count is not negative -/
  count : ∀ matter r, i.opcode = .chars matter r → r ≠ .single → 0 ≤ (i.operand 1).toInt
  /-- a jump goes to an instruction, and to a later one unless it closes a loop -/
  target : i.opcode.isJump = true → ∃ j ∈ is, (i.operand 0).toInt = j.offset ∧
    (i.opcode.jumpsBack = true ∨ i.offset < j.offset)

variable {code : Code} {is : List Instruction} {i : Instruction}

theorem jumpAllowed_iff : jumpAllowed is i = true ↔ ∃ j ∈ is, (i.operand 0).toInt = j.offset ∧
    (i.opcode.jumpsBack = true ∨ i.offset < j.offset) := by
  simp only [jumpAllowed, Bool.and_eq_true, decide_eq_true_eq, List.any_eq_true, Bool.or_eq_true]
  constructor
  · rintro ⟨⟨hnonneg, j, hj, hoffset⟩, hlater⟩
    exact ⟨j, hj, by omega, hoffset ▸ hlater⟩
  · rintro ⟨j, hj, hoffset, hlater⟩
    rw [hoffset, Int.toNat_natCast]
    exact ⟨⟨Int.natCast_nonneg _, j, hj, rfl⟩, hlater⟩

theorem jumpFault?_eq_none_iff :
    jumpFault? is i = none ↔ (i.opcode.isJump = true → jumpAllowed is i = true) := by
  unfold jumpFault?
  cases i.opcode.isJump <;> simp

theorem countFault?_eq_none_iff : countFault? i = none ↔
    ∀ matter r, i.opcode = .chars matter r → r ≠ .single → 0 ≤ (i.operand 1).toInt := by
  unfold countFault?
  cases hop : i.opcode with
  | chars matter r => cases r <;> simp
  | _ => simp

theorem operandFault?_eq_none_iff : code.operandFault? i = none ↔
    (∀ r, i.opcode = .chars .set r → Indexes (i.operand 0) code.classes.size) ∧
    (i.opcode = .multi → Indexes (i.operand 0) code.strings.size) ∧
    ∀ matter r, i.opcode = .chars matter r → matter ≠ .set →
      ∃ c : Char, (i.operand 0).toInt = c.toNat := by
  have hchar : (∃ c : Char, (i.operand 0).toInt = c.toNat) ↔ i.char? ≠ none := by
    simp only [← Instruction.char?_eq_some_iff, ← Option.isSome_iff_exists,
      ← Option.isSome_iff_ne_none]
  have hclass := @class?_eq_none_iff code (i.operand 0)
  have hstring := @string?_eq_none_iff code (i.operand 0)
  unfold operandFault?
  cases hop : i.opcode with
  | chars matter r =>
    cases matter with
    | set => cases hcls : code.class? (i.operand 0) <;> simp_all
    | _ => cases hc : i.char? <;> simp_all
  | multi => cases htext : code.string? (i.operand 0) <;> simp_all
  | _ => simp

/-- An instruction has no fault exactly if it meets the rules. -/
theorem fault?_eq_none_iff : code.fault? is i = none ↔ code.Meets is i := by
  have hfault : code.fault? is i = none ↔
      code.operandFault? i = none ∧ countFault? i = none ∧ jumpFault? is i = none := by
    unfold fault?
    split <;> [skip; split] <;> simp_all
  rw [hfault, operandFault?_eq_none_iff, countFault?_eq_none_iff, jumpFault?_eq_none_iff,
    jumpAllowed_iff]
  constructor
  · rintro ⟨⟨hclass, hstring, hchar⟩, hcount, htarget⟩
    exact ⟨hclass, hstring, hchar, hcount, htarget⟩
  · intro h
    exact ⟨⟨h.classIndex, h.stringIndex, h.character⟩, h.count, h.target⟩

/-- A code is accepted as some instructions exactly if it splits into them and they all meet the
rules. -/
theorem check_eq_ok_iff :
    code.check = .ok is ↔ code.Reads 0 is code.words.size ∧ ∀ i ∈ is, code.Meets is i := by
  constructor
  · intro h
    let p : Program := ⟨code, is, h⟩
    exact ⟨p.reads, fun i hi => fault?_eq_none_iff.mp (Program.fault?_eq_none (p := p) hi)⟩
  · rintro ⟨hreads, hmeets⟩
    have hnone : is.findSome? (code.fault? is) = none :=
      List.findSome?_eq_none_iff.mpr fun i hi => fault?_eq_none_iff.mpr (hmeets i hi)
    exact hreads.check_eq_ok hnone

end Code

end PatternSampler
