import Mathlib.Algebra.GroupWithZero.Nat
import PatternSampler.Program.Layout
/-!
# Reading emitted words back

An instruction that a layout emits is read back from the code as it was emitted.  `Code.HasAt` says
that a code holds given words from an offset on, and `Code.Reads` that it reads as given
instructions, one after the other, from an offset up to another.
-/
set_option autoImplicit false

namespace PatternSampler

/-! ## Numbers as operands -/

/-- A code whose offsets and table indices all fit an operand. -/
structure Code.Fits (code : Code) : Prop where
  words : code.words.size < 2 ^ 31
  classes : code.classes.size < 2 ^ 31
  strings : code.strings.size < 2 ^ 31

theorem Opcode.ofWord?_word (op : Opcode) (rtl ci : Bool) :
    Opcode.ofWord? (op.word rtl ci) = some op := by
  have hlow : (op.word rtl ci).toUInt32.toNat % 64 = op.number := by
    cases op with
    | chars m r => cases m <;> cases r <;> cases rtl <;> cases ci <;> decide
    | _ => cases rtl <;> cases ci <;> decide
  rw [Opcode.ofWord?, hlow, Opcode.ofNumber?_number]

theorem Layout.toInt_offsetWord {n : Nat} (h : n < 2 ^ 31) : (Layout.offsetWord n).toInt = n :=
  Int32.toInt_ofNat_of_lt h

theorem Tables.toInt_indexWord {n : Nat} (h : n < 2 ^ 31) : (Tables.indexWord n).toInt = n :=
  Int32.toInt_ofNat_of_lt h

theorem Layout.countWord_eq (n : Nat) :
    Layout.countWord n = Int32.ofNat (min n 2147483647) := by
  unfold Layout.countWord
  split
  · rename_i h
    rw [Nat.min_eq_left h]
  · rename_i h
    rw [Nat.min_eq_right (by omega)]
    rfl

theorem Layout.toInt_countWord (n : Nat) :
    (Layout.countWord n).toInt = (min n 2147483647 : Nat) := by
  rw [Layout.countWord_eq]
  exact Int32.toInt_ofNat_of_lt (by omega)

theorem Layout.countWord_eq_unbounded_iff (n : Nat) :
    Layout.countWord n = unbounded ↔ 2147483647 ≤ n := by
  rw [← Int32.toInt_inj, Layout.toInt_countWord]
  have : unbounded.toInt = 2147483647 := by decide
  omega

/-! ## Words at an offset -/

namespace Code

/-- The words of the code from an offset on start with the given ones. -/
def HasAt (code : Code) (offset : Nat) (words : List Int32) : Prop :=
  words <+: code.words.toList.drop offset

theorem hasAt_append {code : Code} {offset : Nat} {ws vs : List Int32} :
    code.HasAt offset (ws ++ vs) ↔
      code.HasAt offset ws ∧ code.HasAt (offset + ws.length) vs := by
  unfold HasAt
  rw [← List.drop_drop]
  constructor
  · rintro ⟨rest, hrest⟩
    rw [← hrest]
    refine ⟨⟨vs ++ rest, by simp⟩, ?_⟩
    rw [List.append_assoc, List.drop_left]
    exact List.prefix_append vs rest
  · rintro ⟨⟨rest, hrest⟩, hvs⟩
    rw [← hrest, List.drop_left] at hvs
    obtain ⟨tail, htail⟩ := hvs
    exact ⟨tail, by rw [List.append_assoc, htail, hrest]⟩

theorem HasAt.le_size {code : Code} {offset : Nat} {w : Int32} {ws : List Int32}
    (h : code.HasAt offset (w :: ws)) : offset + (ws.length + 1) ≤ code.words.size := by
  have hlen := h.length_le
  simp only [List.length_cons, List.length_drop, Array.length_toList] at hlen
  omega

end Code

/-! ## One instruction -/

/-- The instruction that the words of `emit` read as at an offset. -/
def Layout.instruction (options : PatternOptions) (rtl : Bool) (offset : Nat) (op : Opcode)
    (operands : List Int32) : Instruction :=
  ⟨offset, op, .ofWord (op.word rtl (options.caseInsensitive && Layout.comparesText op)), operands⟩

@[simp] theorem Layout.instruction_offset (options : PatternOptions) (rtl : Bool) (offset : Nat)
    (op : Opcode) (operands : List Int32) :
    (Layout.instruction options rtl offset op operands).offset = offset := rfl

@[simp] theorem Layout.instruction_opcode (options : PatternOptions) (rtl : Bool) (offset : Nat)
    (op : Opcode) (operands : List Int32) :
    (Layout.instruction options rtl offset op operands).opcode = op := rfl

@[simp] theorem Layout.instruction_operands (options : PatternOptions) (rtl : Bool) (offset : Nat)
    (op : Opcode) (operands : List Int32) :
    (Layout.instruction options rtl offset op operands).operands = operands := rfl

@[simp] theorem Layout.instruction_width (options : PatternOptions) (rtl : Bool) (offset : Nat)
    (op : Opcode) (operands : List Int32) :
    (Layout.instruction options rtl offset op operands).width = op.width := rfl

@[simp] theorem Layout.length_emit (options : PatternOptions) (rtl : Bool) (op : Opcode)
    (operands : List Int32) :
    (Layout.emit options rtl op operands).length = operands.length + 1 := rfl

/-- An instruction is read where its code word and its operands stand. -/
theorem Code.instructionAt_of_words {code : Code} {offset : Nat} {word : Int32} {op : Opcode}
    {operands : List Int32} (hop : Opcode.ofWord? word = some op)
    (h : code.HasAt offset (word :: operands)) (hcount : operands.length = op.operandCount) :
    code.instructionAt offset = .ok ⟨offset, op, .ofWord word, operands⟩ := by
  have hsize := h.le_size
  obtain ⟨rest, hrest⟩ := h
  have hword : code.words[offset]? = some word := by
    have := congrArg (·[0]?) hrest
    simpa using this.symm
  have hoperands :
      (code.words.extract (offset + 1) (offset + op.width)).toList = operands := by
    rw [Array.toList_extract, List.extract_eq_take_drop, ← List.drop_drop, ← hrest]
    simp only [List.cons_append, List.drop_succ_cons, List.drop_zero]
    rw [List.take_append_of_le_length (by simp only [Opcode.width]; omega)]
    exact List.take_of_length_le (by simp only [Opcode.width]; omega)
  have hwidth : offset + op.width ≤ code.words.size := by
    simp only [Opcode.width]
    omega
  simp only [Code.instructionAt, hword, Option.getD_some, hop, hwidth, if_pos, hoperands]

/-- What is emitted reads back. -/
theorem Code.instructionAt_of_hasAt {code : Code} {options : PatternOptions} {rtl : Bool}
    {offset : Nat} {op : Opcode} {operands : List Int32}
    (h : code.HasAt offset (Layout.emit options rtl op operands))
    (hcount : operands.length = op.operandCount) :
    code.instructionAt offset = .ok (Layout.instruction options rtl offset op operands) :=
  instructionAt_of_words (Opcode.ofWord?_word op rtl _) h hcount

namespace Code

/-- What is read at an offset starts there and ends within the code. -/
theorem instructionAt_bounds {code : Code} {a : Nat} {i : Instruction}
    (h : code.instructionAt a = .ok i) : i.offset = a ∧ a + i.width ≤ code.words.size := by
  simp only [instructionAt] at h
  split at h
  · simp at h
  · split at h
    · rename_i hle
      rw [← Except.ok.inj h]
      exact ⟨rfl, hle⟩
    · simp at h

theorem instructionAt_offset {code : Code} {a : Nat} {i : Instruction}
    (h : code.instructionAt a = .ok i) : i.offset = a := (instructionAt_bounds h).1

theorem lt_size_of_instructionAt {code : Code} {a : Nat} {i : Instruction}
    (h : code.instructionAt a = .ok i) : a < code.words.size := by
  have := (instructionAt_bounds h).2
  have := width_pos i
  omega

/-! ## Instructions in a row -/

/-- The code reads as the given instructions from one offset up to another. -/
def Reads (code : Code) : Nat → List Instruction → Nat → Prop
  | a, [], b => a = b
  | a, i :: is, b => code.instructionAt a = .ok i ∧ Reads code (a + i.width) is b

namespace Reads

variable {code : Code}

theorem nil (a : Nat) : code.Reads a [] a := rfl

theorem single {a : Nat} {i : Instruction} (h : code.instructionAt a = .ok i) :
    code.Reads a [i] (a + i.width) := ⟨h, rfl⟩

theorem append_iff {a b : Nat} {is js : List Instruction} :
    code.Reads a (is ++ js) b ↔ ∃ m, code.Reads a is m ∧ code.Reads m js b := by
  induction is generalizing a with
  | nil => simp [Reads]
  | cons i is ih => simp [Reads, ih, and_assoc]

theorem append {a m b : Nat} {is js : List Instruction} (hi : code.Reads a is m)
    (hj : code.Reads m js b) : code.Reads a (is ++ js) b := append_iff.mpr ⟨m, hi, hj⟩

/-- Where something is read, the first instruction stands. -/
theorem start_mem {a b : Nat} {is : List Instruction} (h : code.Reads a is b) :
    a = b ∨ ∃ i ∈ is, i.offset = a := by
  cases is with
  | nil => exact .inl h
  | cons i is => exact .inr ⟨i, List.mem_cons_self, instructionAt_offset h.1⟩

theorem le {a b : Nat} {is : List Instruction} (h : code.Reads a is b) : a ≤ b := by
  induction is generalizing a with
  | nil => exact Nat.le_of_eq h
  | cons i is ih =>
    have := ih h.2
    omega

/-- The widths of the instructions add up to the distance. -/
theorem stop_eq {a b : Nat} {is : List Instruction} (h : code.Reads a is b) :
    b = a + (is.map Instruction.width).sum := by
  induction is generalizing a with
  | nil => exact h.symm
  | cons i is ih =>
    rw [ih h.2, List.map_cons, List.sum_cons, Nat.add_assoc]

theorem lt_of_mem {a b : Nat} {is : List Instruction} (h : code.Reads a is b)
    {i : Instruction} (hi : i ∈ is) : a ≤ i.offset ∧ i.offset + i.width ≤ b := by
  induction is generalizing a with
  | nil => simp at hi
  | cons j is ih =>
    rcases List.mem_cons.mp hi with rfl | hi
    · rw [instructionAt_offset h.1]
      exact ⟨Nat.le_refl a, h.2.le⟩
    · have := ih h.2 hi
      omega

/-- A code that reads as instructions up to its end splits into them. -/
theorem instructionsFrom_eq {a : Nat} {is : List Instruction}
    (h : code.Reads a is code.words.size) : code.instructionsFrom a = .ok is := by
  induction is generalizing a with
  | nil =>
    rw [instructionsFrom, if_neg (by rw [h]; omega)]
  | cons i is ih =>
    rw [instructionsFrom, if_pos (lt_size_of_instructionAt h.1)]
    simp only [h.1, ih h.2]

/-- A code that splits into instructions is accepted if none of them has a fault. -/
theorem check_eq_ok {is : List Instruction} (h : code.Reads 0 is code.words.size)
    (hnone : is.findSome? (code.fault? is) = none) : code.check = .ok is := by
  simp only [check, h.instructionsFrom_eq, hnone]

/-- A code that splits into instructions is refused with their first fault. -/
theorem check_eq_error {is : List Instruction} {e : ProgramError}
    (h : code.Reads 0 is code.words.size) (hfault : is.findSome? (code.fault? is) = some e) :
    code.check = .error e := by
  simp only [check, h.instructionsFrom_eq, hfault]

end Reads

end Code

end PatternSampler
