import PatternSampler.Proofs.Checks
/-!
# The verdict on a code

Which codes are accepted, and what the others are rejected for.  `Code.SplitsInto` says what a code
is split into by how instructions are written down as words, not by how words are read.
`Code.FirstFault` is the fault that counts where there are several: the place at which no whole
instruction starts, or else the first instruction that breaks a rule.  Main statement:
`Program.ofCode_verdict`.
-/
set_option autoImplicit false

namespace PatternSampler

/-! ## Words of an instruction -/

theorem Opcode.ofWord?_eq_some_iff {w : Int32} {op : Opcode} :
    ofWord? w = some op ↔ w &&& 63 = Int32.ofNat op.number := by
  have hlow : (w &&& 63).toBitVec.toNat = w.toUInt32.toNat % 64 :=
    Nat.and_two_pow_sub_one_eq_mod _ 6
  have hlt : op.number < 64 := by
    cases op with
    | chars m r => cases m <;> cases r <;> decide
    | _ => decide
  have hnumber : (Int32.ofNat op.number).toBitVec.toNat = op.number :=
    Nat.mod_eq_of_lt (by omega)
  have hword : w &&& 63 = Int32.ofNat op.number ↔ w.toUInt32.toNat % 64 = op.number := by
    rw [← hlow, ← Int32.toBitVec_inj, ← BitVec.toNat_inj, hnumber]
  rw [hword]
  constructor
  · intro h
    exact (number_of_ofNumber? h).symm
  · intro h
    rw [ofWord?, h, ofNumber?_number]

theorem Opcode.ofWord?_eq_none_iff {w : Int32} :
    ofWord? w = none ↔ ∀ op : Opcode, w &&& 63 ≠ Int32.ofNat op.number := by
  simp only [Option.eq_none_iff_forall_ne_some, ne_eq, ofWord?_eq_some_iff]

namespace Instruction

/-- The code word: the number of the opcode with the flags around it. -/
def word (i : Instruction) : Int32 := Int32.ofNat i.opcode.number ||| i.modifiers.bits

/-- The words that the instruction is written as. -/
def words (i : Instruction) : List Int32 := i.word :: i.operands

/-- The instruction has the operands that its opcode takes, and flags that leave room for the
opcode's number. -/
structure Shaped (i : Instruction) : Prop where
  operands : i.operands.length = i.opcode.operandCount
  flags : i.modifiers.bits &&& 63 = 0

variable {i : Instruction}

theorem Shaped.length_words (h : i.Shaped) : i.words.length = i.width := by
  rw [words, List.length_cons, h.operands, width, Opcode.width, Nat.add_comm]

theorem number_and_low (op : Opcode) : Int32.ofNat op.number &&& 63 = Int32.ofNat op.number := by
  cases op with
  | chars m r => cases m <;> cases r <;> decide
  | _ => decide

theorem number_and_high (op : Opcode) : Int32.ofNat op.number &&& ~~~63 = 0 := by
  cases op with
  | chars m r => cases m <;> cases r <;> decide
  | _ => decide

theorem or_and_distrib (a b m : Int32) : (a ||| b) &&& m = a &&& m ||| b &&& m :=
  Int32.toBitVec_inj.mp BitVec.and_or_distrib_right

/-- A word is what a mask keeps of it together with what the mask drops. -/
theorem and_or_and_not (w m : Int32) : w &&& m ||| w &&& ~~~m = w := by
  have h : w &&& (m ||| ~~~m) = w &&& m ||| w &&& ~~~m :=
    Int32.toBitVec_inj.mp BitVec.and_or_distrib_left
  rw [← h, Int32.or_not_self, Int32.and_neg_one]

/-- The number and the flags that are read from a word make up the word. -/
theorem number_or_bits {w : Int32} {op : Opcode} (h : Opcode.ofWord? w = some op) :
    Int32.ofNat op.number ||| (Modifiers.ofWord w).bits = w := by
  rw [← Opcode.ofWord?_eq_some_iff.mp h, Modifiers.ofWord, and_or_and_not]

theorem bits_ofWord_and_low (w : Int32) : (Modifiers.ofWord w).bits &&& 63 = 0 := by
  rw [Modifiers.ofWord, Int32.and_assoc, Int32.not_and_self, Int32.and_zero]

/-- The code word tells the opcode. -/
theorem Shaped.ofWord?_word (h : i.Shaped) : Opcode.ofWord? i.word = some i.opcode := by
  rw [Opcode.ofWord?_eq_some_iff, word, or_and_distrib, h.flags, Int32.or_zero, number_and_low]

/-- The code word tells the flags. -/
theorem Shaped.ofWord_word (h : i.Shaped) : Modifiers.ofWord i.word = i.modifiers := by
  have hflags := and_or_and_not i.modifiers.bits 63
  rw [h.flags, Int32.zero_or] at hflags
  rw [Modifiers.ofWord, word, or_and_distrib, number_and_high, Int32.zero_or, hflags]

end Instruction

namespace Code

variable {code : Code} {is : List Instruction} {i : Instruction} {a b : Nat} {e : ProgramError}

/-- An instruction is read at an offset exactly if its words stand there. -/
theorem instructionAt_eq_ok_iff :
    code.instructionAt a = .ok i ↔ i.offset = a ∧ i.Shaped ∧ code.HasAt a i.words := by
  constructor
  · intro h
    have hlt := lt_size_of_instructionAt h
    unfold instructionAt at h
    rw [Array.getElem?_eq_getElem hlt, Option.getD_some] at h
    dsimp only at h
    split at h
    · simp at h
    · rename_i op hop
      split at h
      · rename_i hsize
        -- the operands are the words that follow, as many as the opcode takes
        have hcount : (code.words.extract (a + 1) (a + op.width)).toList =
            (code.words.toList.drop (a + 1)).take op.operandCount := by
          rw [Array.toList_extract, List.extract_eq_take_drop, Opcode.width]
          congr 1
          omega
        rw [← Except.ok.inj h, hcount]
        refine ⟨rfl, ⟨?_, Instruction.bits_ofWord_and_low _⟩, ?_⟩
        · simp only [List.length_take, List.length_drop, Array.length_toList]
          simp only [Opcode.width] at hsize
          omega
        · have hdrop : code.words.toList.drop a = code.words[a] :: code.words.toList.drop (a + 1) :=
            List.drop_eq_getElem_cons (by simpa using hlt)
          rw [HasAt, Instruction.words, Instruction.word, Instruction.number_or_bits hop, hdrop]
          exact (List.prefix_cons_inj _).mpr (List.take_prefix _ _)
      · simp at h
  · rintro ⟨rfl, hshaped, hat⟩
    rw [instructionAt_of_words hshaped.ofWord?_word hat hshaped.operands, hshaped.ofWord_word]

/-! ## Splits -/

/-- The instructions are whole and follow one another from an offset on. -/
def Consecutive : Nat → List Instruction → Prop
  | _, [] => True
  | a, i :: is => i.offset = a ∧ i.Shaped ∧ Consecutive (a + i.words.length) is

/-- The words of the instructions, one after the other from offset 0 on, are those of the code. -/
def SplitsInto (code : Code) (is : List Instruction) : Prop :=
  Consecutive 0 is ∧ is.flatMap Instruction.words = code.words.toList

theorem reads_iff : code.Reads a is b ↔ Consecutive a is ∧
    code.HasAt a (is.flatMap Instruction.words) ∧
      b = a + (is.flatMap Instruction.words).length := by
  induction is generalizing a with
  | nil =>
    simp only [Reads, Consecutive, List.flatMap_nil, List.length_nil, Nat.add_zero, true_and]
    constructor
    · rintro rfl
      exact ⟨List.nil_prefix, rfl⟩
    · intro h
      exact h.2.symm
  | cons i is ih =>
    rw [Reads, ih, instructionAt_eq_ok_iff, Consecutive, List.flatMap_cons, hasAt_append,
      List.length_append, ← Nat.add_assoc]
    constructor
    · rintro ⟨⟨hoffset, hshaped, hat⟩, hrest⟩
      rw [hshaped.length_words]
      exact ⟨⟨hoffset, hshaped, hrest.1⟩, ⟨hat, hrest.2.1⟩, hrest.2.2⟩
    · rintro ⟨⟨hoffset, hshaped, hrest⟩, ⟨hat, hats⟩, hb⟩
      rw [hshaped.length_words] at hrest hats hb
      exact ⟨⟨hoffset, hshaped, hat⟩, hrest, hats, hb⟩

theorem splitsInto_iff : code.SplitsInto is ↔ code.Reads 0 is code.words.size := by
  rw [reads_iff, SplitsInto, Nat.zero_add, HasAt, List.drop_zero, ← Array.length_toList]
  constructor
  · rintro ⟨hconsecutive, hwords⟩
    rw [hwords]
    exact ⟨hconsecutive, List.prefix_rfl, rfl⟩
  · rintro ⟨hconsecutive, hat, hlength⟩
    exact ⟨hconsecutive, hat.eq_of_length hlength.symm⟩

/-! ## First faults -/

/-- Words are left at an offset, but no whole instruction with a known opcode starts there. -/
inductive Undecodable (code : Code) (a : Nat) : ProgramError → Prop where
  /-- the low six bits of the code word are the number of no opcode -/
  | unknownOpcode {w : Int32} (hw : code.words[a]? = some w)
      (h : ∀ op : Opcode, w &&& 63 ≠ Int32.ofNat op.number) :
      Undecodable code a (.unknownOpcode a w)
  /-- the code ends before the operands do -/
  | truncated {w : Int32} {op : Opcode} (hw : code.words[a]? = some w)
      (hop : w &&& 63 = Int32.ofNat op.number) (h : code.words.size < a + op.width) :
      Undecodable code a (.truncated a op)

/-- The rule that an instruction breaks, which is the one for its first operand if it breaks two. -/
inductive Breaks (code : Code) (is : List Instruction) (i : Instruction) : ProgramError → Prop where
  | classIndex {r : Repetition} (hop : i.opcode = .chars .set r)
      (h : ¬Indexes (i.operand 0) code.classes.size) :
      Breaks code is i (.classIndex i.offset i.opcode (i.operand 0) code.classes.size)
  | stringIndex (hop : i.opcode = .multi) (h : ¬Indexes (i.operand 0) code.strings.size) :
      Breaks code is i (.stringIndex i.offset i.opcode (i.operand 0) code.strings.size)
  | character {matter : Matter} {r : Repetition} (hop : i.opcode = .chars matter r)
      (hmatter : matter ≠ .set) (h : ∀ c : Char, (i.operand 0).toInt ≠ c.toNat) :
      Breaks code is i (.character i.offset i.opcode (i.operand 0))
  | negativeCount {matter : Matter} {r : Repetition} (hop : i.opcode = .chars matter r)
      (hr : r ≠ .single) (hclass : matter = .set → Indexes (i.operand 0) code.classes.size)
      (hchar : matter ≠ .set → ∃ c : Char, (i.operand 0).toInt = c.toNat)
      (h : (i.operand 1).toInt < 0) :
      Breaks code is i (.negativeCount i.offset i.opcode (i.operand 1))
  | jumpTarget (hjump : i.opcode.isJump = true) (h : ∀ j ∈ is, (i.operand 0).toInt = j.offset →
        i.opcode.jumpsBack = false ∧ j.offset ≤ i.offset) :
      Breaks code is i (.jumpTarget i.offset i.opcode (i.operand 0))

/-- The fault that counts among those of a code. -/
inductive FirstFault (code : Code) : ProgramError → Prop where
  /-- after some whole instructions there is no other, though words are left -/
  | decoding {is : List Instruction} {e : ProgramError} (hconsecutive : Consecutive 0 is)
      (hwords : is.flatMap Instruction.words <+: code.words.toList)
      (h : code.Undecodable (is.flatMap Instruction.words).length e) : FirstFault code e
  /-- the code splits, and all instructions before one that breaks a rule meet the rules -/
  | operand {is before after : List Instruction} {i : Instruction} {e : ProgramError}
      (hsplit : code.SplitsInto is) (his : is = before ++ i :: after)
      (hbefore : ∀ j ∈ before, code.Meets is j) (h : code.Breaks is i e) : FirstFault code e

theorem instructionAt_eq_error_iff (ha : a < code.words.size) :
    code.instructionAt a = .error e ↔ code.Undecodable a e := by
  have hw := Array.getElem?_eq_getElem ha
  constructor
  · intro h
    unfold instructionAt at h
    rw [hw, Option.getD_some] at h
    dsimp only at h
    split at h
    · rename_i hnone
      rw [← Except.error.inj h]
      exact .unknownOpcode hw (Opcode.ofWord?_eq_none_iff.mp hnone)
    · rename_i op hop
      split at h
      · simp at h
      · rename_i hsize
        rw [← Except.error.inj h]
        exact .truncated hw (Opcode.ofWord?_eq_some_iff.mp hop) (Nat.not_le.mp hsize)
  · intro h
    cases h with
    | @unknownOpcode w hw h =>
      have hnone : Opcode.ofWord? w = none := Opcode.ofWord?_eq_none_iff.mpr h
      simp only [instructionAt, hw, Option.getD_some, hnone]
    | @truncated w op hw hop h =>
      have hsome : Opcode.ofWord? w = some op := Opcode.ofWord?_eq_some_iff.mpr hop
      simp only [instructionAt, hw, Option.getD_some, hsome, if_neg (Nat.not_le.mpr h)]

theorem Undecodable.lt_size (h : code.Undecodable a e) : a < code.words.size := by
  cases h with
  | unknownOpcode hw | truncated hw => exact (Array.getElem?_eq_some_iff.mp hw).1

/-- The split fails exactly if it comes to an offset where no whole instruction starts. -/
theorem instructionsFrom_eq_error_iff : code.instructionsFrom a = .error e ↔
    ∃ is b, code.Reads a is b ∧ code.Undecodable b e := by
  constructor
  · intro h
    fun_induction instructionsFrom code a with
    | case1 a ha e' hat =>
      obtain rfl := Except.error.inj h
      exact ⟨[], a, rfl, (instructionAt_eq_error_iff ha).mp hat⟩
    | case2 a ha i hat e' hrest ih =>
      obtain rfl := Except.error.inj h
      obtain ⟨is, b, hreads, hfault⟩ := ih hrest
      exact ⟨i :: is, b, ⟨hat, hreads⟩, hfault⟩
    | case3 a ha i hat rest hrest ih => simp at h
    | case4 a ha => simp at h
  · rintro ⟨is, b, hreads, hfault⟩
    induction is generalizing a with
    | nil =>
      obtain rfl : a = b := hreads
      have hat := (instructionAt_eq_error_iff hfault.lt_size).mpr hfault
      rw [instructionsFrom, if_pos hfault.lt_size]
      simp only [hat]
    | cons i is ih =>
      rw [instructionsFrom, if_pos (lt_size_of_instructionAt hreads.1)]
      simp only [hreads.1, ih hreads.2]

/-- The first operand of a jump is its target, and it has no count. -/
theorem fault?_of_isJump (hjump : i.opcode.isJump = true) :
    code.fault? is i = jumpFault? is i := by
  have hoperand : code.operandFault? i = none := by
    unfold operandFault?
    cases hop : i.opcode <;> simp_all [Opcode.isJump]
  have hcount : countFault? i = none := by
    unfold countFault?
    cases hop : i.opcode <;> simp_all [Opcode.isJump]
  simp only [fault?, hoperand, hcount]

theorem breaks_of_operandFault? (h : code.operandFault? i = some e) : code.Breaks is i e := by
  unfold operandFault? at h
  split at h
  · rename_i r hop
    split at h
    · simp at h
    · rw [← Option.some.inj h]
      exact .classIndex hop (class?_eq_none_iff.mp ‹_›)
  · rename_i matter r hmatter hop
    split at h
    · simp at h
    · rename_i hnone
      rw [← Option.some.inj h]
      refine .character hop hmatter fun c hc => ?_
      rw [Instruction.char?_eq_some_iff.mpr hc] at hnone
      simp at hnone
  · rename_i hop
    split at h
    · simp at h
    · rw [← Option.some.inj h]
      exact .stringIndex hop (string?_eq_none_iff.mp ‹_›)
  · simp at h

theorem breaks_of_countFault? (hoperand : code.operandFault? i = none)
    (h : countFault? i = some e) : code.Breaks is i e := by
  obtain ⟨hclass, -, hchar⟩ := operandFault?_eq_none_iff.mp hoperand
  unfold countFault? at h
  split at h
  · simp at h
  · rename_i matter r hr hop
    split at h
    · rename_i hnegative
      rw [← Option.some.inj h]
      exact .negativeCount hop hr (fun hset => hclass r (hset ▸ hop)) (hchar matter r hop) hnegative
    · simp at h
  · simp at h

theorem breaks_of_jumpFault? (h : jumpFault? is i = some e) : code.Breaks is i e := by
  unfold jumpFault? at h
  split at h
  · rename_i hfault
    rw [← Option.some.inj h]
    simp only [Bool.and_eq_true, Bool.not_eq_true', ← Bool.not_eq_true, jumpAllowed_iff] at hfault
    obtain ⟨hjump, hnot⟩ := hfault
    refine .jumpTarget hjump fun j hj htarget => ?_
    -- a target that is an instruction is wrong only for where it lies
    by_contra hallowed
    refine hnot ⟨j, hj, htarget, ?_⟩
    cases hback : i.opcode.jumpsBack with
    | true => exact .inl rfl
    | false => exact .inr (Nat.not_le.mp fun hle => hallowed ⟨hback, hle⟩)
  · simp at h

/-- The fault of an instruction is the rule that it breaks. -/
theorem fault?_eq_some_iff : code.fault? is i = some e ↔ code.Breaks is i e := by
  constructor
  · intro h
    unfold fault? at h
    split at h
    · rename_i e' hoperand
      obtain rfl := Option.some.inj h
      exact breaks_of_operandFault? hoperand
    · rename_i hoperand
      split at h
      · rename_i e' hcount
        obtain rfl := Option.some.inj h
        exact breaks_of_countFault? hoperand hcount
      · exact breaks_of_jumpFault? h
  · intro h
    cases h with
    | classIndex hop h =>
      simp only [fault?, operandFault?, hop, class?_eq_none_iff.mpr h]
    | stringIndex hop h =>
      simp only [fault?, operandFault?, hop, string?_eq_none_iff.mpr h]
    | @character matter r hop hmatter h =>
      have hnone : i.char? = none := by
        rw [Option.eq_none_iff_forall_ne_some]
        exact fun c hc => h c (Instruction.char?_eq_some_iff.mp hc)
      cases matter <;> simp_all [fault?, operandFault?]
    | @negativeCount matter r hop hr hclass hchar h =>
      have hoperand : code.operandFault? i = none := by
        rw [operandFault?_eq_none_iff, hop]
        refine ⟨fun r' hr' => hclass (by simp_all), by simp, fun matter' r' hop' hmatter => ?_⟩
        exact hchar (by simp_all)
      cases r <;> simp_all [fault?, countFault?]
    | jumpTarget hjump h =>
      have hnot : ¬jumpAllowed is i = true := by
        rw [jumpAllowed_iff]
        rintro ⟨j, hj, htarget, hallowed⟩
        obtain ⟨hback, hle⟩ := h j hj htarget
        rcases hallowed with hb | hlt
        · simp [hback] at hb
        · omega
      rw [Bool.not_eq_true] at hnot
      rw [fault?_of_isJump hjump, jumpFault?, hjump, hnot]
      rfl

theorem firstFault_of_decoding (h : code.instructionsFrom 0 = .error e) : code.FirstFault e := by
  obtain ⟨is, b, hreads, hfault⟩ := instructionsFrom_eq_error_iff.mp h
  obtain ⟨hconsecutive, hwords, rfl⟩ := reads_iff.mp hreads
  rw [Nat.zero_add] at hfault
  exact .decoding hconsecutive hwords hfault

theorem firstFault_of_operand (hreads : code.Reads 0 is code.words.size)
    (h : is.findSome? (code.fault? is) = some e) : code.FirstFault e := by
  obtain ⟨before, i, after, his, hfault, hbefore⟩ := List.findSome?_eq_some_iff.mp h
  exact .operand (splitsInto_iff.mpr hreads) his
    (fun j hj => fault?_eq_none_iff.mp (hbefore j hj)) (fault?_eq_some_iff.mp hfault)

/-- A code is rejected for its first fault. -/
theorem check_eq_error_iff : code.check = .error e ↔ code.FirstFault e := by
  constructor
  · intro h
    unfold check at h
    split at h
    · rename_i e' hsplit
      obtain rfl := Except.error.inj h
      exact firstFault_of_decoding hsplit
    · rename_i is hsplit
      split at h
      · rename_i e' hfind
        obtain rfl := Except.error.inj h
        exact firstFault_of_operand (reads_of_instructionsFrom (Nat.zero_le _) hsplit) hfind
      · simp at h
  · intro h
    cases h with
    | decoding hconsecutive hwords h =>
      have hreads := reads_iff.mpr ⟨hconsecutive, hwords, rfl⟩
      rw [Nat.zero_add] at hreads
      simp only [check, instructionsFrom_eq_error_iff.mpr ⟨_, _, hreads, h⟩]
    | @operand is before after i _ hsplit his hbefore h =>
      have hfind : is.findSome? (code.fault? is) = some e :=
        List.findSome?_eq_some_iff.mpr ⟨before, i, after, his, fault?_eq_some_iff.mpr h,
          fun j hj => fault?_eq_none_iff.mpr (hbefore j hj)⟩
      simp only [check, (splitsInto_iff.mp hsplit).instructionsFrom_eq, hfind]

end Code

namespace Program

theorem ofCode_eq_ok_iff {code : Code} {p : Program} : ofCode code = .ok p ↔ p.code = code := by
  constructor
  · exact code_of_ofCode
  · rintro rfl
    exact ofCode_code p

theorem ofCode_eq_error_iff {code : Code} {e : ProgramError} :
    ofCode code = .error e ↔ code.check = .error e := by
  constructor
  · intro h
    unfold ofCode at h
    split at h
    · rename_i e' hcheck
      rw [hcheck, Except.error.inj h]
    · simp at h
  · exact ofCode_eq_error

/-- A code is accepted exactly if it splits into whole instructions with known opcodes that all meet
the rules for their operands.  The instructions of the program are those of the split, so that they
are written as the words of the code.  A code that is not accepted is rejected for its first fault:
that of the split if there is one, otherwise that of the first instruction that breaks a rule. -/
theorem ofCode_verdict (code : Code) :
    ((∃ p, ofCode code = .ok p) ↔
      ∃ is, code.SplitsInto is ∧ ∀ i ∈ is, code.Meets is i) ∧
    (∀ p, ofCode code = .ok p →
      p.code = code ∧ code.SplitsInto p.instructions ∧
        p.instructions.flatMap Instruction.words = code.words.toList) ∧
    ∀ e, ofCode code = .error e ↔ code.FirstFault e := by
  refine ⟨⟨?_, ?_⟩, ?_, fun e => ?_⟩
  · rintro ⟨p, hp⟩
    obtain rfl := ofCode_eq_ok_iff.mp hp
    obtain ⟨hreads, hmeets⟩ := Code.check_eq_ok_iff.mp p.checked
    exact ⟨p.instructions, Code.splitsInto_iff.mpr hreads, hmeets⟩
  · rintro ⟨is, hsplit, hmeets⟩
    exact ⟨_, ofCode_eq_ok (Code.check_eq_ok_iff.mpr ⟨Code.splitsInto_iff.mp hsplit, hmeets⟩)⟩
  · intro p hp
    obtain rfl := ofCode_eq_ok_iff.mp hp
    have hsplit : p.code.SplitsInto p.instructions := Code.splitsInto_iff.mpr p.reads
    exact ⟨rfl, hsplit, hsplit.2⟩
  · rw [ofCode_eq_error_iff, Code.check_eq_error_iff]

/-- A negative code word, which holds an opcode below its flags, and a jump to the last
instruction. -/
def flaggedCode : Code := ⟨#[-55, 97, 23, 4, 40], #[], #[]⟩

/-- The instructions of `flaggedCode`. -/
def flaggedInstructions : List Instruction :=
  [⟨0, .chars .one .single, ⟨-64⟩, [97]⟩, ⟨2, .lazybranch, ⟨0⟩, [4]⟩, ⟨4, .stop, ⟨0⟩, []⟩]

/-- No character and then no opcode.  The latter counts. -/
def faultyCode : Code := ⟨#[9, -1, 43], #[], #[]⟩

/-- One code is accepted and written back, flags included.  The other is rejected for its last word
and not for the first operand. -/
theorem ofCode_verdict_flaggedCode :
    (∃ p, ofCode flaggedCode = .ok p ∧
      p.instructions.flatMap Instruction.words = [-55, 97, 23, 4, 40]) ∧
      ofCode faultyCode = .error (.unknownOpcode 2 43) := by
  have hsplit : flaggedCode.SplitsInto flaggedInstructions :=
    ⟨⟨rfl, ⟨rfl, by decide⟩, rfl, ⟨rfl, by decide⟩, rfl, ⟨rfl, by decide⟩, trivial⟩, by decide⟩
  have hmeets : ∀ i ∈ flaggedInstructions, flaggedCode.Meets flaggedInstructions i := by
    simp only [← Code.fault?_eq_none_iff]
    decide
  have hfault : faultyCode.FirstFault (.unknownOpcode 2 43) :=
    @Code.FirstFault.decoding _ [⟨0, .chars .one .single, ⟨0⟩, [-1]⟩] _
      ⟨rfl, ⟨rfl, by decide⟩, trivial⟩ ⟨[43], by decide⟩
      (.unknownOpcode rfl (Opcode.ofWord?_eq_none_iff.mp (by decide)))
  obtain ⟨haccepted, hwritten, -⟩ := ofCode_verdict flaggedCode
  obtain ⟨p, hp⟩ := haccepted.mpr ⟨flaggedInstructions, hsplit, hmeets⟩
  exact ⟨⟨p, hp, (hwritten p hp).2.2⟩, ((ofCode_verdict faultyCode).2.2 _).mpr hfault⟩

end Program

end PatternSampler
