import PatternSampler.Proofs.Placement
/-!
# What is laid out is a program

Every instruction that a node is laid out as meets the rules for its operands, and every jump goes
to the start of an instruction of the node or to what comes right after the node.  Put together for
the whole tree, the code passes every check.
-/
set_option autoImplicit false

namespace PatternSampler.Layout

variable {code : Code} {options : PatternOptions}

/-! ## Operands -/

/-- An instruction meets the rules for operands that are no jump targets. -/
def Faultless (code : Code) (i : Instruction) : Prop :=
  code.operandFault? i = none ∧ Code.countFault? i = none

theorem toNat_lt_of_char (c : Char) : c.toNat < 2 ^ 31 := by
  have h : c.toNat.isValidChar := c.valid
  unfold Nat.isValidChar at h
  omega

theorem char?_ofNat_toNat {i : Instruction} {c : Char} (h : i.operand 0 = Int32.ofNat c.toNat) :
    i.char? = some c := by
  simp only [Instruction.char?, h, Int32.toInt_ofNat_of_lt (toNat_lt_of_char c),
    Int.toNat_natCast, Text.scalar?_toNat]
  rw [if_neg (by omega)]

theorem toInt_countWord_nonneg (n : Nat) : 0 ≤ (countWord n).toInt := by
  rw [toInt_countWord]
  omega

theorem faultless_chars {s : Single} {matter : Matter} {operand : Int32}
    (hs : s.Denotes code matter operand) {i : Instruction} {r : Repetition}
    (hop : i.opcode = .chars matter r) (hoperand : i.operand 0 = operand)
    (hcount : 0 ≤ (i.operand 1).toInt) : Faultless code i := by
  constructor
  · cases s with
    | one c | notOne c =>
      obtain ⟨rfl, rfl⟩ := hs
      simp [Code.operandFault?, hop, char?_ofNat_toNat hoperand]
    | member cls =>
      obtain ⟨rfl, hcls⟩ := hs
      simp [Code.operandFault?, hop, hoperand, hcls]
  · simp only [Code.countFault?, hop]
    cases r with
    | single => rfl
    | _ => simpa using hcount

theorem faultless_of_plain {i : Instruction} (hchars : i.opcode.repetition? = none)
    (hmulti : i.opcode ≠ .multi) : Faultless code i := by
  unfold Faultless Code.operandFault? Code.countFault?
  cases hop : i.opcode <;> simp_all [Opcode.repetition?]

/-! ## Jumps -/

/-- The offsets at which the instructions of a stretch of code start, and its end. -/
def Starts (is : List Instruction) (b t : Nat) : Prop := t = b ∨ ∃ i ∈ is, i.offset = t

/-- If the instruction jumps, it does so to an offset of which `P` holds, and forward unless it
closes a loop. -/
def LandsOn (P : Nat → Prop) (i : Instruction) : Prop :=
  i.opcode.isJump = true →
    ∃ t : Nat, (i.operand 0).toInt = t ∧ P t ∧ (i.opcode.jumpsBack = false → i.offset < t)

/-- An instruction meets every rule as a part of a stretch of code that ends at `b`. -/
def Sound (code : Code) (is : List Instruction) (b : Nat) (i : Instruction) : Prop :=
  Faultless code i ∧ LandsOn (Starts is b) i

/-- What is sound in a part of a stretch is sound in the whole. -/
theorem Sound.mono {is js : List Instruction} {m b : Nat} {i : Instruction}
    (h : Sound code js m i) (hsub : ∀ j ∈ js, j ∈ is) (hm : Starts is b m) :
    Sound code is b i := by
  refine ⟨h.1, fun hjump => ?_⟩
  obtain ⟨t, ht, hstart, hforward⟩ := h.2 hjump
  refine ⟨t, ht, ?_, hforward⟩
  rcases hstart with rfl | ⟨j, hj, rfl⟩
  · exact hm
  · exact .inr ⟨j, hsub j hj, rfl⟩

/-- An instruction that neither jumps nor has operands to check. -/
theorem sound_of_plain {is : List Instruction} {b : Nat} {i : Instruction}
    (hjump : i.opcode.isJump = false) (hchars : i.opcode.repetition? = none)
    (hmulti : i.opcode ≠ .multi) : Sound code is b i :=
  ⟨faultless_of_plain hchars hmulti, fun h => by rw [hjump] at h; simp at h⟩

/-- A jump to the start of an instruction. -/
theorem sound_of_jump {is : List Instruction} {b t : Nat} {i : Instruction}
    (hop : i.opcode.isJump = true) (hoperand : i.operand 0 = offsetWord t) (hsize : t < 2 ^ 31)
    (hstart : Starts is b t) (hforward : i.opcode.jumpsBack = false → i.offset < t) :
    Sound code is b i := by
  refine ⟨faultless_of_plain ?_ ?_, fun _ => ⟨t, ?_, hstart, hforward⟩⟩
  · cases h : i.opcode <;> simp_all [Opcode.isJump, Opcode.repetition?]
  · rintro h
    simp [h, Opcode.isJump] at hop
  · rw [hoperand, toInt_offsetWord hsize]

/-- Where the instructions of a stretch are read, those of a later part start at one of them. -/
theorem starts_of_reads {is js : List Instruction} {m b : Nat} (h : code.Reads m js b)
    (hsub : ∀ j ∈ js, j ∈ is) : Starts is b m := by
  rcases h.start_mem with rfl | ⟨j, hj, rfl⟩
  · exact .inl rfl
  · exact .inr ⟨j, hsub j hj, rfl⟩

/-- What is sound in a part of a stretch stays so between what stands before the part and after. -/
theorem Sound.framed {js closing : List Instruction} {m b : Nat} {i : Instruction}
    (h : Sound code js m i) (opening : List Instruction) (hr : code.Reads m closing b) :
    Sound code (opening ++ (js ++ closing)) b i :=
  h.mono (by simp +contextual) (starts_of_reads hr (by simp +contextual))

/-! ## Nodes -/

/-- The instructions of a single character all name it, with a count that is not negative. -/
theorem mem_singleInstructions {rtl : Bool} {a : Nat} {matter : Matter} {operand : Int32}
    {min : Nat} {max : Option Nat} {isLazy : Bool} {i : Instruction}
    (hi : i ∈ singleInstructions options rtl a matter operand min max isLazy) :
    (∃ r, i.opcode = .chars matter r) ∧ i.operand 0 = operand ∧ 0 ≤ (i.operand 1).toInt := by
  simp only [singleInstructions] at hi
  by_cases honce : min = 1 ∧ max = some 1
  · rw [if_pos honce] at hi
    obtain rfl := List.mem_singleton.mp hi
    exact ⟨⟨_, rfl⟩, rfl, Int.le_refl 0⟩
  rw [if_neg honce] at hi
  rcases List.mem_append.mp hi with hi | hi
  · split at hi
    · obtain rfl := List.mem_singleton.mp hi
      exact ⟨⟨_, rfl⟩, rfl, toInt_countWord_nonneg min⟩
    · simp at hi
  · cases max with
    | none =>
      obtain rfl := List.mem_singleton.mp hi
      exact ⟨⟨_, rfl⟩, rfl, (by decide : 0 ≤ unbounded.toInt)⟩
    | some max =>
      simp only at hi
      split at hi
      · simp at hi
      · obtain rfl := List.mem_singleton.mp hi
        exact ⟨⟨_, rfl⟩, rfl, toInt_countWord_nonneg (max - min)⟩

theorem sound_of_laidSingle {rtl : Bool} {a : Nat} {s : Single} {min : Nat} {max : Option Nat}
    {isLazy : Bool} {is : List Instruction} {b : Nat}
    (h : LaidSingle code options rtl a s min max isLazy is) : ∀ i ∈ is, Sound code is b i := by
  obtain ⟨matter, operand, hs, rfl⟩ := h
  intro i hi
  obtain ⟨⟨r, hop⟩, hoperand, hcount⟩ := mem_singleInstructions hi
  exact ⟨faultless_chars hs hop hoperand hcount, fun hjump => by simp [hop, Opcode.isJump] at hjump⟩

theorem sound_of_laidRun {rtl : Bool} {a : Nat} {run : List Char} {is : List Instruction} {b : Nat}
    (h : LaidRun code options rtl a run is) : ∀ i ∈ is, Sound code is b i := by
  intro i hi
  match run, h with
  | [], h =>
    rw [show is = [] from h] at hi
    simp at hi
  | [c], h =>
    have hsingle : LaidSingle code options rtl a (.one c) 1 (some 1) false is :=
      ⟨.one, _, ⟨rfl, rfl⟩, h⟩
    exact sound_of_laidSingle hsingle i hi
  | c :: d :: cs, ⟨operand, hstring, h⟩ =>
    rw [h] at hi
    obtain rfl := List.mem_singleton.mp hi
    have hoperand : (instruction options rtl a .multi [operand]).operand 0 = operand := rfl
    refine ⟨⟨?_, rfl⟩, fun hjump => by simp [Opcode.isJump] at hjump⟩
    simp only [Code.operandFault?, instruction_opcode, hoperand, hstring]

theorem sound_of_laidItems {rtl : Bool} {items : List Node}
    (ih : ∀ item ∈ items, ∀ {a is b}, Laid code options rtl a item is → code.Reads a is b →
      b ≤ code.words.size → ∀ i ∈ is, Sound code is b i)
    {a : Nat} {run : List Char} {is : List Instruction} {b : Nat}
    (h : LaidItems code options rtl a run items is) (hr : code.Reads a is b)
    (hb : b ≤ code.words.size) : ∀ i ∈ is, Sound code is b i := by
  induction items generalizing a run is with
  | nil => exact sound_of_laidRun h
  | cons item rest ihRest =>
    have ihTail := @ihRest fun n hn => ih n (List.mem_cons_of_mem item hn)
    cases hchar : isChar item with
    | true =>
      obtain ⟨c, rfl⟩ := exists_char_of_isChar hchar
      exact ihTail h hr
    | false =>
      obtain ⟨before, js, after, rfl, ⟨hbefore, -⟩, ⟨hjs, hrItem⟩, hafter, hrAfter⟩ :=
        h.split hchar hr
      have hstart : Starts (before ++ (js ++ after)) b (a + runWidth run) :=
        starts_of_reads (Code.Reads.append_iff.mpr ⟨_, hrItem, hrAfter⟩) (by simp +contextual)
      intro i hi
      rcases List.mem_append.mp hi with hi | hi
      · exact (sound_of_laidRun hbefore i hi).mono (by simp +contextual) hstart
      rcases List.mem_append.mp hi with hi | hi
      · exact (ih item List.mem_cons_self hjs hrItem (by have := hrAfter.le; omega) i hi).framed
          before hrAfter
      · exact (ihTail hafter hrAfter i hi).mono (by simp +contextual) (.inl rfl)

theorem sound_of_laidArms (hsize : code.words.size < 2 ^ 31) {rtl : Bool} {arms : List Node}
    (ih : ∀ arm ∈ arms, ∀ {a is b}, Laid code options rtl a arm is → code.Reads a is b →
      b ≤ code.words.size → ∀ i ∈ is, Sound code is b i)
    {a exit : Nat} {is : List Instruction} (h : LaidArms code options rtl exit a arms is)
    (hr : code.Reads a is exit) (hexit : exit ≤ code.words.size) :
    ∀ i ∈ is, Sound code is exit i := by
  induction arms generalizing a is with
  | nil =>
    rw [show is = [] from h]
    simp
  | cons arm rest ihRest =>
    cases rest with
    | nil => exact ih arm List.mem_cons_self h hr hexit
    | cons next rest =>
      obtain ⟨stop, js, after, -, rfl, -, ⟨hjs, hrArm⟩, hrGoto, hafter, hrAfter⟩ := h.split hr
      have hleArm := hrArm.le
      have hleAfter := hrAfter.le
      have hrNext : code.Reads stop
          (instruction options rtl stop .goto [offsetWord exit] :: after) exit :=
        ⟨hrGoto, hrAfter⟩
      intro i hi
      rcases List.mem_cons.mp hi with rfl | hi
      · exact sound_of_jump rfl rfl (by omega)
          (starts_of_reads hrAfter (by simp +contextual)) fun _ => by simp; omega
      rcases List.mem_append.mp hi with hi | hi
      · exact (ih arm List.mem_cons_self hjs hrArm (by omega) i hi).framed [_] hrNext
      rcases List.mem_cons.mp hi with rfl | hi
      · exact sound_of_jump rfl rfl (by omega) (.inl rfl) fun _ => by simp; omega
      · exact (ihRest (fun n hn => ih n (List.mem_cons_of_mem arm hn)) hafter hrAfter i hi).mono
          (by simp +contextual) (.inl rfl)

theorem sound_headInstruction (rtl : Bool) (a min : Nat) (max : Option Nat)
    {is : List Instruction} {b : Nat} :
    Sound code is b (headInstruction options rtl a min max) := by
  unfold headInstruction
  split <;> split <;> exact sound_of_plain rfl rfl (by simp)

/-- The jump over a body that may be left out goes to the branch after it. -/
theorem sound_of_mem_skipInstructions {rtl : Bool} {a branch min : Nat} {is : List Instruction}
    {b : Nat} (hsize : branch < 2 ^ 31) (hstart : Starts is b branch)
    (hforward : min = 0 → a < branch) :
    ∀ i ∈ skipInstructions options rtl a branch min, Sound code is b i := by
  intro i hi
  unfold skipInstructions at hi
  split at hi
  · obtain rfl := List.mem_singleton.mp hi
    exact sound_of_jump rfl rfl hsize hstart fun _ => hforward ‹_›
  · simp at hi

theorem sound_tailInstruction {rtl : Bool} {body branch min : Nat} {max : Option Nat}
    {isLazy : Bool} {is : List Instruction} {b : Nat} (hsize : body < 2 ^ 31)
    (hstart : Starts is b body) :
    Sound code is b (tailInstruction options rtl body branch min max isLazy) := by
  unfold tailInstruction
  split <;> cases isLazy <;>
    exact sound_of_jump rfl rfl hsize hstart fun h => by simp [Opcode.jumpsBack] at h

/-- Every instruction that a node is laid out as is sound. -/
theorem sound_of_laid (hsize : code.words.size < 2 ^ 31) {n : Node} {rtl : Bool} {a : Nat}
    {is : List Instruction} {b : Nat} (h : Laid code options rtl a n is) (hr : code.Reads a is b)
    (hb : b ≤ code.words.size) : ∀ i ∈ is, Sound code is b i := by
  induction n using Node.inductionOn generalizing rtl a is b with
  | empty =>
    rw [show is = [] from h]
    simp
  | char | any | charClass => exact sound_of_laidSingle h
  | concat items ih => exact sound_of_laidItems (fun n hn {_ _ _} => ih n hn) h hr hb
  | alternate arms ih =>
    have hexit : b = a + choiceWidth options arms := by
      rw [hr.stop_eq, LaidArms.sum_width (fun _ _ {_ _} hn => hn.sum_width) h]
    subst hexit
    exact sound_of_laidArms hsize (fun n hn {_ _ _} => ih n hn) h hr hb
  | group body ih => exact ih h hr hb
  | capture index body ih =>
    obtain ⟨close, js, rfl, -, ⟨hjs, hrBody⟩, hrClose⟩ := h.split_capture hr
    have hle := hrClose.le
    intro i hi
    rcases List.mem_cons.mp hi with rfl | hi
    · exact sound_of_plain rfl rfl (by simp)
    rcases List.mem_append.mp hi with hi | hi
    · exact (ih hjs hrBody (by omega) i hi).framed [_] hrClose
    · obtain rfl := List.mem_singleton.mp hi
      exact sound_of_plain rfl rfl (by simp)
  | repetition body min max isLazy ih =>
    cases hsingle : single? options body with
    | some s =>
      simp only [Laid, hsingle] at h
      exact sound_of_laidSingle h
    | none =>
      obtain ⟨start, branch, js, hstart, rfl, -, ⟨hjs, hrBody⟩, hrTail⟩ :=
        h.split_repetition hsingle hr
      have hr' := Code.Reads.append_iff.mpr ⟨branch, hrBody, hrTail⟩
      have hle := hrTail.le
      have hleBody := hrBody.le
      intro i hi
      rcases List.mem_cons.mp hi with rfl | hi
      · exact sound_headInstruction rtl a min max
      rcases List.mem_append.mp hi with hi | hi
      · refine sound_of_mem_skipInstructions (by omega)
          (starts_of_reads hrTail (by simp +contextual)) ?_ i hi
        rintro rfl
        simp only [hstart, headWidth, if_true] at hleBody
        omega
      rcases List.mem_append.mp hi with hi | hi
      · exact (ih hjs hrBody (by omega) i hi).framed (headInstruction .. :: skipInstructions ..)
          hrTail
      · obtain rfl := List.mem_singleton.mp hi
        exact sound_tailInstruction (by omega) (starts_of_reads hr' (by simp +contextual))
  | backref group =>
    rw [show is = _ from h]
    intro i hi
    obtain rfl := List.mem_singleton.mp hi
    exact sound_of_plain rfl rfl (by simp)
  | assert anchor =>
    rw [show is = _ from h]
    intro i hi
    obtain rfl := List.mem_singleton.mp hi
    cases anchor <;> simp only [anchorOpcode] <;> (try split) <;>
      exact sound_of_plain rfl rfl (by simp)
  | lookAround body negative behind ih =>
    cases negative with
    | true =>
      obtain ⟨back, js, rfl, -, -, ⟨hjs, hrBody⟩, hrClose⟩ := h.split_negative hr
      have hleBody := hrBody.le
      have hle := hrClose.le
      -- the branch goes to the end of the lookaround, past the mark of negation
      have hrFore : code.Reads (back + 1) [instruction options false (back + 1) .forejump []] b :=
        hrClose.2
      have hlt := Code.lt_size_of_instructionAt hrFore.1
      intro i hi
      rcases List.mem_cons.mp hi with rfl | hi
      · exact sound_of_plain rfl rfl (by simp)
      rcases List.mem_cons.mp hi with rfl | hi
      · exact sound_of_jump rfl rfl (by omega) (starts_of_reads hrFore (by simp +contextual))
          fun _ => by simp; omega
      rcases List.mem_append.mp hi with hi | hi
      · exact (ih hjs hrBody (by omega) i hi).framed [_, _] hrClose
      · simp only [List.mem_cons, List.not_mem_nil, or_false] at hi
        rcases hi with rfl | rfl <;> exact sound_of_plain rfl rfl (by simp)
    | false =>
      obtain ⟨close, js, rfl, -, -, ⟨hjs, hrBody⟩, hrClose⟩ := h.split_positive hr
      have hle := hrClose.le
      intro i hi
      rcases List.mem_cons.mp hi with rfl | hi
      · exact sound_of_plain rfl rfl (by simp)
      rcases List.mem_cons.mp hi with rfl | hi
      · exact sound_of_plain rfl rfl (by simp)
      rcases List.mem_append.mp hi with hi | hi
      · exact (ih hjs hrBody (by omega) i hi).framed [_, _] hrClose
      · simp only [List.mem_cons, List.not_mem_nil, or_false] at hi
        rcases hi with rfl | rfl <;> exact sound_of_plain rfl rfl (by simp)

end PatternSampler.Layout
