import PatternSampler.Generation.Machine
import PatternSampler.Proofs.Validity
/-!
# Scanning over what is laid out

The scan for the end of a lookaround counts the lookarounds it meets on its way.  A node opens as
many as it closes, so the scan comes out of a node as it went in, and the end that it finds is that
of the lookaround it was started for.
-/
set_option autoImplicit false

namespace PatternSampler

namespace Code

variable {code : Code}

/-- A scan that comes to `a` goes on at `b` as it was. -/
def Passes (code : Code) (a b : Nat) : Prop :=
  ∀ opener depth negative,
    code.scanLookaround opener a depth negative = code.scanLookaround opener b depth negative

theorem Passes.refl (a : Nat) : code.Passes a a := fun _ _ _ => rfl

theorem Passes.trans {a m b : Nat} (h : code.Passes a m) (h' : code.Passes m b) :
    code.Passes a b := fun opener depth negative =>
  (h opener depth negative).trans (h' opener depth negative)

/-- What an opcode is to a scan: nothing, unless it opens or closes a lookaround. -/
def IsPlain (op : Opcode) : Prop := op ≠ .setjump ∧ op ≠ .backjump ∧ op ≠ .forejump

theorem passes_of_plain {a : Nat} {i : Instruction} (h : code.instructionAt a = .ok i)
    (hplain : IsPlain i.opcode) : code.Passes a (a + i.width) := by
  intro opener depth negative
  rw [scanLookaround, if_pos (lt_size_of_instructionAt h)]
  obtain ⟨hset, hback, hfore⟩ := hplain
  simp only [h]
  split
  · exact absurd ‹_› hset
  · exact absurd ‹_› hback
  · exact absurd ‹_› hfore
  · exact absurd ‹_› hfore
  · rfl

theorem passes_of_reads {a b : Nat} {is : List Instruction} (h : code.Reads a is b)
    (hplain : ∀ i ∈ is, IsPlain i.opcode) : code.Passes a b := by
  induction is generalizing a with
  | nil =>
    obtain rfl : a = b := h
    exact .refl a
  | cons i is ih =>
    exact (passes_of_plain h.1 (hplain i List.mem_cons_self)).trans
      (ih h.2 fun j hj => hplain j (List.mem_cons_of_mem i hj))

/-- Inside a lookaround, one that is met is left again after its body. -/
theorem passes_of_lookaround {a stop : Nat} {opening closing : Instruction}
    (hopen : code.instructionAt a = .ok opening) (hopening : opening.opcode = .setjump)
    (hbody : ∀ opener depth negative,
      code.scanLookaround opener (a + opening.width) (depth + 1) negative =
        code.scanLookaround opener stop (depth + 1) negative)
    (hclose : code.instructionAt stop = .ok closing) (hclosing : closing.opcode = .forejump) :
    code.Passes a (stop + closing.width) := by
  intro opener depth negative
  rw [scanLookaround, if_pos (lt_size_of_instructionAt hopen)]
  simp only [hopen, hopening, hbody opener depth negative]
  rw [scanLookaround, if_pos (lt_size_of_instructionAt hclose)]
  simp only [hclose, hclosing]

/-- The mark of negation of an inner lookaround is passed over. -/
theorem scanLookaround_backjump {a : Nat} {i : Instruction} (h : code.instructionAt a = .ok i)
    (hop : i.opcode = .backjump) (opener depth : Nat) (negative : Bool) :
    code.scanLookaround opener a (depth + 1) negative =
      code.scanLookaround opener (a + i.width) (depth + 1) negative := by
  rw [scanLookaround, if_pos (lt_size_of_instructionAt h)]
  simp only [h, hop]

/-- A lookaround is positive if a scan passes over its body to its end. -/
theorem lookaround_positive {a stop : Nat} {closing : Instruction}
    (hbody : code.Passes (a + Opcode.setjump.width) stop)
    (hclose : code.instructionAt stop = .ok closing) (hclosing : closing.opcode = .forejump) :
    code.lookaround a = .ok ⟨stop + closing.width, false⟩ := by
  rw [lookaround, hbody, scanLookaround, if_pos (lt_size_of_instructionAt hclose)]
  simp only [hclose, hclosing]

/-- A lookaround is negative if there is a mark of negation before its end. -/
theorem lookaround_negative {a back : Nat} {mark closing : Instruction}
    (hbody : code.Passes (a + Opcode.setjump.width) back)
    (hmark : code.instructionAt back = .ok mark) (hmarking : mark.opcode = .backjump)
    (hclose : code.instructionAt (back + mark.width) = .ok closing)
    (hclosing : closing.opcode = .forejump) :
    code.lookaround a = .ok ⟨back + mark.width + closing.width, true⟩ := by
  rw [lookaround, hbody, scanLookaround, if_pos (lt_size_of_instructionAt hmark)]
  simp only [hmark, hmarking]
  rw [scanLookaround, if_pos (lt_size_of_instructionAt hclose)]
  simp only [hclose, hclosing]

end Code

/-! ## Nodes -/

namespace Layout

variable {code : Code} {options : PatternOptions}

theorem passes_of_laidSingle {rtl : Bool} {a b : Nat} {s : Single} {min : Nat} {max : Option Nat}
    {isLazy : Bool} {is : List Instruction}
    (h : LaidSingle code options rtl a s min max isLazy is) (hr : code.Reads a is b) :
    code.Passes a b := by
  obtain ⟨matter, operand, -, rfl⟩ := h
  refine Code.passes_of_reads hr fun i hi => ?_
  obtain ⟨⟨r, hop⟩, -, -⟩ := mem_singleInstructions hi
  simp [hop, Code.IsPlain]

theorem passes_of_laidRun {rtl : Bool} {a b : Nat} {run : List Char} {is : List Instruction}
    (h : LaidRun code options rtl a run is) (hr : code.Reads a is b) : code.Passes a b := by
  refine Code.passes_of_reads hr fun i hi => ?_
  match run, h with
  | [], h =>
    rw [show is = [] from h] at hi
    simp at hi
  | [c], h =>
    rw [show is = _ from h] at hi
    obtain rfl := List.mem_singleton.mp hi
    simp [Code.IsPlain]
  | c :: d :: cs, ⟨operand, _, h⟩ =>
    rw [h] at hi
    obtain rfl := List.mem_singleton.mp hi
    simp [Code.IsPlain]

theorem passes_of_laidItems {rtl : Bool} {items : List Node}
    (ih : ∀ item ∈ items, ∀ {a is b}, Laid code options rtl a item is → code.Reads a is b →
      code.Passes a b)
    {a b : Nat} {run : List Char} {is : List Instruction}
    (h : LaidItems code options rtl a run items is) (hr : code.Reads a is b) :
    code.Passes a b := by
  induction items generalizing a run is with
  | nil => exact passes_of_laidRun h hr
  | cons item rest ihRest =>
    have ihTail := @ihRest fun n hn => ih n (List.mem_cons_of_mem item hn)
    cases hchar : isChar item with
    | true =>
      obtain ⟨c, rfl⟩ := exists_char_of_isChar hchar
      exact ihTail h hr
    | false =>
      obtain ⟨before, js, after, -, ⟨hbefore, hrBefore⟩, ⟨hjs, hrItem⟩, hafter, hrAfter⟩ :=
        h.split hchar hr
      exact ((passes_of_laidRun hbefore hrBefore).trans
        (ih item List.mem_cons_self hjs hrItem)).trans (ihTail hafter hrAfter)

theorem passes_of_laidArms {rtl : Bool} {arms : List Node}
    (ih : ∀ arm ∈ arms, ∀ {a is b}, Laid code options rtl a arm is → code.Reads a is b →
      code.Passes a b)
    {a exit b : Nat} {is : List Instruction} (h : LaidArms code options rtl exit a arms is)
    (hr : code.Reads a is b) : code.Passes a b := by
  induction arms generalizing a is with
  | nil =>
    rw [show is = [] from h] at hr
    obtain rfl : a = b := hr
    exact .refl a
  | cons arm rest ihRest =>
    cases rest with
    | nil => exact ih arm List.mem_cons_self h hr
    | cons next rest =>
      obtain ⟨stop, js, after, -, -, hrBranch, ⟨hjs, hrArm⟩, hrGoto, hafter, hrAfter⟩ := h.split hr
      exact (((Code.passes_of_plain hrBranch (by simp [Code.IsPlain])).trans
        (ih arm List.mem_cons_self hjs hrArm)).trans
        (Code.passes_of_plain hrGoto (by simp [Code.IsPlain]))).trans
        (ihRest (fun n hn => ih n (List.mem_cons_of_mem arm hn)) hafter hrAfter)

/-- A scan passes over whatever a node is laid out as. -/
theorem passes_of_laid {n : Node} {rtl : Bool} {a b : Nat} {is : List Instruction}
    (h : Laid code options rtl a n is) (hr : code.Reads a is b) : code.Passes a b := by
  induction n using Node.inductionOn generalizing rtl a is b with
  | empty =>
    rw [show is = [] from h] at hr
    obtain rfl : a = b := hr
    exact .refl a
  | char | any | charClass => exact passes_of_laidSingle h hr
  | concat items ih => exact passes_of_laidItems (fun n hn {_ _ _} => ih n hn) h hr
  | alternate arms ih => exact passes_of_laidArms (fun n hn {_ _ _} => ih n hn) h hr
  | group body ih => exact ih h hr
  | capture index body ih =>
    obtain ⟨close, js, -, hrOpen, ⟨hjs, hrBody⟩, hrClose⟩ := h.split_capture hr
    exact ((Code.passes_of_plain hrOpen (by simp [Code.IsPlain])).trans (ih hjs hrBody)).trans
      (Code.passes_of_reads hrClose (by simp [Code.IsPlain]))
  | repetition body min max isLazy ih =>
    cases hsingle : single? options body with
    | some s =>
      simp only [Laid, hsingle] at h
      exact passes_of_laidSingle h hr
    | none =>
      obtain ⟨start, branch, js, -, -, hrHead, ⟨hjs, hrBody⟩, hrTail⟩ :=
        h.split_repetition hsingle hr
      refine ((Code.passes_of_reads hrHead ?_).trans (ih hjs hrBody)).trans
        (Code.passes_of_reads hrTail ?_)
      · unfold headInstruction skipInstructions
        split <;> split <;> simp [Code.IsPlain]
      · unfold tailInstruction
        split <;> cases isLazy <;> simp [Code.IsPlain]
  | backref group =>
    rw [show is = _ from h] at hr
    exact Code.passes_of_reads hr (by simp [Code.IsPlain])
  | assert anchor =>
    rw [show is = _ from h] at hr
    refine Code.passes_of_reads hr ?_
    cases anchor <;> simp only [anchorOpcode] <;> (try split) <;> simp [Code.IsPlain]
  | lookAround body negative behind ih =>
    cases negative with
    | true =>
      obtain ⟨back, js, -, hrOpen, hrBranch, ⟨hjs, hrBody⟩, hrBack, hrClose, hstop⟩ :=
        h.split_negative hr
      obtain rfl : _ = b := hstop
      refine Code.passes_of_lookaround hrOpen rfl (fun opener depth neg => ?_) hrClose rfl
      have hinner := (Code.passes_of_plain hrBranch (by simp [Code.IsPlain])).trans (ih hjs hrBody)
      exact (hinner opener (depth + 1) neg).trans
        (Code.scanLookaround_backjump hrBack rfl opener depth neg)
    | false =>
      obtain ⟨close, js, -, hrOpen, hrMark, ⟨hjs, hrBody⟩, hrGet, hrClose, hstop⟩ :=
        h.split_positive hr
      obtain rfl : _ = b := hstop
      refine Code.passes_of_lookaround hrOpen rfl (fun opener depth neg => ?_) hrClose rfl
      have hinner := ((Code.passes_of_plain hrMark (by simp [Code.IsPlain])).trans
        (ih hjs hrBody)).trans (Code.passes_of_plain hrGet (by simp [Code.IsPlain]))
      exact hinner opener (depth + 1) neg

end Layout

end PatternSampler
