import Mathlib.Data.List.Forall2
import PatternSampler.Proofs.Acceptance
/-!
# Code under different options

Two codes are alike if they differ at most in whether case is ignored and in which of its two
opcodes a line anchor has.  Whatever the options say about case and lines, a tree is laid out as
alike words and with the same tables, and these words read as alike instructions.
-/
set_option autoImplicit false

namespace PatternSampler

/-! ## Alike instructions -/

/-- The same opcode, or the two opcodes of one line anchor. -/
inductive Opcode.Alike : Opcode → Opcode → Prop where
  | same (op : Opcode) : Alike op op
  | bol : Alike .bol .beginning
  | beginning : Alike .beginning .bol
  | eol : Alike .eol .endZ
  | endZ : Alike .endZ .eol

theorem Opcode.Alike.operandCount_eq {op op' : Opcode} (h : op.Alike op') :
    op.operandCount = op'.operandCount := by
  cases h <;> rfl

/-- Instructions that differ at most in whether case is ignored and in the opcode of a line
anchor. -/
structure Instruction.Alike (i j : Instruction) : Prop where
  offset : i.offset = j.offset
  opcode : i.opcode.Alike j.opcode
  operands : i.operands = j.operands
  modifiers : i.modifiers.bits &&& ~~~Modifiers.ciFlag = j.modifiers.bits &&& ~~~Modifiers.ciFlag

theorem Instruction.Alike.width_eq {i j : Instruction} (h : i.Alike j) : i.width = j.width := by
  rw [width, width, Opcode.width, Opcode.width, h.opcode.operandCount_eq]

namespace Layout

variable {options options' : PatternOptions}

/-- But for ignoring case, the flags of a code word say whether it reads from right to left. -/
theorem bits_ofWord_word (op : Opcode) (rtl ci : Bool) :
    (Modifiers.ofWord (op.word rtl ci)).bits &&& ~~~Modifiers.ciFlag =
      if rtl then Modifiers.rtlFlag else 0 := by
  cases op with
  | chars matter r => cases matter <;> cases r <;> cases rtl <;> cases ci <;> decide
  | _ => cases rtl <;> cases ci <;> decide

theorem alike_instruction {op op' : Opcode} (h : op.Alike op') (rtl : Bool) (a : Nat)
    (operands : List Int32) :
    (instruction options rtl a op operands).Alike (instruction options' rtl a op' operands) :=
  ⟨rfl, h, rfl, (bits_ofWord_word ..).trans (bits_ofWord_word ..).symm⟩

theorem alike_anchorOpcode (anchor : Anchor) :
    (anchorOpcode options anchor).Alike (anchorOpcode options' anchor) := by
  cases anchor with
  | lineStart =>
    simp only [anchorOpcode]
    split <;> split <;> constructor
  | lineEnd =>
    simp only [anchorOpcode]
    split <;> split <;> constructor
  | _ => exact .same _

/-! ## Akin words -/

/-- Words that are emitted for alike opcodes with the same operands. -/
inductive Akin (options options' : PatternOptions) : List Int32 → List Int32 → Prop where
  | nil : Akin options options' [] []
  | cons {rtl : Bool} {op op' : Opcode} {operands ws ws' : List Int32} (hop : op.Alike op')
      (hcount : operands.length = op.operandCount) (hrest : Akin options options' ws ws') :
      Akin options options' (emit options rtl op operands ++ ws)
        (emit options' rtl op' operands ++ ws')

namespace Akin

variable {ws ws' vs vs' : List Int32}

theorem emit_alike {rtl : Bool} {op op' : Opcode} {operands : List Int32} (hop : op.Alike op')
    (hcount : operands.length = op.operandCount) :
    Akin options options' (emit options rtl op operands) (emit options' rtl op' operands) := by
  have h : Akin options options' (Layout.emit options rtl op operands ++ [])
      (Layout.emit options' rtl op' operands ++ []) := .cons hop hcount .nil
  rwa [List.append_nil, List.append_nil] at h

/-- What is emitted for one opcode under both options. -/
theorem emit {rtl : Bool} {op : Opcode} {operands : List Int32}
    (hcount : operands.length = op.operandCount) :
    Akin options options' (Layout.emit options rtl op operands)
      (Layout.emit options' rtl op operands) := emit_alike (.same op) hcount

theorem append (h : Akin options options' ws ws') (h' : Akin options options' vs vs') :
    Akin options options' (ws ++ vs) (ws' ++ vs') := by
  induction h with
  | nil => exact h'
  | cons hop hcount _ ih =>
    rw [List.append_assoc, List.append_assoc]
    exact .cons hop hcount ih

theorem length_eq (h : Akin options options' ws ws') : ws.length = ws'.length := by
  induction h with
  | nil => rfl
  | cons _ _ _ ih => simp only [List.length_append, length_emit, ih]

/-- Akin words read as alike instructions. -/
theorem reads (h : Akin options options' ws ws') {code code' : Code} {a : Nat}
    (hat : code.HasAt a ws) (hat' : code'.HasAt a ws') :
    ∃ is is', code.Reads a is (a + ws.length) ∧ code'.Reads a is' (a + ws'.length) ∧
      List.Forall₂ Instruction.Alike is is' := by
  induction h generalizing a with
  | nil => exact ⟨[], [], rfl, rfl, .nil⟩
  | @cons rtl op op' operands ws ws' hop hcount _ ih =>
    have hcount' : operands.length = op'.operandCount := hcount.trans hop.operandCount_eq
    have hwidth : operands.length + 1 = op.width := by rw [hcount, Opcode.width, Nat.add_comm]
    have hwidth' : operands.length + 1 = op'.width := by rw [hcount', Opcode.width, Nat.add_comm]
    obtain ⟨hhead, hrest⟩ := Code.hasAt_append.mp hat
    obtain ⟨hhead', hrest'⟩ := Code.hasAt_append.mp hat'
    obtain ⟨is, is', his, his', halike⟩ := ih hrest hrest'
    rw [length_emit, hwidth] at his
    rw [length_emit, hwidth'] at his'
    have hfirst := @alike_instruction options options' op op' hop rtl a operands
    refine ⟨_, _, ?_, ?_, .cons hfirst halike⟩
    · rw [List.length_append, length_emit, hwidth, ← Nat.add_assoc]
      exact (reads_emit hhead hcount).append his
    · rw [List.length_append, length_emit, hwidth', ← Nat.add_assoc]
      exact (reads_emit hhead' hcount').append his'

end Akin

/-! ## Trees -/

/-- The words and tables of a layout under both options: akin words, the same tables. -/
def SameLayout (options options' : PatternOptions) (r r' : List Int32 × Tables) : Prop :=
  Akin options options' r.1 r'.1 ∧ r.2 = r'.2

theorem sameLayout_single (rtl : Bool) (t : Tables) (s : Single) (min : Nat) (max : Option Nat)
    (isLazy : Bool) :
    SameLayout options options' (layoutSingle options rtl t s min max isLazy)
      (layoutSingle options' rtl t s min max isLazy) := by
  refine ⟨?_, by rw [layoutSingle_tables, layoutSingle_tables]⟩
  unfold layoutSingle
  obtain ⟨⟨matter, operand⟩, t⟩ := s.operand t
  have hmandatory : Akin options options'
      (if 0 < min then emit options rtl (.chars matter .exact) [operand, countWord min] else [])
      (if 0 < min then emit options' rtl (.chars matter .exact) [operand, countWord min]
        else []) := by
    split
    · exact .emit rfl
    · exact .nil
  have hoptional : ∀ count, Akin options options'
      (emit options rtl (.chars matter (if isLazy then .lazyLoop else .loop)) [operand, count])
      (emit options' rtl (.chars matter (if isLazy then .lazyLoop else .loop))
        [operand, count]) := by
    intro count
    cases isLazy <;> exact .emit rfl
  cases max with
  | none =>
    simp only [reduceCtorEq, and_false, if_false]
    exact hmandatory.append (hoptional unbounded)
  | some max =>
    by_cases hone : min = 1 ∧ max = 1
    · simp only [Option.some.injEq, if_pos hone]
      exact .emit rfl
    · simp only [Option.some.injEq, if_neg hone]
      by_cases hmax : max = min
      · simp only [if_pos hmax]
        exact hmandatory
      · simp only [if_neg hmax]
        exact hmandatory.append (hoptional _)

theorem sameLayout_run (rtl : Bool) (t : Tables) (run : List Char) :
    SameLayout options options' (layoutRun options rtl t run) (layoutRun options' rtl t run) := by
  match run with
  | [] => exact ⟨.nil, rfl⟩
  | [_] => exact ⟨.emit rfl, rfl⟩
  | _ :: _ :: _ => exact ⟨.emit rfl, rfl⟩

theorem akin_loopHead (rtl : Bool) (min : Nat) (max : Option Nat) :
    Akin options options' (loopHead options rtl min max) (loopHead options' rtl min max) := by
  unfold loopHead
  split <;> split <;> exact .emit rfl

theorem akin_loopTail (rtl : Bool) (body min : Nat) (max : Option Nat) (isLazy : Bool) :
    Akin options options' (loopTail options rtl body min max isLazy)
      (loopTail options' rtl body min max isLazy) := by
  unfold loopTail
  split <;> cases isLazy <;> exact .emit rfl

theorem armsWidth_eq_of_akin {codes codes' : List (List Int32)}
    (h : List.Forall₂ (Akin options options') codes codes') :
    armsWidth codes = armsWidth codes' := by
  induction h with
  | nil => rfl
  | @cons arm arm' codes codes' harm hcodes ih =>
    cases hcodes with
    | nil => exact harm.length_eq
    | cons => simp only [armsWidth, harm.length_eq, ih]

theorem akin_joinArms {codes codes' : List (List Int32)}
    (h : List.Forall₂ (Akin options options') codes codes') (rtl : Bool) (exit base : Nat) :
    Akin options options' (joinArms options rtl exit base codes)
      (joinArms options' rtl exit base codes') := by
  induction h generalizing base with
  | nil => exact .nil
  | @cons arm arm' codes codes' harm hcodes ih =>
    cases hcodes with
    | nil => exact harm
    | cons hnext hrest =>
      simp only [joinArms, ← harm.length_eq]
      exact (((Akin.emit rfl).append harm).append (.emit rfl)).append (ih _)

theorem single?_congr (hdot : options.dotMatchesNewLine = options'.dotMatchesNewLine) (n : Node) :
    single? options n = single? options' n := by
  induction n using Node.inductionOn with
  | any => simp only [single?, hdot]
  | group body ih => exact ih
  | _ => rfl

theorem sameLayout_items {items : List Node}
    (ih : ∀ item ∈ items, ∀ rtl a t, SameLayout options options' (layoutNode options rtl a t item)
      (layoutNode options' rtl a t item))
    (rtl : Bool) (a : Nat) (t : Tables) (run : List Char) :
    SameLayout options options' (layoutItems options rtl a t run items)
      (layoutItems options' rtl a t run items) := by
  induction items generalizing a t run with
  | nil =>
    rw [layoutItems, layoutItems]
    exact sameLayout_run rtl t run.reverse
  | cons item rest ihRest =>
    have ihTail := ihRest fun n hn => ih n (List.mem_cons_of_mem item hn)
    cases hchar : isChar item with
    | true =>
      obtain ⟨c, rfl⟩ := exists_char_of_isChar hchar
      rw [layoutItems, layoutItems]
      exact ihTail a t (c :: run)
    | false =>
      obtain ⟨hrun, htables⟩ := @sameLayout_run options options' rtl t run.reverse
      rw [layoutItems_cons hchar, layoutItems_cons hchar]
      simp only [← htables, ← hrun.length_eq]
      obtain ⟨hnode, htables'⟩ := ih item List.mem_cons_self rtl
        (a + (layoutRun options rtl t run.reverse).1.length) (layoutRun options rtl t run.reverse).2
      simp only [← htables', ← hnode.length_eq]
      obtain ⟨hrest, htables''⟩ := ihTail _ _ []
      exact ⟨(hrun.append hnode).append hrest, htables''⟩

theorem sameLayout_arms {arms : List Node}
    (ih : ∀ arm ∈ arms, ∀ rtl a t, SameLayout options options' (layoutNode options rtl a t arm)
      (layoutNode options' rtl a t arm))
    (rtl : Bool) (a : Nat) (t : Tables) :
    List.Forall₂ (Akin options options') (layoutArms options rtl a t arms).1
        (layoutArms options' rtl a t arms).1 ∧
      (layoutArms options rtl a t arms).2 = (layoutArms options' rtl a t arms).2 := by
  induction arms generalizing a t with
  | nil => exact ⟨.nil, rfl⟩
  | cons arm rest ihRest =>
    cases rest with
    | nil =>
      obtain ⟨harm, htables⟩ := ih arm List.mem_cons_self rtl a t
      rw [layoutArms, layoutArms]
      exact ⟨.cons harm .nil, htables⟩
    | cons next rest =>
      obtain ⟨harm, htables⟩ := ih arm List.mem_cons_self rtl (a + 2) t
      rw [layoutArms_cons, layoutArms_cons]
      simp only [← htables, ← harm.length_eq]
      obtain ⟨hrest, htables'⟩ := ihRest (fun n hn => ih n (List.mem_cons_of_mem arm hn)) _ _
      exact ⟨.cons harm hrest, htables'⟩

/-- Options that agree on the dot lay a tree out as akin words, with the same tables. -/
theorem sameLayout_node (hdot : options.dotMatchesNewLine = options'.dotMatchesNewLine) (n : Node)
    (rtl : Bool) (a : Nat) (t : Tables) :
    SameLayout options options' (layoutNode options rtl a t n) (layoutNode options' rtl a t n) := by
  induction n using Node.inductionOn generalizing rtl a t with
  | empty => exact ⟨.nil, rfl⟩
  | char | charClass =>
    rw [layoutNode, layoutNode]
    exact sameLayout_single ..
  | any =>
    rw [layoutNode, layoutNode, hdot]
    exact sameLayout_single ..
  | concat items ih =>
    rw [layoutNode, layoutNode]
    exact sameLayout_items ih rtl a t []
  | alternate arms ih =>
    obtain ⟨hcodes, htables⟩ := sameLayout_arms ih rtl a t
    rw [layoutNode, layoutNode]
    simp only [← armsWidth_eq_of_akin hcodes]
    exact ⟨akin_joinArms hcodes rtl _ a, htables⟩
  | group body ih =>
    rw [layoutNode, layoutNode]
    exact ih rtl a t
  | capture index body ih =>
    obtain ⟨hbody, htables⟩ := ih rtl (a + 1) t
    rw [layoutNode, layoutNode]
    exact ⟨((Akin.emit rfl).append hbody).append (.emit rfl), htables⟩
  | repetition body min max isLazy ih =>
    rw [layoutNode, layoutNode, single?_congr hdot body]
    cases single? options' body with
    | some s => exact sameLayout_single ..
    | none =>
      have hhead := @akin_loopHead options options' rtl min max
      simp only [← hhead.length_eq]
      obtain ⟨hbody, htables⟩ := ih rtl
        (a + (loopHead options rtl min max).length + if min = 0 then 2 else 0) t
      simp only [← hbody.length_eq]
      refine ⟨((hhead.append ?_).append hbody).append (akin_loopTail ..), htables⟩
      split
      · exact .emit rfl
      · exact .nil
  | backref => exact ⟨.emit rfl, rfl⟩
  | assert anchor =>
    refine ⟨.emit_alike (alike_anchorOpcode anchor) ?_, rfl⟩
    cases anchor <;> simp only [anchorOpcode] <;> (try split) <;> rfl
  | lookAround body negative behind ih =>
    rw [layoutNode, layoutNode]
    cases negative with
    | true =>
      obtain ⟨hbody, htables⟩ := ih behind (a + 3) t
      simp only [if_true, ← hbody.length_eq]
      exact ⟨((((Akin.emit rfl).append (.emit rfl)).append hbody).append (.emit rfl)).append
        (.emit rfl), htables⟩
    | false =>
      obtain ⟨hbody, htables⟩ := ih behind (a + 2) t
      simp only [Bool.false_eq_true, if_false]
      exact ⟨((((Akin.emit rfl).append (.emit rfl)).append hbody).append (.emit rfl)).append
        (.emit rfl), htables⟩

/-- Options that agree on the dot give a tree akin words, and the same tables. -/
theorem akin_layoutRoot (hdot : options.dotMatchesNewLine = options'.dotMatchesNewLine)
    (root : Node) :
    Akin options options' (layoutRoot options root).words.toList
        (layoutRoot options' root).words.toList ∧
      (layoutRoot options root).classes = (layoutRoot options' root).classes ∧
      (layoutRoot options root).strings = (layoutRoot options' root).strings := by
  obtain ⟨hnode, htables⟩ := sameLayout_node hdot root false 3 .empty
  simp only [layoutRoot, ← hnode.length_eq, ← htables, and_self, and_true]
  exact ((((Akin.emit rfl).append (.emit rfl)).append hnode).append (.emit rfl)).append (.emit rfl)

end Layout

end PatternSampler
