import PatternSampler.Proofs.Likeness
import PatternSampler.Proofs.Safety
/-!
# Case and lines do not matter to what is written

Alike codes have the same faults, and alike programs run in step: whatever instruction comes, both
do the same, and the scans of their lookarounds come to the same end.  So options that agree on the
dot give a tree the same error, or programs that write the same.
-/
set_option autoImplicit false

namespace PatternSampler

/-! ## Faults -/

theorem findSome?_eq_of_forall₂ {α β γ : Type} {R : α → β → Prop} {as : List α} {bs : List β}
    (h : List.Forall₂ R as bs) {f : α → Option γ} {g : β → Option γ}
    (hfg : ∀ a b, R a b → f a = g b) : as.findSome? f = bs.findSome? g := by
  induction h with
  | nil => rfl
  | cons hab _ ih => simp only [List.findSome?_cons, hfg _ _ hab, ih]

namespace Code

variable {code code' : Code} {is is' : List Instruction} {i i' : Instruction}

/-- Codes with the same tables that read as alike instructions. -/
structure Alike (code code' : Code) (is is' : List Instruction) : Prop where
  size : code.words.size = code'.words.size
  classes : code.classes = code'.classes
  strings : code.strings = code'.strings
  reads : code.Reads 0 is code.words.size
  reads' : code'.Reads 0 is' code'.words.size
  instructions : List.Forall₂ Instruction.Alike is is'

theorem any_offset_eq (h : List.Forall₂ Instruction.Alike is is') (target : Nat) :
    is.any (fun j => decide (j.offset = target)) =
      is'.any (fun j => decide (j.offset = target)) := by
  induction h with
  | nil => rfl
  | cons hj _ ih => rw [List.any_cons, List.any_cons, hj.offset, ih]

/-- Alike instructions have the same fault. -/
theorem Alike.fault?_eq (h : code.Alike code' is is') (hi : i.Alike i') :
    code.fault? is i = code'.fault? is' i' := by
  have hany := any_offset_eq h.instructions
  obtain ⟨words, classes, strings⟩ := code
  obtain ⟨words', classes', strings'⟩ := code'
  obtain ⟨rfl, rfl⟩ : classes = classes' ∧ strings = strings' := ⟨h.classes, h.strings⟩
  obtain ⟨offset, op, modifiers, operands⟩ := i
  obtain ⟨offset', op', modifiers', operands'⟩ := i'
  obtain ⟨rfl, hop, rfl, -⟩ := hi
  cases hop with
  | same op =>
    simp only [fault?, jumpFault?, jumpAllowed, hany]
    rfl
  | _ => rfl

/-- Alike codes are both refused, with the same fault, or both accepted. -/
theorem Alike.check_eq (h : code.Alike code' is is') :
    (∃ e, code.check = .error e ∧ code'.check = .error e) ∨
      code.check = .ok is ∧ code'.check = .ok is' := by
  have hfault : is.findSome? (code.fault? is) = is'.findSome? (code'.fault? is') :=
    findSome?_eq_of_forall₂ h.instructions fun _ _ hi => h.fault?_eq hi
  cases hfirst : is.findSome? (code.fault? is) with
  | some e =>
    rw [hfirst] at hfault
    exact .inl ⟨e, h.reads.check_eq_error hfirst, h.reads'.check_eq_error hfault.symm⟩
  | none =>
    rw [hfirst] at hfault
    exact .inr ⟨h.reads.check_eq_ok hfirst, h.reads'.check_eq_ok hfault.symm⟩

end Code

/-! ## Runs in step -/

namespace Program

variable {p p' : Program} {cfg : Config}

/-- Programs that differ at most in whether case is ignored and in the opcodes of line anchors:
their instructions have the same offsets and operands, and their tables are the same. -/
structure Alike (p p' : Program) : Prop where
  size : p.size = p'.size
  classes : p.code.classes = p'.code.classes
  strings : p.code.strings = p'.code.strings
  instructions : List.Forall₂ Instruction.Alike p.instructions p'.instructions

/-- Within alike programs alike instructions are read. -/
theorem Alike.instructionAt (h : p.Alike p') {a : Nat} (ha : p.IsBoundary a) (hlt : a < p.size) :
    ∃ i i', p.code.instructionAt a = .ok i ∧ p'.code.instructionAt a = .ok i' ∧ i.Alike i' ∧
      p.IsBoundary (a + i.width) := by
  obtain ⟨i, hi, rfl, hread⟩ := ha.instructionAt hlt
  obtain ⟨k, hk, rfl⟩ := List.mem_iff_getElem.mp hi
  have hlength := h.instructions.length_eq
  have hk' : k < p'.instructions.length := hlength ▸ hk
  have halike : (p.instructions[k]).Alike p'.instructions[k] := h.instructions.get hk hk'
  refine ⟨_, _, hread, ?_, halike, isBoundary_next hi⟩
  rw [halike.offset]
  exact p'.reads.instructionAt_of_mem (List.getElem_mem hk')

/-- The scans of a lookaround come to the same end. -/
theorem Alike.scanLookaround_eq (h : p.Alike p') {opener a : Nat} (ha : p.IsBoundary a)
    (depth : Nat) (negative : Bool) :
    p.code.scanLookaround opener a depth negative =
      p'.code.scanLookaround opener a depth negative := by
  have hsize : p.code.words.size = p'.code.words.size := h.size
  -- the scan goes on to later offsets only
  induction hleft : p.size - a using Nat.strongRecOn generalizing a depth negative with
  | ind left ih =>
    rw [Code.scanLookaround, Code.scanLookaround, ← hsize]
    by_cases hlt : a < p.code.words.size
    · obtain ⟨i, i', hread, hread', halike, hnext⟩ := h.instructionAt ha hlt
      have hwidth := Code.width_pos i
      have hrest : ∀ depth negative, p.code.scanLookaround opener (a + i.width) depth negative =
          p'.code.scanLookaround opener (a + i.width) depth negative := fun depth negative =>
        ih _ (by rw [Program.size] at hleft ⊢; omega) hnext depth negative rfl
      simp only [if_pos hlt, hread, hread', hrest, ← halike.width_eq]
      obtain ⟨-, hop, -, -⟩ := halike
      generalize i.width = w
      generalize i.opcode = op at hop
      generalize i'.opcode = op' at hop
      cases hop <;> rfl
    · rw [if_neg hlt, if_neg hlt]

/-- Alike instructions do the same. -/
theorem Alike.exec_eq (h : p.Alike p') {i i' : Instruction} (hi : i.Alike i') (m : Machine)
    (hscan : i.opcode = .setjump →
      p.code.lookaround i.offset = p'.code.lookaround i.offset) :
    m.exec p.code cfg i = m.exec p'.code cfg i' := by
  have hclasses := h.classes
  have hstrings := h.strings
  generalize p.code = code at hscan hclasses hstrings
  generalize p'.code = code' at hscan hclasses hstrings
  obtain ⟨words, classes, strings⟩ := code
  obtain ⟨words', classes', strings'⟩ := code'
  obtain ⟨rfl, rfl⟩ : classes = classes' ∧ strings = strings' := ⟨hclasses, hstrings⟩
  obtain ⟨offset, op, modifiers, operands⟩ := i
  obtain ⟨offset', op', modifiers', operands'⟩ := i'
  obtain ⟨rfl, hop, rfl, -⟩ := hi
  cases hop with
  | same op =>
    cases op with
    | chars matter r => cases matter <;> cases r <;> rfl
    | setjump =>
      simp only [Machine.exec, hscan rfl]
      rfl
    | _ => rfl
  | _ => rfl

theorem Alike.step_eq (h : p.Alike p') {m : Machine} (hip : p.IsBoundary m.ip)
    (hlt : m.ip < p.size) : m.step p.code cfg = m.step p'.code cfg := by
  obtain ⟨i, i', hread, hread', halike, hnext⟩ := h.instructionAt hip hlt
  have hscan : i.opcode = .setjump →
      p.code.lookaround i.offset = p'.code.lookaround i.offset := by
    intro hop
    have hinside : p.IsBoundary (i.offset + Opcode.setjump.width) := by
      rwa [Code.instructionAt_offset hread, ← hop]
    exact h.scanLookaround_eq hinside 0 false
  simp only [Machine.step, hread, hread']
  exact h.exec_eq halike m hscan

theorem Alike.run_eq (h : p.Alike p') {m : Machine} (hip : p.IsBoundary m.ip) (fuel : Nat) :
    Machine.run p.code cfg fuel m = Machine.run p'.code cfg fuel m := by
  induction fuel generalizing m with
  | zero => rfl
  | succ fuel ih =>
    have hsize : p.code.words.size = p'.code.words.size := h.size
    simp only [Machine.run, ← hsize]
    by_cases hlt : m.ip < p.code.words.size
    · rw [if_pos hlt, if_pos hlt, ← h.step_eq hip hlt]
      cases hstep : m.step p.code cfg with
      | error e => rfl
      | ok m' => exact ih (isBoundary_of_step hip hstep)
    · rw [if_neg hlt, if_neg hlt]

theorem Alike.generate_eq (h : p.Alike p') (cfg : Config) (fuel : Nat) :
    p.generate cfg fuel = p'.generate cfg fuel := by
  rw [generate_eq_map_run, generate_eq_map_run, h.run_eq p.isBoundary_zero fuel]

/-! ## Trees under different options -/

/-- Akin words with the same tables make alike codes. -/
theorem exists_alike_layoutRoot {options options' : PatternOptions}
    (hdot : options.dotMatchesNewLine = options'.dotMatchesNewLine) (root : Node) :
    ∃ is is', (Layout.layoutRoot options root).Alike (Layout.layoutRoot options' root) is is' := by
  obtain ⟨hwords, hclasses, hstrings⟩ := Layout.akin_layoutRoot hdot root
  obtain ⟨is, is', hreads, hreads', halike⟩ :=
    hwords.reads (a := 0) List.prefix_rfl List.prefix_rfl
  rw [Nat.zero_add, Array.length_toList] at hreads hreads'
  exact ⟨is, is', hwords.length_eq, hclasses, hstrings, hreads, hreads', halike⟩

/-- Options that agree on the dot refuse a tree with the same error, or give it alike programs; and
alike programs write the same, or end with the same error, under any settings. -/
theorem ofNode_indifferent {options options' : PatternOptions}
    (hdot : options.dotMatchesNewLine = options'.dotMatchesNewLine) (root : Node) :
    (∃ e, ofNode options root = .error e ∧ ofNode options' root = .error e) ∨
      ∃ p p', ofNode options root = .ok p ∧ ofNode options' root = .ok p' ∧ p.Alike p' ∧
        ∀ cfg fuel, p.generate cfg fuel = p'.generate cfg fuel := by
  obtain ⟨is, is', halike⟩ := exists_alike_layoutRoot hdot root
  rcases halike.check_eq with ⟨e, herror, herror'⟩ | ⟨hok, hok'⟩
  · exact .inl ⟨e, ofCode_eq_error herror, ofCode_eq_error herror'⟩
  · have hprograms : Alike ⟨_, is, hok⟩ ⟨_, is', hok'⟩ :=
      ⟨halike.size, halike.classes, halike.strings, halike.instructions⟩
    exact .inr ⟨_, _, ofCode_eq_ok hok, ofCode_eq_ok hok', hprograms, hprograms.generate_eq⟩

/-- A line in a lookaround, a loop over letters, and a dot. -/
def lineTree : Node :=
  .concat [.assert .lineStart, .char 'a',
    .repetition (.charClass (.range 'b' 'd')) 1 (some 3) false, .any,
    .lookAround (.concat [.char 'e', .char 'f', .assert .lineEnd]) false false]

/-- The programs of the tree differ, and write the same. -/
theorem ofNode_indifferent_lineTree :
    ∃ p p', ofNode ⟨true, true, false⟩ lineTree = .ok p ∧
      ofNode ⟨false, false, false⟩ lineTree = .ok p' ∧ p.code ≠ p'.code ∧ p.Alike p' ∧
      ∀ cfg fuel, p.generate cfg fuel = p'.generate cfg fuel := by
  have hfits : (Layout.layoutRoot ⟨true, true, false⟩ lineTree).Fits :=
    ⟨by decide, by decide, by decide⟩
  obtain ⟨q, hq, -⟩ := exists_ofNode hfits
  rcases @ofNode_indifferent ⟨true, true, false⟩ ⟨false, false, false⟩ rfl lineTree with
    ⟨e, herror, -⟩ | ⟨p, p', hp, hp', halike, hgenerate⟩
  · rw [hq] at herror
    simp at herror
  · have hcode := code_of_ofCode hp
    have hcode' := code_of_ofCode hp'
    refine ⟨p, p', hp, hp', ?_, halike, hgenerate⟩
    rw [hcode, hcode']
    decide

end Program

end PatternSampler
