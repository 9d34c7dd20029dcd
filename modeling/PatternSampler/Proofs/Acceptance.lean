import PatternSampler.Proofs.Provenance
/-!
# The code of a tree is accepted

The code that a whole tree is laid out as passes every check, so a tree has a program whenever its
code is small enough for operands to address.  `Program.Faithful` says what can be read off that
program about the tree.
-/
set_option autoImplicit false

namespace PatternSampler

namespace Layout

variable {options : PatternOptions}

/-! ## Group 0 around the tree -/

/-- The instructions of the code of a whole tree, `is` being those of the tree itself. -/
def rootInstructions (options : PatternOptions) (root : Node) (is : List Instruction) :
    List Instruction :=
  instruction options false 0 .lazybranch [offsetWord (width options root + 6)] ::
    instruction options false 2 .setmark [] :: is ++
    [instruction options false (width options root + 3) .capturemark [0, -1],
      instruction options false (width options root + 6) .stop []]

theorem words_layoutRoot (options : PatternOptions) (root : Node) :
    (layoutRoot options root).words.toList =
      emit options false .lazybranch [offsetWord (width options root + 6)]
        ++ emit options false .setmark []
        ++ (layoutNode options false 3 .empty root).1
        ++ emit options false .capturemark [0, -1]
        ++ emit options false .stop [] := by
  have hstop : 3 + width options root + 3 = width options root + 6 := by omega
  simp only [layoutRoot, length_layoutNode, hstop]

theorem size_layoutRoot (options : PatternOptions) (root : Node) :
    (layoutRoot options root).words.size = width options root + 7 := by
  rw [← Array.length_toList, words_layoutRoot]
  simp only [List.length_append, length_emit, length_layoutNode, List.length_cons, List.length_nil]
  omega

/-- The code of a tree has the tree laid out after the branch to the end and the opening mark. -/
theorem laid_layoutRoot {root : Node} (hfits : (layoutRoot options root).Fits) :
    ∃ is, Laid (layoutRoot options root) options false 3 root is ∧
      (layoutRoot options root).Reads 0 (rootInstructions options root is)
        (layoutRoot options root).words.size := by
  have hat : (layoutRoot options root).HasAt 0 (layoutRoot options root).words.toList :=
    List.prefix_rfl
  have hin : (layoutNode options false 3 .empty root).2.Within (layoutRoot options root) :=
    ⟨List.prefix_rfl, List.prefix_rfl⟩
  rw [words_layoutRoot] at hat
  rw [size_layoutRoot]
  generalize layoutRoot options root = code at hat hin hfits
  simp only [Code.hasAt_append, List.length_append, length_emit, length_layoutNode,
    List.length_nil, List.length_cons, Nat.zero_add] at hat
  obtain ⟨⟨⟨⟨hatEntry, hatOpen⟩, hatRoot⟩, hatClose⟩, hatStop⟩ := hat
  have hclose : 1 + 1 + 1 + width options root = width options root + 3 := by omega
  have hstop : width options root + 3 + (1 + 1 + 1) = width options root + 6 := by omega
  rw [hclose] at hatClose hatStop
  rw [hstop] at hatStop
  obtain ⟨is, hlaid, hreads⟩ := laid_layoutNode hfits root false 3 .empty hatRoot hin
  rw [Nat.add_comm 3] at hreads
  exact ⟨is, hlaid, (((reads_emit hatEntry rfl).append (reads_emit hatOpen rfl)).append
    hreads).append ((reads_emit hatClose rfl).append (reads_emit hatStop rfl))⟩

/-- Every instruction of the code of a tree is sound, and lands on the last one at the latest. -/
theorem sound_rootInstructions {code : Code} {root : Node} {is : List Instruction}
    (hlaid : Laid code options false 3 root is)
    (hreads : code.Reads 0 (rootInstructions options root is) code.words.size)
    (hsize : code.words.size < 2 ^ 31) :
    ∀ i ∈ rootInstructions options root is,
      Sound code (rootInstructions options root is) (width options root + 6) i := by
  have hr := hreads
  rw [rootInstructions, List.cons_append, List.cons_append] at hr
  obtain ⟨m, hrRoot, hrClose⟩ := Code.Reads.append_iff.mp hr.2.2
  have hlt := (Code.Reads.lt_of_mem hreads (i := instruction options false
    (width options root + 6) .stop []) (by simp [rootInstructions])).2
  simp only [instruction_offset, instruction_width] at hlt
  intro i hi
  simp only [rootInstructions, List.cons_append, List.mem_cons, List.mem_append,
    List.not_mem_nil, or_false] at hi
  rcases hi with rfl | rfl | hi | rfl | rfl
  · exact sound_of_jump rfl rfl (by omega) (.inl rfl) fun _ => by simp
  · exact sound_of_plain rfl rfl (by simp)
  · refine (sound_of_laid hsize hlaid hrRoot hrClose.le i hi).mono
      (by simp +contextual [rootInstructions]) ?_
    exact .inr ⟨_, by simp [rootInstructions], Code.instructionAt_offset hrClose.1⟩
  · exact sound_of_plain rfl rfl (by simp)
  · exact sound_of_plain rfl rfl (by simp)

theorem traced_rootInstructions {code : Code} {root : Node} {is : List Instruction}
    (hlaid : Laid code options false 3 root is)
    (hreads : code.Reads 0 (rootInstructions options root is) code.words.size)
    (hsize : code.words.size < 2 ^ 31) :
    ∀ i ∈ rootInstructions options root is,
      Traced code options root (rootInstructions options root is) i := by
  have hr := hreads
  rw [rootInstructions, List.cons_append, List.cons_append] at hr
  obtain ⟨m, hrRoot, -⟩ := Code.Reads.append_iff.mp hr.2.2
  intro i hi
  simp only [rootInstructions, List.cons_append, List.mem_cons, List.mem_append,
    List.not_mem_nil, or_false] at hi
  rcases hi with rfl | rfl | hi | rfl | rfl
  · exact traced_of_plain rfl rfl (by simp)
  · exact traced_of_plain rfl rfl (by simp)
  · exact (traced_of_laid hsize hlaid hrRoot i hi).mono (fun _ => id)
      ⟨[_, _], [_, _], by rw [rootInstructions]; rfl⟩
  · exact traced_of_plain rfl rfl (by simp)
  · exact traced_of_plain rfl rfl (by simp)

/-! ## Nothing to object to -/

/-- Sound instructions have no fault, provided the end of their stretch is the start of one. -/
theorem fault?_eq_none {code : Code} {is : List Instruction} {b : Nat} {i : Instruction}
    (h : Sound code is b i) (hb : ∃ j ∈ is, j.offset = b) : code.fault? is i = none := by
  obtain ⟨⟨hoperand, hcount⟩, hlands⟩ := h
  simp only [Code.fault?, hoperand, hcount, Code.jumpFault?]
  cases hjump : i.opcode.isJump with
  | false => rfl
  | true =>
    obtain ⟨t, ht, hstart, hforward⟩ := hlands hjump
    have hany : ∃ j ∈ is, j.offset = t := hstart.elim (fun h => h ▸ hb) id
    have hallowed : Code.jumpAllowed is i = true := by
      simp only [Code.jumpAllowed, ht, Int.toNat_natCast, Bool.and_eq_true, decide_eq_true_eq,
        List.any_eq_true, Bool.or_eq_true]
      refine ⟨⟨Int.natCast_nonneg t, hany⟩, ?_⟩
      cases hback : i.opcode.jumpsBack with
      | true => exact .inl rfl
      | false => exact .inr (hforward hback)
    simp [hallowed]

theorem check_eq_ok {code : Code} {is : List Instruction} {b : Nat}
    (hreads : code.Reads 0 is code.words.size) (hsound : ∀ i ∈ is, Sound code is b i)
    (hb : ∃ j ∈ is, j.offset = b) : code.check = .ok is := by
  have hnone : is.findSome? (code.fault? is) = none :=
    List.findSome?_eq_none_iff.mpr fun i hi => fault?_eq_none (hsound i hi) hb
  exact hreads.check_eq_ok hnone

/-! ## Tables -/

theorem nodup_layoutRoot (options : PatternOptions) (root : Node) :
    (layoutRoot options root).classes.toList.Nodup ∧
      (layoutRoot options root).strings.toList.Nodup :=
  (grows_layoutNode root false 3 .empty).nodup ⟨List.nodup_nil, List.nodup_nil⟩

end Layout

namespace Program

theorem ofCode_eq_ok {code : Code} {is : List Instruction} (h : code.check = .ok is) :
    ofCode code = .ok ⟨code, is, h⟩ := by
  unfold ofCode
  split
  · rename_i herror
    rw [h] at herror
    simp at herror
  · rename_i js hjs
    obtain rfl : is = js := Except.ok.inj (h.symm.trans hjs)
    rfl

theorem code_of_ofCode {code : Code} {p : Program} (h : ofCode code = .ok p) : p.code = code := by
  unfold ofCode at h
  split at h
  · simp at h
  · rw [← Except.ok.inj h]

theorem ofCode_code (p : Program) : ofCode p.code = .ok p := ofCode_eq_ok p.checked

theorem ofCode_eq_error {code : Code} {e : ProgramError} (h : code.check = .error e) :
    ofCode code = .error e := by
  unfold ofCode
  split
  · rename_i herror
    rw [h] at herror
    rw [Except.error.inj herror]
  · rename_i hok
    rw [h] at hok
    simp at hok

theorem ofSource_eq_ofNode {options : PatternOptions} {source : List Char} {pattern : Pattern}
    {p : Program} (hparse : parse source = .ok pattern)
    (hp : ofNode options pattern.root = .ok p) : ofSource options source = .ok p := by
  simp only [ofSource, hparse, hp]

/-- A tree whose code can be addressed has a program with that code. -/
theorem exists_ofNode {options : PatternOptions} {root : Node}
    (hfits : (Layout.layoutRoot options root).Fits) :
    ∃ p, ofNode options root = .ok p ∧ p.code = Layout.layoutRoot options root := by
  obtain ⟨is, hlaid, hreads⟩ := Layout.laid_layoutRoot hfits
  have hcheck := Layout.check_eq_ok hreads (Layout.sound_rootInstructions hlaid hreads hfits.words)
    ⟨_, List.mem_append_right _ (List.mem_cons_of_mem _ List.mem_cons_self), rfl⟩
  exact ⟨_, ofCode_eq_ok hcheck, rfl⟩

/-- The instructions of a program are those that its code reads as. -/
theorem instructions_of_reads {p : Program} {is : List Instruction}
    (h : p.code.Reads 0 is p.code.words.size) : p.instructions = is := by
  have hchecked := p.checked
  simp only [Code.check, h.instructionsFrom_eq] at hchecked
  split at hchecked
  · simp at hchecked
  · exact (Except.ok.inj hchecked).symm

/-! ## What a program says about its tree -/

/-- The program has the parts of a tree where they belong. -/
structure Faithful (p : Program) (options : PatternOptions) (root : Node) : Prop where
  /-- group 0 goes around the tree, whose nodes are laid out one by one -/
  frame : ∃ is, p.instructions = Layout.rootInstructions options root is ∧
    Layout.Laid p.code options false 3 root is
  /-- the first instruction branches to the last, which is the end -/
  entry : ∃ i ∈ p.instructions, ∃ j ∈ p.instructions, i.offset = 0 ∧ i.opcode = .lazybranch ∧
    (i.operand 0).toInt = j.offset ∧ j.opcode = .stop ∧ j.offset + 1 = p.size
  /-- jumps go to instructions, and those that close no loop go forward -/
  jumps : ∀ i ∈ p.instructions, i.opcode.isJump = true → ∃ j ∈ p.instructions,
    (i.operand 0).toInt = j.offset ∧ (i.opcode.jumpsBack = false → i.offset < j.offset)
  /-- loops go back to their bodies, and entries of the tables are those of their nodes -/
  traced : ∀ i ∈ p.instructions, Layout.Traced p.code options root p.instructions i
  classes : p.code.classes.toList.Nodup
  strings : p.code.strings.toList.Nodup

theorem faithful_of_code {options : PatternOptions} {root : Node} {p : Program}
    (hcode : p.code = Layout.layoutRoot options root)
    (hfits : (Layout.layoutRoot options root).Fits) : p.Faithful options root := by
  obtain ⟨is, hlaid, hreads⟩ := Layout.laid_layoutRoot hfits
  have hinstrs : p.instructions = Layout.rootInstructions options root is :=
    instructions_of_reads (hcode ▸ hreads)
  have hsize : p.size = Layout.width options root + 7 := by
    rw [size, hcode, Layout.size_layoutRoot]
  have hwords := hfits.words
  rw [Layout.size_layoutRoot] at hwords
  obtain ⟨hclasses, hstrings⟩ := Layout.nodup_layoutRoot options root
  refine ⟨⟨is, hinstrs, hcode ▸ hlaid⟩, ?_, ?_, ?_, hcode ▸ hclasses, hcode ▸ hstrings⟩
  · rw [hinstrs, hsize]
    exact ⟨_, List.mem_append_left _ List.mem_cons_self, _,
      List.mem_append_right _ (List.mem_cons_of_mem _ List.mem_cons_self), rfl, rfl,
      Layout.toInt_offsetWord (by omega), rfl, rfl⟩
  · rw [hinstrs]
    intro i hi hjump
    obtain ⟨t, ht, hstart, hforward⟩ :=
      (Layout.sound_rootInstructions hlaid hreads hfits.words i hi).2 hjump
    rcases hstart with rfl | ⟨j, hj, rfl⟩
    · exact ⟨_, List.mem_append_right _ (List.mem_cons_of_mem _ List.mem_cons_self), ht, hforward⟩
    · exact ⟨j, hj, ht, hforward⟩
  · rw [hinstrs, hcode]
    exact Layout.traced_rootInstructions hlaid hreads hfits.words

/-- Every tree whose code can be addressed has a program, and the program is faithful to it. -/
theorem ofNode_faithful (options : PatternOptions) (root : Node)
    (hfits : (Layout.layoutRoot options root).Fits) :
    ∃ p, ofNode options root = .ok p ∧ p.Faithful options root ∧
      ∀ source pattern, parse source = .ok pattern → pattern.root = root →
        ofSource options source = .ok p ∧ ∀ e, ofSource options source ≠ .error (.program e) := by
  obtain ⟨p, hp, hcode⟩ := exists_ofNode hfits
  refine ⟨p, hp, faithful_of_code hcode hfits, ?_⟩
  rintro source pattern hparse rfl
  have hok := ofSource_eq_ofNode hparse hp
  exact ⟨hok, fun e he => by simp [hok] at he⟩

/-- A tree with loops around nothing, an empty last arm and nested lookarounds. -/
def nestedTree : Node :=
  .concat [.char 'a', .char 'b',
    .repetition (.alternate [.charClass (.range 'x' 'z'), .empty]) 2 (some 5) true,
    .repetition (.repetition .empty 0 none false) 0 (some 3) false,
    .lookAround (.lookAround .any true false) false true]

theorem ofNode_faithful_nestedTree :
    (Layout.layoutRoot ⟨true, false, true⟩ nestedTree).Fits ∧
      ∃ p, ofNode ⟨true, false, true⟩ nestedTree = .ok p ∧
        p.Faithful ⟨true, false, true⟩ nestedTree := by
  have hfits : (Layout.layoutRoot ⟨true, false, true⟩ nestedTree).Fits :=
    ⟨by decide, by decide, by decide⟩
  obtain ⟨p, hp, hfaithful, -⟩ := ofNode_faithful ⟨true, false, true⟩ nestedTree hfits
  exact ⟨hfits, p, hp, hfaithful⟩

end Program

end PatternSampler
