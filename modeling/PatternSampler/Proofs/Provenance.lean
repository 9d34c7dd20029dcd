import PatternSampler.Proofs.Validity
/-!
# Which node an instruction belongs to

The operands of a layout are traced back to the tree.  The branch of a loop belongs to a repetition
and goes back to the first word of its body, an instruction that reads from a class belongs to a
node that reads that class, and an instruction that writes a string to a run of literal characters.
-/
set_option autoImplicit false

namespace PatternSampler.Layout

variable {code : Code} {options : PatternOptions}

/-! ## Statements about one instruction -/

/-- The single character that a node reads, be it repeated or not. -/
def reading? (options : PatternOptions) : Node → Option Single
  | .repetition body _ _ _ => single? options body
  | n => single? options n

/-- The instruction is the branch of a repetition of the tree: it comes right after the body, and
goes back to the first word of the body, which is the branch itself where the body is empty. -/
def ClosesLoop (code : Code) (options : PatternOptions) (root : Node) (is : List Instruction)
    (i : Instruction) : Prop :=
  ∃ body min max isLazy rtl start js,
    Node.repetition body min max isLazy ∈ root.subnodes ∧ Laid code options rtl start body js ∧
    js ++ [i] <:+: is ∧ code.Reads start (js ++ [i]) (i.offset + i.width) ∧
    (i.operand 0).toInt = start

/-- The instruction is one of those of a node of the tree that reads from a class, and its operand
refers to that class. -/
def ReadsClass (code : Code) (options : PatternOptions) (root : Node) (is : List Instruction)
    (i : Instruction) : Prop :=
  ∃ n cls rtl start js, n ∈ root.subnodes ∧ reading? options n = some (.member cls) ∧
    Laid code options rtl start n js ∧ js <:+: is ∧ i ∈ js ∧ code.class? (i.operand 0) = some cls

/-- The instruction stands where a run of literal characters starts in a sequence of the tree, and
its operand refers to the string of exactly these. -/
def WritesRun (code : Code) (options : PatternOptions) (root : Node) (is : List Instruction)
    (i : Instruction) : Prop :=
  ∃ before run after rtl start js,
    .concat (before ++ run.map .char ++ after) ∈ root.subnodes ∧
    (∀ n ∈ before.getLast?, isChar n = false) ∧ (∀ n ∈ after.head?, isChar n = false) ∧
    Laid code options rtl start (.concat (before ++ run.map .char ++ after)) js ∧ js <:+: is ∧
    i ∈ js ∧ i.offset = start + itemsWidth options false before ∧
    code.string? (i.operand 0) = some (String.ofList run)

/-- Each operand of the instruction that refers to a node's place or content can be traced back. -/
structure Traced (code : Code) (options : PatternOptions) (root : Node) (is : List Instruction)
    (i : Instruction) : Prop where
  branch : i.opcode.jumpsBack = true → ClosesLoop code options root is i
  member : ∀ r, i.opcode = .chars .set r → ReadsClass code options root is i
  run : i.opcode = .multi → WritesRun code options root is i

/-- What is traced back within a subtree is traced back within the tree. -/
theorem Traced.mono {n root : Node} {js is : List Instruction} {i : Instruction}
    (h : Traced code options n js i) (hn : ∀ m ∈ n.subnodes, m ∈ root.subnodes)
    (hjs : js <:+: is) : Traced code options root is i where
  branch hop := by
    obtain ⟨body, min, max, isLazy, rtl, start, ks, hmem, hlaid, hks, hreads, htarget⟩ :=
      h.branch hop
    exact ⟨body, min, max, isLazy, rtl, start, ks, hn _ hmem, hlaid, hks.trans hjs, hreads, htarget⟩
  member r hop := by
    obtain ⟨m, cls, rtl, start, ks, hmem, hreading, hlaid, hks, hi, hcls⟩ := h.member r hop
    exact ⟨m, cls, rtl, start, ks, hn _ hmem, hreading, hlaid, hks.trans hjs, hi, hcls⟩
  run hop := by
    obtain ⟨before, run, after, rtl, start, ks, hmem, hlast, hhead, hlaid, hks, hi, hat, hstr⟩ :=
      h.run hop
    exact ⟨before, run, after, rtl, start, ks, hn _ hmem, hlast, hhead, hlaid, hks.trans hjs, hi,
      hat, hstr⟩

/-- An instruction whose operands refer to nothing. -/
theorem traced_of_plain {root : Node} {is : List Instruction} {i : Instruction}
    (hjump : i.opcode.jumpsBack = false) (hchars : i.opcode.repetition? = none)
    (hmulti : i.opcode ≠ .multi) : Traced code options root is i where
  branch hop := by
    rw [hjump] at hop
    simp at hop
  member r hop := by simp [hop, Opcode.repetition?] at hchars
  run hop := absurd hop hmulti

/-! ## Nodes -/

theorem traced_of_laidSingle {n : Node} {rtl : Bool} {a : Nat} {s : Single} {min : Nat}
    {max : Option Nat} {isLazy : Bool} {is : List Instruction}
    (hn : reading? options n = some s) (hlaid : Laid code options rtl a n is)
    (h : LaidSingle code options rtl a s min max isLazy is) :
    ∀ i ∈ is, Traced code options n is i := by
  obtain ⟨matter, operand, hs, his⟩ := h
  intro i hi
  obtain ⟨⟨r, hop⟩, hoperand, -⟩ := mem_singleInstructions (his ▸ hi)
  refine ⟨fun h => by simp [hop, Opcode.jumpsBack] at h, fun r' hset => ?_,
    fun h => by simp [hop] at h⟩
  obtain ⟨rfl, -⟩ : matter = .set ∧ r = r' := by simpa [hop] using hset
  -- only a class is read as a member of a set
  cases s with
  | one c => simp [Single.Denotes] at hs
  | notOne c => simp [Single.Denotes] at hs
  | member cls =>
    exact ⟨n, cls, rtl, a, is, n.self_mem_subnodes, hn, hlaid, List.infix_rfl, hi,
      hoperand ▸ hs.2⟩

/-- The instruction of a run of literal characters is the string's, or that of its one character. -/
theorem traced_of_laidRun {before : List Node} {run : List Char} {after : List Node} {rtl : Bool}
    {start : Nat} {js : List Instruction}
    (hlast : ∀ n ∈ before.getLast?, isChar n = false)
    (hhead : ∀ n ∈ after.head?, isChar n = false)
    (hlaid : Laid code options rtl start (.concat (before ++ run.map .char ++ after)) js)
    {is : List Instruction} (his : ∀ i ∈ is, i ∈ js)
    (h : LaidRun code options rtl (start + itemsWidth options false before) run is) :
    ∀ i ∈ is, Traced code options (.concat (before ++ run.map .char ++ after)) js i := by
  intro i hi
  have hjs := his i hi
  match run, h with
  | [], h =>
    rw [show is = [] from h] at hi
    simp at hi
  | [c], h =>
    rw [show is = _ from h] at hi
    obtain rfl := List.mem_singleton.mp hi
    exact ⟨fun h => by simp [Opcode.jumpsBack] at h, fun r h => by simp at h, fun h => by simp at h⟩
  | c :: d :: cs, ⟨operand, hstring, h⟩ =>
    rw [h] at hi
    obtain rfl := List.mem_singleton.mp hi
    exact ⟨fun h => by simp [Opcode.jumpsBack] at h, fun r h => by simp at h,
      fun _ => ⟨before, c :: d :: cs, after, rtl, start, js, Node.self_mem_subnodes _, hlast, hhead,
        hlaid, List.infix_rfl, hjs, rfl, hstring⟩⟩

/-- The width of the items up to one that ends no run and those after it. -/
theorem itemsWidth_append {xs ys : List Node} (hlast : ∀ n ∈ xs.getLast?, isChar n = false) :
    itemsWidth options false (xs ++ ys) =
      itemsWidth options false xs + itemsWidth options false ys := by
  suffices h : ∀ inRun, (xs = [] → inRun = false) →
      itemsWidth options inRun (xs ++ ys) =
        itemsWidth options inRun xs + itemsWidth options false ys from h false fun _ => rfl
  intro inRun hempty
  induction xs generalizing inRun with
  | nil =>
    rw [hempty rfl, itemsWidth, Nat.zero_add]
    rfl
  | cons x xs ih =>
    rw [List.cons_append, itemsWidth, itemsWidth, Nat.add_assoc]
    congr 1
    refine ih (fun n hn => hlast n ?_) (isChar x) ?_
    · cases xs with
      | nil => simp at hn
      | cons => simpa using hn
    · rintro rfl
      exact hlast x rfl

/-- A run of literal characters and the item after it. -/
theorem itemsWidth_run (run : List Char) {item : Node} (hchar : isChar item = false) :
    itemsWidth options false (run.map .char ++ [item]) = runWidth run + width options item := by
  have hinRun : ∀ cs : List Char,
      itemsWidth options true (cs.map .char ++ [item]) = width options item := by
    intro cs
    induction cs with
    | nil => simp [itemsWidth, hchar]
    | cons c cs ih => simp [itemsWidth, isChar, ih]
  cases run with
  | nil => simp [itemsWidth, runWidth]
  | cons c cs => simp [itemsWidth, isChar, hinRun cs, runWidth, width]

theorem traced_of_laidItems {rtl : Bool} {items : List Node}
    (ih : ∀ item ∈ items, ∀ {a is b}, Laid code options rtl a item is → code.Reads a is b →
      ∀ i ∈ is, Traced code options item is i)
    {start : Nat} {all done : List Node} {run : List Char} {js is : List Instruction} {b : Nat}
    (hall : all = done ++ run.reverse.map .char ++ items)
    (hlast : ∀ n ∈ done.getLast?, isChar n = false)
    (hlaid : Laid code options rtl start (.concat all) js) (his : is <:+: js)
    (h : LaidItems code options rtl (start + itemsWidth options false done) run items is)
    (hr : code.Reads (start + itemsWidth options false done) is b) :
    ∀ i ∈ is, Traced code options (.concat all) js i := by
  induction items generalizing done run is with
  | nil =>
    subst hall
    exact traced_of_laidRun hlast (by simp) hlaid (fun i hi => his.subset hi) h
  | cons item rest ihRest =>
    have ihTail := @ihRest fun n hn => ih n (List.mem_cons_of_mem item hn)
    cases hchar : isChar item with
    | true =>
      obtain ⟨c, rfl⟩ := exists_char_of_isChar hchar
      exact @ihTail _ (c :: run) _ (by simp [hall]) hlast his h hr
    | false =>
      obtain ⟨before, ks, after, rfl, ⟨hbefore, -⟩, ⟨hks, hrItem⟩, hafter, hrAfter⟩ :=
        h.split hchar hr
      have hdone : start + itemsWidth options false done + runWidth run + width options item =
          start + itemsWidth options false (done ++ run.reverse.map .char ++ [item]) := by
        rw [List.append_assoc, itemsWidth_append hlast, itemsWidth_run _ hchar, ← Nat.add_assoc,
          ← Nat.add_assoc]
        simp only [runWidth, List.reverse_eq_nil_iff]
      intro i hi
      rcases List.mem_append.mp hi with hi | hi
      · subst hall
        exact traced_of_laidRun hlast (by simp [hchar]) hlaid
          (fun j hj => his.subset (List.mem_append_left _ hj)) hbefore i hi
      rcases List.mem_append.mp hi with hi | hi
      · refine (ih item List.mem_cons_self hks hrItem i hi).mono (fun m hm => ?_) ?_
        · rw [Node.subnodes, List.mem_cons, Node.mem_subnodesOf]
          exact .inr ⟨item, by simp [hall], hm⟩
        · exact List.IsInfix.trans ⟨before, after, by simp⟩ his
      · rw [hdone] at hafter hrAfter
        exact @ihTail (done ++ run.reverse.map .char ++ [item]) [] _ (by simp [hall])
          (by simp [hchar]) (List.IsInfix.trans ⟨before ++ ks, [], by simp⟩ his) hafter hrAfter i hi

theorem traced_of_laidArms {rtl : Bool} {arms : List Node}
    (ih : ∀ arm ∈ arms, ∀ {a is b}, Laid code options rtl a arm is → code.Reads a is b →
      ∀ i ∈ is, Traced code options arm is i)
    {a exit : Nat} {js is : List Instruction} {b : Nat} {all : List Node}
    (hall : ∀ arm ∈ arms, arm ∈ all) (his : is <:+: js)
    (h : LaidArms code options rtl exit a arms is) (hr : code.Reads a is b) :
    ∀ i ∈ is, Traced code options (.alternate all) js i := by
  induction arms generalizing a is with
  | nil =>
    rw [show is = [] from h]
    simp
  | cons arm rest ihRest =>
    have hsub : ∀ m ∈ arm.subnodes, m ∈ (Node.alternate all).subnodes := fun m hm => by
      rw [Node.subnodes, List.mem_cons, Node.mem_subnodesOf]
      exact .inr ⟨arm, hall arm List.mem_cons_self, hm⟩
    cases rest with
    | nil => exact fun i hi => (ih arm List.mem_cons_self h hr i hi).mono hsub his
    | cons next rest =>
      obtain ⟨stop, ks, after, -, rfl, -, ⟨hks, hrArm⟩, -, hafter, hrAfter⟩ := h.split hr
      intro i hi
      rcases List.mem_cons.mp hi with rfl | hi
      · exact traced_of_plain rfl rfl (by simp)
      rcases List.mem_append.mp hi with hi | hi
      · exact (ih arm List.mem_cons_self hks hrArm i hi).mono hsub
          (List.IsInfix.trans ⟨[_], _ :: after, rfl⟩ his)
      rcases List.mem_cons.mp hi with rfl | hi
      · exact traced_of_plain rfl rfl (by simp)
      · exact ihRest (fun n hn => ih n (List.mem_cons_of_mem arm hn))
          (fun n hn => hall n (List.mem_cons_of_mem arm hn))
          ((((List.suffix_cons _ after).trans (List.suffix_append ks _)).trans
            (List.suffix_cons _ _)).isInfix.trans his) hafter hrAfter i hi

@[simp] theorem operand_tailInstruction (rtl : Bool) (body branch min : Nat) (max : Option Nat)
    (isLazy : Bool) :
    (tailInstruction options rtl body branch min max isLazy).operand 0 = offsetWord body := by
  unfold tailInstruction
  split <;> cases isLazy <;> rfl

/-- The branch of a repetition refers to its target only. -/
theorem traced_of_tailInstruction {rtl : Bool} {body branch min : Nat} {max : Option Nat}
    {isLazy : Bool} {root : Node} {is : List Instruction}
    (h : ClosesLoop code options root is
      (tailInstruction options rtl body branch min max isLazy)) :
    Traced code options root is (tailInstruction options rtl body branch min max isLazy) := by
  refine ⟨fun _ => h, ?_, ?_⟩ <;> unfold tailInstruction <;> split <;> cases isLazy <;> simp

/-- Every instruction that a node is laid out as can be traced back to the node. -/
theorem traced_of_laid (hsize : code.words.size < 2 ^ 31) {n : Node} {rtl : Bool} {a : Nat}
    {is : List Instruction} {b : Nat} (h : Laid code options rtl a n is) (hr : code.Reads a is b) :
    ∀ i ∈ is, Traced code options n is i := by
  induction n using Node.inductionOn generalizing rtl a is b with
  | empty =>
    rw [show is = [] from h]
    simp
  | char | any | charClass => exact traced_of_laidSingle rfl h h
  | concat items ih =>
    have hall : items = [] ++ ([] : List Char).reverse.map .char ++ items := rfl
    exact traced_of_laidItems (fun n hn {_ _ _} => ih n hn) hall (by simp) h List.infix_rfl h hr
  | alternate arms ih =>
    exact traced_of_laidArms (fun n hn {_ _ _} => ih n hn) (fun _ => id) List.infix_rfl h hr
  | group body ih =>
    exact fun i hi =>
      (ih h hr i hi).mono (fun m => List.mem_cons_of_mem (Node.group body)) List.infix_rfl
  | capture index body ih =>
    obtain ⟨close, js, rfl, -, ⟨hjs, hrBody⟩, -⟩ := h.split_capture hr
    intro i hi
    rcases List.mem_cons.mp hi with rfl | hi
    · exact traced_of_plain rfl rfl (by simp)
    rcases List.mem_append.mp hi with hi | hi
    · exact (ih hjs hrBody i hi).mono (fun m => List.mem_cons_of_mem (Node.capture index body))
        ⟨[_], [_], rfl⟩
    · obtain rfl := List.mem_singleton.mp hi
      exact traced_of_plain rfl rfl (by simp)
  | repetition body min max isLazy ih =>
    cases hsingle : single? options body with
    | some s =>
      have hlaid := h
      simp only [Laid, hsingle] at h
      exact traced_of_laidSingle (by simp [reading?, hsingle]) hlaid h
    | none =>
      obtain ⟨start, branch, js, -, rfl, -, ⟨hjs, hrBody⟩, hrTail⟩ :=
        h.split_repetition hsingle hr
      have hr' := Code.Reads.append_iff.mpr ⟨branch, hrBody, hrTail⟩
      intro i hi
      rcases List.mem_cons.mp hi with rfl | hi
      · unfold headInstruction
        split <;> split <;> exact traced_of_plain rfl rfl (by simp)
      rcases List.mem_append.mp hi with hi | hi
      · unfold skipInstructions at hi
        split at hi
        · obtain rfl := List.mem_singleton.mp hi
          exact traced_of_plain rfl rfl (by simp)
        · simp at hi
      rcases List.mem_append.mp hi with hi | hi
      · exact (ih hjs hrBody i hi).mono
          (fun m => List.mem_cons_of_mem (Node.repetition body min max isLazy))
          (((List.prefix_append js _).isInfix.trans (List.suffix_append _ _).isInfix).trans
            (List.suffix_cons _ _).isInfix)
      · -- the branch comes right after the body, and the body starts after the head
        obtain rfl := List.mem_singleton.mp hi
        refine traced_of_tailInstruction ?_
        refine ⟨body, min, max, isLazy, rtl, _, js, Node.self_mem_subnodes _, hjs,
          ((List.suffix_append _ _).trans (List.suffix_cons _ _)).isInfix, ?_, ?_⟩
        · have hstop : _ = b := hrTail.2
          rw [← hstop] at hr'
          rwa [Code.instructionAt_offset hrTail.1]
        · rw [operand_tailInstruction, toInt_offsetWord]
          have hlt := Code.lt_size_of_instructionAt hrTail.1
          have hle := hrBody.le
          omega
  | backref group =>
    rw [show is = _ from h]
    intro i hi
    obtain rfl := List.mem_singleton.mp hi
    exact traced_of_plain rfl rfl (by simp)
  | assert anchor =>
    rw [show is = _ from h]
    intro i hi
    obtain rfl := List.mem_singleton.mp hi
    cases anchor <;> simp only [anchorOpcode] <;> (try split) <;>
      exact traced_of_plain rfl rfl (by simp)
  | lookAround body negative behind ih =>
    cases negative <;>
    · obtain ⟨js, hjs, rfl⟩ := h
      rw [List.cons_append, List.cons_append] at hr ⊢
      obtain ⟨m, hrBody, -⟩ := Code.Reads.append_iff.mp hr.2.2
      intro i hi
      rcases List.mem_cons.mp hi with rfl | hi
      · exact traced_of_plain rfl rfl (by simp)
      rcases List.mem_cons.mp hi with rfl | hi
      · exact traced_of_plain rfl rfl (by simp)
      rcases List.mem_append.mp hi with hi | hi
      · exact (ih hjs hrBody i hi).mono
          (fun m => List.mem_cons_of_mem (Node.lookAround body _ behind)) ⟨[_, _], [_, _], rfl⟩
      · simp only [List.mem_cons, List.not_mem_nil, or_false] at hi
        rcases hi with rfl | rfl <;> exact traced_of_plain rfl rfl (by simp)

end PatternSampler.Layout
