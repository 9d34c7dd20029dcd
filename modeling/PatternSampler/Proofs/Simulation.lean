import PatternSampler.Proofs.Acceptance
import PatternSampler.Proofs.Execution
/-!
# Code writes what its tree writes

Wherever a node is laid out, a run that comes to its first word leaves it after its last, or ends
with an error, and has then written what `Node.sample` says, whatever loop counts and open groups
it came with.  Put together for the whole tree, the program of a tree halts, and its text is the
tree's.
-/
set_option autoImplicit false

namespace PatternSampler

open Layout

variable {code : Code} {options : PatternOptions} {cfg : Config}

/-! ## Single characters -/

/-- A node that reads a single character writes it. -/
theorem Node.sample_of_single {n : Node} {s : Single} (h : single? options n = some s)
    (place : Place) : n.sample options cfg place = s.writer cfg place := by
  induction n using Node.inductionOn with
  | char c =>
    obtain rfl := Option.some.inj h
    rw [Node.sample, Single.writer]
  | any =>
    obtain rfl := Option.some.inj h
    rw [Node.sample]
    split <;> rfl
  | charClass cls =>
    obtain rfl := Option.some.inj h
    rw [Node.sample, Single.writer]
  | group body ih =>
    rw [Node.sample]
    exact ih h
  | _ => simp [single?] at h

theorem copies_countWord {i : Instruction} {matter : Matter} (n : Nat) (cap : UInt64)
    (hop : i.opcode = .chars matter .exact) (hcount : i.operand 1 = countWord n) :
    i.copies cap = mandatoryCopies n := by
  simp only [Instruction.copies, hop, hcount, toInt_countWord, Int.toNat_natCast, mandatoryCopies]

/-- The optional copies of a single character. -/
theorem copies_loop {i : Instruction} {matter : Matter} (min max : Nat)
    (hop : i.opcode = .chars matter .loop) (hcount : i.operand 1 = countWord (max - min)) :
    i.copies cfg.repetitionCap = optionalCopies cfg min (some max) false := by
  simp only [Instruction.copies, hop, hcount, countWord_eq_unbounded_iff, optionalCopies,
    Bool.false_eq_true, false_or, toInt_countWord, Int.toNat_natCast]
  split
  · rfl
  · rename_i hlt
    rw [Nat.min_eq_left (Nat.le_of_not_le hlt)]

theorem optionalCopies_lazy (cfg : Config) (min : Nat) (max : Option Nat) :
    optionalCopies cfg min max true = 0 := by
  cases max <;> simp [optionalCopies]

theorem optionalCopies_self (cfg : Config) (min : Nat) (isLazy : Bool) :
    optionalCopies cfg min (some min) isLazy = 0 := by
  simp [optionalCopies]

/-- The mandatory copies of a single character, if there are any. -/
theorem writes_of_mandatory {rtl : Bool} {a b : Nat} {matter : Matter} {operand : Int32}
    {s : Single} (hs : s.Denotes code matter operand) {min : Nat}
    (hr : code.Reads a (if 0 < min then
      [instruction options rtl a (.chars matter .exact) [operand, countWord min]] else []) b) :
    code.Writes cfg a b ((s.writer cfg ⟨a, .exact⟩).times (mandatoryCopies min)) := by
  by_cases hmin : 0 < min
  · rw [if_pos hmin] at hr
    obtain ⟨hat, hstop⟩ := hr
    obtain rfl : _ = b := hstop
    have hwrites := @Code.writes_of_chars _ cfg _ _ _ _ _ hat rfl (by simp) hs
    rwa [copies_countWord min cfg.repetitionCap rfl rfl] at hwrites
  · rw [if_neg hmin] at hr
    obtain rfl : a = b := hr
    obtain rfl : min = 0 := by omega
    exact Code.writes_nothing a

/-- The optional copies of a single character. -/
theorem writes_of_optional {rtl : Bool} {a b : Nat} {matter : Matter} {operand : Int32}
    {s : Single} (hs : s.Denotes code matter operand) {min : Nat} {max : Option Nat}
    {isLazy : Bool}
    (hr : code.Reads a (match max with
      | some max =>
        if max = min then []
        else [instruction options rtl a (.chars matter (if isLazy then .lazyLoop else .loop))
          [operand, countWord (max - min)]]
      | none => [instruction options rtl a (.chars matter (if isLazy then .lazyLoop else .loop))
          [operand, unbounded]]) b) :
    code.Writes cfg a b
      ((s.writer cfg ⟨a, .loop⟩).times (optionalCopies cfg min max isLazy)) := by
  cases isLazy with
  | true =>
    rw [optionalCopies_lazy, Writer.times_zero]
    cases max with
    | none =>
      obtain ⟨hat, hstop⟩ := hr
      obtain rfl : _ = b := hstop
      exact Code.writes_of_lazyChars hat rfl
    | some max =>
      simp only at hr
      split at hr
      · obtain rfl : a = b := hr
        exact Code.writes_nothing a
      · obtain ⟨hat, hstop⟩ := hr
        obtain rfl : _ = b := hstop
        exact Code.writes_of_lazyChars hat rfl
  | false =>
    cases max with
    | none =>
      obtain ⟨hat, hstop⟩ := hr
      obtain rfl : _ = b := hstop
      exact Code.writes_of_chars hat rfl (by simp) hs
    | some max =>
      simp only at hr
      split at hr
      · rename_i hmax
        obtain rfl : a = b := hr
        rw [hmax, optionalCopies_self]
        exact Code.writes_nothing a
      · obtain ⟨hat, hstop⟩ := hr
        obtain rfl : _ = b := hstop
        have hwrites := @Code.writes_of_chars _ cfg _ _ _ _ _ hat rfl (by simp) hs
        rwa [copies_loop min max rfl rfl] at hwrites

theorem writes_of_laidSingle {rtl : Bool} {a b : Nat} {s : Single} {min : Nat} {max : Option Nat}
    {isLazy : Bool} {is : List Instruction}
    (h : LaidSingle code options rtl a s min max isLazy is) (hr : code.Reads a is b) :
    code.Writes cfg a b
      (((s.writer cfg (if min = 1 ∧ max = some 1 then .at_ a else ⟨a, .exact⟩)).times
        (mandatoryCopies min)).andThen
      ((s.writer cfg ⟨a + if 0 < min then 3 else 0, .loop⟩).times
        (optionalCopies cfg min max isLazy))) := by
  obtain ⟨matter, operand, hs, rfl⟩ := h
  unfold singleInstructions at hr
  by_cases honce : min = 1 ∧ max = some 1
  · rw [if_pos honce] at hr
    obtain ⟨hat, hstop⟩ := hr
    obtain rfl : _ = b := hstop
    obtain ⟨rfl, rfl⟩ := honce
    rw [optionalCopies_self, Writer.times_zero, Writer.andThen_nothing, if_pos ⟨rfl, rfl⟩]
    exact Code.writes_of_chars hat rfl (by simp) hs
  · simp only [honce, if_false] at hr ⊢
    obtain ⟨m, hrMandatory, hrOptional⟩ := Code.Reads.append_iff.mp hr
    have hm : m = a + if 0 < min then 3 else 0 := by
      rw [hrMandatory.stop_eq]
      split <;> rfl
    subst hm
    exact (writes_of_mandatory hs hrMandatory).andThen (writes_of_optional hs hrOptional)

/-- A single character that is not repeated. -/
theorem writes_of_laidOnce {rtl : Bool} {a b : Nat} {s : Single} {is : List Instruction}
    (h : LaidSingle code options rtl a s 1 (some 1) false is) (hr : code.Reads a is b) :
    code.Writes cfg a b (s.writer cfg (.at_ a)) := by
  have hwrites := @writes_of_laidSingle _ _ cfg _ _ _ _ _ _ _ _ h hr
  have honce : mandatoryCopies 1 = 1 := by decide
  rwa [if_pos ⟨rfl, rfl⟩, honce, Writer.times_one, optionalCopies_self, Writer.times_zero,
    Writer.andThen_nothing] at hwrites

/-! ## Sequences and alternations -/

theorem writes_of_laidRun {rtl : Bool} {a b : Nat} {run : List Char} {is : List Instruction}
    (h : LaidRun code options rtl a run is) (hr : code.Reads a is b) :
    code.Writes cfg a b (.text (String.ofList run)) := by
  match run, h with
  | [], h =>
    rw [show is = [] from h] at hr
    obtain rfl : a = b := hr
    exact Code.writes_nothing a
  | [c], h =>
    rw [show is = _ from h] at hr
    obtain ⟨hat, hstop⟩ := hr
    obtain rfl : _ = b := hstop
    have hs : (Single.one c).Denotes code .one (Int32.ofNat c.toNat) := ⟨rfl, rfl⟩
    have hwrites := @Code.writes_of_chars _ cfg _ _ _ _ _ hat rfl (by simp) hs
    have hcopies : (instruction options rtl a (.chars .one .single)
        [Int32.ofNat c.toNat]).copies cfg.repetitionCap = 1 := rfl
    rwa [hcopies, Writer.times_one] at hwrites
  | c :: d :: cs, ⟨operand, hstring, h⟩ =>
    rw [h] at hr
    obtain ⟨hat, hstop⟩ := hr
    obtain rfl : _ = b := hstop
    refine Code.writes_of_exec hat ?_
    rintro m rfl
    have hoperand : (instruction options rtl m.ip .multi [operand]).operand 0 = operand := rfl
    simp only [Machine.exec, instruction_opcode, hoperand, hstring]
    rfl

/-- What the items of a list write, they write as a sequence, after the run before them. -/
theorem writes_of_laidItems {rtl : Bool} {items : List Node}
    (ih : ∀ item ∈ items, ∀ {a is b}, Laid code options rtl a item is → code.Reads a is b →
      b ≤ code.words.size → code.Writes cfg a b (item.sample options cfg (.at_ a)))
    {a b : Nat} {run : List Char} {is : List Instruction}
    (h : LaidItems code options rtl a run items is) (hr : code.Reads a is b)
    (hb : b ≤ code.words.size) :
    code.Writes cfg a b ((Writer.text (String.ofList run.reverse)).andThen
      (Node.sampleItems options cfg (a + runWidth run) (!run.isEmpty) items)) := by
  induction items generalizing a run is with
  | nil =>
    rw [Node.sampleItems, Writer.andThen_nothing]
    exact writes_of_laidRun h hr
  | cons item rest ihRest =>
    have ihTail := @ihRest fun n hn => ih n (List.mem_cons_of_mem item hn)
    cases hchar : isChar item with
    | true =>
      obtain ⟨c, rfl⟩ := exists_char_of_isChar hchar
      have hwrites := ihTail h hr
      -- the character goes with the run, and takes words only if it starts it
      have hnext : a + runWidth (c :: run) = a + runWidth run +
          if (!run.isEmpty && isChar (.char c)) = true then 0 else width options (.char c) := by
        cases run <;> simp [runWidth, isChar, width]
      rw [List.reverse_cons, String.ofList_append, ← Writer.text_andThen_text, Writer.andThen_assoc,
        hnext] at hwrites
      rw [Node.sampleItems, Node.sample]
      exact hwrites
    | false =>
      obtain ⟨before, js, after, -, ⟨hbefore, hrBefore⟩, ⟨hjs, hrItem⟩, hafter, hrAfter⟩ :=
        h.split hchar hr
      have hle := hrAfter.le
      have hwrites := ihTail hafter hrAfter
      have hnothing : Writer.text (String.ofList ([] : List Char).reverse) = .nothing := rfl
      rw [hnothing, Writer.nothing_andThen] at hwrites
      rw [Node.sampleItems]
      simp only [hchar, Bool.and_false, Bool.false_eq_true, if_false]
      exact (writes_of_laidRun hbefore hrBefore).andThen
        ((ih item List.mem_cons_self hjs hrItem (by omega)).andThen hwrites)

/-- An alternation writes its first arm and jumps over the others. -/
theorem writes_of_laidArms (hsize : code.words.size < 2 ^ 31) {rtl : Bool} {arms : List Node}
    (ih : ∀ arm ∈ arms, ∀ {a is b}, Laid code options rtl a arm is → code.Reads a is b →
      b ≤ code.words.size → code.Writes cfg a b (arm.sample options cfg (.at_ a)))
    {a exit : Nat} {is : List Instruction} (h : LaidArms code options rtl exit a arms is)
    (hr : code.Reads a is exit) (hexit : exit ≤ code.words.size) :
    code.Writes cfg a exit (Node.sampleFirst options cfg a arms) := by
  match arms, h with
  | [], h =>
    rw [show is = [] from h] at hr
    obtain rfl : a = exit := hr
    exact Code.writes_nothing a
  | [arm], h => exact ih arm List.mem_cons_self h hr hexit
  | arm :: next :: rest, h =>
    obtain ⟨stop, js, after, -, -, hrBranch, ⟨hjs, hrArm⟩, hrGoto, -, -⟩ := h.split hr
    have hlt := Code.lt_size_of_instructionAt hrGoto
    have hbranch : code.Writes cfg a (a + 2) .nothing :=
      Code.writes_of_next hrBranch fun m => rfl
    have hgoto : code.Writes cfg stop exit .nothing :=
      Code.writes_of_goto hrGoto rfl (toInt_offsetWord (by omega))
    have harm := ih arm List.mem_cons_self hjs hrArm (by omega)
    have hwrites := (hbranch.andThen harm).andThen hgoto
    rwa [Writer.nothing_andThen, Writer.andThen_nothing] at hwrites

/-! ## Repetitions -/

/-- The limit of a loop is how many optional copies there are. -/
theorem loopLimit_tailInstruction {rtl : Bool} {body branch min : Nat} {max : Option Nat}
    {isLazy : Bool} (hcounted : isCounted min max = true) :
    (tailInstruction options rtl body branch min max isLazy).loopLimit cfg.repetitionCap =
      optionalCopies cfg min max isLazy := by
  simp only [tailInstruction, hcounted, if_true]
  cases isLazy with
  | true =>
    rw [optionalCopies_lazy]
    rfl
  | false =>
    cases max with
    | none => rfl
    | some max =>
      have hoperand : (instruction options rtl branch .branchcount
          [offsetWord body, countWord (max - min)]).operand 1 = countWord (max - min) := rfl
      simp only [Instruction.loopLimit, Bool.false_eq_true, if_false, instruction_opcode, hoperand,
        countWord_eq_unbounded_iff, optionalCopies, false_or, toInt_countWord]
      split
      · rfl
      · rename_i hlt
        have hcap : Nat.min (max - min) cfg.repetitionCap.toNat =
            Min.min (max - min) cfg.repetitionCap.toNat := rfl
        rw [hcap]
        omega

theorem exec_tailInstruction {rtl : Bool} {body branch min : Nat} {max : Option Nat}
    {isLazy : Bool} (hcounted : isCounted min max = true) (m : Machine) :
    m.exec code cfg (tailInstruction options rtl body branch min max isLazy) =
      m.branch cfg (tailInstruction options rtl body branch min max isLazy) := by
  simp only [tailInstruction, hcounted, if_true]
  cases isLazy <;> rfl

/-- Where a counted repetition starts counting: so that it ends with as many copies as it has to
write, and one less if the first of them does not come from the branch. -/
def firstCount (min : Nat) : Int := if min = 0 then 0 else 1 - mandatoryCopies min

theorem exec_headInstruction_counted {rtl : Bool} {a min : Nat} {max : Option Nat}
    (hcounted : isCounted min max = true) (m : Machine) :
    m.exec code cfg (headInstruction options rtl a min max) =
      .ok ({ m with counts := firstCount min :: m.counts }.next
        (headInstruction options rtl a min max)) := by
  simp only [headInstruction, hcounted, if_true, firstCount]
  by_cases hmin : min = 0
  · simp only [hmin, if_true]
    rfl
  · simp only [hmin, if_false]
    have hoperand : (instruction options rtl a .setcount [1 - countWord min]).operand 0 =
        1 - countWord min := rfl
    have hcount : (1 - countWord min).toInt = 1 - (mandatoryCopies min : Int) := by
      have hle : mandatoryCopies min ≤ 2147483647 := Nat.min_le_right min 2147483647
      rw [Int32.toInt_sub, Int32.toInt_one, toInt_countWord]
      exact Int.bmod_eq_of_le (by omega) (by omega)
    simp only [Machine.exec, instruction_opcode, hoperand, hcount]

theorem exec_headInstruction_marked {rtl : Bool} {a min : Nat} {max : Option Nat}
    (hcounted : isCounted min max = false) (m : Machine) :
    m.exec code cfg (headInstruction options rtl a min max) =
      .ok ({ m with marks := m.marks.push }.next (headInstruction options rtl a min max)) := by
  simp only [headInstruction, hcounted, Bool.false_eq_true, if_false]
  split <;> rfl

theorem exec_tailInstruction_marked {rtl : Bool} {body branch min : Nat} {max : Option Nat}
    {isLazy : Bool} (hcounted : isCounted min max = false) (m : Machine) :
    m.exec code cfg (tailInstruction options rtl body branch min max isLazy) =
      Machine.andNext (tailInstruction options rtl body branch min max isLazy)
        (m.close (tailInstruction options rtl body branch min max isLazy) none) := by
  simp only [tailInstruction, hcounted, Bool.false_eq_true, if_false]
  cases isLazy <;> rfl

/-- Before it comes to its branch, a repetition runs its body once, unless it may be left out. -/
theorem writes_before_branch {rtl : Bool} {a offset start branch min : Nat} {f : Writer}
    (hskip : code.Reads a (skipInstructions options rtl offset branch min) start)
    (hbody : code.Writes cfg start branch f) (hbranch : branch < 2 ^ 31) :
    code.Writes cfg a branch (f.times (if min = 0 then 0 else 1)) := by
  unfold skipInstructions at hskip
  by_cases hmin : min = 0
  · rw [if_pos hmin] at hskip ⊢
    exact Code.writes_of_goto hskip.1 rfl (toInt_offsetWord hbranch)
  · rw [if_neg hmin] at hskip ⊢
    obtain rfl : a = start := hskip
    rwa [Writer.times_one]

/-- A repetition of a node that writes more than a single character. -/
theorem writes_of_loop {rtl : Bool} {a start branch b min : Nat} {max : Option Nat}
    {isLazy : Bool} {f : Writer}
    (hrHead : code.Reads a (headInstruction options rtl a min max ::
      skipInstructions options rtl (a + openWidth min max) branch min) start)
    (hwrites : code.Writes cfg start branch f) (hle : start ≤ branch)
    (hrTail : code.Reads branch [tailInstruction options rtl start branch min max isLazy] b)
    (hsize : code.words.size < 2 ^ 31) :
    code.Writes cfg a b (f.times (mandatoryCopies min + optionalCopies cfg min max isLazy)) := by
  obtain ⟨hrHead, hrSkip⟩ := hrHead
  obtain ⟨hrTail, hstop⟩ := hrTail
  obtain rfl : _ = b := hstop
  have hlt := Code.lt_size_of_instructionAt hrTail
  have hfirst := writes_before_branch hrSkip hwrites (by omega)
  cases hcounted : isCounted min max with
  | true =>
    have htarget : ((tailInstruction options rtl start branch min max isLazy).operand 0).toInt =
        start := by
      rw [operand_tailInstruction, toInt_offsetWord (by omega)]
    have hloop := Code.writes_of_counted hrHead (exec_headInstruction_counted hcounted) hfirst
      hrTail (exec_tailInstruction hcounted) htarget hwrites
    rw [loopLimit_tailInstruction hcounted, ← Writer.times_add] at hloop
    have hcopies : (if min = 0 then 0 else 1) +
        ((optionalCopies cfg min max isLazy : Int) - firstCount min).toNat =
        mandatoryCopies min + optionalCopies cfg min max isLazy := by
      by_cases hmin : min = 0
      · simp [hmin, firstCount, mandatoryCopies]
      · have hpos : 1 ≤ mandatoryCopies min := by
          simp only [mandatoryCopies, Nat.min_def]
          split <;> omega
        simp only [hmin, firstCount, if_false]
        omega
    rwa [hcopies] at hloop
  | false =>
    -- such a repetition has no upper bound, and one mandatory copy at most
    have hmark := Code.writes_of_segment none hrHead (exec_headInstruction_marked hcounted) hfirst
      hrTail (exec_tailInstruction_marked hcounted)
    obtain ⟨rfl, hmin⟩ : max = none ∧ min ≤ 1 := by
      cases max <;> simp_all [isCounted]
    have hcopies : mandatoryCopies min + optionalCopies cfg min none isLazy =
        if min = 0 then 0 else 1 := by
      obtain rfl | rfl : min = 0 ∨ min = 1 := by omega
      · rfl
      · rfl
    rw [hcopies]
    exact hmark

/-! ## Nodes -/

theorem mandatoryPlace_of_none {a min : Nat} {max : Option Nat} {body : Node}
    (h : single? options body = none) :
    mandatoryPlace options a body min max = .at_ (a + headWidth min max) := by
  simp [mandatoryPlace, h]

theorem optionalPlace_of_none {a min : Nat} {max : Option Nat} {body : Node}
    (h : single? options body = none) :
    optionalPlace options a body min max = .at_ (a + headWidth min max) := by
  simp [optionalPlace, h]

theorem writes_of_assert {rtl : Bool} {a : Nat} {anchor : Anchor}
    (hat : code.instructionAt a = .ok (instruction options rtl a (anchorOpcode options anchor) [])) :
    code.Writes cfg a (a + (anchorOpcode options anchor).width)
      ((Node.assert anchor).sample options cfg (.at_ a)) := by
  cases anchor with
  | wordBoundary =>
    refine Code.writes_of_exec hat ?_
    rintro m rfl
    rfl
  | notWordBoundary =>
    refine Code.writes_of_exec hat ?_
    rintro m rfl
    rw [Node.sample]
    cases hpick : m.rng.pick cfg.alphabet with
    | mk c r =>
      cases c with
      | none =>
        rw [Writer.pick_of_none hpick]
        simp only [anchorOpcode, Machine.exec, instruction_opcode, hpick]
        rfl
      | some c =>
        rw [Writer.pick_of_some hpick]
        simp only [anchorOpcode, Machine.exec, instruction_opcode, hpick]
        rfl
  | lineStart | lineEnd =>
    refine Code.writes_of_next hat fun m => ?_
    unfold anchorOpcode
    cases options.multiLine <;> rfl
  | _ => exact Code.writes_of_next hat fun m => rfl

theorem writes_of_backref {rtl : Bool} {a group : Nat}
    (hat : code.instructionAt a = .ok (instruction options rtl a .ref [Tables.indexWord group])) :
    code.Writes cfg a (a + Opcode.ref.width) ((Node.backref group).sample options cfg (.at_ a)) := by
  refine Code.writes_of_exec hat ?_
  rintro m rfl
  have hoperand : (instruction options rtl m.ip .ref [Tables.indexWord group]).operand 0 =
      Tables.indexWord group := rfl
  have hcapture : m.marks.capture? (Tables.indexWord group) =
      m.memory.captures.get? (Tables.indexWord group) := rfl
  rw [Node.sample]
  simp only [Machine.exec, instruction_opcode, hoperand, hcapture, Writer.reference]
  cases m.memory.captures.get? (Tables.indexWord group) <;> rfl

/-- What a node is laid out as writes what the node does. -/
theorem writes_of_laid (hsize : code.words.size < 2 ^ 31) {n : Node} {rtl : Bool} {a b : Nat}
    {is : List Instruction} (h : Laid code options rtl a n is) (hr : code.Reads a is b)
    (hb : b ≤ code.words.size) : code.Writes cfg a b (n.sample options cfg (.at_ a)) := by
  induction n using Node.inductionOn generalizing rtl a is b with
  | empty =>
    rw [show is = [] from h] at hr
    obtain rfl : a = b := hr
    exact Code.writes_nothing a
  | char | any | charClass =>
    rw [Node.sample_of_single rfl]
    exact writes_of_laidOnce h hr
  | concat items ih =>
    have hwrites := writes_of_laidItems (fun n hn {_ _ _} => ih n hn) h hr hb
    have hnothing : Writer.text (String.ofList ([] : List Char).reverse) = .nothing := rfl
    rw [hnothing, Writer.nothing_andThen] at hwrites
    exact hwrites
  | alternate arms ih =>
    have hexit : b = a + choiceWidth options arms := by
      rw [hr.stop_eq, LaidArms.sum_width (fun _ _ {_ _} hn => hn.sum_width) h]
    subst hexit
    exact writes_of_laidArms hsize (fun n hn {_ _ _} => ih n hn) h hr hb
  | group body ih => exact ih h hr hb
  | capture index body ih =>
    obtain ⟨close, js, -, hrOpen, ⟨hjs, hrBody⟩, hrClose, hstop⟩ := h.split_capture hr
    obtain rfl : _ = b := hstop
    have hlt := Code.lt_size_of_instructionAt hrClose
    exact Code.writes_of_segment (some (Tables.indexWord index)) hrOpen (fun m => rfl)
      (ih hjs hrBody (by omega)) hrClose fun m => rfl
  | repetition body min max isLazy ih =>
    rw [Node.sample]
    cases hsingle : single? options body with
    | some s =>
      simp only [Laid, hsingle] at h
      rw [Node.sample_of_single hsingle, Node.sample_of_single hsingle]
      simp only [mandatoryPlace, optionalPlace, hsingle, Option.isNone_some, Bool.false_eq_true,
        if_false]
      exact writes_of_laidSingle h hr
    | none =>
      obtain ⟨start, branch, js, rfl, -, hrHead, ⟨hjs, hrBody⟩, hrTail⟩ :=
        h.split_repetition hsingle hr
      have hle := hrTail.le
      rw [mandatoryPlace_of_none hsingle, optionalPlace_of_none hsingle, ← Writer.times_add]
      exact writes_of_loop hrHead (ih hjs hrBody (by omega)) hrBody.le hrTail hsize
  | backref group =>
    rw [show is = _ from h] at hr
    obtain ⟨hat, hstop⟩ := hr
    obtain rfl : _ = b := hstop
    exact writes_of_backref hat
  | assert anchor =>
    rw [show is = _ from h] at hr
    obtain ⟨hat, hstop⟩ := hr
    obtain rfl : _ = b := hstop
    exact writes_of_assert hat
  | lookAround body negative behind ih =>
    cases negative with
    | true =>
      obtain ⟨back, js, -, hrOpen, hrBranch, ⟨hjs, hrBody⟩, hrBack, hrClose, hstop⟩ :=
        h.split_negative hr
      obtain rfl : _ = b := hstop
      have hpasses := (Code.passes_of_plain hrBranch (by simp [Code.IsPlain])).trans
        (passes_of_laid hjs hrBody)
      exact Code.writes_of_negative hrOpen rfl
        (Code.lookaround_negative hpasses hrBack rfl hrClose rfl)
    | false =>
      obtain ⟨close, js, -, hrOpen, hrMark, ⟨hjs, hrBody⟩, hrGet, hrClose, hstop⟩ :=
        h.split_positive hr
      obtain rfl : _ = b := hstop
      have hlt := Code.lt_size_of_instructionAt hrGet
      have hpasses := ((Code.passes_of_plain hrMark (by simp [Code.IsPlain])).trans
        (passes_of_laid hjs hrBody)).trans (Code.passes_of_plain hrGet (by simp [Code.IsPlain]))
      have hopen := @Code.writes_of_positive _ cfg _ _ _ hrOpen rfl
        (Code.lookaround_positive hpasses hrClose rfl)
      have hbody := Code.writes_of_segment none hrMark (fun m => rfl)
        (ih hjs hrBody (by omega)) hrGet fun m => rfl
      have hclose := @Code.writes_of_next _ cfg _ _ hrClose fun m => rfl
      have hwrites := (hopen.andThen hbody).andThen hclose
      rwa [Writer.nothing_andThen, Writer.andThen_nothing] at hwrites

/-! ## Programs -/

/-- The code of a whole tree writes what the tree does, and remembers it as group 0. -/
theorem writes_of_layoutRoot {root : Node} (hfits : (layoutRoot options root).Fits) :
    (layoutRoot options root).Writes cfg 0 (layoutRoot options root).words.size
      ((root.sample options cfg (.at_ 3)).captured 0) := by
  obtain ⟨is, hlaid, hreads⟩ := laid_layoutRoot hfits
  rw [rootInstructions, List.cons_append, List.cons_append] at hreads
  obtain ⟨hrEntry, hrOpen, hreads⟩ := hreads
  obtain ⟨m, hrRoot, hrClose, hrStop, hstop⟩ := Code.Reads.append_iff.mp hreads
  have hlt := Code.lt_size_of_instructionAt hrClose
  have hentry : (layoutRoot options root).Writes cfg 0 2 .nothing :=
    Code.writes_of_next hrEntry fun _ => rfl
  have hroot : (layoutRoot options root).Writes cfg 2 (m + 3)
      ((root.sample options cfg (.at_ 3)).captured 0) :=
    Code.writes_of_segment (some 0) hrOpen (fun _ => rfl)
      (writes_of_laid hfits.words hlaid hrRoot (by omega)) hrClose fun _ => rfl
  have hend : (layoutRoot options root).Writes cfg (m + 3) (m + 4) .nothing :=
    Code.writes_of_next hrStop fun _ => rfl
  have hwrites := (hentry.andThen hroot).andThen hend
  have hsize : m + 4 = (layoutRoot options root).words.size := hstop
  rwa [Writer.nothing_andThen, Writer.andThen_nothing, hsize] at hwrites

/-- A run that has written ends as the writer does. -/
theorem Program.generate_of_writes {p : Program} {f : Writer}
    (h : p.code.Writes cfg 0 p.code.words.size f) :
    ∃ steps, ∀ fuel ≥ steps, p.generate cfg fuel =
      some (match f ⟨[], ⟨cfg.seed⟩⟩ with
        | .error e => .error e
        | .ok w => .ok w.text) := by
  have hleads := h (.start cfg) rfl
  have hmemory : (Machine.start cfg).memory = ⟨[], ⟨cfg.seed⟩⟩ := rfl
  rw [hmemory] at hleads
  cases hw : f ⟨[], ⟨cfg.seed⟩⟩ with
  | error e =>
    rw [hw] at hleads
    obtain ⟨steps, hsteps⟩ := hleads.run (by simp)
    refine ⟨steps, fun fuel hfuel => ?_⟩
    rw [Program.generate, hsteps fuel hfuel]
    rfl
  | ok w =>
    rw [hw] at hleads
    obtain ⟨steps, hsteps⟩ := hleads.run fun m' hm' => by
      rw [← Except.ok.inj hm']
      exact Nat.le_refl p.code.words.size
    refine ⟨steps, fun fuel hfuel => ?_⟩
    rw [Program.generate, hsteps fuel hfuel]
    simp [Machine.wrote, Machine.start, Marks.empty, Marks.finish]

theorem Program.generate_of_layoutRoot {p : Program} {root : Node}
    (hcode : p.code = layoutRoot options root) (hfits : (layoutRoot options root).Fits) :
    ∃ steps, ∀ fuel ≥ steps, p.generate cfg fuel = some (root.sampled options cfg) := by
  have hwrites := @writes_of_layoutRoot options cfg root hfits
  rw [← hcode] at hwrites
  obtain ⟨steps, hsteps⟩ := Program.generate_of_writes hwrites
  refine ⟨steps, fun fuel hfuel => ?_⟩
  rw [hsteps fuel hfuel, Node.sampled]
  cases hw : root.sample options cfg (.at_ 3) ⟨[], ⟨cfg.seed⟩⟩ <;>
    simp only [Writer.captured, hw]

/-- The program of a tree halts, with the text of the tree or the error that the tree ends with. -/
theorem Program.generate_eq_sampled (options : PatternOptions) (cfg : Config) (root : Node)
    (hfits : (layoutRoot options root).Fits) :
    ∃ p, Program.ofNode options root = .ok p ∧
      ∃ steps, ∀ fuel ≥ steps, p.generate cfg fuel = some (root.sampled options cfg) := by
  obtain ⟨p, hp, hcode⟩ := Program.exists_ofNode hfits
  exact ⟨p, hp, Program.generate_of_layoutRoot hcode hfits⟩

/-- Whatever the steps allowed, a run of the program of a tree that ends does so as the tree
does. -/
theorem Program.eq_sampled_of_generate {p : Program} {root : Node}
    (hcode : p.code = layoutRoot options root) (hfits : (layoutRoot options root).Fits)
    {fuel : Nat} {r : Except GenerationError String} (h : p.generate cfg fuel = some r) :
    r = root.sampled options cfg := by
  obtain ⟨steps, hsteps⟩ := @Program.generate_of_layoutRoot options cfg p root hcode hfits
  have hmore := Program.generate_of_le h (Nat.le_max_left fuel steps)
  rw [hsteps _ (Nat.le_max_right fuel steps)] at hmore
  exact (Option.some.inj hmore).symm

/-- A loop that captures a group anew with each copy, and a reference to the last of them. -/
def Node.referenceTree : Node :=
  .concat [
    .repetition (.capture 1 (.concat [.charClass (.range 'a' 'z'), .char '-'])) 2 (some 4) false,
    .assert .wordBoundary, .lookAround (.char 'x') true false, .backref 1]

theorem Program.generate_eq_sampled_referenceTree :
    (layoutRoot .default Node.referenceTree).Fits ∧
      ∃ p, Program.ofNode .default Node.referenceTree = .ok p ∧
        ∃ steps, ∀ fuel ≥ steps,
          p.generate .default fuel = some (Node.referenceTree.sampled .default .default) := by
  have hfits : (layoutRoot .default Node.referenceTree).Fits := ⟨by decide, by decide, by decide⟩
  exact ⟨hfits, Program.generate_eq_sampled .default .default Node.referenceTree hfits⟩

example : Node.referenceTree.sampled .default .default = .ok "p-a-c-h- h-" := by cbv

end PatternSampler
