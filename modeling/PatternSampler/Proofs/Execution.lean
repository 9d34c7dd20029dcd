import PatternSampler.Proofs.Sampling
import PatternSampler.Proofs.Scanning
import PatternSampler.Proofs.Stepping
/-!
# Code that writes

`Code.Writes` says that a run that comes to one offset has written a given text when it comes to
another, and nothing else has changed: not the open groups, not the loop counts.  Instructions that
write do so one by one, and marks and loops do so around code that does.
-/
set_option autoImplicit false

namespace PatternSampler

/-! ## Writing at a state -/

namespace Machine

/-- What a state carries along. -/
def memory (m : Machine) : Memory := ⟨m.marks.captures, m.rng⟩

/-- The state at the offset `b` after something has been written. -/
def wrote (m : Machine) (b : Nat) (w : Written) : Machine :=
  { m with
    ip := b
    marks := ⟨m.marks.current ++ w.text, m.marks.outer, w.memory.captures⟩
    rng := w.memory.rng }

/-- What comes of writing at a state and going on at the offset `b`. -/
def written (m : Machine) (b : Nat) :
    Except GenerationError Written → Except GenerationError Machine
  | .error e => .error e
  | .ok w => .ok (m.wrote b w)

@[simp] theorem written_error (m : Machine) (b : Nat) (e : GenerationError) :
    m.written b (.error e) = .error e := rfl

@[simp] theorem written_ok (m : Machine) (b : Nat) (w : Written) :
    m.written b (.ok w) = .ok (m.wrote b w) := rfl

@[simp] theorem wrote_ip (m : Machine) (b : Nat) (w : Written) : (m.wrote b w).ip = b := rfl

@[simp] theorem wrote_counts (m : Machine) (b : Nat) (w : Written) :
    (m.wrote b w).counts = m.counts := rfl

@[simp] theorem wrote_memory (m : Machine) (b : Nat) (w : Written) :
    (m.wrote b w).memory = w.memory := rfl

theorem wrote_wrote (m : Machine) (a b : Nat) (v w : Written) :
    (m.wrote a v).wrote b w = m.wrote b ⟨v.text ++ w.text, w.memory⟩ := by
  simp only [wrote, String.append_assoc]

theorem wrote_nothing (m : Machine) (b : Nat) : m.wrote b ⟨"", m.memory⟩ = { m with ip := b } := by
  simp only [wrote, memory, String.append_empty]

end Machine

/-- Writes a text, and remembers it if it is to go under the number of a group. -/
def Writer.closed (f : Writer) : Option Int32 → Writer
  | some g => f.captured g
  | none => f

namespace Code

variable {code : Code} {cfg : Config}

/-- A run that comes to `a` has written what `f` does when it comes to `b`, or ends as `f` does. -/
def Writes (code : Code) (cfg : Config) (a b : Nat) (f : Writer) : Prop :=
  ∀ m : Machine, m.ip = a → Machine.Leads code cfg m (m.written b (f m.memory))

theorem writes_nothing (a : Nat) : code.Writes cfg a a .nothing := by
  rintro m rfl
  show Machine.Leads code cfg m (.ok (m.wrote m.ip ⟨"", m.memory⟩))
  rw [Machine.wrote_nothing]
  exact .here m

theorem Writes.andThen {a c b : Nat} {f g : Writer} (hf : code.Writes cfg a c f)
    (hg : code.Writes cfg c b g) : code.Writes cfg a b (f.andThen g) := by
  intro m hm
  have hfirst := hf m hm
  cases hw : f m.memory with
  | error e =>
    rw [hw] at hfirst
    rw [Writer.andThen_of_error hw]
    exact hfirst
  | ok w =>
    have hsecond := hg (m.wrote c w) rfl
    rw [hw] at hfirst
    rw [Machine.wrote_memory] at hsecond
    rw [Writer.andThen_of_ok hw]
    refine hfirst.trans ?_
    cases hv : g w.memory with
    | error e =>
      rw [hv] at hsecond
      exact hsecond
    | ok v =>
      rw [hv, Machine.written_ok, Machine.wrote_wrote] at hsecond
      exact hsecond

/-! ## One instruction -/

theorem leads_of_exec {m : Machine} {i : Instruction} {r : Except GenerationError Machine}
    (hat : code.instructionAt m.ip = .ok i) (h : m.exec code cfg i = r) :
    Machine.Leads code cfg m r := by
  have hstep : m.step code cfg = r := by
    simp only [Machine.step, hat, h]
  cases r with
  | error e => exact .fail (lt_size_of_instructionAt hat) hstep
  | ok m' => exact .step hstep (.here m')

theorem writes_of_exec {a b : Nat} {i : Instruction} {f : Writer}
    (hat : code.instructionAt a = .ok i)
    (h : ∀ m : Machine, m.ip = a → m.exec code cfg i = m.written b (f m.memory)) :
    code.Writes cfg a b f := by
  rintro m rfl
  exact leads_of_exec hat (h m rfl)

/-- An instruction that writes nothing and goes on with the next. -/
theorem writes_of_next {a : Nat} {i : Instruction} (hat : code.instructionAt a = .ok i)
    (h : ∀ m : Machine, m.exec code cfg i = .ok (m.next i)) :
    code.Writes cfg a (a + i.width) .nothing := by
  refine writes_of_exec hat ?_
  rintro m rfl
  rw [h, Writer.nothing, Writer.text, Machine.written_ok, Machine.wrote_nothing]
  rfl

theorem writes_of_goto {a t : Nat} {i : Instruction} (hat : code.instructionAt a = .ok i)
    (hop : i.opcode = .goto) (ht : (i.operand 0).toInt = t) :
    code.Writes cfg a t .nothing := by
  refine writes_of_exec hat ?_
  rintro m rfl
  rw [Writer.nothing, Writer.text, Machine.written_ok, Machine.wrote_nothing]
  simp only [Machine.exec, hop, Machine.jump, ht, Int.toNat_natCast]
  rw [if_neg (by omega)]

/-! ## Groups and lookarounds -/

/-- A part between an instruction that opens a segment and one that closes it. -/
theorem writes_of_segment {a c : Nat} {opening closing : Instruction} {f : Writer}
    (group : Option Int32) (hopen : code.instructionAt a = .ok opening)
    (hopening : ∀ m : Machine,
      m.exec code cfg opening = .ok ({ m with marks := m.marks.push }.next opening))
    (hbody : code.Writes cfg (a + opening.width) c f)
    (hclose : code.instructionAt c = .ok closing)
    (hclosing : ∀ m : Machine,
      m.exec code cfg closing = Machine.andNext closing (m.close closing group)) :
    code.Writes cfg a (c + closing.width) (f.closed group) := by
  rintro m rfl
  have hpush := leads_of_exec hopen (hopening m)
  have hwrite := hbody ({ m with marks := m.marks.push }.next opening) rfl
  have hmemory : ({ m with marks := m.marks.push }.next opening).memory = m.memory := rfl
  rw [hmemory] at hwrite
  refine hpush.trans ?_
  cases hw : f m.memory with
  | error e =>
    rw [hw] at hwrite
    have hclosed : f.closed group m.memory = .error e := by
      cases group <;> simp only [Writer.closed, Writer.captured, hw]
    rw [hclosed]
    exact hwrite
  | ok w =>
    rw [hw] at hwrite
    refine hwrite.trans (leads_of_exec hclose ?_)
    rw [hclosing]
    cases group <;>
      simp only [Writer.closed, Writer.captured, hw, Machine.close, Marks.pop?, Machine.wrote,
        Machine.next, Marks.push, Machine.andNext, Machine.written, String.empty_append]

theorem writes_of_negative {a stop : Nat} {i : Instruction} (hat : code.instructionAt a = .ok i)
    (hop : i.opcode = .setjump) (hlook : code.lookaround a = .ok ⟨stop, true⟩) :
    code.Writes cfg a stop .nothing := by
  refine writes_of_exec hat ?_
  rintro m rfl
  rw [Writer.nothing, Writer.text, Machine.written_ok, Machine.wrote_nothing]
  simp only [Machine.exec, hop, instructionAt_offset hat, hlook, if_true]

theorem writes_of_positive {a stop : Nat} {i : Instruction} (hat : code.instructionAt a = .ok i)
    (hop : i.opcode = .setjump) (hlook : code.lookaround a = .ok ⟨stop, false⟩) :
    code.Writes cfg a (a + i.width) .nothing := by
  refine writes_of_next hat fun m => ?_
  simp only [Machine.exec, hop, instructionAt_offset hat, hlook, Bool.false_eq_true, if_false]

/-! ## Loops -/

/-- At the branch of a loop, the body is still to be run as often as the loop count is below the
limit. -/
theorem leads_branch {start branch : Nat} {i : Instruction} {f : Writer}
    (hat : code.instructionAt branch = .ok i)
    (hbranch : ∀ m : Machine, m.exec code cfg i = m.branch cfg i)
    (htarget : (i.operand 0).toInt = start) (hbody : code.Writes cfg start branch f)
    (outer : List Int) (n : Nat) (m : Machine) (count : Int) (hip : m.ip = branch)
    (hcounts : m.counts = count :: outer)
    (hn : (i.loopLimit cfg.repetitionCap - count).toNat = n) :
    Machine.Leads code cfg m
      (({ m with counts := outer } : Machine).written (branch + i.width) (f.times n m.memory)) := by
  induction n generalizing m count with
  | zero =>
    rw [← hip] at hat
    refine leads_of_exec hat ?_
    have hmemory : ({ m with counts := outer } : Machine).memory = m.memory := rfl
    rw [hbranch, Writer.times_zero, Writer.nothing, Writer.text, Machine.written_ok, ← hmemory,
      Machine.wrote_nothing]
    simp only [Machine.branch, hcounts]
    rw [if_pos (by omega), Machine.next, hip]
  | succ n ih =>
    rw [← hip] at hat
    have hjump : m.exec code cfg i =
        .ok { m with ip := start, counts := (count + 1) :: outer } := by
      rw [hbranch]
      simp only [Machine.branch, hcounts, Machine.jump, htarget, Int.toNat_natCast]
      rw [if_neg (by omega), if_neg (by omega)]
    refine (leads_of_exec hat hjump).trans ?_
    have hwrite := hbody { m with ip := start, counts := (count + 1) :: outer } rfl
    have hmemory : ({ m with ip := start, counts := (count + 1) :: outer } : Machine).memory =
      m.memory := rfl
    rw [hmemory] at hwrite
    rw [Writer.times_succ]
    cases hw : f m.memory with
    | error e =>
      rw [hw] at hwrite
      rw [Writer.andThen_of_error hw]
      exact hwrite
    | ok w =>
      rw [hw] at hwrite
      rw [Writer.andThen_of_ok hw]
      have hrest :=
        ih (({ m with ip := start, counts := (count + 1) :: outer } : Machine).wrote branch w)
          (count + 1) rfl rfl (by omega)
      rw [Machine.wrote_memory] at hrest
      refine hwrite.trans ?_
      cases hv : f.times n w.memory with
      | error e =>
        rw [hv] at hrest
        exact hrest
      | ok v =>
        rw [hv] at hrest
        simpa only [Machine.written, Machine.wrote, String.append_assoc] using hrest

/-- A loop that sets a count, comes to its branch and from there runs its body again. -/
theorem writes_of_counted {a start branch : Nat} {opening i : Instruction} {f g : Writer}
    {count : Int} (hopen : code.instructionAt a = .ok opening)
    (hopening : ∀ m : Machine,
      m.exec code cfg opening = .ok ({ m with counts := count :: m.counts }.next opening))
    (hfirst : code.Writes cfg (a + opening.width) branch g)
    (hat : code.instructionAt branch = .ok i)
    (hbranch : ∀ m : Machine, m.exec code cfg i = m.branch cfg i)
    (htarget : (i.operand 0).toInt = start) (hbody : code.Writes cfg start branch f) :
    code.Writes cfg a (branch + i.width)
      (g.andThen (f.times (i.loopLimit cfg.repetitionCap - count).toNat)) := by
  rintro m rfl
  have hpush := leads_of_exec hopen (hopening m)
  have hwrite := hfirst ({ m with counts := count :: m.counts }.next opening) rfl
  have hmemory : ({ m with counts := count :: m.counts }.next opening).memory = m.memory := rfl
  rw [hmemory] at hwrite
  refine hpush.trans ?_
  cases hw : g m.memory with
  | error e =>
    rw [hw] at hwrite
    rw [Writer.andThen_of_error hw]
    exact hwrite
  | ok w =>
    rw [hw] at hwrite
    rw [Writer.andThen_of_ok hw]
    have hrest := leads_branch hat hbranch htarget hbody m.counts _
      (({ m with counts := count :: m.counts }.next opening).wrote branch w) count rfl rfl rfl
    rw [Machine.wrote_memory] at hrest
    refine hwrite.trans ?_
    cases hv : f.times (i.loopLimit cfg.repetitionCap - count).toNat w.memory with
    | error e =>
      rw [hv] at hrest
      exact hrest
    | ok v =>
      rw [hv] at hrest
      simpa only [Machine.written, Machine.wrote, Machine.next, String.append_assoc] using hrest

end Code

/-! ## Characters -/

/-- What a single character writes. -/
def Layout.Single.writer (cfg : Config) (place : Place) : Layout.Single → Writer
  | .one c => .text (String.singleton c)
  | .notOne c => .member cfg (.notChar c) (place.noChoice .notOne)
  | .member cls => .member cfg cls (place.noChoice .set)

namespace Writer

theorem text_andThen_text (s t : String) : (text s).andThen (text t) = text (s ++ t) := rfl

theorem times_text (s : List Char) (n : Nat) :
    (text (String.ofList s)).times n = text (String.ofList (List.replicate n s).flatten) := by
  induction n with
  | zero => rfl
  | succ n ih =>
    rw [times_succ, ih, text_andThen_text, ← String.ofList_append, List.replicate_succ,
      List.flatten_cons]

theorem times_char (c : Char) (n : Nat) (mem : Memory) :
    (text (String.singleton c)).times n mem =
      .ok ⟨String.ofList (List.replicate n c), mem⟩ := by
  rw [String.singleton_eq_ofList, times_text, List.flatten_replicate_singleton]
  rfl

/-- Several picks are as many draws in one go. -/
theorem times_pick (c : Char) (cs : List Char) (e : GenerationError) (n : Nat) (mem : Memory) :
    ∃ s r, (pick (c :: cs) e).times n mem = .ok ⟨s, { mem with rng := r }⟩ ∧
      ∀ t, Rng.appendDraws (c :: cs).toArray n t mem.rng = (t ++ s, r) := by
  induction n generalizing mem with
  | zero =>
    refine ⟨"", mem.rng, rfl, fun t => ?_⟩
    rw [String.append_empty]
    rfl
  | succ n ih =>
    obtain ⟨d, r, hpick⟩ := Rng.exists_pick c cs mem.rng
    obtain ⟨s, r', htimes, hdraws⟩ := ih { mem with rng := r }
    refine ⟨String.singleton d ++ s, r', ?_, fun t => ?_⟩
    · rw [times_succ, andThen_of_ok (pick_of_some hpick e), htimes]
    · rw [Rng.appendDraws_succ hpick, hdraws, ← String.append_singleton, String.append_assoc]

end Writer

namespace Machine

variable {cfg : Config}

theorem andNext_written (m : Machine) (i : Instruction) (r : Except GenerationError Written) :
    andNext i (m.written m.ip r) = m.written (m.ip + i.width) r := by
  cases r <;> rfl

/-- Drawing several members writes them one after the other. -/
theorem draw_eq (m : Machine) (i : Instruction) (cls : CharClass) :
    m.draw cfg i cls = m.written m.ip
      ((Writer.member cfg cls (.noChoice i.offset i.opcode)).times (i.copies cfg.repetitionCap)
        m.memory) := by
  unfold draw
  cases hcopies : i.copies cfg.repetitionCap with
  | zero =>
    rw [Writer.times_zero, Writer.nothing, Writer.text, written_ok, wrote_nothing]
  | succ n =>
    simp only [Writer.member]
    cases hchoices : cls.choices? cfg.alphabet with
    | none => rw [Writer.times_succ, Writer.andThen_of_error rfl, written_error]
    | some choices =>
      cases choices with
      | nil => exact absurd rfl (CharClass.choices?_ne_nil hchoices)
      | cons c cs =>
        obtain ⟨s, r, htimes, hdraws⟩ :=
          Writer.times_pick c cs (.noChoice i.offset i.opcode) (n + 1) m.memory
        have hfill : m.rng.fill m.marks.current (c :: cs) (n + 1) =
            (some (m.marks.current ++ s), r) :=
          Rng.fill_of_appendDraws (hdraws m.marks.current)
        simp only [hfill, htimes]
        rfl

end Machine

namespace Code

variable {code : Code} {cfg : Config}

/-- An instruction for a single character writes as many of it as it says. -/
theorem writes_of_chars {a : Nat} {i : Instruction} {matter : Matter} {r : Repetition}
    {s : Layout.Single} (hat : code.instructionAt a = .ok i) (hop : i.opcode = .chars matter r)
    (hr : r ≠ .lazyLoop) (hs : s.Denotes code matter (i.operand 0)) :
    code.Writes cfg a (a + i.width)
      ((s.writer cfg ⟨a, r⟩).times (i.copies cfg.repetitionCap)) := by
  have hoffset := instructionAt_offset hat
  refine writes_of_exec hat ?_
  rintro m rfl
  cases s with
  | one c =>
    obtain ⟨rfl, hoperand⟩ := hs
    have hchar := Layout.char?_ofNat_toNat hoperand
    rw [Layout.Single.writer, Writer.times_char]
    cases r <;> simp_all [Machine.exec, Machine.write, Marks.write, Machine.wrote, Machine.next,
      Machine.memory]
  | notOne c =>
    obtain ⟨rfl, hoperand⟩ := hs
    have hchar := Layout.char?_ofNat_toNat hoperand
    have hexec : m.exec code cfg i = Machine.andNext i (m.draw cfg i (.notChar c)) := by
      cases r <;> simp_all [Machine.exec]
    rw [hexec, Machine.draw_eq, Machine.andNext_written, hoffset, hop]
    rfl
  | member cls =>
    obtain ⟨rfl, hcls⟩ := hs
    have hexec : m.exec code cfg i = Machine.andNext i (m.draw cfg i cls) := by
      cases r <;> simp_all [Machine.exec]
    rw [hexec, Machine.draw_eq, Machine.andNext_written, hoffset, hop]
    rfl

/-- An instruction for a lazy single character writes nothing. -/
theorem writes_of_lazyChars {a : Nat} {i : Instruction} {matter : Matter}
    (hat : code.instructionAt a = .ok i) (hop : i.opcode = .chars matter .lazyLoop) :
    code.Writes cfg a (a + i.width) .nothing :=
  writes_of_next hat fun m => by simp only [Machine.exec, hop]

end Code

end PatternSampler
