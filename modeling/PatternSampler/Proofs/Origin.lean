import PatternSampler.Proofs.Draws
import PatternSampler.Proofs.Safety
/-!
# Where the characters come from

Every character that a run holds, in an open segment or in a captured text, is one that the program
or the settings give: a character or a string of the program, the boundary character, a character of
the alphabet, or the witness of a class that has no member in the alphabet.
-/
set_option autoImplicit false

namespace PatternSampler

/-! ## Characters of marks -/

namespace Marks

/-- The characters of all open segments and of all captured texts have a property. -/
structure Every (P : Char → Prop) (m : Marks) : Prop where
  current : ∀ c ∈ m.current.toList, P c
  outer : ∀ s ∈ m.outer, ∀ c ∈ s.toList, P c
  captures : ∀ e ∈ m.captures, ∀ c ∈ e.2.toList, P c

variable {P : Char → Prop} {m m' : Marks}

theorem forall_mem_append {s t : String} (hs : ∀ c ∈ s.toList, P c) (ht : ∀ c ∈ t.toList, P c) :
    ∀ c ∈ (s ++ t).toList, P c := by
  intro c hc
  rw [String.toList_append] at hc
  exact (List.mem_append.mp hc).elim (hs c) (ht c)

theorem every_empty : Every P .empty := ⟨by simp [empty], by simp [empty], by simp [empty]⟩

theorem Every.write (h : m.Every P) {text : String} (htext : ∀ c ∈ text.toList, P c) :
    (m.write text).Every P := ⟨forall_mem_append h.current htext, h.outer, h.captures⟩

theorem Every.push (h : m.Every P) : m.push.Every P :=
  ⟨by simp [Marks.push], List.forall_mem_cons.mpr ⟨h.current, h.outer⟩, h.captures⟩

/-- A segment that closes goes to the segment around it, and may be remembered. -/
theorem Every.pop? (h : m.Every P) {group : Option Int32} (hpop : m.pop? group = some m') :
    m'.Every P := by
  unfold Marks.pop? at hpop
  split at hpop
  · simp at hpop
  · rename_i parent outer houter
    have hopen := h.outer
    rw [houter, List.forall_mem_cons] at hopen
    obtain rfl := Option.some.inj hpop
    refine ⟨forall_mem_append hopen.1 h.current, hopen.2, ?_⟩
    cases group with
    | none => exact h.captures
    | some g =>
      refine List.forall_mem_cons.mpr ⟨h.current, fun e he => ?_⟩
      exact h.captures e (List.mem_of_mem_filter he)

theorem Every.of_capture? (h : m.Every P) {group : Int32} {text : String}
    (hcapture : m.capture? group = some text) : ∀ c ∈ text.toList, P c := by
  obtain ⟨e, he, rfl⟩ := Option.map_eq_some_iff.mp hcapture
  exact h.captures e (List.mem_of_find?_eq_some he)

theorem Every.finish (h : m.Every P) : ∀ c ∈ m.finish.toList, P c := by
  obtain ⟨current, outer, captures⟩ := m
  obtain ⟨hcurrent, houter, -⟩ := h
  simp only [Marks.finish] at hcurrent houter ⊢
  induction outer generalizing current with
  | nil => exact hcurrent
  | cons parent outer ih =>
    rw [List.forall_mem_cons] at houter
    exact ih (parent ++ current) (forall_mem_append houter.1 hcurrent) houter.2

end Marks

/-! ## Origins -/

/-- The class that an instruction draws from. -/
def Code.drawn? (code : Code) (i : Instruction) : Option CharClass :=
  match i.opcode with
  | .chars _ .lazyLoop => none
  | .chars .notOne _ => i.char?.map .notChar
  | .chars .set _ => code.class? (i.operand 0)
  | _ => none

theorem Code.mem_of_string? {code : Code} {operand : Int32} {s : String}
    (h : code.string? operand = some s) : s ∈ code.strings := by
  unfold string? at h
  split at h
  · simp at h
  · exact Array.mem_of_getElem? h

/-- Where a character of a run may come from. -/
inductive Program.Origin (p : Program) (cfg : Config) : Char → Prop where
  /-- it is the operand of an instruction that writes a given character -/
  | operand {i : Instruction} {r : Repetition} {c : Char} (hi : i ∈ p.instructions)
    (hop : i.opcode = .chars .one r) (hr : r ≠ .lazyLoop) (hc : i.char? = some c) : Origin p cfg c
  /-- it stands in the string table -/
  | string {s : String} {c : Char} (hs : s ∈ p.code.strings) (hc : c ∈ s.toList) : Origin p cfg c
  | boundary : Origin p cfg cfg.boundary
  | alphabet {c : Char} (hc : c ∈ cfg.alphabet) : Origin p cfg c
  /-- it is the witness of a class to draw from that has no member in the alphabet -/
  | witness {i : Instruction} {cls : CharClass} {c : Char} (hi : i ∈ p.instructions)
    (hcls : p.code.drawn? i = some cls) (hnone : ∀ a ∈ cfg.alphabet, cls.contains a = false)
    (hc : cls.witness? = some c) : Origin p cfg c

theorem Program.origin_of_offers {p : Program} {cfg : Config} {i : Instruction} {cls : CharClass}
    {c : Char} (hi : i ∈ p.instructions) (hcls : p.code.drawn? i = some cls)
    (h : cls.Offers cfg.alphabet c) : p.Origin cfg c :=
  h.elim (fun h => .alphabet h.1) fun h => .witness hi hcls h.1 h.2

/-! ## Steps -/

namespace Machine

variable {P : Char → Prop} {cfg : Config} {m m' : Machine} {i : Instruction}

/-- A draw writes as many characters as the instruction asks for, all offered by the class. -/
theorem exists_drawn_of_draw {cls : CharClass} (h : m.draw cfg i cls = .ok m') :
    ∃ drawn : List Char, m' = { m.write (String.ofList drawn) with rng := m'.rng } ∧
      drawn.length = i.copies cfg.repetitionCap ∧ ∀ c ∈ drawn, cls.Offers cfg.alphabet c := by
  unfold draw at h
  split at h
  · rename_i hcopies
    obtain rfl := Except.ok.inj h
    exact ⟨[], by simp [write, Marks.write], hcopies.symm, by simp⟩
  · rename_i count hcopies
    split at h
    · simp at h
    · rename_i choices hchoices
      split at h
      · simp at h
      · rename_i text rng hfill
        obtain rfl := Except.ok.inj h
        obtain ⟨drawn, rfl, hlength, hdrawn⟩ := Rng.exists_drawn_of_fill hfill
        exact ⟨drawn, rfl, hlength.trans hcopies.symm, fun c hc =>
          CharClass.offers_of_choices? hchoices (hdrawn c hc)⟩

/-- A step that goes on holds characters with the property only. -/
def Keeps (P : Char → Prop) : Except GenerationError Machine → Prop
  | .ok m => m.marks.Every P
  | .error _ => True

theorem keeps_andNext {r : Except GenerationError Machine} (h : Keeps P r) :
    Keeps P (andNext i r) := by
  cases r <;> exact h

theorem keeps_draw (h : m.marks.Every P) {cls : CharClass}
    (hcls : ∀ c, cls.Offers cfg.alphabet c → P c) : Keeps P (m.draw cfg i cls) := by
  cases hdraw : m.draw cfg i cls with
  | error e => trivial
  | ok m' =>
    obtain ⟨drawn, hm', -, hdrawn⟩ := exists_drawn_of_draw hdraw
    rw [hm']
    refine h.write fun c hc => hcls c (hdrawn c ?_)
    rwa [String.toList_ofList] at hc

theorem keeps_close (h : m.marks.Every P) (group : Option Int32) : Keeps P (m.close i group) := by
  unfold close
  split
  · trivial
  · exact h.pop? ‹_›

theorem keeps_jump (h : m.marks.Every P) : Keeps P (m.jump i) := by
  unfold jump
  dsimp only
  split
  · trivial
  · exact h

theorem keeps_branch (h : m.marks.Every P) : Keeps P (m.branch cfg i) := by
  unfold branch
  split
  · trivial
  · split
    · exact h
    · exact keeps_jump h

end Machine

namespace Program

open Machine (Keeps keeps_andNext keeps_draw keeps_close keeps_jump keeps_branch)

variable {p : Program} {cfg : Config} {m m' : Machine} {i : Instruction}

/-- An instruction with a class to draw from draws from it. -/
theorem exec_of_drawn? {cls : CharClass} (h : p.code.drawn? i = some cls) :
    m.exec p.code cfg i = Machine.andNext i (m.draw cfg i cls) := by
  unfold Code.drawn? at h
  split at h
  · simp at h
  · rename_i hlazy hop
    obtain ⟨c, hc, rfl⟩ := Option.map_eq_some_iff.mp h
    simp only [Machine.exec, hop, hc]
  · rename_i hlazy hop
    simp only [Machine.exec, hop, h]
  · simp at h

theorem keeps_write (h : m.marks.Every (p.Origin cfg)) {text : String}
    (htext : ∀ c ∈ text.toList, p.Origin cfg c) :
    Keeps (p.Origin cfg) (.ok ((m.write text).next i)) := h.write htext

theorem keeps_chars (hi : i ∈ p.instructions) (h : m.marks.Every (p.Origin cfg)) {matter : Matter}
    {r : Repetition} (hop : i.opcode = .chars matter r) :
    Keeps (p.Origin cfg) (m.exec p.code cfg i) := by
  by_cases hr : r = .lazyLoop
  · simp only [Machine.exec, hop, hr]
    exact h
  · have hdrawn : ∀ cls, p.code.drawn? i = some cls →
        Keeps (p.Origin cfg) (m.exec p.code cfg i) := fun cls hcls => by
      rw [exec_of_drawn? hcls]
      exact keeps_andNext (keeps_draw h fun c => origin_of_offers hi hcls)
    cases matter with
    | one =>
      obtain ⟨c, hc⟩ := char?_isSome hi hop (by simp)
      have hexec : m.exec p.code cfg i = .ok ((m.write
          (String.ofList (List.replicate (i.copies cfg.repetitionCap) c))).next i) := by
        simp only [Machine.exec, hop, hc]
      rw [hexec]
      refine keeps_write h fun d hd => ?_
      rw [String.toList_ofList] at hd
      rw [List.eq_of_mem_replicate hd]
      exact .operand hi hop hr hc
    | notOne =>
      obtain ⟨c, hc⟩ := char?_isSome hi hop (by simp)
      exact hdrawn (.notChar c) (by simp [Code.drawn?, hop, hc])
    | set =>
      obtain ⟨cls, hcls⟩ := class?_isSome hi hop
      exact hdrawn cls (by simp [Code.drawn?, hop, hcls])

/-- No instruction writes a character from elsewhere. -/
theorem keeps_exec (hi : i ∈ p.instructions) (h : m.marks.Every (p.Origin cfg)) :
    Keeps (p.Origin cfg) (m.exec p.code cfg i) := by
  cases hop : i.opcode with
  | chars matter r => exact keeps_chars hi h hop
  | multi =>
    obtain ⟨text, htext⟩ := string?_isSome hi hop
    simp only [Machine.exec, hop, htext]
    exact keeps_write h fun c => .string (Code.mem_of_string? htext)
  | ref =>
    simp only [Machine.exec, hop]
    split
    · trivial
    · exact keeps_write h (h.of_capture? ‹_›)
  | boundary | ecmaBoundary =>
    simp only [Machine.exec, hop]
    exact keeps_write h (by simpa using .boundary)
  | nonboundary | nonEcmaBoundary =>
    simp only [Machine.exec, hop]
    split
    · trivial
    · rename_i c rng hpick
      exact keeps_write (m := { m with rng }) h (by simpa using .alphabet (Rng.pick_mem hpick))
  | setmark | nullmark =>
    simp only [Machine.exec, hop]
    exact h.push
  | capturemark | getmark | branchmark | lazybranchmark =>
    simp only [Machine.exec, hop]
    exact keeps_andNext (keeps_close h _)
  | branchcount | lazybranchcount =>
    simp only [Machine.exec, hop]
    exact keeps_branch h
  | goto =>
    simp only [Machine.exec, hop]
    exact keeps_jump h
  | setjump =>
    simp only [Machine.exec, hop]
    split
    · trivial
    · split <;> exact h
  | _ =>
    simp only [Machine.exec, hop]
    exact h

/-! ## Runs -/

theorem step_eq_exec (hread : p.code.instructionAt m.ip = .ok i) :
    m.step p.code cfg = m.exec p.code cfg i := by
  simp only [Machine.step, hread]

theorem every_of_step (hip : p.IsBoundary m.ip) (h : m.marks.Every (p.Origin cfg))
    (hstep : m.step p.code cfg = .ok m') : m'.marks.Every (p.Origin cfg) := by
  obtain ⟨i, hi, -, hread⟩ := hip.instructionAt (Machine.lt_size_of_step hstep)
  have hkeeps := keeps_exec hi h
  rwa [← step_eq_exec hread, hstep] at hkeeps

/-- The characters of a run keep their origin, since it stays at instructions of the program. -/
theorem every_after {n : Nat} (hip : p.IsBoundary m.ip) (h : m.marks.Every (p.Origin cfg))
    (hafter : m.after p.code cfg n = some m') : m'.marks.Every (p.Origin cfg) := by
  have hkeeps : ∀ m m' : Machine, p.IsBoundary m.ip ∧ m.marks.Every (p.Origin cfg) →
      m.step p.code cfg = .ok m' → p.IsBoundary m'.ip ∧ m'.marks.Every (p.Origin cfg) := by
    rintro m m' ⟨hip, hevery⟩ hstep
    exact ⟨isBoundary_of_step hip hstep, every_of_step hip hevery hstep⟩
  exact (Machine.invariant_after hkeeps ⟨hip, h⟩ hafter).2

theorem origin_of_generate {fuel : Nat} {text : String}
    (h : p.generate cfg fuel = some (.ok text)) : ∀ c ∈ text.toList, p.Origin cfg c := by
  rw [generate_eq_map_run] at h
  obtain ⟨r, hrun, hr⟩ := Option.map_eq_some_iff.mp h
  cases r with
  | error e => simp [Except.map] at hr
  | ok m =>
    obtain rfl := Except.ok.inj hr
    obtain ⟨n, hn⟩ := Machine.exists_after_of_run hrun
    exact (every_after p.isBoundary_zero Marks.every_empty hn).finish

/-! ## Free choices -/

/-- A step that draws from a class writes what the class offers, and does nothing else to the
marks. -/
theorem exists_drawn_of_step {cls : CharClass} (hread : p.code.instructionAt m.ip = .ok i)
    (hcls : p.code.drawn? i = some cls) (hstep : m.step p.code cfg = .ok m') :
    ∃ drawn : List Char, m'.marks = m.marks.write (String.ofList drawn) ∧
      drawn.length = i.copies cfg.repetitionCap ∧ ∀ c ∈ drawn, cls.Offers cfg.alphabet c := by
  rw [step_eq_exec hread, exec_of_drawn? hcls] at hstep
  cases hdraw : m.draw cfg i cls with
  | error e => simp [hdraw, Machine.andNext] at hstep
  | ok m₁ =>
    obtain ⟨drawn, hm₁, hlength, hdrawn⟩ := Machine.exists_drawn_of_draw hdraw
    rw [hdraw] at hstep
    refine ⟨drawn, ?_, hlength, hdrawn⟩
    rw [← Except.ok.inj hstep, hm₁]
    rfl

/-- A step that draws without a class writes a character of the alphabet. -/
theorem exists_picked_of_step (hread : p.code.instructionAt m.ip = .ok i)
    (hop : i.opcode = .nonboundary ∨ i.opcode = .nonEcmaBoundary)
    (hstep : m.step p.code cfg = .ok m') :
    ∃ c ∈ cfg.alphabet, m'.marks = m.marks.write (String.singleton c) := by
  rw [step_eq_exec hread] at hstep
  rcases hop with hop | hop <;>
  · simp only [Machine.exec, hop] at hstep
    split at hstep
    · simp at hstep
    · rename_i c rng hpick
      exact ⟨c, Rng.pick_mem hpick, by rw [← Except.ok.inj hstep]; rfl⟩

/-- Every character that a run holds, and every one of the text that it ends with, has an allowed
origin.  A draw from a class writes members that are in the alphabet, or the class's witness where
no character of the alphabet is a member; a draw without a class writes a character of the
alphabet. -/
theorem origin_of_run (p : Program) (cfg : Config) :
    (∀ n m, (Machine.start cfg).after p.code cfg n = some m → m.marks.Every (p.Origin cfg)) ∧
    (∀ fuel text, p.generate cfg fuel = some (.ok text) → ∀ c ∈ text.toList, p.Origin cfg c) ∧
    ∀ i (m m' : Machine), p.code.instructionAt m.ip = .ok i → m.step p.code cfg = .ok m' →
      (∀ cls, p.code.drawn? i = some cls →
        ∃ drawn : List Char, m'.marks = m.marks.write (String.ofList drawn) ∧
          drawn.length = i.copies cfg.repetitionCap ∧ ∀ c ∈ drawn, cls.Offers cfg.alphabet c) ∧
      (i.opcode = .nonboundary ∨ i.opcode = .nonEcmaBoundary →
        ∃ c ∈ cfg.alphabet, m'.marks = m.marks.write (String.singleton c)) := by
  refine ⟨fun n m hafter => ?_, fun fuel text => origin_of_generate, fun i m m' hread hstep => ?_⟩
  · exact every_after p.isBoundary_zero Marks.every_empty hafter
  · exact ⟨fun cls hcls => exists_drawn_of_step hread hcls hstep,
      fun hop => exists_picked_of_step hread hop hstep⟩

/-- A group of a character that the alphabet lacks, and a reference to it. -/
def foreignCode : Code :=
  ⟨#[31, 11, 0, 32, 1, -1, 13, 1], #[⟨false, [⟨'é', 'é'⟩], []⟩], #[]⟩

theorem check_foreignCode :
    foreignCode.check = .ok [⟨0, .setmark, ⟨0⟩, []⟩, ⟨1, .chars .set .single, ⟨0⟩, [0]⟩,
      ⟨3, .capturemark, ⟨0⟩, [1, -1]⟩, ⟨6, .ref, ⟨0⟩, [1]⟩] :=
  Code.Reads.check_eq_ok ⟨rfl, rfl, rfl, rfl, rfl⟩ rfl

/-- After three steps the class's witness is captured. -/
theorem after_foreignCode :
    ∃ m, (Machine.start .default).after foreignCode .default 3 = some m ∧
      m.marks = ⟨"é", [], [(1, "é")]⟩ := ⟨_, rfl, rfl⟩

theorem generate_foreignCode :
    generate ⟨foreignCode, _, check_foreignCode⟩ .default 5 = some (.ok "éé") := rfl

/-- The class's witness is drawn, captured and copied. -/
theorem origin_of_run_foreignCode :
    ∃ p, ofCode foreignCode = .ok p ∧
      (∃ m, (Machine.start .default).after p.code .default 3 = some m ∧
        m.marks = ⟨"é", [], [(1, "é")]⟩ ∧ m.marks.Every (p.Origin .default)) ∧
      p.generate .default 5 = some (.ok "éé") ∧ 'é' ∉ Config.default.alphabet ∧
        p.Origin .default 'é' := by
  obtain ⟨hstates, htexts, -⟩ := origin_of_run ⟨foreignCode, _, check_foreignCode⟩ .default
  obtain ⟨m, hm, hmarks⟩ := after_foreignCode
  exact ⟨_, ofCode_eq_ok check_foreignCode, ⟨m, hm, hmarks, hstates 3 m hm⟩,
    generate_foreignCode, by decide, htexts 5 _ generate_foreignCode 'é' (by decide)⟩

end Program

end PatternSampler
