import PatternSampler.Proofs.Draws
import PatternSampler.Proofs.Stepping
/-!
# The seed only chooses characters

The outline of a state is all of it but the characters themselves: where it is, its loop counts,
and how many characters each open segment and each captured text has.  No step looks further, so two
runs that differ only in their seed and in the character that a word boundary writes have the same
outline after every step.  They end alike: both never, both with the same error, or both with texts
of one length.
-/
set_option autoImplicit false

namespace PatternSampler

/-! ## Outlines -/

/-- A state without its characters and its random words. -/
structure Outline where
  ip : Nat
  counts : List Int
  /-- how many characters the innermost segment has -/
  current : Nat
  /-- how many each segment around it has, innermost first -/
  outer : List Nat
  /-- how many each captured text has, by its group -/
  captures : List (Int32 × Nat)
  deriving DecidableEq, Repr

/-- How many characters all the segments have. -/
def Outline.total (o : Outline) : Nat := o.current + o.outer.sum

namespace Captures

/-- How many characters each captured text has. -/
def lengths (c : Captures) : List (Int32 × Nat) := c.map fun e => (e.1, e.2.length)

theorem map_length_get? (c : Captures) (group : Int32) :
    (c.get? group).map String.length = (c.lengths.find? (·.1 == group)).map (·.2) := by
  rw [get?, lengths, List.find?_map, Option.map_map, Option.map_map]
  rfl

theorem lengths_put (c : Captures) (group : Int32) (text : String) :
    (c.put group text).lengths = (group, text.length) :: c.lengths.filter (·.1 != group) := by
  rw [put, lengths, List.map_cons, lengths, List.filter_map]
  rfl

end Captures

namespace Machine

/-- What a state has apart from its characters. -/
def outline (m : Machine) : Outline :=
  ⟨m.ip, m.counts, m.marks.current.length, m.marks.outer.map String.length,
    m.marks.captures.lengths⟩

theorem outline_next (m : Machine) (i : Instruction) :
    (m.next i).outline = { m.outline with ip := m.outline.ip + i.width } := rfl

theorem outline_write (m : Machine) (text : String) :
    (m.write text).outline =
      { m.outline with current := m.outline.current + text.length } := by
  simp only [outline, write, Marks.write, String.length_append]

theorem outline_push (m : Machine) :
    { m with marks := m.marks.push }.outline =
      { m.outline with current := 0, outer := m.outline.current :: m.outline.outer } := rfl

theorem outline_pushCount (m : Machine) (c : Int) :
    { m with counts := c :: m.counts }.outline =
      { m.outline with counts := c :: m.outline.counts } := rfl

theorem length_finish (m : Machine) : m.marks.finish.length = m.outline.total := by
  obtain ⟨-, ⟨current, outer, -⟩, -, -⟩ := m
  simp only [Marks.finish, outline, Outline.total]
  induction outer generalizing current with
  | nil => rfl
  | cons parent outer ih =>
    rw [List.foldl_cons, ih, String.length_append, List.map_cons, List.sum_cons]
    omega

/-! ## Steps -/

variable {code : Code} {cfg : Config} {seed : UInt64} {boundary : Char} {m m' : Machine}
  {i : Instruction}

theorem outline_exec_next (h : m.outline = m'.outline) :
    (Except.ok (m.next i) : Except GenerationError Machine).map outline =
      (Except.ok (m'.next i) : Except GenerationError Machine).map outline := by
  simp only [Except.map, outline_next, h]

theorem outline_andNext {r r' : Except GenerationError Machine}
    (h : r.map outline = r'.map outline) :
    (andNext i r).map outline = (andNext i r').map outline := by
  cases r <;> cases r' <;> simp_all [Except.map, andNext, outline_next]

theorem outline_close (h : m.outline = m'.outline) (group : Option Int32) :
    (m.close i group).map outline = (m'.close i group).map outline := by
  have hcurrent : m.marks.current.length = m'.marks.current.length := congrArg Outline.current h
  have houter : m.marks.outer.map String.length = m'.marks.outer.map String.length :=
    congrArg Outline.outer h
  have hcaptures : m.marks.captures.lengths = m'.marks.captures.lengths :=
    congrArg Outline.captures h
  unfold close Marks.pop?
  cases hopen : m.marks.outer with
  | nil =>
    rw [hopen, List.map_nil, eq_comm, List.map_eq_nil_iff] at houter
    simp only [houter]
  | cons parent outer =>
    rw [hopen, List.map_cons, eq_comm, List.map_eq_cons_iff] at houter
    obtain ⟨parent', outer', hopen', hparent, hrest⟩ := houter
    have hip : m.ip = m'.ip := congrArg Outline.ip h
    have hcounts : m.counts = m'.counts := congrArg Outline.counts h
    cases group <;>
      simp only [hopen', Except.map, outline, String.length_append, hcurrent, hparent, hrest, hip,
        hcounts, hcaptures, Captures.lengths_put]

/-- What a class offers does not depend on the random words, and neither does how many characters
are drawn. -/
theorem outline_draw (h : m.outline = m'.outline) (cls : CharClass) :
    (m.draw cfg i cls).map outline =
      (m'.draw { cfg with seed, boundary } i cls).map outline := by
  unfold draw
  cases i.copies cfg.repetitionCap with
  | zero => exact congrArg Except.ok h
  | succ count =>
    cases hchoices : cls.choices? cfg.alphabet with
    | none => rfl
    | some choices =>
      have hne := CharClass.choices?_ne_nil hchoices
      obtain ⟨text, r, hfill⟩ := Rng.exists_fill m.marks.current hne (count + 1) m.rng
      obtain ⟨text', r', hfill'⟩ := Rng.exists_fill m'.marks.current hne (count + 1) m'.rng
      have hlength : text.length = text'.length := by
        rw [Rng.length_fill hfill, Rng.length_fill hfill']
        exact congrArg (·.current + (count + 1)) h
      simp only [hfill, hfill']
      show Except.ok { m.outline with current := text.length } =
        Except.ok { m'.outline with current := text'.length }
      rw [h, hlength]

theorem outline_jump (h : m.outline = m'.outline) :
    (m.jump i).map outline = (m'.jump i).map outline := by
  unfold jump
  by_cases htarget : (i.operand 0).toInt < 0
  · simp only [if_pos htarget]
  · simp only [if_neg htarget]
    show Except.ok { m.outline with ip := (i.operand 0).toInt.toNat } =
      Except.ok { m'.outline with ip := (i.operand 0).toInt.toNat }
    rw [h]

theorem outline_branch (h : m.outline = m'.outline) :
    (m.branch cfg i).map outline =
      (m'.branch { cfg with seed, boundary } i).map outline := by
  have hcounts : m.counts = m'.counts := congrArg Outline.counts h
  unfold branch
  rw [← hcounts]
  cases m.counts with
  | nil => rfl
  | cons count outer =>
    have hcounted : ∀ cs : List Int, ({ m with counts := cs } : Machine).outline =
        ({ m' with counts := cs } : Machine).outline :=
      fun cs => congrArg (fun o : Outline => { o with counts := cs }) h
    by_cases hlimit : i.loopLimit cfg.repetitionCap ≤ count
    · simp only [if_pos hlimit]
      exact outline_exec_next (hcounted outer)
    · simp only [if_neg hlimit]
      exact outline_jump (hcounted ((count + 1) :: outer))

theorem outline_write_of_length (h : m.outline = m'.outline) {text text' : String}
    (hlength : text.length = text'.length) : (m.write text).outline = (m'.write text').outline := by
  rw [outline_write, outline_write, h, hlength]

theorem outline_write_singleton (h : m.outline = m'.outline) (c c' : Char) :
    (m.write (String.singleton c)).outline = (m'.write (String.singleton c')).outline :=
  outline_write_of_length h (by rw [String.length_singleton, String.length_singleton])

theorem outline_chars (h : m.outline = m'.outline) {matter : Matter} {r : Repetition}
    (hop : i.opcode = .chars matter r) :
    (m.exec code cfg i).map outline =
      (m'.exec code { cfg with seed, boundary } i).map outline := by
  cases r with
  | lazyLoop =>
    simp only [exec, hop]
    exact outline_exec_next h
  | _ =>
    cases matter with
    | one =>
      simp only [exec, hop]
      cases i.char? with
      | none => rfl
      | some c => exact outline_exec_next (outline_write_of_length h rfl)
    | notOne =>
      simp only [exec, hop]
      cases i.char? with
      | none => rfl
      | some c => exact outline_andNext (outline_draw h _)
    | set =>
      simp only [exec, hop]
      cases code.class? (i.operand 0) with
      | none => rfl
      | some cls => exact outline_andNext (outline_draw h cls)

/-- What an instruction does to the outline depends on the outline only. -/
theorem outline_exec (h : m.outline = m'.outline) :
    (m.exec code cfg i).map outline =
      (m'.exec code { cfg with seed, boundary } i).map outline := by
  cases hop : i.opcode with
  | chars matter r => exact outline_chars h hop
  | multi =>
    simp only [exec, hop]
    cases code.string? (i.operand 0) with
    | none => rfl
    | some text => exact outline_exec_next (outline_write_of_length h rfl)
  | ref =>
    have hcaptured : (m.marks.capture? (i.operand 0)).map String.length =
        (m'.marks.capture? (i.operand 0)).map String.length := by
      rw [Marks.capture?, Captures.map_length_get?, Marks.capture?, Captures.map_length_get?]
      exact congrArg (fun o : Outline => (o.captures.find? (·.1 == i.operand 0)).map (·.2)) h
    simp only [exec, hop]
    cases hcapture : m.marks.capture? (i.operand 0) with
    | none =>
      rw [hcapture, Option.map_none, eq_comm, Option.map_eq_none_iff] at hcaptured
      rw [hcaptured]
    | some text =>
      rw [hcapture, Option.map_some, eq_comm, Option.map_eq_some_iff] at hcaptured
      obtain ⟨text', hcapture', hlength⟩ := hcaptured
      rw [hcapture']
      exact outline_exec_next (outline_write_of_length h hlength.symm)
  | boundary | ecmaBoundary =>
    simp only [exec, hop]
    exact outline_exec_next (outline_write_singleton h _ _)
  | nonboundary | nonEcmaBoundary =>
    simp only [exec, hop]
    by_cases halphabet : cfg.alphabet = []
    · simp only [halphabet, Rng.pick]
    · obtain ⟨d, r, hpick⟩ := Rng.exists_pick_of_ne_nil halphabet m.rng
      obtain ⟨d', r', hpick'⟩ := Rng.exists_pick_of_ne_nil halphabet m'.rng
      simp only [hpick, hpick']
      have hdrawn : ({ m with rng := r } : Machine).outline =
          ({ m' with rng := r' } : Machine).outline := h
      exact outline_exec_next (outline_write_singleton hdrawn d d')
  | setmark | nullmark =>
    simp only [exec, hop]
    exact outline_exec_next (by rw [outline_push, outline_push, h])
  | capturemark | getmark | branchmark | lazybranchmark =>
    simp only [exec, hop]
    exact outline_andNext (outline_close h _)
  | nullcount | setcount =>
    simp only [exec, hop]
    exact outline_exec_next (by rw [outline_pushCount, outline_pushCount, h])
  | branchcount | lazybranchcount =>
    simp only [exec, hop]
    exact outline_branch h
  | goto =>
    simp only [exec, hop]
    exact outline_jump h
  | setjump =>
    simp only [exec, hop]
    cases code.lookaround i.offset with
    | error e => rfl
    | ok extent =>
      by_cases hnegative : extent.negative = true
      · simp only [if_pos hnegative]
        show Except.ok { m.outline with ip := extent.stop } =
          Except.ok { m'.outline with ip := extent.stop }
        rw [h]
      · simp only [if_neg hnegative]
        exact outline_exec_next h
  | _ =>
    simp only [exec, hop]
    exact outline_exec_next h

theorem outline_step (h : m.outline = m'.outline) :
    (m.step code cfg).map outline =
      (m'.step code { cfg with seed, boundary }).map outline := by
  have hip : m.ip = m'.ip := congrArg Outline.ip h
  unfold step
  rw [hip]
  cases code.instructionAt m'.ip with
  | error e => rfl
  | ok i => exact outline_exec h

/-! ## Runs -/

theorem outline_after (h : m.outline = m'.outline) (n : Nat) :
    (m.after code cfg n).map outline =
      (m'.after code { cfg with seed, boundary } n).map outline := by
  induction n generalizing m m' with
  | zero => exact congrArg some h
  | succ n ih =>
    have hstep : (m.step code cfg).map outline =
        (m'.step code { cfg with seed, boundary }).map outline := outline_step h
    unfold after
    cases hm : m.step code cfg <;> cases hm' : m'.step code { cfg with seed, boundary } <;>
      simp only [hm, hm', Except.map, reduceCtorEq, Except.ok.injEq] at hstep
    · rfl
    · exact ih hstep

theorem outline_run (code : Code) (cfg : Config) (seed : UInt64) (boundary : Char)
    (h : m.outline = m'.outline) (fuel : Nat) :
    (run code cfg fuel m).map (Except.map outline) =
      (run code { cfg with seed, boundary } fuel m').map (Except.map outline) := by
  induction fuel generalizing m m' with
  | zero => rfl
  | succ fuel ih =>
    have hip : m.ip = m'.ip := congrArg Outline.ip h
    have hstep : (m.step code cfg).map outline =
        (m'.step code { cfg with seed, boundary }).map outline := outline_step h
    unfold run
    rw [hip]
    split
    · cases hm : m.step code cfg <;> cases hm' : m'.step code { cfg with seed, boundary } <;>
        simp only [hm, hm', Except.map, reduceCtorEq, Except.ok.injEq, Except.error.injEq] at hstep
      · rw [hstep]
      · exact ih hstep
    · exact congrArg (fun o => some (Except.ok o)) h

end Machine

/-! ## Programs -/

namespace Program

/-- After as many steps, generations that differ in their random words have come equally far. -/
theorem map_length_generate (p : Program) (cfg : Config) (seed : UInt64) (boundary : Char)
    (fuel : Nat) :
    (p.generate cfg fuel).map (Except.map String.length) =
      (p.generate { cfg with seed, boundary } fuel).map (Except.map String.length) := by
  have htotal : ∀ r : Except GenerationError Machine,
      (r.map fun m => m.marks.finish).map String.length =
        (r.map Machine.outline).map Outline.total := by
    intro r
    cases r with
    | error e => rfl
    | ok m => exact congrArg Except.ok m.length_finish
  have hstart : (Machine.start cfg).outline =
      (Machine.start { cfg with seed, boundary }).outline := rfl
  have hrun := congrArg (Option.map (Except.map Outline.total))
    (Machine.outline_run p.code cfg seed boundary hstart fuel)
  rw [generate_eq_map_run, generate_eq_map_run]
  simpa only [Option.map_map, Function.comp_def, htotal] using hrun

/-- An error does not go away with another seed. -/
theorem generate_eq_error {p : Program} {cfg : Config} {fuel : Nat} {e : GenerationError}
    (h : p.generate cfg fuel = some (.error e)) (seed : UInt64) (boundary : Char) :
    p.generate { cfg with seed, boundary } fuel = some (.error e) := by
  have hlength := map_length_generate p cfg seed boundary fuel
  rw [h, Option.map_some, eq_comm, Option.map_eq_some_iff] at hlength
  obtain ⟨r, hr, hre⟩ := hlength
  cases r with
  | error e' => rw [hr, Except.error.inj hre]
  | ok text => simp [Except.map] at hre

/-- Two runs that differ in their seed and in what a word boundary writes go in lock step, and end
alike: with the same error, with texts of the same length, or not at all. -/
theorem generate_lockstep (p : Program) (cfg : Config) (seed : UInt64) (boundary : Char) :
    let other := { cfg with seed, boundary }
    (∀ n, ((Machine.start cfg).after p.code cfg n).map Machine.outline =
      ((Machine.start other).after p.code other n).map Machine.outline) ∧
    ((∀ fuel, p.generate cfg fuel = none ∧ p.generate other fuel = none) ∨
      (∃ steps text text', text.length = text'.length ∧ ∀ fuel ≥ steps,
        p.generate cfg fuel = some (.ok text) ∧ p.generate other fuel = some (.ok text')) ∨
      ∃ steps e, ∀ fuel ≥ steps,
        p.generate cfg fuel = some (.error e) ∧ p.generate other fuel = some (.error e)) := by
  have hstart : (Machine.start cfg).outline =
      (Machine.start { cfg with seed, boundary }).outline := rfl
  refine ⟨Machine.outline_after hstart, ?_⟩
  by_cases hend : ∀ fuel, p.generate cfg fuel = none
  · refine .inl fun fuel => ⟨hend fuel, ?_⟩
    have hlength := map_length_generate p cfg seed boundary fuel
    rwa [hend fuel, Option.map_none, eq_comm, Option.map_eq_none_iff] at hlength
  · obtain ⟨steps, hsteps⟩ := not_forall.mp hend
    obtain ⟨r, hr⟩ := Option.ne_none_iff_exists'.mp hsteps
    cases r with
    | error e =>
      exact .inr (.inr ⟨steps, e, fun fuel hfuel => ⟨generate_of_le hr hfuel,
        generate_of_le (generate_eq_error hr seed boundary) hfuel⟩⟩)
    | ok text =>
      have hlength := map_length_generate p cfg seed boundary steps
      rw [hr, Option.map_some, eq_comm, Option.map_eq_some_iff] at hlength
      obtain ⟨r', hr', hrr'⟩ := hlength
      cases r' with
      | error e => simp [Except.map] at hrr'
      | ok text' =>
        exact .inr (.inl ⟨steps, text, text', (Except.ok.inj hrr').symm, fun fuel hfuel =>
          ⟨generate_of_le hr hfuel, generate_of_le hr' hfuel⟩⟩)

end Program

end PatternSampler
