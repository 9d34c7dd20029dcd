import PatternSampler.Proofs.Safety
/-!
# The end of a lookaround

The scan for the end of a lookaround counts the lookarounds it is in.  Read as a list of
instructions, the code from an opening on has a matching closing, the first closing up to which as
many lookarounds are closed as are opened, or it has none; the scan finds the one and reports the
other.  A mark of negation counts for the lookaround whose opening is the only one still unmatched
before the mark, so what is nested does not show outside.  Main statement: `lookaround_matches`.
-/
set_option autoImplicit false

namespace PatternSampler

namespace Instruction

/-! ## Balance -/

/-- By how many a list opens more lookarounds than it closes. -/
def surplus (is : List Instruction) : Int :=
  is.countP (·.opcode = .setjump) - is.countP (·.opcode = .forejump)

theorem surplus_append (is js : List Instruction) :
    surplus (is ++ js) = surplus is + surplus js := by
  simp only [surplus, List.countP_append]
  omega

theorem surplus_of_setjump {k : Instruction} (hk : k.opcode = .setjump) : surplus [k] = 1 := by
  simp [surplus, hk]

theorem surplus_of_forejump {k : Instruction} (hk : k.opcode = .forejump) : surplus [k] = -1 := by
  simp [surplus, hk]

theorem surplus_of_neither {k : Instruction} (hset : k.opcode ≠ .setjump)
    (hfore : k.opcode ≠ .forejump) : surplus [k] = 0 := by
  simp [surplus, hset, hfore]

/-- After `opened`, the instruction `j` is the first closing up to which the lookarounds balance,
and `inner` stands before it. -/
structure Closes (opened inner : List Instruction) (j : Instruction) : Prop where
  closing : j.opcode = .forejump
  balanced : surplus (opened ++ inner ++ [j]) = 0
  first : ∀ front k back, inner = front ++ k :: back → k.opcode = .forejump →
    surplus (opened ++ front ++ [k]) ≠ 0

/-- Among `inner` stands a mark of negation before which all but one of the lookarounds that are
opened from `opened` on are closed. -/
def Negated (opened inner : List Instruction) : Prop :=
  ∃ front b back, inner = front ++ b :: back ∧ b.opcode = .backjump ∧
    surplus (opened ++ front) = 1

variable {opened inner : List Instruction} {j k : Instruction}

theorem closes_nil :
    Closes opened [] j ↔ j.opcode = .forejump ∧ surplus (opened ++ [j]) = 0 := by
  constructor
  · rintro ⟨hclosing, hbalanced, -⟩
    exact ⟨hclosing, by simpa using hbalanced⟩
  · rintro ⟨hclosing, hbalanced⟩
    exact ⟨hclosing, by simpa using hbalanced, by simp⟩

theorem closes_cons :
    Closes opened (k :: inner) j ↔
      Closes (opened ++ [k]) inner j ∧
        (k.opcode = .forejump → surplus (opened ++ [k]) ≠ 0) := by
  constructor
  · rintro ⟨hclosing, hbalanced, hfirst⟩
    refine ⟨⟨hclosing, by simpa using hbalanced, ?_⟩, ?_⟩
    · rintro front k' back rfl hk'
      simpa using hfirst (k :: front) k' back rfl hk'
    · intro hk
      simpa using hfirst [] k inner rfl hk
  · rintro ⟨⟨hclosing, hbalanced, hfirst⟩, hk⟩
    refine ⟨hclosing, by simpa using hbalanced, ?_⟩
    intro front k' back hsplit hk'
    cases front with
    | nil =>
      obtain ⟨rfl, rfl⟩ := List.cons.inj hsplit
      simpa using hk hk'
    | cons f front =>
      obtain ⟨rfl, rfl⟩ := List.cons.inj hsplit
      simpa using hfirst front k' back rfl hk'

theorem negated_cons :
    Negated opened (k :: inner) ↔
      (k.opcode = .backjump ∧ surplus opened = 1) ∨ Negated (opened ++ [k]) inner := by
  constructor
  · rintro ⟨front, b, back, hsplit, hb, hone⟩
    cases front with
    | nil =>
      obtain ⟨rfl, rfl⟩ := List.cons.inj hsplit
      exact .inl ⟨hb, by simpa using hone⟩
    | cons f front =>
      obtain ⟨rfl, rfl⟩ := List.cons.inj hsplit
      exact .inr ⟨front, b, back, rfl, hb, by simpa using hone⟩
  · rintro (⟨hk, hone⟩ | ⟨front, b, back, rfl, hb, hone⟩)
    · exact ⟨[], k, inner, rfl, hk, by simpa using hone⟩
    · exact ⟨k :: front, b, back, rfl, hb, by simpa using hone⟩

theorem not_negated_nil : ¬Negated opened [] := by
  rintro ⟨front, b, back, hsplit, -⟩
  simp at hsplit

instance decidableCloses :
    (opened inner : List Instruction) → (j : Instruction) → Decidable (Closes opened inner j)
  | _, [], _ => decidable_of_iff _ closes_nil.symm
  | opened, k :: inner, j =>
    have := decidableCloses (opened ++ [k]) inner j
    decidable_of_iff _ closes_cons.symm

instance decidableNegated : (opened inner : List Instruction) → Decidable (Negated opened inner)
  | _, [] => isFalse not_negated_nil
  | opened, k :: inner =>
    have := decidableNegated (opened ++ [k]) inner
    decidable_of_iff _ negated_cons.symm

end Instruction

/-! ## The scan -/

namespace Code

open Instruction (surplus Closes Negated closes_cons negated_cons not_negated_nil)

variable {code : Code} {a b : Nat} {k : Instruction}

/-- A scan that is in no inner lookaround ends at a closing. -/
theorem scanLookaround_stop (h : code.instructionAt a = .ok k) (hk : k.opcode = .forejump)
    (opener : Nat) (negative : Bool) :
    code.scanLookaround opener a 0 negative = .ok ⟨a + k.width, negative⟩ := by
  rw [scanLookaround, if_pos (lt_size_of_instructionAt h)]
  simp only [h, hk]

/-- A scan that does not end at an instruction goes on after it: in as many more inner lookarounds
as the instruction opens, and with a mark of negation noted if it is in none. -/
theorem scanLookaround_step (h : code.instructionAt a = .ok k) {depth : Nat}
    (hgo : k.opcode = .forejump → depth ≠ 0) (opener : Nat) (negative : Bool) :
    ∃ (depth' : Nat) (negative' : Bool), (depth' : Int) = depth + surplus [k] ∧
      (negative' = true ↔ negative = true ∨ k.opcode = .backjump ∧ depth = 0) ∧
      code.scanLookaround opener a depth negative =
        code.scanLookaround opener (a + k.width) depth' negative' := by
  rw [scanLookaround, if_pos (lt_size_of_instructionAt h)]
  simp only [h]
  split
  · rename_i hop
    exact ⟨_, negative, by simp [Instruction.surplus_of_setjump hop], by simp [hop], rfl⟩
  · rename_i hop
    refine ⟨0, true, ?_, by simp [hop], rfl⟩
    simp [Instruction.surplus_of_neither (k := k) (by simp [hop]) (by simp [hop])]
  · rename_i hop
    exact absurd rfl (hgo hop)
  · rename_i outer hop
    refine ⟨outer, negative, ?_, by simp [hop], rfl⟩
    rw [Instruction.surplus_of_forejump hop]
    omega
  · rename_i hset hback hfore hinner
    refine ⟨_, negative, ?_, ?_, rfl⟩
    · rw [Instruction.surplus_of_neither hset ?_, Int.add_zero]
      intro hop
      obtain ⟨outer, hsucc⟩ := Nat.exists_eq_succ_of_ne_zero (hgo hop)
      exact hinner outer hop hsucc
    · rw [or_iff_left]
      rintro ⟨hop, hdepth⟩
      exact hback hop hdepth

/-- The scan ends at the closing. -/
theorem scanLookaround_of_closes {inner rest : List Instruction} {j : Instruction}
    (hr : code.Reads a (inner ++ j :: rest) b) {opened : List Instruction} {depth : Nat}
    (hdepth : surplus opened = depth + 1) (hj : Closes opened inner j) (opener : Nat)
    (negative : Bool) :
    ∃ negative', code.scanLookaround opener a depth negative =
        .ok ⟨j.offset + j.width, negative'⟩ ∧
      (negative' = true ↔ negative = true ∨ Negated opened inner) := by
  induction inner generalizing a opened depth negative with
  | nil =>
    obtain ⟨hread, -⟩ := hr
    have hzero : depth = 0 := by
      have hbalanced := hj.balanced
      rw [List.append_nil, Instruction.surplus_append,
        Instruction.surplus_of_forejump hj.closing] at hbalanced
      omega
    subst hzero
    refine ⟨negative, ?_, by simp [not_negated_nil]⟩
    rw [instructionAt_offset hread]
    exact scanLookaround_stop hread hj.closing opener negative
  | cons k inner ih =>
    obtain ⟨hread, hr⟩ := hr
    obtain ⟨hj, hfirst⟩ := closes_cons.mp hj
    have hgo : k.opcode = .forejump → depth ≠ 0 := by
      intro hk hzero
      apply hfirst hk
      rw [Instruction.surplus_append, Instruction.surplus_of_forejump hk]
      omega
    obtain ⟨depth', negative', hdepth', hnegative', hstep⟩ :=
      scanLookaround_step hread hgo opener negative
    have hopened : surplus (opened ++ [k]) = depth' + 1 := by
      rw [Instruction.surplus_append]
      omega
    obtain ⟨negative'', hscan, hnegative''⟩ := ih hr hopened hj negative'
    refine ⟨negative'', hstep.trans hscan, ?_⟩
    have hone : depth = 0 ↔ surplus opened = 1 := by omega
    rw [hnegative'', hnegative', hone, negated_cons, or_assoc]

/-- Without a closing, the scan comes to the end of the code. -/
theorem scanLookaround_of_open {is : List Instruction} (hr : code.Reads a is code.words.size)
    {opened : List Instruction} {depth : Nat} (hdepth : surplus opened = depth + 1)
    (hopen : ∀ inner j rest, is = inner ++ j :: rest → ¬Closes opened inner j) (opener : Nat)
    (negative : Bool) :
    code.scanLookaround opener a depth negative = .error (.openLookaround opener) := by
  induction is generalizing a opened depth negative with
  | nil =>
    obtain rfl : a = code.words.size := hr
    rw [scanLookaround, if_neg (Nat.lt_irrefl _)]
  | cons k is ih =>
    obtain ⟨hread, hr⟩ := hr
    have hgo : k.opcode = .forejump → depth ≠ 0 := by
      intro hk hzero
      apply hopen [] k is rfl
      refine ⟨hk, ?_, by simp⟩
      rw [List.append_nil, Instruction.surplus_append, Instruction.surplus_of_forejump hk]
      omega
    obtain ⟨depth', negative', hdepth', -, hstep⟩ := scanLookaround_step hread hgo opener negative
    have hopened : surplus (opened ++ [k]) = depth' + 1 := by
      rw [Instruction.surplus_append]
      omega
    rw [hstep]
    apply ih hr hopened
    intro inner j rest hsplit hj
    apply hopen (k :: inner) j rest (by rw [hsplit, List.cons_append])
    refine closes_cons.mpr ⟨hj, ?_⟩
    intro hk
    have := hgo hk
    omega

/-! ## The counter -/

/-- The scan with a counter that may hold any number and is only compared with zero, together with
what the counter holds at each instruction it comes to. -/
def scanCounting (code : Code) (opener at_ : Nat) (depth : Int) (negative : Bool) :
    List Int × Except GenerationError Extent :=
  if at_ < code.words.size then
    match code.instructionAt at_ with
    | .error e => ([depth], .error (.program e))
    | .ok i =>
      match i.opcode with
      | .setjump =>
        (scanCounting code opener (at_ + i.width) (depth + 1) negative).map (depth :: ·) id
      | .backjump =>
        (scanCounting code opener (at_ + i.width) depth
          (if depth = 0 then true else negative)).map (depth :: ·) id
      | .forejump =>
        if depth = 0 then ([depth], .ok ⟨at_ + i.width, negative⟩)
        else (scanCounting code opener (at_ + i.width) (depth - 1) negative).map (depth :: ·) id
      | _ => (scanCounting code opener (at_ + i.width) depth negative).map (depth :: ·) id
  else ([depth], .error (.openLookaround opener))
  termination_by code.words.size - at_
  decreasing_by
    all_goals
      have := Code.width_pos i
      omega

/-- A counter that starts at or above zero stays there, and the scan is then the one that counts in
natural numbers. -/
theorem scanCounting_natCast (code : Code) (opener at_ depth : Nat) (negative : Bool) :
    (code.scanCounting opener at_ depth negative).2 =
        code.scanLookaround opener at_ depth negative ∧
      ∀ d ∈ (code.scanCounting opener at_ depth negative).1, 0 ≤ d := by
  fun_induction scanLookaround code opener at_ depth negative with
  | case1 at_ depth negative hlt e hat =>
    rw [scanCounting, if_pos hlt]
    simp [hat]
  | case2 at_ depth negative hlt i hat hop ih =>
    rw [scanCounting, if_pos hlt]
    simp only [hat, hop]
    exact ⟨ih.1, List.forall_mem_cons.mpr ⟨Int.natCast_nonneg depth, ih.2⟩⟩
  | case3 at_ negative hlt i hat hop ih =>
    rw [scanCounting, if_pos hlt]
    simp only [hat, hop]
    exact ⟨ih.1, List.forall_mem_cons.mpr ⟨Int.le_refl 0, ih.2⟩⟩
  | case4 at_ negative hlt i hat hop =>
    rw [scanCounting, if_pos hlt]
    simp [hat, hop]
  | case5 at_ negative hlt i hat outer hop ih =>
    have hne : ((outer + 1 : Nat) : Int) ≠ 0 := by omega
    have hpred : ((outer + 1 : Nat) : Int) - 1 = (outer : Int) := by omega
    rw [scanCounting, if_pos hlt]
    simp only [hat, hop, if_neg hne, hpred]
    exact ⟨ih.1, List.forall_mem_cons.mpr ⟨Int.natCast_nonneg _, ih.2⟩⟩
  | case6 at_ depth negative hlt i hat hset hback hfore hinner ih =>
    have hcons := List.forall_mem_cons.mpr ⟨Int.natCast_nonneg depth, ih.2⟩
    rw [scanCounting, if_pos hlt]
    simp only [hat]
    split
    · exact absurd ‹_› hset
    · rename_i hop
      have hne : (depth : Int) ≠ 0 := by
        intro hzero
        exact hback hop (Int.natCast_eq_zero.mp hzero)
      rw [if_neg hne]
      exact ⟨ih.1, hcons⟩
    · rename_i hop
      cases depth with
      | zero => exact absurd rfl (hfore hop)
      | succ outer => exact absurd rfl (hinner outer hop)
    · exact ⟨ih.1, hcons⟩
  | case7 at_ depth negative hge =>
    rw [scanCounting, if_neg hge]
    simp

end Code

/-! ## Programs -/

namespace Program

open Instruction (surplus Closes Negated)

variable {p : Program} {before after : List Instruction} {i : Instruction}

/-- Inside a lookaround the code reads as the instructions after its opening. -/
theorem reads_inside (hp : p.instructions = before ++ i :: after) (hi : i.opcode = .setjump) :
    p.code.Reads (i.offset + Opcode.setjump.width) after p.code.words.size := by
  have hr := p.reads
  rw [hp] at hr
  obtain ⟨a, -, hread, hafter⟩ := Code.Reads.append_iff.mp hr
  rw [Instruction.width, hi] at hafter
  rwa [Code.instructionAt_offset hread]

/-- The extent of a lookaround reaches just past the first later closing up to which as many
lookarounds are closed as are opened from its own opening on; it is negative if and only if a mark
of negation stands between, before which no lookaround but this one is open.  Its search fails if
and only if there is no such closing, and then with an error that names the opening.  The counter of
the search never goes below zero. -/
theorem lookaround_matches (p : Program) (before after : List Instruction) (i : Instruction)
    (hp : p.instructions = before ++ i :: after) (hi : i.opcode = .setjump) :
    (∀ extent, p.code.lookaround i.offset = .ok extent ↔
      ∃ inner j rest, after = inner ++ j :: rest ∧ Closes [i] inner j ∧
        extent.stop = j.offset + j.width ∧ (extent.negative = true ↔ Negated [i] inner)) ∧
    (∀ e, p.code.lookaround i.offset = .error e ↔
      e = .openLookaround i.offset ∧
        ∀ inner j rest, after = inner ++ j :: rest → ¬Closes [i] inner j) ∧
    ((p.code.scanCounting i.offset (i.offset + Opcode.setjump.width) 0 false).2 =
        p.code.lookaround i.offset ∧
      ∀ d ∈ (p.code.scanCounting i.offset (i.offset + Opcode.setjump.width) 0 false).1,
        0 ≤ d) := by
  have hr := reads_inside hp hi
  have hone : surplus [i] = (0 : Nat) + 1 := Instruction.surplus_of_setjump hi
  have hfound : ∀ inner j rest, after = inner ++ j :: rest → Closes [i] inner j →
      ∃ negative, p.code.lookaround i.offset = .ok ⟨j.offset + j.width, negative⟩ ∧
        (negative = true ↔ Negated [i] inner) := by
    rintro inner j rest rfl hj
    obtain ⟨negative, hscan, hnegative⟩ :=
      Code.scanLookaround_of_closes hr hone hj i.offset false
    exact ⟨negative, hscan, by simpa using hnegative⟩
  have hopen : (∀ inner j rest, after = inner ++ j :: rest → ¬Closes [i] inner j) →
      p.code.lookaround i.offset = .error (.openLookaround i.offset) := fun hnone =>
    Code.scanLookaround_of_open hr hone hnone i.offset false
  refine ⟨fun extent => ⟨?_, ?_⟩, fun e => ⟨?_, ?_⟩, Code.scanCounting_natCast _ _ _ 0 _⟩
  · intro h
    by_contra hnone
    refine absurd (h.symm.trans (hopen ?_)) (by simp)
    intro inner j rest hsplit hj
    obtain ⟨negative, hscan, hnegative⟩ := hfound inner j rest hsplit hj
    obtain rfl := Except.ok.inj (h.symm.trans hscan)
    exact hnone ⟨inner, j, rest, hsplit, hj, rfl, hnegative⟩
  · rintro ⟨inner, j, rest, hsplit, hj, hstop, hnegative⟩
    obtain ⟨negative, hscan, hnegative'⟩ := hfound inner j rest hsplit hj
    have heq : extent.negative = negative := Bool.eq_iff_iff.mpr (hnegative.trans hnegative'.symm)
    rw [hscan, ← hstop, ← heq]
  · intro h
    have hnone : ∀ inner j rest, after = inner ++ j :: rest → ¬Closes [i] inner j := by
      intro inner j rest hsplit hj
      obtain ⟨negative, hscan, -⟩ := hfound inner j rest hsplit hj
      exact absurd (h.symm.trans hscan) (by simp)
    exact ⟨Except.error.inj (h.symm.trans (hopen hnone)), hnone⟩
  · rintro ⟨rfl, hnone⟩
    exact hopen hnone

/-- A positive lookaround around a negative one, and a lookaround that is never closed. -/
def nestedCode : Code := ⟨#[34, 34, 35, 36, 14, 36, 34, 35], #[], #[]⟩

theorem check_nestedCode :
    nestedCode.check = .ok [⟨0, .setjump, ⟨0⟩, []⟩, ⟨1, .setjump, ⟨0⟩, []⟩,
      ⟨2, .backjump, ⟨0⟩, []⟩, ⟨3, .forejump, ⟨0⟩, []⟩, ⟨4, .bol, ⟨0⟩, []⟩,
      ⟨5, .forejump, ⟨0⟩, []⟩, ⟨6, .setjump, ⟨0⟩, []⟩, ⟨7, .backjump, ⟨0⟩, []⟩] :=
  Code.Reads.check_eq_ok ⟨rfl, rfl, rfl, rfl, rfl, rfl, rfl, rfl, rfl⟩ rfl

def nestedProgram : Program := ⟨_, _, check_nestedCode⟩

/-- The negative lookaround does not make the one around it negative. -/
theorem lookaround_matches_nested :
    nestedProgram.code.lookaround 0 = .ok ⟨6, false⟩ ∧
      nestedProgram.code.lookaround 1 = .ok ⟨4, true⟩ ∧
      nestedProgram.code.lookaround 6 = .error (.openLookaround 6) := by
  have houter := lookaround_matches nestedProgram [] _ ⟨0, .setjump, ⟨0⟩, []⟩ rfl rfl
  have hinner := lookaround_matches nestedProgram [_] _ ⟨1, .setjump, ⟨0⟩, []⟩ rfl rfl
  have hopen := lookaround_matches nestedProgram [_, _, _, _, _, _] _ ⟨6, .setjump, ⟨0⟩, []⟩ rfl rfl
  have hclosed : nestedProgram.code.lookaround 0 = .ok ⟨6, false⟩ := by
    apply (houter.1 _).mpr
    exact ⟨[_, _, _, _], ⟨5, .forejump, ⟨0⟩, []⟩, _, rfl, by decide, rfl, by decide⟩
  have hnegated : nestedProgram.code.lookaround 1 = .ok ⟨4, true⟩ := by
    apply (hinner.1 _).mpr
    exact ⟨[_], ⟨3, .forejump, ⟨0⟩, []⟩, _, rfl, by decide, rfl, by decide⟩
  refine ⟨hclosed, hnegated, (hopen.2.1 _).mpr ⟨rfl, ?_⟩⟩
  intro inner j rest hsplit hj
  have hmem : j ∈ [⟨7, .backjump, ⟨0⟩, []⟩] := by
    rw [hsplit]
    simp
  obtain rfl := List.mem_singleton.mp hmem
  exact absurd hj.closing (by decide)

end Program

end PatternSampler
