import PatternSampler.Proofs.Loading
import PatternSampler.Proofs.Origin
import PatternSampler.Proofs.Witnesses
/-!
# Draws of loaded programs

A class is loaded as it stands in the text, so its ranges may be in any order and may run
backwards. Membership does not mind, but the witness takes the ranges to be in order.  Where the
alphabet has no member of such a class, a draw falls back on the witness and can write a character
that is no member. Main statement: `Program.drawn_of_load`, which says when that happens.
-/
set_option autoImplicit false

namespace PatternSampler

/-! ## Witnesses of ranges in any order -/

namespace CharClass

/-- The ranges are what the witness takes them to be: those of a negated class start one after the
other, and the first one of another class does not run backwards. -/
def Orderly (cls : CharClass) : Prop :=
  if cls.negated then cls.ranges.Pairwise fun r s => r.first ≤ s.first
  else ∀ r ∈ cls.ranges.head?, r.first ≤ r.last

/-- A draw from the class strays from it: the alphabet has no member, and the witness is none. -/
def Strays (cls : CharClass) (alphabet : List Char) : Prop :=
  (∀ a ∈ alphabet, cls.contains a = false) ∧ ∃ w, cls.witness? = some w ∧ cls.contains w = false

variable {cls : CharClass} {alphabet : List Char} {c : Char}

theorem Orderly.contains_of_witness? (h : cls.Orderly) (hc : cls.witness? = some c) :
    cls.contains c = true := by
  have hnone : cls.categories = [] := by
    by_contra hsome
    rw [witness?_of_categories hsome] at hc
    simp at hc
  rw [contains_of_categories_eq_nil hnone]
  rw [witness?, if_neg (not_not.mpr hnone)] at hc
  unfold Orderly at h
  split at h
  · rename_i hneg
    rw [if_pos hneg] at hc ⊢
    obtain ⟨-, hgap⟩ := not_contains_of_firstGap? h hc
    simpa using hgap
  · rename_i hneg
    rw [if_neg hneg] at hc ⊢
    obtain ⟨r, hr, rfl⟩ := Option.map_eq_some_iff.mp hc
    refine List.any_eq_true.mpr ⟨r, List.mem_of_mem_head? hr, ?_⟩
    simp [CharRange.contains, h r hr]

theorem Orderly.not_strays (h : cls.Orderly) : ¬cls.Strays alphabet := by
  rintro ⟨-, w, hw, hout⟩
  exact Bool.false_ne_true (hout.symm.trans (h.contains_of_witness? hw))

/-- Unless the draw strays, what the class offers is a member. -/
theorem Offers.contains (h : cls.Offers alphabet c) (hstrays : ¬cls.Strays alphabet) :
    cls.contains c = true := by
  rcases h with ⟨-, hmember⟩ | ⟨hnone, hc⟩
  · exact hmember
  · by_contra hout
    exact hstrays ⟨hnone, c, hc, Bool.not_eq_true _ ▸ hout⟩

/-- A draw that strays writes the witness only. -/
theorem Offers.witness?_eq (h : cls.Offers alphabet c) (hstrays : cls.Strays alphabet) :
    cls.witness? = some c := by
  rcases h with ⟨hin, hmember⟩ | ⟨-, hc⟩
  · exact absurd (hstrays.1 c hin ▸ hmember) Bool.false_ne_true
  · exact hc

theorem Strays.not_contains (hstrays : cls.Strays alphabet) (hc : cls.witness? = some c) :
    cls.contains c = false := by
  obtain ⟨-, w, hw, hout⟩ := hstrays
  rwa [Option.some.inj (hc.symm.trans hw)]

end CharClass

/-! ## Draws -/

namespace Program

variable {p : Program} {cfg : Config} {m m' : Machine} {i : Instruction}

theorem mem_instructions_of_after {n : Nat} (hafter : (Machine.start cfg).after p.code cfg n = some m)
    (hread : p.code.instructionAt m.ip = .ok i) : i ∈ p.instructions := by
  have hlt := Code.lt_size_of_instructionAt hread
  obtain ⟨j, hj, -, hj'⟩ := (isBoundary_after p.isBoundary_zero hafter).instructionAt hlt
  rwa [Except.ok.inj (hread.symm.trans hj')]

/-- What an instruction over a class writes in a run of a loaded program.  The class is the one that
the text gives.  Some character written is no member exactly if something is written at all and the
draw strays; then all of them are the witness.  It never strays where the ranges are in order. -/
theorem drawn_of_load {text : List Char} {n : Nat} {r : Repetition} (hload : load text = .ok p)
    (hafter : (Machine.start cfg).after p.code cfg n = some m)
    (hread : p.code.instructionAt m.ip = .ok i) (hop : i.opcode = .chars .set r)
    (hr : r ≠ .lazyLoop) (hstep : m.step p.code cfg = .ok m') :
    ∃ v rest cls drawn, Json.readFirst text = .ok (v, rest) ∧ Code.ofJson? v = some p.code ∧
      p.code.class? (i.operand 0) = some cls ∧
      m'.marks = m.marks.write (String.ofList drawn) ∧
      drawn.length = i.copies cfg.repetitionCap ∧
      ((∃ c ∈ drawn, cls.contains c = false) ↔ drawn ≠ [] ∧ cls.Strays cfg.alphabet) ∧
      (cls.Strays cfg.alphabet → ∀ c ∈ drawn, cls.witness? = some c) ∧
      (cls.Orderly → ∀ c ∈ drawn, cls.contains c = true) := by
  obtain ⟨v, rest, hv, -, hcode⟩ := load_eq_ok_iff.mp hload
  obtain ⟨cls, hcls⟩ := class?_isSome (mem_instructions_of_after hafter hread) hop
  have hdrawn? : p.code.drawn? i = some cls := by
    simp [Code.drawn?, hop, hcls]
  obtain ⟨drawn, hmarks, hlength, hoffers⟩ := exists_drawn_of_step hread hdrawn? hstep
  -- a draw writes members of the alphabet only or the witness only, never both
  have hmembers : ¬cls.Strays cfg.alphabet → ∀ c ∈ drawn, cls.contains c = true :=
    fun hstrays c hc => (hoffers c hc).contains hstrays
  have hwitness : cls.Strays cfg.alphabet → ∀ c ∈ drawn, cls.witness? = some c :=
    fun hstrays c hc => (hoffers c hc).witness?_eq hstrays
  refine ⟨v, rest, cls, drawn, hv, hcode, hcls, hmarks, hlength, ⟨?_, ?_⟩, hwitness,
    fun horderly => hmembers horderly.not_strays⟩
  · rintro ⟨c, hc, hout⟩
    refine ⟨List.ne_nil_of_mem hc, ?_⟩
    by_contra hstrays
    exact Bool.false_ne_true (hout.symm.trans (hmembers hstrays c hc))
  · rintro ⟨hne, hstrays⟩
    obtain ⟨c, cs, rfl⟩ := List.exists_cons_of_ne_nil hne
    exact ⟨c, List.mem_cons_self, hstrays.not_contains (hwitness hstrays c List.mem_cons_self)⟩

/-- Everything but `z` and the characters from the space to `!`, which come last although they are
lower. -/
def unsortedClass : CharClass := ⟨true, [⟨'z', 'z'⟩, ⟨' ', '!'⟩], []⟩

/-- One character of that class. -/
def unsortedCode : Code := ⟨#[11, 0], #[unsortedClass], #[]⟩

/-- The text of that code. -/
def unsortedText : String :=
  "\x7b\"codes\":[11,0],\"classes\":[\x7b\"negated\":true,\"ranges\":[" ++
    "\x7b\"start\":\"z\",\"end\":\"z\"\x7d,\x7b\"start\":\" \",\"end\":\"!\"\x7d]," ++
    "\"categories\":[]\x7d],\"strings\":[]\x7d"

/-- An alphabet without members of that class. -/
def foreignConfig : Config := { Config.default with alphabet := ['z'] }

theorem check_unsortedCode :
    unsortedCode.check = .ok [⟨0, .chars .set .single, ⟨0⟩, [0]⟩] :=
  Code.Reads.check_eq_ok ⟨rfl, rfl⟩ rfl

/-- The program of that code. -/
def unsortedProgram : Program := ⟨unsortedCode, _, check_unsortedCode⟩

theorem load_unsortedText : load unsortedText.toList = .ok unsortedProgram := by
  have htext : unsortedCode.toJson.compact = unsortedText := by cbv
  rw [← htext]
  exact load_compact unsortedProgram

theorem step_unsortedCode : ∃ m', (Machine.start foreignConfig).step unsortedCode foreignConfig =
    .ok m' ∧ m'.marks = Marks.empty.write (String.ofList [' ']) := ⟨_, rfl, rfl⟩

/-- The space is written, which is the witness and no member. -/
theorem drawn_of_load_unsortedText :
    load unsortedText.toList = .ok unsortedProgram ∧
      unsortedClass.Strays foreignConfig.alphabet ∧
      ∃ m', (Machine.start foreignConfig).step unsortedCode foreignConfig = .ok m' ∧
        ∃ drawn, m'.marks = Marks.empty.write (String.ofList drawn) ∧ drawn.length = 1 ∧
          ∃ c ∈ drawn, unsortedClass.contains c = false := by
  obtain ⟨m', hstep, -⟩ := step_unsortedCode
  obtain ⟨-, -, cls, drawn, -, -, hcls, hmarks, hlength, hiff, -⟩ :=
    drawn_of_load load_unsortedText (n := 0) rfl rfl rfl (by decide) hstep
  obtain rfl : unsortedClass = cls := Option.some.inj hcls
  have hstrays : unsortedClass.Strays foreignConfig.alphabet :=
    ⟨List.forall_mem_singleton.mpr (by decide), ' ', by decide, by decide⟩
  have hone : drawn.length = 1 := hlength
  have hne : drawn ≠ [] := List.ne_nil_of_length_eq_add_one hone
  exact ⟨load_unsortedText, hstrays, m', hstep, drawn, hmarks, hone, hiff.mpr ⟨hne, hstrays⟩⟩

/-- Not every character that a loaded program draws from a class is a member. -/
theorem not_contains_of_load :
    ¬∀ (text : List Char) (p : Program) (cfg : Config) (n : Nat) (m m' : Machine)
      (i : Instruction) (r : Repetition) (cls : CharClass) (drawn : List Char),
      load text = .ok p → (Machine.start cfg).after p.code cfg n = some m →
      p.code.instructionAt m.ip = .ok i → i.opcode = .chars .set r → r ≠ .lazyLoop →
      p.code.class? (i.operand 0) = some cls → m.step p.code cfg = .ok m' →
      m'.marks = m.marks.write (String.ofList drawn) → ∀ c ∈ drawn, cls.contains c = true := by
  intro h
  obtain ⟨m', hstep, hmarks⟩ := step_unsortedCode
  have hmember := h _ _ foreignConfig 0 _ m' _ _ unsortedClass [' '] load_unsortedText rfl rfl rfl
    (by decide) rfl hstep hmarks ' ' List.mem_cons_self
  exact absurd hmember (by decide)

end Program

end PatternSampler
