import PatternSampler.Program.Codec
import PatternSampler.Proofs.Checks
import PatternSampler.Proofs.JsonText
/-!
# Programs written and loaded

A program loads from its own text, in either layout, as what it was.  Its tables are taken as they
stand: a class need not be in normal form, and a string may hold any characters.  What a text loads
as has passed every check, and a text whose code fails one is refused with its first fault.
-/
set_option autoImplicit false

namespace PatternSampler

/-! ## Plain values -/

namespace Json

/-- A list is read back if its elements are. -/
theorem toList?_map {α : Type} {encode : α → Json} {read : Json → Option α}
    (h : ∀ a, read (encode a) = some a) (as : List α) :
    toList? read (.arr (as.map encode)) = some as := by
  rw [toList?, List.mapM_map]
  induction as with
  | nil => rfl
  | cons a as ih => simp [List.mapM_cons, Function.comp_apply, h, ih]

theorem toInt32?_toInt (w : Int32) : toInt32? (.int w.toInt) = some w := by
  have hlow : -2147483648 ≤ w.toInt := w.le_toInt
  have hhigh : w.toInt ≤ 2147483647 := w.toInt_le
  rw [toInt32?, if_pos ⟨hlow, hhigh⟩, Int32.ofInt_toInt]

theorem toUInt64?_toNat (n : UInt64) : toUInt64? (.int n.toNat) = some n := by
  have hlow : (0 : Int) ≤ n.toNat := Int.natCast_nonneg _
  have hhigh : (n.toNat : Int) < 18446744073709551616 := by
    have hsize : n.toNat < 2 ^ 64 := n.toNat_lt
    omega
  rw [toUInt64?, if_pos ⟨hlow, hhigh⟩, Int.toNat_natCast, UInt64.ofNat_toNat]

theorem toText?_text (s : String) : toText? (.text s) = some s := rfl

theorem toChar?_singleton (c : Char) : toChar? (.text (String.singleton c)) = some c := by
  simp [toChar?]

theorem Plain.arr_map {α : Type} {encode : α → Json} (h : ∀ a, (encode a).Plain) (as : List α) :
    Plain (.arr (as.map encode)) :=
  .arr (List.forall_mem_map.mpr fun a _ => h a)

end Json

/-! ## Tables -/

theorem Category.ofJson?_toJson (k : Category) : Category.ofJson? k.toJson = some k := by
  cases k <;> decide

theorem Category.plain_toJson (k : Category) : k.toJson.Plain := .text k.name

theorem CharRange.ofJson?_toJson (r : CharRange) : CharRange.ofJson? r.toJson = some r := by
  simp [CharRange.ofJson?, CharRange.toJson, Json.fields?, Json.field?, Json.required,
    Json.toChar?_singleton]

theorem CharRange.plain_toJson (r : CharRange) : r.toJson.Plain :=
  .obj (by simp [Json.Plain.text])

theorem CharClass.ofJson?_toJson (cls : CharClass) : CharClass.ofJson? cls.toJson = some cls := by
  simp [CharClass.ofJson?, CharClass.toJson, Json.fields?, Json.field?, Json.optional,
    Json.toBool?, Json.toList?_map CharRange.ofJson?_toJson,
    Json.toList?_map Category.ofJson?_toJson]

theorem CharClass.plain_toJson (cls : CharClass) : cls.toJson.Plain :=
  .obj (by simp [Json.Plain.bool, Json.Plain.arr_map CharRange.plain_toJson,
    Json.Plain.arr_map Category.plain_toJson])

/-- A code is read back whatever its words and tables hold: reading does not check it. -/
theorem Code.ofJson?_toJson (code : Code) : Code.ofJson? code.toJson = some code := by
  simp [Code.ofJson?, Code.toJson, Json.fields?, Json.field?, Json.optional, Json.required,
    Json.toList?_map Json.toInt32?_toInt, Json.toList?_map CharClass.ofJson?_toJson,
    Json.toList?_map Json.toText?_text]

theorem Code.plain_toJson (code : Code) : code.toJson.Plain := by
  have hword : ∀ w : Int32, (Json.int w.toInt).Plain := fun w => .int w.toInt
  exact .obj (by simp [Json.Plain.arr_map hword, Json.Plain.arr_map CharClass.plain_toJson,
    Json.Plain.arr_map Json.Plain.text])

/-! ## Programs -/

namespace Program

theorem ofJson_toJson (p : Program) : ofJson p.toJson = .ok p := by
  simp only [ofJson, toJson, Code.ofJson?_toJson, ofCode_code]

/-- A program loads from a text that reads as its JSON, with any blanks after it. -/
theorem load_of_reads {p : Program} {text gap : List Char} (h : Json.Reads text p.toJson)
    (hgap : Json.Blank gap) : load (text ++ gap) = .ok p :=
  Json.readAs_of_reads h hgap p.ofJson_toJson

theorem load_compact (p : Program) : load p.toJson.compact.toList = .ok p := by
  have hload := load_of_reads p.code.plain_toJson.reads_write Json.blank_nil
  rw [List.append_nil] at hload
  rwa [Json.compact, String.toList_ofList]

theorem load_indented (p : Program) {gap : List Char} (hgap : Json.Blank gap) :
    load (p.toJson.indented.toList ++ gap) = .ok p := by
  rw [Json.indented, String.toList_ofList]
  exact load_of_reads (p.code.plain_toJson.reads_writeIndented 0) hgap

theorem ofJson_eq_ok_iff {v : Json} {q : Program} :
    ofJson v = .ok q ↔ Code.ofJson? v = some q.code := by
  constructor
  · intro h
    unfold ofJson at h
    split at h
    · simp at h
    · rename_i code hcode
      split at h
      · simp at h
      · rename_i hq
        rw [hcode, ← Except.ok.inj h, code_of_ofCode hq]
  · intro h
    simp only [ofJson, h, ofCode_code]

/-- A text loads as the program whose code stands in it. -/
theorem load_eq_ok_iff {text : List Char} {q : Program} :
    load text = .ok q ↔ ∃ v rest, Json.readFirst text = .ok (v, rest) ∧
      Json.skipSpace rest = [] ∧ Code.ofJson? v = some q.code := by
  rw [load, Json.readAs_eq_ok_iff]
  simp only [ofJson_eq_ok_iff]

theorem load_eq_error {text rest : List Char} {v : Json} {code : Code} {e : ProgramError}
    (hread : Json.readFirst text = .ok (v, rest)) (hcode : Code.ofJson? v = some code)
    (hcheck : code.check = .error e) : load text = .error (.program e) := by
  simp only [load, Json.readAs, hread, ofJson, hcode, ofCode_eq_error hcheck]

/-- A text loads as a program of given instructions exactly if the code that stands in it splits
into them and they all meet the rules. -/
theorem exists_load_iff {text : List Char} {code : Code} {is : List Instruction} :
    (∃ q, load text = .ok q ∧ q.code = code ∧ q.instructions = is) ↔
      (∃ v rest, Json.readFirst text = .ok (v, rest) ∧ Json.skipSpace rest = [] ∧
        Code.ofJson? v = some code) ∧
      code.Reads 0 is code.words.size ∧ ∀ i ∈ is, code.Meets is i := by
  rw [← Code.check_eq_ok_iff]
  constructor
  · rintro ⟨q, hload, rfl, rfl⟩
    exact ⟨load_eq_ok_iff.mp hload, q.checked⟩
  · rintro ⟨htext, hcheck⟩
    exact ⟨⟨code, is, hcheck⟩, load_eq_ok_iff.mpr htext, rfl, rfl⟩

/-- Every code that is accepted as a program is loaded from either of its texts as that program,
also with the end of line that a dump prints after the indented one.  Conversely a text loads only
if the code that stands in it passes every check. -/
theorem load_roundtrip :
    (∀ code p, ofCode code = .ok p → p.code = code ∧
      ∀ text ∈ [p.toJson.compact, p.toJson.indented, p.toJson.indented ++ "\n"],
        ∃ q, load text.toList = .ok q ∧ q = p ∧
          ∀ cfg fuel, q.generate cfg fuel = p.generate cfg fuel) ∧
    (∀ text code is, (∃ q, load text = .ok q ∧ q.code = code ∧ q.instructions = is) ↔
      (∃ v rest, Json.readFirst text = .ok (v, rest) ∧ Json.skipSpace rest = [] ∧
        Code.ofJson? v = some code) ∧
      code.Reads 0 is code.words.size ∧ ∀ i ∈ is, code.Meets is i) ∧
    ∀ text v rest code e, Json.readFirst text = .ok (v, rest) → Code.ofJson? v = some code →
      code.check = .error e → load text = .error (.program e) := by
  refine ⟨fun code p hp => ⟨code_of_ofCode hp, fun text htext => ?_⟩,
    fun text code is => exists_load_iff, fun text v rest code e => load_eq_error⟩
  have hload : load text.toList = .ok p := by
    simp only [List.mem_cons, List.not_mem_nil, or_false] at htext
    rcases htext with rfl | rfl | rfl
    · exact p.load_compact
    · rw [← List.append_nil p.toJson.indented.toList]
      exact p.load_indented Json.blank_nil
    · rw [String.toList_append]
      exact p.load_indented (Json.blank_newLine 0)
  exact ⟨p, hload, rfl, fun cfg fuel => rfl⟩

/-- A code whose words carry modifiers, with a class that is not in normal form and a string of
characters that have to be escaped. -/
def untidyCode : Code :=
  ⟨#[523, 0, 76, 1, 40], #[⟨true, [⟨'z', 'a'⟩, ⟨'b', 'y'⟩, ⟨'b', 'c'⟩], [.word, .word]⟩],
    #["", "\"\\\n\x01é😀"]⟩

theorem check_untidyCode :
    untidyCode.check = .ok [⟨0, .chars .set .single, ⟨512⟩, [0]⟩, ⟨2, .multi, ⟨64⟩, [1]⟩,
      ⟨4, .stop, ⟨0⟩, []⟩] :=
  Code.Reads.check_eq_ok ⟨rfl, rfl, rfl, rfl⟩ rfl

theorem load_roundtrip_untidyCode :
    ∃ p, ofCode untidyCode = .ok p ∧ load p.toJson.compact.toList = .ok p ∧
      load (p.toJson.indented ++ "\n").toList = .ok p ∧
      load "[[13]]".toList = .error (.program (.truncated 0 .ref)) := by
  obtain ⟨hround, -, hrefused⟩ := load_roundtrip
  have hok := ofCode_eq_ok check_untidyCode
  obtain ⟨-, htexts⟩ := hround _ _ hok
  obtain ⟨q, hcompact, rfl, -⟩ := htexts _ (.head _)
  obtain ⟨q', hindented, rfl, -⟩ := htexts _ (.tail _ (.tail _ (.head _)))
  have hcut : Code.check ⟨#[13], #[], #[]⟩ = .error (.truncated 0 .ref) := by
    rw [Code.check, Code.instructionsFrom]
    rfl
  exact ⟨_, hok, hcompact, hindented, hrefused _ (.arr [.arr [.int 13]]) [] _ _ rfl rfl hcut⟩

end Program

end PatternSampler
