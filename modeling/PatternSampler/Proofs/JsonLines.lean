import Mathlib.Data.List.Forall2
import PatternSampler.Diagnostic.JsonLine
import PatternSampler.Proofs.Loading
import PatternSampler.Proofs.Pieces
import PatternSampler.Proofs.Places
/-!
# Diagnostics as JSON lines

The JSON of a diagnostic is one line, since whatever the library writes as compact JSON holds no
control character (`Plain.uncontrolled_write`).  The line is read back as an object whose members
say what the diagnostic does (`DiagnosticMembers`, `LabelMembers`); what the diagnostic does not
have is not there at all.  A label stands where it is located; only a column that does not fit in
a machine word is cut down to one, and that is where checked sums give no line
(`render?_eq_some_iff`).
-/
set_option autoImplicit false

namespace PatternSampler

/-! ## Control characters -/

namespace Json

/-- A text without control characters. -/
def Uncontrolled (text : List Char) : Prop := ∀ c ∈ text, 0x20 ≤ c.toNat

section Uncontrolled

variable {xs ys : List Char}

@[simp]
theorem uncontrolled_nil : Uncontrolled [] := fun _ hc => absurd hc List.not_mem_nil

@[simp]
theorem uncontrolled_cons {c : Char} :
    Uncontrolled (c :: xs) ↔ 0x20 ≤ c.toNat ∧ Uncontrolled xs := List.forall_mem_cons

@[simp]
theorem uncontrolled_append : Uncontrolled (xs ++ ys) ↔ Uncontrolled xs ∧ Uncontrolled ys :=
  List.forall_mem_append

theorem uncontrolled_escapeChar (c : Char) : Uncontrolled (escapeChar c) := by
  have hdigit : ∀ d < 16, 0x20 ≤ (Nat.digitChar d).toNat := by decide
  rcases escapeChar_cases c with ⟨e, -, he, heq⟩ | ⟨hcontrol, heq⟩ | ⟨-, -, hplain, heq⟩
  · have hletter : 0x20 ≤ e.toNat := by
      unfold shortEscape? at he
      split_ifs at he <;> subst_vars <;> decide
    simp [heq, hletter]
  · simp [heq, hdigit _ (show c.toNat / 16 < 16 by omega),
      hdigit _ (show c.toNat % 16 < 16 by omega)]
  · simp [heq, hplain]

theorem uncontrolled_writeText (s : String) : Uncontrolled (writeText s) := by
  have hchars : Uncontrolled (s.toList.flatMap escapeChar) := by
    intro c hc
    obtain ⟨d, -, hd⟩ := List.mem_flatMap.mp hc
    exact uncontrolled_escapeChar d c hd
  simp [writeText, hchars]

theorem uncontrolled_toDigits (n : Nat) : Uncontrolled (Nat.toDigits 10 n) := by
  intro c hc
  have hdigit : c.isDigit = true := Nat.isDigit_of_mem_toDigits (by decide) (by decide) hc
  have hzero : '0'.val ≤ c.val := of_decide_eq_true (Bool.and_eq_true_iff.mp hdigit).1
  exact Nat.le_trans (by decide) hzero

theorem uncontrolled_signed (n : Int) : Uncontrolled (Text.signed n).toList := by
  cases n with
  | ofNat n =>
    rw [signed_ofNat]
    exact uncontrolled_toDigits n
  | negSucc n => simp [signed_negSucc, uncontrolled_toDigits]

theorem uncontrolled_writeElements {vs : List Json} (h : ∀ v ∈ vs, Uncontrolled v.write) :
    Uncontrolled (writeElements vs) := by
  induction vs with
  | nil => simp [writeElements]
  | cons v vs ih =>
    obtain ⟨hv, hvs⟩ := List.forall_mem_cons.mp h
    cases vs with
    | nil => simpa [writeElements] using hv
    | cons w vs => simp [writeElements, hv, ih hvs]

theorem uncontrolled_writeMembers {ms : List (String × Json)}
    (h : ∀ m ∈ ms, Uncontrolled m.2.write) : Uncontrolled (writeMembers ms) := by
  induction ms with
  | nil => simp [writeMembers]
  | cons m ms ih =>
    obtain ⟨hm, hms⟩ := List.forall_mem_cons.mp h
    cases ms with
    | nil => simp [writeMembers, uncontrolled_writeText, hm]
    | cons n ms => simp [writeMembers, uncontrolled_writeText, hm, ih hms]

end Uncontrolled

/-- The compact text of a value holds no control character. -/
theorem Plain.uncontrolled_write {v : Json} (h : v.Plain) : Uncontrolled v.write := by
  induction h with
  | null => simp [write]
  | bool b => cases b <;> simp [write, writeBool]
  | int n => exact uncontrolled_signed n
  | text s => exact uncontrolled_writeText s
  | arr _ ih => simp [write, uncontrolled_writeElements ih]
  | obj _ ih => simp [write, uncontrolled_writeMembers ih]

end Json

/-! ## Members -/

namespace JsonLine

section Members

variable {α : Type} {key : String} {f : α → Json}

theorem keys_member (o : Option α) : ((member key f o).map Prod.fst).Sublist [key] := by
  cases o with
  | none => exact List.nil_sublist _
  | some a => exact .refl _

theorem plain_member (hf : ∀ a, (f a).Plain) (o : Option α) : ∀ m ∈ member key f o, m.2.Plain := by
  cases o with
  | none => simp [member]
  | some a => simp [member, hf a]

theorem filter_member (key' : String) (o : Option α) :
    (member key f o).filter (·.1 == key') = if key = key' then member key f o else [] := by
  cases o <;> simp [member, List.filter_cons]

theorem field?_of_filter {ms : List (String × Json)} {o : Option α}
    (h : ms.filter (·.1 == key) = member key f o) : Json.field? ms key = some (o.map f) := by
  rw [Json.field?, h]
  cases o <;> rfl

theorem field?_of_filter_map {β : Type} {g : β → α} {ms : List (String × Json)} {o : Option β}
    (h : ms.filter (·.1 == key) = member key f (o.map g)) :
    Json.field? ms key = some (o.map fun b => f (g b)) := by
  rw [field?_of_filter h, Option.map_map]
  rfl

theorem field?_of_single {ms : List (String × Json)} {v : Json}
    (h : ms.filter (·.1 == key) = [(key, v)]) : Json.field? ms key = some (some v) := by
  rw [Json.field?, h]

end Members

/-! ## What the members say -/

/-- Members that say what a label does.  Only with a source do they say where it stands, and only
where it cuts the source also what stands there. -/
structure LabelMembers (source : Option (List Char)) (l : Label) (ms : List (String × Json)) :
    Prop where
  keys : (ms.map Prod.fst).Sublist ["start", "end", "message", "primary", "line", "col", "text"]
  start : Json.field? ms "start" = some (some (.int l.span.start))
  stop : Json.field? ms "end" = some (some (.int l.span.stop))
  message : Json.field? ms "message" = some (some (.text l.message))
  isPrimary : Json.field? ms "primary" = some (some (.bool l.isPrimary))
  line : Json.field? ms "line" = some (source.map fun cs =>
    .int ((Text.LineIndex.ofSource cs).place l.span.start).line)
  column : Json.field? ms "col" = some (source.map fun cs =>
    .int (((Text.LineIndex.ofSource cs).place l.span.start).column % UInt64.size : Nat))
  /-- The members are those of the place that is found. -/
  located : ∀ cs place, source = some cs →
    (Text.LineIndex.ofSource cs).locate? l.span.start = some place →
      Json.field? ms "line" = some (some (.int place.line)) ∧
        Json.field? ms "col" = some (some (.int place.column))
  text : ∀ cs, source = some cs → l.span.Cuts cs → ∃ before piece after,
    cs = before ++ (piece ++ after) ∧ Text.byteLength before = l.span.start ∧
      Text.byteLength (before ++ piece) = l.span.stop ∧
      Json.field? ms "text" = some (some (.text (String.ofList piece)))
  textless : (∀ cs, source = some cs → ¬l.span.Cuts cs) → Json.field? ms "text" = some none

/-- Members that say what a diagnostic does. -/
structure DiagnosticMembers (d : Diagnostic) (ms : List (String × Json)) : Prop where
  keys : (ms.map Prod.fst).Sublist
    ["severity", "code", "title", "message", "labels", "notes", "suggestion"]
  severity : Json.field? ms "severity" = some (some (.text d.severity.name))
  code : Json.field? ms "code" = some (d.code.map .text)
  title : Json.field? ms "title" =
    some (((d.code.bind Catalogue.lookup?).map (·.title)).map .text)
  message : Json.field? ms "message" = some (some (.text d.message))
  labels : ∃ vs, Json.field? ms "labels" = some (some (.arr vs)) ∧
    List.Forall₂ (fun l v => ∃ ms, v = .obj ms ∧ LabelMembers (d.source.map (·.toList)) l ms)
      d.labels vs
  notes : Json.field? ms "notes" = some (some (.arr (d.notes.map .text)))
  suggestion : Json.field? ms "suggestion" = some (d.suggestion.map .text)

/-! ## What is written -/

theorem sourceMembers_eq (source : Option (List Char)) (span : Span) :
    sourceMembers source span =
      member "line" (fun n : Nat => .int n)
          (source.map fun cs => ((Text.LineIndex.ofSource cs).lookup span.start).line) ++
        (member "col" (fun n : Nat => .int n)
            (source.map fun cs => ((Text.LineIndex.ofSource cs).lookup span.start).column) ++
          member "text" (fun piece => .text (String.ofList piece))
            (source.bind fun cs => Text.slice? span.start span.stop cs)) := by
  cases source <;> rfl

theorem plain_labelJson (source : Option (List Char)) (l : Label) :
    (labelJson source l).Plain := by
  have hnumber := fun key => @plain_member Nat key (fun n => .int n) fun n => .int n
  refine .obj (List.forall_mem_append.mpr ⟨?_, ?_⟩)
  · simp [Json.Plain.int, Json.Plain.text, Json.Plain.bool]
  · rw [sourceMembers_eq]
    exact List.forall_mem_append.mpr ⟨hnumber _ _, List.forall_mem_append.mpr ⟨hnumber _ _,
      plain_member (fun piece => .text (String.ofList piece)) _⟩⟩

theorem plain_toJson (d : Diagnostic) : (toJson d).Plain := by
  have htext := fun key => @plain_member String key .text .text
  refine .obj ?_
  simp only [List.forall_mem_append]
  refine ⟨⟨⟨⟨?_, htext _ _⟩, htext _ _⟩, ?_⟩, htext _ _⟩
  · simp [Json.Plain.text]
  · simp [Json.Plain.text, Json.Plain.arr_map (plain_labelJson _),
      Json.Plain.arr_map Json.Plain.text]

section LabelJson

variable {source : Option (List Char)} {l : Label} {ms : List (String × Json)}
  (h : labelJson source l = .obj ms)

include h

theorem field?_line_labelJson :
    Json.field? ms "line" = some (source.map fun cs =>
      .int ((Text.LineIndex.ofSource cs).lookup l.span.start).line) := by
  obtain rfl := Json.obj.inj h
  rw [sourceMembers_eq]
  exact field?_of_filter_map (f := fun n : Nat => .int n)
    (by simp [List.filter_append, filter_member])

theorem field?_col_labelJson :
    Json.field? ms "col" = some (source.map fun cs =>
      .int ((Text.LineIndex.ofSource cs).lookup l.span.start).column) := by
  obtain rfl := Json.obj.inj h
  rw [sourceMembers_eq]
  exact field?_of_filter_map (f := fun n : Nat => .int n)
    (by simp [List.filter_append, filter_member])

theorem field?_text_labelJson :
    Json.field? ms "text" =
      some ((source.bind fun cs => Text.slice? l.span.start l.span.stop cs).map
        fun piece => .text (String.ofList piece)) := by
  obtain rfl := Json.obj.inj h
  rw [sourceMembers_eq]
  exact field?_of_filter (by simp [List.filter_append, filter_member])

end LabelJson

theorem exists_labelMembers (source : Option (List Char)) (l : Label) :
    ∃ ms, labelJson source l = .obj ms ∧ LabelMembers source l ms := by
  obtain ⟨ms, hms⟩ : ∃ ms, labelJson source l = .obj ms := ⟨_, rfl⟩
  have hline := field?_line_labelJson hms
  have hcolumn := field?_col_labelJson hms
  have htext := field?_text_labelJson hms
  refine ⟨ms, hms, ?_⟩
  rw [labelJson, sourceMembers_eq, Json.obj.injEq] at hms
  exact
    { keys := by
        simp only [← hms, List.map_append]
        exact (List.Sublist.refl ["start", "end", "message", "primary"]).append
          ((keys_member _).append ((keys_member _).append (keys_member _)))
      start := field?_of_single (by simp [← hms, List.filter_append, filter_member])
      stop := field?_of_single (by simp [← hms, List.filter_append, filter_member])
      message := field?_of_single (by simp [← hms, List.filter_append, filter_member])
      isPrimary := field?_of_single (by simp [← hms, List.filter_append, filter_member])
      line := by simpa only [Text.LineIndex.lookup_eq] using hline
      column := by simpa only [Text.LineIndex.lookup_eq] using hcolumn
      located := by
        rintro cs place rfl hplace
        rw [hline, hcolumn, Option.map_some, Option.map_some,
          Text.LineIndex.lookup_of_locate? hplace]
        exact ⟨rfl, rfl⟩
      text := by
        rintro cs rfl hcuts
        obtain ⟨piece, hpiece⟩ := (Span.exists_slice?_iff l.span cs).mpr hcuts
        obtain ⟨before, after, hcs, hstart, hstop⟩ := Text.slice?_eq_some_iff.mp hpiece
        rw [Option.bind_some, hpiece] at htext
        exact ⟨before, piece, after, hcs, hstart, hstop, htext⟩
      textless := by
        intro hcuts
        have hpiece : (source.bind fun cs => Text.slice? l.span.start l.span.stop cs) = none := by
          rw [Option.bind_eq_none_iff]
          intro cs hcs
          rw [Option.eq_none_iff_forall_not_mem]
          intro piece hpiece
          exact hcuts cs hcs ((Span.exists_slice?_iff l.span cs).mp ⟨piece, hpiece⟩)
        rw [htext, hpiece, Option.map_none] }

theorem exists_diagnosticMembers (d : Diagnostic) :
    ∃ ms, toJson d = .obj ms ∧ DiagnosticMembers d ms := by
  have hlabels : List.Forall₂
      (fun l v => ∃ ms, v = .obj ms ∧ LabelMembers (d.source.map (·.toList)) l ms)
      d.labels (d.labels.map (labelJson (d.source.map (·.toList)))) := by
    rw [List.forall₂_map_right_iff, List.forall₂_same]
    exact fun l _ => exists_labelMembers _ l
  refine ⟨_, rfl, ?_⟩
  exact
    { keys := by
        simp only [List.map_append]
        exact ((((List.Sublist.refl ["severity"]).append (keys_member _)).append
          (keys_member _)).append (.refl ["message", "labels", "notes"])).append (keys_member _)
      severity := field?_of_single (by simp [List.filter_append, filter_member])
      code := field?_of_filter (by simp [List.filter_append, filter_member])
      title := field?_of_filter (by simp [List.filter_append, filter_member])
      message := field?_of_single (by simp [List.filter_append, filter_member])
      labels := ⟨_, field?_of_single (by simp [List.filter_append, filter_member]), hlabels⟩
      notes := field?_of_single (by simp [List.filter_append, filter_member])
      suggestion := field?_of_filter (by simp [List.filter_append, filter_member]) }

/-- Where sums are checked, a line comes out as long as every label's column fits in a machine
word. -/
theorem render?_eq_some_iff (d : Diagnostic) (line : String) :
    render? d = some line ↔ line = render d ∧ ∀ source, d.source = some source → ∀ l ∈ d.labels,
      l.span.start - Text.lineStart source.toList l.span.start + 1 < UInt64.size := by
  have hlocated (source : String) (offset : Nat) :
      ((Text.LineIndex.ofSource source.toList).locate? offset).isSome = true ↔
        offset - Text.lineStart source.toList offset + 1 < UInt64.size := by
    simp [Option.isSome_iff_exists, Text.LineIndex.locate?_eq_some_iff]
  have hall : located d = true ↔ ∀ source, d.source = some source → ∀ l ∈ d.labels,
      l.span.start - Text.lineStart source.toList l.span.start + 1 < UInt64.size := by
    simp only [located, Option.all_eq_true, List.all_eq_true, hlocated]
  rw [← hall, render?]
  by_cases h : located d = true
  · simp [h, eq_comm]
  · simp [h]

/-- A diagnostic is written as one line, and the line is read as an object that says what the
diagnostic does; where sums are checked, it is the same line unless a label's column does not fit.
-/
theorem render_faithful (d : Diagnostic) :
    Json.Uncontrolled (render d).toList ∧
      (∃ ms, Json.readFirst (render d).toList = .ok (.obj ms, []) ∧ DiagnosticMembers d ms) ∧
      ∀ line, render? d = some line ↔
        line = render d ∧ ∀ source, d.source = some source → ∀ l ∈ d.labels,
          l.span.start - Text.lineStart source.toList l.span.start + 1 < UInt64.size := by
  have hread := Json.readFirst_of_reads (plain_toJson d).reads_write Json.blank_nil
  obtain ⟨ms, hms, hmembers⟩ := exists_diagnosticMembers d
  rw [List.append_nil] at hread
  refine ⟨?_, ⟨ms, ?_, hmembers⟩, render?_eq_some_iff d⟩
  · rw [render, Json.compact, String.toList_ofList]
    exact (plain_toJson d).uncontrolled_write
  · rw [render, Json.compact, String.toList_ofList, ← hms]
    exact hread

end JsonLine

end PatternSampler
