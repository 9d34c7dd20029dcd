import Mathlib.Data.List.TakeDrop
import PatternSampler.Json.Reader
/-!
# Reading written JSON

A value that the library writes is read back from its text, in the compact layout and in the
indented one.  `Reads`, `ReadsElements` and `ReadsMembers` say what a text reads as, whatever
follows it and whatever blanks stand before it; they are put together as values are, so that each
layout only has to place its blanks (`reads_write`, `reads_writeIndented`).
-/
set_option autoImplicit false

namespace PatternSampler.Json

/-! ## Blanks -/

/-- A text of nothing but blanks. -/
def Blank (gap : List Char) : Prop := ∀ c ∈ gap, isSpace c = true

theorem blank_nil : Blank [] := fun _ hc => absurd hc List.not_mem_nil

theorem blank_newLine (depth : Nat) : Blank (newLine depth) := by
  intro c hc
  rcases List.mem_cons.mp hc with rfl | hc
  · rfl
  · rw [List.eq_of_mem_replicate hc]
    rfl

theorem skipSpace_append {gap : List Char} (hgap : Blank gap) (cs : List Char) :
    skipSpace (gap ++ cs) = skipSpace cs := List.dropWhile_append_of_pos hgap

theorem skipSpace_cons {c : Char} (hc : isSpace c = false) (cs : List Char) :
    skipSpace (c :: cs) = c :: cs := by
  rw [skipSpace, List.dropWhile_cons, hc]
  rfl

theorem skipSpace_skipSpace (cs : List Char) : skipSpace (skipSpace cs) = skipSpace cs := by
  induction cs with
  | nil => rfl
  | cons c cs ih =>
    cases hc : isSpace c with
    | true => rwa [show skipSpace (c :: cs) = skipSpace cs from List.dropWhile_cons_of_pos hc]
    | false => rw [skipSpace_cons hc, skipSpace_cons hc]

/-! ## Strings -/

section Strings

variable {cs rest : List Char} {pieces : List Piece}

/-- A character is written by a letter, by its code point, or as it is. -/
theorem escapeChar_cases (c : Char) :
    (∃ e, e ≠ 'u' ∧ shortEscape? e = some c ∧ escapeChar c = ['\\', e]) ∨
    (c.toNat < 0x20 ∧ escapeChar c =
      ['\\', 'u', '0', '0', Nat.digitChar (c.toNat / 16), Nat.digitChar (c.toNat % 16)]) ∨
    (c ≠ '"' ∧ c ≠ '\\' ∧ 0x20 ≤ c.toNat ∧ escapeChar c = [c]) := by
  by_cases hshort : c ∈ ['"', '\\', '\x08', '\t', '\n', '\x0c', '\r']
  · simp only [List.mem_cons, List.not_mem_nil, or_false] at hshort
    rcases hshort with rfl | rfl | rfl | rfl | rfl | rfl | rfl <;>
      exact .inl ⟨_, by decide, rfl, rfl⟩
  · simp only [List.mem_cons, List.not_mem_nil, or_false, not_or] at hshort
    refine .inr ?_
    by_cases hcontrol : c.toNat < 0x20
    · exact .inl ⟨hcontrol, by simp only [escapeChar, hshort, hcontrol, if_true, if_false]⟩
    · exact .inr ⟨hshort.1, hshort.2.1, Nat.le_of_not_lt hcontrol,
        by simp only [escapeChar, hshort, hcontrol, if_false]⟩

/-- A character is read back from the way it is written between quotes. -/
theorem readPieces_escapeChar {c : Char} (h : readPieces cs = some (pieces, rest)) :
    readPieces (escapeChar c ++ cs) = some (.char c :: pieces, rest) := by
  rcases escapeChar_cases c with ⟨e, hu, he, heq⟩ | ⟨hcontrol, heq⟩ | ⟨hquote, hslash, hplain, heq⟩
  · simp [heq, readPieces, hu, he, h]
  · have hhigh := @Text.hexDigit?_digitChar (c.toNat / 16) (by omega)
    have hlow := @Text.hexDigit?_digitChar (c.toNat % 16) (by omega)
    have hzero : Text.hexDigit? '0' = some 0 := rfl
    have hvalue : ((0 * 16 + 0) * 16 + c.toNat / 16) * 16 + c.toNat % 16 = c.toNat := by omega
    simp only [heq, List.cons_append, List.nil_append, readPieces, hex4?, hzero, hhigh, hlow, h,
      hvalue, Piece.ofCode, Text.scalar?_toNat]
  · simp [heq, readPieces, hslash, hplain, h]

theorem readPieces_escaped (s : List Char) (rest : List Char) :
    readPieces (s.flatMap escapeChar ++ '"' :: rest) = some (s.map .char, rest) := by
  induction s with
  | nil => rfl
  | cons c s ih =>
    rw [List.flatMap_cons, List.append_assoc, List.map_cons]
    exact readPieces_escapeChar ih

theorem joinPieces_map_char (s : List Char) : joinPieces (s.map .char) = some s := by
  induction s with
  | nil => rfl
  | cons c s ih => rw [List.map_cons, joinPieces, ih, Option.map_some]

/-- A text is read back, its opening quote already taken. -/
theorem readText_escaped (s : String) (rest : List Char) :
    readText (s.toList.flatMap escapeChar ++ '"' :: rest) = some (.text s, rest) := by
  simp only [readText, readPieces_escaped, joinPieces_map_char, String.ofList_toList]

end Strings

/-! ## Numbers -/

/-- A text that goes on after a whole number without lengthening it. -/
def EndsNumber (rest : List Char) : Prop :=
  ∀ c ∈ rest.head?, c.isDigit = false ∧ c ≠ '.' ∧ c ≠ 'e' ∧ c ≠ 'E'

section Numbers

variable {rest : List Char}

theorem endsNumber_nil : EndsNumber [] := fun _ hc => absurd hc (by simp)

theorem endsNumber_cons {c : Char} (hc : c = ',' ∨ c = ']' ∨ c = '\x7d') :
    EndsNumber (c :: rest) := by
  intro d hd
  obtain rfl := Option.some.inj hd
  rcases hc with rfl | rfl | rfl <;> decide

theorem endsNumber_append {gap : List Char} (hgap : Blank gap) (hrest : EndsNumber rest) :
    EndsNumber (gap ++ rest) := by
  cases gap with
  | nil => exact hrest
  | cons c gap =>
    intro d hd
    obtain rfl := Option.some.inj hd
    have hblank : isSpace c = true := hgap c List.mem_cons_self
    simp only [isSpace, Bool.or_eq_true, beq_iff_eq] at hblank
    rcases hblank with ((rfl | rfl) | rfl) | rfl <;> decide

theorem digits_toDigits (n : Nat) (hrest : EndsNumber rest) :
    digits (Nat.toDigits 10 n ++ rest) = (Nat.toDigits 10 n, rest) := by
  have htake := Text.takeWhile_toDigits n fun c hc => (hrest c hc).1
  have hall := @List.takeWhile_append_dropWhile _ (·.isDigit) (Nat.toDigits 10 n ++ rest)
  rw [htake, List.append_cancel_left_eq] at hall
  rw [digits, List.span_eq_takeWhile_dropWhile, htake, hall]

/-- A whole part is read back from its numeral: only a lone zero starts with one. -/
theorem readWhole_toDigits (n : Nat) (hrest : EndsNumber rest) :
    readWhole (Nat.toDigits 10 n ++ rest) = some (Nat.toDigits 10 n, rest) := by
  rw [readWhole, digits_toDigits n hrest]
  rcases Nat.eq_zero_or_pos n with rfl | hpos
  · rfl
  · obtain ⟨c, cs, hcs, hone, -⟩ := Text.exists_toDigits_eq_cons hpos
    have hzero : c ≠ '0' := by
      rintro rfl
      exact absurd hone (by decide)
    rw [hcs]
    split <;> simp_all

theorem readFraction_of_endsNumber (hrest : EndsNumber rest) :
    readFraction rest = some ([], rest) := by
  cases rest with
  | nil => rfl
  | cons c rest =>
    have hpoint : c ≠ '.' := (hrest c rfl).2.1
    unfold readFraction
    split <;> simp_all

theorem readExponent_of_endsNumber (hrest : EndsNumber rest) :
    readExponent rest = some ([], rest) := by
  cases rest with
  | nil => rfl
  | cons c rest =>
    obtain ⟨-, -, hlower, hupper⟩ := hrest c rfl
    simp [readExponent, hlower, hupper]

theorem exists_cons_of_toDigits (n : Nat) :
    ∃ c cs, Nat.toDigits 10 n = c :: cs ∧ c.isDigit = true := by
  obtain ⟨c, cs, hcs⟩ := List.exists_cons_of_ne_nil (Nat.toDigits_ne_nil : Nat.toDigits 10 n ≠ [])
  have hc : c ∈ Nat.toDigits 10 n := hcs ▸ List.mem_cons_self
  exact ⟨c, cs, hcs, Nat.isDigit_of_mem_toDigits (by decide) (by decide) hc⟩

theorem signed_ofNat (n : Nat) : (Text.signed (.ofNat n)).toList = Nat.toDigits 10 n :=
  String.toList_ofList

theorem signed_negSucc (n : Nat) :
    (Text.signed (.negSucc n)).toList = '-' :: Nat.toDigits 10 (n + 1) := by
  simp [Text.signed, Text.decimal]

/-- A number is read back from its numeral. -/
theorem readNumber_signed (n : Int) (hrest : EndsNumber rest) :
    readNumber ((Text.signed n).toList ++ rest) = some (.int n, rest) := by
  cases n with
  | ofNat n =>
    have hminus : ∀ cs, Nat.toDigits 10 n ++ rest ≠ '-' :: cs := by
      intro cs hcs
      obtain ⟨c, ds, hds, hdigit⟩ := exists_cons_of_toDigits n
      rw [hds, List.cons_append, List.cons.injEq] at hcs
      rw [hcs.1] at hdigit
      exact absurd hdigit (by decide)
    rw [signed_ofNat, readNumber]
    · simp only [readWhole_toDigits n hrest, readFraction_of_endsNumber hrest,
        readExponent_of_endsNumber hrest, Text.ofDigits_toDigits]
      simp
    · exact hminus
  | negSucc n =>
    simp only [signed_negSucc, List.cons_append, readNumber, readWhole_toDigits (n + 1) hrest,
      readFraction_of_endsNumber hrest, readExponent_of_endsNumber hrest, Text.ofDigits_toDigits]
    simp [Int.negSucc_eq]

end Numbers

/-! ## The reader's turns -/

theorem readValue_skipSpace (fuel : Nat) (cs : List Char) :
    readValue fuel (skipSpace cs) = readValue fuel cs := by
  cases fuel with
  | zero => rfl
  | succ fuel => simp only [readValue, skipSpace_skipSpace]

theorem readElements_skipSpace (fuel : Nat) (cs : List Char) :
    readElements fuel (skipSpace cs) = readElements fuel cs := by
  cases fuel with
  | zero => rfl
  | succ fuel => simp only [readElements, readValue_skipSpace]

theorem readMembers_skipSpace (fuel : Nat) (cs : List Char) :
    readMembers fuel (skipSpace cs) = readMembers fuel cs := by
  cases fuel with
  | zero => rfl
  | succ fuel => simp only [readMembers, skipSpace_skipSpace]

/-- No element starts with the bracket that closes an array. -/
theorem readElements_close (fuel : Nat) (cs : List Char) :
    readElements fuel (']' :: cs) = none := by
  rcases fuel with _ | _ | fuel <;> rfl

/-- No member starts with the brace that closes an object. -/
theorem readMembers_close (fuel : Nat) (cs : List Char) :
    readMembers fuel ('\x7d' :: cs) = none := by
  cases fuel <;> rfl

theorem readValue_array {fuel : Nat} {cs rest : List Char} {vs : List Json}
    (h : readElements fuel cs = some (vs, rest)) :
    readValue (fuel + 1) ('[' :: cs) = some (.arr vs, rest) := by
  have hopen : skipSpace ('[' :: cs) = '[' :: cs := rfl
  rw [← readElements_skipSpace] at h
  simp only [readValue, hopen]
  split
  · rename_i hclose
    rw [hclose, readElements_close] at h
    simp at h
  · rw [h]

theorem readValue_object {fuel : Nat} {cs rest : List Char} {ms : List (Json × Json)}
    (h : readMembers fuel cs = some (ms, rest)) :
    readValue (fuel + 1) ('\x7b' :: cs) = some (ofMembers ms, rest) := by
  have hopen : skipSpace ('\x7b' :: cs) = '\x7b' :: cs := rfl
  rw [← readMembers_skipSpace] at h
  simp only [readValue, hopen]
  split
  · rename_i hclose
    rw [hclose, readMembers_close] at h
    simp at h
  · rw [h]

/-- A value that starts with a digit or a minus sign is read as a number. -/
theorem readValue_number {c : Char} (hc : c.isDigit = true ∨ c = '-') (fuel : Nat)
    (cs : List Char) : readValue (fuel + 1) (c :: cs) = readNumber (c :: cs) := by
  have hother : ∀ d ∈ [' ', '\n', '\t', '\r', '"', '[', '\x7b', 't', 'f', 'n'], c ≠ d := by
    rintro d hd rfl
    simp only [List.mem_cons, List.not_mem_nil, or_false] at hd
    rcases hd with rfl | rfl | rfl | rfl | rfl | rfl | rfl | rfl | rfl | rfl <;>
      exact absurd hc (by decide)
  simp only [List.forall_mem_cons, List.not_mem_nil, false_imp_iff, implies_true, and_true]
    at hother
  have hspace : isSpace c = false := by
    simp [isSpace, hother]
  simp only [readValue, skipSpace_cons hspace]
  split <;> simp_all

/-- An object whose names are whole is not broken. -/
theorem ofMembers_named (ms : List (String × Json)) :
    ofMembers (ms.map fun m => (.text m.1, m.2)) = .obj ms := by
  rw [ofMembers, List.filterMap_map]
  change (if (ms.filterMap some).length = _ then obj (ms.filterMap some) else broken) = obj ms
  rw [List.filterMap_some, List.length_map, if_pos rfl]

/-! ## Texts of values -/

/-- The text reads as the value, whatever follows it, within as many steps as it has characters. -/
def Reads (text : List Char) (v : Json) : Prop :=
  ∀ fuel rest, text.length < fuel → EndsNumber rest →
    readValue fuel (text ++ rest) = some (v, rest)

/-- The text, before a closing bracket, reads as the elements of an array. -/
def ReadsElements (text : List Char) (vs : List Json) : Prop :=
  ∀ fuel rest, text.length + 1 < fuel →
    readElements fuel (text ++ ']' :: rest) = some (vs, rest)

/-- The text, before a closing brace, reads as the members of an object. -/
def ReadsMembers (text : List Char) (ms : List (String × Json)) : Prop :=
  ∀ fuel rest, text.length + 1 < fuel →
    readMembers fuel (text ++ '\x7d' :: rest) =
      some (ms.map fun m => (.text m.1, m.2), rest)

section Texts

variable {text others gap : List Char} {v : Json} {vs : List Json} {ms : List (String × Json)}

/-- Reading a value takes one step at least. -/
theorem Reads.of_succ (h : ∀ fuel rest, text.length ≤ fuel → EndsNumber rest →
    readValue (fuel + 1) (text ++ rest) = some (v, rest)) : Reads text v := by
  intro fuel rest hfuel hrest
  obtain ⟨fuel, rfl⟩ := Nat.exists_eq_succ_of_ne_zero (Nat.ne_zero_of_lt hfuel)
  exact h fuel rest (Nat.le_of_lt_succ hfuel) hrest

theorem Reads.after_blank (h : Reads text v) (hgap : Blank gap) : Reads (gap ++ text) v := by
  intro fuel rest hfuel hrest
  rw [List.length_append] at hfuel
  rw [List.append_assoc, ← readValue_skipSpace, skipSpace_append hgap, readValue_skipSpace]
  exact h fuel rest (by omega) hrest

theorem reads_null : Reads "null".toList .null := by
  apply Reads.of_succ
  intro fuel rest _ _
  rfl

theorem reads_bool (b : Bool) : Reads (writeBool b) (.bool b) := by
  apply Reads.of_succ
  intro fuel rest _ _
  cases b <;> rfl

theorem reads_int (n : Int) : Reads (Text.signed n).toList (.int n) := by
  apply Reads.of_succ
  intro fuel rest _ hrest
  have hhead : ∃ c cs, (Text.signed n).toList = c :: cs ∧ (c.isDigit = true ∨ c = '-') := by
    cases n with
    | ofNat n =>
      obtain ⟨c, cs, hcs, hc⟩ := exists_cons_of_toDigits n
      exact ⟨c, cs, by rw [signed_ofNat, hcs], .inl hc⟩
    | negSucc n => exact ⟨'-', _, signed_negSucc n, .inr rfl⟩
  obtain ⟨c, cs, hcs, hc⟩ := hhead
  have hnumber := readNumber_signed n hrest
  rw [hcs, List.cons_append] at hnumber ⊢
  rw [readValue_number hc, hnumber]

theorem reads_text (s : String) : Reads (writeText s) (.text s) := by
  apply Reads.of_succ
  intro fuel rest _ _
  have hopen : ∀ cs, skipSpace ('"' :: cs) = '"' :: cs := fun _ => rfl
  simp only [writeText, List.cons_append, List.append_assoc, List.nil_append, readValue, hopen,
    readText_escaped]

theorem Reads.lastElement (hv : Reads text v) (hgap : Blank gap) :
    ReadsElements (text ++ gap) [v] := by
  intro fuel rest hfuel
  obtain ⟨fuel, rfl⟩ := Nat.exists_eq_succ_of_ne_zero (Nat.ne_zero_of_lt hfuel)
  rw [List.length_append] at hfuel
  have hread := hv fuel (gap ++ ']' :: rest) (by omega)
    (endsNumber_append hgap (endsNumber_cons (.inr (.inl rfl))))
  have hclose : skipSpace (gap ++ ']' :: rest) = ']' :: rest := skipSpace_append hgap _
  rw [List.append_assoc]
  simp only [readElements, hread, hclose]

theorem Reads.element (hv : Reads text v) (hvs : ReadsElements others vs) :
    ReadsElements (text ++ ',' :: others) (v :: vs) := by
  intro fuel rest hfuel
  obtain ⟨fuel, rfl⟩ := Nat.exists_eq_succ_of_ne_zero (Nat.ne_zero_of_lt hfuel)
  rw [List.length_append, List.length_cons] at hfuel
  have hread := hv fuel (',' :: (others ++ ']' :: rest)) (by omega) (endsNumber_cons (.inl rfl))
  have hothers := hvs fuel rest (by omega)
  have hcomma : skipSpace (',' :: (others ++ ']' :: rest)) = ',' :: (others ++ ']' :: rest) := rfl
  rw [List.append_assoc, List.cons_append]
  simp only [readElements, hread, hcomma, hothers]

theorem reads_emptyArray : Reads ['[', ']'] (.arr []) := by
  apply Reads.of_succ
  intro fuel rest _ _
  rfl

theorem ReadsElements.reads (h : ReadsElements text vs) :
    Reads ('[' :: (text ++ [']'])) (.arr vs) := by
  apply Reads.of_succ
  intro fuel rest hfuel _
  rw [List.length_cons, List.length_append, List.length_singleton] at hfuel
  rw [List.cons_append, List.append_assoc, List.singleton_append]
  exact readValue_array (h fuel rest (by omega))

theorem skipSpace_name (hgap : Blank gap) (k : String) (cs : List Char) :
    skipSpace (gap ++ (writeText k ++ cs)) =
      '"' :: (k.toList.flatMap escapeChar ++ '"' :: cs) := by
  rw [skipSpace_append hgap, writeText, List.cons_append, List.append_assoc]
  rfl

theorem Reads.lastMember (hv : Reads text v) (k : String) {gap' : List Char} (hgap : Blank gap)
    (hgap' : Blank gap') :
    ReadsMembers (gap ++ writeText k ++ ':' :: (text ++ gap')) [(k, v)] := by
  intro fuel rest hfuel
  obtain ⟨fuel, rfl⟩ := Nat.exists_eq_succ_of_ne_zero (Nat.ne_zero_of_lt hfuel)
  simp only [List.length_append, List.length_cons] at hfuel
  have hcolon : ∀ cs, skipSpace (':' :: cs) = ':' :: cs := fun _ => rfl
  have hread := hv fuel (gap' ++ '\x7d' :: rest) (by omega)
    (endsNumber_append hgap' (endsNumber_cons (.inr (.inr rfl))))
  have hclose : skipSpace (gap' ++ '\x7d' :: rest) = '\x7d' :: rest := skipSpace_append hgap' _
  rw [List.append_assoc, List.append_assoc, List.cons_append, List.append_assoc]
  simp only [readMembers, skipSpace_name hgap, readText_escaped, hcolon, hread, hclose]
  rfl

theorem Reads.member (hv : Reads text v) (k : String) (hgap : Blank gap)
    (hms : ReadsMembers others ms) :
    ReadsMembers (gap ++ writeText k ++ ':' :: (text ++ ',' :: others)) ((k, v) :: ms) := by
  intro fuel rest hfuel
  obtain ⟨fuel, rfl⟩ := Nat.exists_eq_succ_of_ne_zero (Nat.ne_zero_of_lt hfuel)
  simp only [List.length_append, List.length_cons] at hfuel
  have hcolon : ∀ cs, skipSpace (':' :: cs) = ':' :: cs := fun _ => rfl
  have hcomma : ∀ cs, skipSpace (',' :: cs) = ',' :: cs := fun _ => rfl
  have hread := hv fuel (',' :: (others ++ '\x7d' :: rest)) (by omega) (endsNumber_cons (.inl rfl))
  have hothers := hms fuel rest (by omega)
  rw [List.append_assoc, List.append_assoc, List.cons_append, List.append_assoc, List.cons_append]
  simp only [readMembers, skipSpace_name hgap, readText_escaped, hcolon, hread, hcomma, hothers]
  rfl

theorem reads_emptyObject : Reads ['\x7b', '\x7d'] (.obj []) := by
  apply Reads.of_succ
  intro fuel rest _ _
  rfl

theorem ReadsMembers.reads (h : ReadsMembers text ms) :
    Reads ('\x7b' :: (text ++ ['\x7d'])) (.obj ms) := by
  apply Reads.of_succ
  intro fuel rest hfuel _
  rw [List.length_cons, List.length_append, List.length_singleton] at hfuel
  rw [List.cons_append, List.append_assoc, List.singleton_append,
    readValue_object (h fuel rest (by omega)), ofMembers_named]

end Texts

/-! ## The two layouts -/

/-- A value that the library may write: no number with a fraction or an exponent, and nothing
broken. -/
inductive Plain : Json → Prop where
  | null : Plain .null
  | bool (b : Bool) : Plain (.bool b)
  | int (n : Int) : Plain (.int n)
  | text (s : String) : Plain (.text s)
  | arr {vs : List Json} (h : ∀ v ∈ vs, Plain v) : Plain (.arr vs)
  | obj {ms : List (String × Json)} (h : ∀ m ∈ ms, Plain m.2) : Plain (.obj ms)

theorem readsElements_writeElements {vs : List Json} (hne : vs ≠ [])
    (h : ∀ v ∈ vs, Reads v.write v) : ReadsElements (writeElements vs) vs := by
  induction vs with
  | nil => exact absurd rfl hne
  | cons v vs ih =>
    obtain ⟨hv, hvs⟩ := List.forall_mem_cons.mp h
    cases vs with
    | nil =>
      have hlast := hv.lastElement blank_nil
      rwa [List.append_nil] at hlast
    | cons w vs => exact hv.element (ih (by simp) hvs)

theorem readsMembers_writeMembers {ms : List (String × Json)} (hne : ms ≠ [])
    (h : ∀ m ∈ ms, Reads m.2.write m.2) : ReadsMembers (writeMembers ms) ms := by
  induction ms with
  | nil => exact absurd rfl hne
  | cons m ms ih =>
    obtain ⟨k, v⟩ := m
    obtain ⟨hv, hms⟩ := List.forall_mem_cons.mp h
    cases ms with
    | nil =>
      have hlast := hv.lastMember k blank_nil blank_nil
      rwa [List.append_nil] at hlast
    | cons m ms => exact hv.member k blank_nil (ih (by simp) hms)

/-- A value reads back from its compact text. -/
theorem Plain.reads_write {v : Json} (h : v.Plain) : Reads v.write v := by
  induction h with
  | null => exact reads_null
  | bool b => exact reads_bool b
  | int n => exact reads_int n
  | text s => exact reads_text s
  | @arr vs _ ih =>
    rw [write]
    by_cases hne : vs = []
    · rw [hne]
      exact reads_emptyArray
    · exact (readsElements_writeElements hne ih).reads
  | @obj ms _ ih =>
    rw [write]
    by_cases hne : ms = []
    · rw [hne]
      exact reads_emptyObject
    · exact (readsMembers_writeMembers hne ih).reads

theorem readsElements_writeIndentedElements {vs : List Json} (hne : vs ≠ []) {depth : Nat}
    (h : ∀ v ∈ vs, Reads (v.writeIndented depth) v) {gap : List Char} (hgap : Blank gap) :
    ReadsElements (writeIndentedElements depth vs ++ gap) vs := by
  induction vs with
  | nil => exact absurd rfl hne
  | cons v vs ih =>
    obtain ⟨hv, hvs⟩ := List.forall_mem_cons.mp h
    have hline := hv.after_blank (blank_newLine depth)
    cases vs with
    | nil => exact hline.lastElement hgap
    | cons w vs =>
      have hmore := hline.element (ih (by simp) hvs)
      rwa [← List.cons_append, ← List.append_assoc] at hmore

theorem readsMembers_writeIndentedMembers {ms : List (String × Json)} (hne : ms ≠ []) {depth : Nat}
    (h : ∀ m ∈ ms, Reads (m.2.writeIndented depth) m.2) {gap : List Char} (hgap : Blank gap) :
    ReadsMembers (writeIndentedMembers depth ms ++ gap) ms := by
  have hspace : Blank [' '] := List.forall_mem_singleton.mpr rfl
  induction ms with
  | nil => exact absurd rfl hne
  | cons m ms ih =>
    obtain ⟨k, v⟩ := m
    obtain ⟨hv, hms⟩ := List.forall_mem_cons.mp h
    have hcolon := hv.after_blank hspace
    cases ms with
    | nil =>
      have hlast := hcolon.lastMember k (blank_newLine depth) hgap
      rwa [← List.cons_append, ← List.append_assoc] at hlast
    | cons m ms =>
      have hmore := hcolon.member k (blank_newLine depth) (ih (by simp) hms)
      simpa only [writeIndentedMembers, List.append_assoc, List.cons_append, List.nil_append]
        using hmore

/-- A value reads back from its indented text. -/
theorem Plain.reads_writeIndented {v : Json} (h : v.Plain) (depth : Nat) :
    Reads (v.writeIndented depth) v := by
  induction h generalizing depth with
  | null => exact reads_null
  | bool b => exact reads_bool b
  | int n => exact reads_int n
  | text s => exact reads_text s
  | @arr vs _ ih =>
    cases vs with
    | nil => exact reads_emptyArray
    | cons v vs =>
      have hvs : ∀ w ∈ v :: vs, Reads (w.writeIndented (depth + 1)) w := fun w hw => ih w hw _
      exact (readsElements_writeIndentedElements (by simp) hvs (blank_newLine depth)).reads
  | @obj ms _ ih =>
    cases ms with
    | nil => exact reads_emptyObject
    | cons m ms =>
      have hms : ∀ n ∈ m :: ms, Reads (n.2.writeIndented (depth + 1)) n.2 := fun n hn => ih n hn _
      exact (readsMembers_writeIndentedMembers (by simp) hms (blank_newLine depth)).reads

/-! ## Whole texts -/

theorem readValue_nil (fuel : Nat) : readValue fuel [] = none := by
  cases fuel <;> rfl

/-- A text is decoded as the value in it, if nothing but blanks follow. -/
theorem readAs_eq_ok_iff {ε α : Type} {fault : Fault → ε} {decode : Json → Except ε α} {a : α}
    {text : List Char} : readAs fault decode text = .ok a ↔
      ∃ v rest, readFirst text = .ok (v, rest) ∧ skipSpace rest = [] ∧ decode v = .ok a := by
  constructor
  · intro h
    unfold readAs at h
    split at h
    · simp at h
    · rename_i v rest hread
      split at h
      · simp at h
      · rename_i b hdecode
        split at h
        · rename_i hrest
          exact ⟨v, rest, hread, hrest, Except.ok.inj h ▸ hdecode⟩
        · simp at h
  · rintro ⟨v, rest, hread, hrest, hdecode⟩
    simp only [readAs, hread, hdecode, hrest, if_true]

/-- The value that a text holds is read from it, whatever blanks follow. -/
theorem readFirst_of_reads {text gap : List Char} {v : Json} (h : Reads text v)
    (hgap : Blank gap) : readFirst (text ++ gap) = .ok (v, gap) := by
  have hend : EndsNumber gap := List.append_nil gap ▸ endsNumber_append hgap endsNumber_nil
  have hread := h (2 * (text ++ gap).length + 2) gap (by rw [List.length_append]; omega) hend
  have hvalue : skipSpace (text ++ gap) ≠ [] := by
    intro hnil
    rw [← readValue_skipSpace, hnil, readValue_nil] at hread
    simp at hread
  simp only [readFirst, if_neg hvalue, hread]

/-- A text that holds a value and nothing but blanks after it is decoded as the value is. -/
theorem readAs_of_reads {ε α : Type} {fault : Fault → ε} {decode : Json → Except ε α} {a : α}
    {text gap : List Char} {v : Json} (h : Reads text v) (hgap : Blank gap)
    (hdecode : decode v = .ok a) : readAs fault decode (text ++ gap) = .ok a := by
  have hblank : skipSpace gap = [] := by
    have hskip := skipSpace_append hgap []
    rwa [List.append_nil] at hskip
  exact readAs_eq_ok_iff.mpr ⟨v, gap, readFirst_of_reads h hgap, hblank, hdecode⟩

end PatternSampler.Json
