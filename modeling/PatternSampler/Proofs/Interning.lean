import PatternSampler.Proofs.Emission
/-!
# Tables while a layout grows

A layout only adds entries at the end of its tables, never an entry that is there already.  So an
index handed out once stays good, and the tables that come out have no duplicates.
-/
set_option autoImplicit false

namespace PatternSampler

namespace Tables

/-! ## One entry -/

section
variable {α : Type} [DecidableEq α]

theorem intern_of_mem {entries : List α} {entry : α} (h : entry ∈ entries) :
    ∃ index, intern entries entry = (index, entries) ∧ entries[index]? = some entry := by
  unfold intern
  cases hfind : entries.findIdx? (· = entry) with
  | none =>
    rw [List.findIdx?_eq_none_iff] at hfind
    exact absurd (hfind entry h) (by simp)
  | some index =>
    obtain ⟨hlt, heq, -⟩ := List.findIdx?_eq_some_iff_getElem.mp hfind
    exact ⟨index, rfl, by rw [List.getElem?_eq_getElem hlt]; simpa using heq⟩

theorem intern_of_not_mem {entries : List α} {entry : α} (h : entry ∉ entries) :
    intern entries entry = (entries.length, entries ++ [entry]) := by
  unfold intern
  cases hfind : entries.findIdx? (· = entry) with
  | none => rfl
  | some index =>
    obtain ⟨hlt, heq, -⟩ := List.findIdx?_eq_some_iff_getElem.mp hfind
    exact absurd (List.getElem_mem hlt) (by simp only [of_decide_eq_true heq]; exact h)

/-- The index of an entry is where the entry stands. -/
theorem intern_getElem? (entries : List α) (entry : α) :
    (intern entries entry).2[(intern entries entry).1]? = some entry := by
  by_cases h : entry ∈ entries
  · obtain ⟨index, heq, hget⟩ := intern_of_mem h
    rw [heq]
    exact hget
  · simp [intern_of_not_mem h]

theorem intern_extends (entries : List α) (entry : α) :
    entries <+: (intern entries entry).2 := by
  by_cases h : entry ∈ entries
  · obtain ⟨index, heq, -⟩ := intern_of_mem h
    exact heq ▸ List.prefix_rfl
  · rw [intern_of_not_mem h]
    exact List.prefix_append entries [entry]

theorem intern_nodup {entries : List α} (entry : α) (hnodup : entries.Nodup) :
    (intern entries entry).2.Nodup := by
  by_cases h : entry ∈ entries
  · obtain ⟨index, heq, -⟩ := intern_of_mem h
    rw [heq]
    exact hnodup
  · rw [intern_of_not_mem h, List.nodup_append]
    exact ⟨hnodup, by simp, fun a ha b hb => by
      rintro rfl
      exact h (List.mem_singleton.mp hb ▸ ha)⟩

end

/-! ## Both tables -/

/-- The second tables hold all that the first do, at the same indices, and are free of duplicates
if the first are. -/
structure Grows (t u : Tables) : Prop where
  classes : t.classes <+: u.classes
  strings : t.strings <+: u.strings
  nodup : t.classes.Nodup ∧ t.strings.Nodup → u.classes.Nodup ∧ u.strings.Nodup

namespace Grows

theorem refl (t : Tables) : t.Grows t := ⟨List.prefix_rfl, List.prefix_rfl, id⟩

theorem trans {t u v : Tables} (h : t.Grows u) (h' : u.Grows v) : t.Grows v :=
  ⟨h.classes.trans h'.classes, h.strings.trans h'.strings, h'.nodup ∘ h.nodup⟩

end Grows

theorem grows_internClass (t : Tables) (cls : CharClass) : t.Grows (t.internClass cls).2 :=
  ⟨intern_extends t.classes cls, List.prefix_rfl, fun h => ⟨intern_nodup cls h.1, h.2⟩⟩

theorem grows_internString (t : Tables) (s : String) : t.Grows (t.internString s).2 :=
  ⟨List.prefix_rfl, intern_extends t.strings s, fun h => ⟨h.1, intern_nodup s h.2⟩⟩

/-- All entries of the tables are among those of a code, at the same indices. -/
structure Within (t : Tables) (code : Code) : Prop where
  classes : t.classes <+: code.classes.toList
  strings : t.strings <+: code.strings.toList

theorem Grows.within {t u : Tables} {code : Code} (h : t.Grows u) (hu : u.Within code) :
    t.Within code := ⟨h.classes.trans hu.classes, h.strings.trans hu.strings⟩

end Tables

/-! ## Entries that operands refer to -/

/-- An index operand refers to the entry at the index. -/
theorem Tables.getElem?_of_extends {α : Type} {entries : List α} {all : Array α} {index : Nat}
    {entry : α} (h : entries <+: all.toList) (hget : entries[index]? = some entry)
    (hsize : all.size < 2 ^ 31) :
    ¬ (Tables.indexWord index).toInt < 0 ∧
      all[(Tables.indexWord index).toInt.toNat]? = some entry := by
  obtain ⟨hlt, heq⟩ := List.getElem?_eq_some_iff.mp hget
  have hle : entries.length ≤ all.size := by simpa using h.length_le
  rw [Tables.toInt_indexWord (by omega), Int.toNat_natCast, ← Array.getElem?_toList]
  refine ⟨by omega, ?_⟩
  rw [List.getElem?_eq_getElem (by rw [Array.length_toList]; omega), ← h.getElem hlt, heq]

theorem Tables.class?_internClass {code : Code} {t : Tables} {cls : CharClass}
    (h : (t.internClass cls).2.Within code) (hfits : code.Fits) :
    code.class? (Tables.indexWord (t.internClass cls).1) = some cls := by
  have hget := Tables.intern_getElem? t.classes cls
  obtain ⟨hneg, hall⟩ := Tables.getElem?_of_extends h.classes hget hfits.classes
  simp only [Code.class?, Tables.internClass, hneg, if_false, hall]

theorem Tables.string?_internString {code : Code} {t : Tables} {s : String}
    (h : (t.internString s).2.Within code) (hfits : code.Fits) :
    code.string? (Tables.indexWord (t.internString s).1) = some s := by
  have hget := Tables.intern_getElem? t.strings s
  obtain ⟨hneg, hall⟩ := Tables.getElem?_of_extends h.strings hget hfits.strings
  simp only [Code.string?, Tables.internString, hneg, if_false, hall]

end PatternSampler
