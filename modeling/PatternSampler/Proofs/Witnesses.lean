import Mathlib.Order.Bounds.Basic
import PatternSampler.Proofs.NormalForm
/-!
# Witnesses and choices of a class that is built

A class that is built from the constructors by adding ranges and categories and by negation has its
ranges in normal form.  Its witness is then the least character that it could be, and what it offers
to draw from an alphabet follows from the alphabet's members and the witness.  Main statement:
`witness_and_choices_of_built`.
-/
set_option autoImplicit false

namespace PatternSampler.CharClass

open CharRange (Canonical Covered)

/-! ## Classes that are built -/

/-- The classes that the constructors and the operations on classes give. -/
inductive Built : CharClass → Prop where
  | ofRanges (negated : Bool) (rs : List CharRange) (ks : List Category) :
      Built (ofRanges negated rs ks)
  | empty : Built empty
  | range (first last : Char) : Built (range first last)
  | single (c : Char) : Built (single c)
  | notChar (c : Char) : Built (notChar c)
  | ofCategory (k : Category) : Built (ofCategory k)
  | any : Built any
  | pushRange {cls : CharClass} (h : Built cls) (a b : Char) : Built (cls.pushRange a b)
  | pushCategory {cls : CharClass} (h : Built cls) (k : Category) : Built (cls.pushCategory k)
  | negate {cls : CharClass} (h : Built cls) : Built cls.negate

theorem Built.canonical {cls : CharClass} (h : Built cls) : Canonical cls.ranges := by
  induction h with
  | ofRanges negated rs ks => exact canonical_ofRanges negated rs ks
  | empty => exact CharRange.normal_iff_canonical.mp CharRange.normal_nil
  | range first last => exact canonical_ofRanges _ _ _
  | single c => exact canonical_ofRanges _ _ _
  | notChar c => exact canonical_ofRanges _ _ _
  | ofCategory k => exact canonical_ofRanges _ _ _
  | any => exact canonical_ofRanges _ _ _
  | pushRange _ a b _ => exact canonical_pushRange _ a b
  | pushCategory _ k ih =>
    rw [← CharRange.normal_iff_canonical] at ih ⊢
    exact normal_pushCategory ih k
  | negate _ ih => exact ih

/-! ## The witness -/

variable {cls : CharClass} {c : Char}

/-- The characters that may serve as the witness: the members, and of a negated class only those
from the space up. -/
def Eligible (cls : CharClass) (c : Char) : Prop :=
  cls.contains c = true ∧ (cls.negated = true → ' ' ≤ c)

theorem contains_of_categories_eq_nil (h : cls.categories = []) :
    cls.contains c = if cls.negated then !cls.ranges.any (·.contains c)
      else cls.ranges.any (·.contains c) := by
  simp [contains, h]

theorem eligible_iff_of_negated (h : cls.categories = []) (hneg : cls.negated = true) :
    cls.Eligible c ↔ ¬Covered cls.ranges c ∧ ' ' ≤ c := by
  rw [Eligible, contains_of_categories_eq_nil h, hneg, if_pos rfl, ← CharRange.any_contains_iff]
  simp

theorem eligible_iff_of_not_negated (h : cls.categories = []) (hneg : cls.negated = false) :
    cls.Eligible c ↔ Covered cls.ranges c := by
  rw [Eligible, contains_of_categories_eq_nil h, hneg, if_neg Bool.false_ne_true,
    CharRange.any_contains_iff]
  simp

/-- No character from `candidate` on that the ranges leave out comes before the first gap. -/
theorem exists_firstGap?_le {rs : List CharRange} {candidate d : Char} (hd : candidate ≤ d)
    (hgap : ¬Covered rs d) : ∃ c, firstGap? candidate rs = some c ∧ c ≤ d := by
  induction rs generalizing candidate with
  | nil => exact ⟨candidate, rfl, hd⟩
  | cons r rest ih =>
    rw [CharRange.covered_cons, not_or] at hgap
    rw [firstGap?]
    split
    · exact ih hd hgap.2
    · split
      · exact ⟨candidate, rfl, hd⟩
      · rename_i hlow
        have hlast : r.last < d := by
          rw [← not_le]
          intro hle
          exact hgap.1 ⟨(not_lt.mp hlow).trans hd, hle⟩
        split
        · rename_i hnext
          exact absurd (le_of_nextChar?_eq_none hnext d) (not_le.mpr hlast)
        · rename_i n hnext
          exact ih (le_of_nextChar? hnext hlast) hgap.2

theorem isLeast_firstGap? {rs : List CharRange} {candidate : Char} (hrs : Canonical rs)
    (h : firstGap? candidate rs = some c) :
    IsLeast {d | ¬Covered rs d ∧ candidate ≤ d} c := by
  obtain ⟨hle, hnone⟩ :=
    not_contains_of_firstGap? (CharRange.normal_iff_canonical.mpr hrs).starts h
  constructor
  · refine ⟨?_, hle⟩
    rintro ⟨r, hr, hc⟩
    exact Bool.false_ne_true ((hnone r hr).symm.trans hc)
  · rintro d ⟨hgap, hd⟩
    obtain ⟨e, he, hed⟩ := exists_firstGap?_le hd hgap
    rw [h] at he
    exact Option.some.inj he ▸ hed

theorem isLeast_head {rs : List CharRange} {r : CharRange} (hrs : Canonical rs)
    (h : rs.head? = some r) : IsLeast {d | Covered rs d} r.first := by
  obtain ⟨rest, rfl⟩ := List.head?_eq_some_iff.mp h
  constructor
  · exact hrs.covered_first
  · intro d hd
    exact hrs.first_le_of_covered hd

/-- A witness is the least character that is eligible. -/
theorem isLeast_of_witness? (hcls : Canonical cls.ranges) (hnone : cls.categories = [])
    (h : cls.witness? = some c) : IsLeast {d | cls.Eligible d} c := by
  rw [witness?, if_neg (not_not.mpr hnone)] at h
  cases hneg : cls.negated with
  | true =>
    rw [hneg, if_pos rfl] at h
    simp only [eligible_iff_of_negated hnone hneg]
    exact isLeast_firstGap? hcls h
  | false =>
    rw [hneg, if_neg Bool.false_ne_true] at h
    obtain ⟨r, hr, rfl⟩ := Option.map_eq_some_iff.mp h
    simp only [eligible_iff_of_not_negated hnone hneg]
    exact isLeast_head hcls hr

/-- A class without categories has a witness as soon as some character is eligible. -/
theorem exists_witness? (hnone : cls.categories = []) (h : cls.Eligible c) :
    ∃ d, cls.witness? = some d := by
  rw [witness?, if_neg (not_not.mpr hnone)]
  cases hneg : cls.negated with
  | true =>
    rw [if_pos rfl]
    obtain ⟨hgap, hc⟩ := (eligible_iff_of_negated hnone hneg).mp h
    obtain ⟨d, hd, -⟩ := exists_firstGap?_le hc hgap
    exact ⟨d, hd⟩
  | false =>
    rw [if_neg Bool.false_ne_true]
    obtain ⟨r, hr, -⟩ := (eligible_iff_of_not_negated hnone hneg).mp h
    obtain ⟨s, rest, hrs⟩ := List.exists_cons_of_ne_nil (List.ne_nil_of_mem hr)
    exact ⟨s.first, by rw [hrs]; rfl⟩

theorem witness?_eq_some_iff (hcls : Canonical cls.ranges) (hnone : cls.categories = []) :
    cls.witness? = some c ↔ IsLeast {d | cls.Eligible d} c := by
  constructor
  · exact isLeast_of_witness? hcls hnone
  · intro h
    obtain ⟨d, hd⟩ := exists_witness? hnone h.1
    rw [hd, (isLeast_of_witness? hcls hnone hd).unique h]

theorem witness?_eq_none_iff (hcls : Canonical cls.ranges) (hnone : cls.categories = []) :
    cls.witness? = none ↔ ∀ c, ¬cls.Eligible c := by
  constructor
  · intro h c hc
    obtain ⟨d, hd⟩ := exists_witness? hnone hc
    rw [h] at hd
    simp at hd
  · intro h
    cases hwitness : cls.witness? with
    | none => rfl
    | some c => exact absurd (isLeast_of_witness? hcls hnone hwitness).1 (h c)

theorem witness?_of_categories (h : cls.categories ≠ []) : cls.witness? = none := by
  rw [witness?, if_pos h]

theorem contains_of_witness? (hcls : Canonical cls.ranges) (h : cls.witness? = some c) :
    cls.contains c = true := by
  by_cases hnone : cls.categories = []
  · exact (isLeast_of_witness? hcls hnone h).1.1
  · rw [witness?_of_categories hnone] at h
    simp at h

/-! ## Choices -/

theorem choices?_of_filter_ne_nil {alphabet : List Char}
    (h : alphabet.filter cls.contains ≠ []) :
    cls.choices? alphabet = some (alphabet.filter cls.contains) := by
  unfold choices?
  split
  · rename_i heq
    exact absurd heq h
  · rename_i heq
    rw [heq]

theorem choices?_of_filter_eq_nil {alphabet : List Char}
    (h : alphabet.filter cls.contains = []) :
    cls.choices? alphabet = cls.witness?.map fun c => [c] := by
  rw [choices?, h]

theorem filter_contains_eq_nil_iff {alphabet : List Char} :
    alphabet.filter cls.contains = [] ↔ ∀ c ∈ alphabet, cls.contains c = false := by
  simp

/-- What the witness and the choices of a class are that is built.  With a category there is no
witness; otherwise it is the least member, of a negated class the least from the space up, and it
lacks only where there is no such member.  The choices are members, at least one; they are the
alphabet's members in alphabet order wherever it has any, and lack only where it has none and there
is no witness. -/
theorem witness_and_choices_of_built (h : Built cls) :
    (cls.categories ≠ [] → cls.witness? = none) ∧
    (cls.categories = [] →
      (∀ c, cls.witness? = some c ↔
        IsLeast {d | cls.contains d = true ∧ (cls.negated = true → ' ' ≤ d)} c) ∧
      (cls.witness? = none ↔
        ¬∃ d, cls.contains d = true ∧ (cls.negated = true → ' ' ≤ d))) ∧
    ∀ alphabet : List Char,
      (∀ cs, cls.choices? alphabet = some cs → cs ≠ [] ∧ ∀ c ∈ cs, cls.contains c = true) ∧
      ((∃ c ∈ alphabet, cls.contains c = true) →
        cls.choices? alphabet = some (alphabet.filter cls.contains)) ∧
      (cls.choices? alphabet = none ↔
        (∀ c ∈ alphabet, cls.contains c = false) ∧ cls.witness? = none) := by
  have hcls := h.canonical
  refine ⟨witness?_of_categories, ?_, ?_⟩
  · intro hnone
    refine ⟨fun c => witness?_eq_some_iff hcls hnone, ?_⟩
    rw [not_exists]
    exact witness?_eq_none_iff hcls hnone
  · intro alphabet
    by_cases hfilter : alphabet.filter cls.contains = []
    · have hchoices := choices?_of_filter_eq_nil hfilter
      have hoff := filter_contains_eq_nil_iff.mp hfilter
      refine ⟨?_, ?_, ?_⟩
      · intro cs hcs
        rw [hchoices] at hcs
        obtain ⟨c, hc, rfl⟩ := Option.map_eq_some_iff.mp hcs
        exact ⟨by simp, List.forall_mem_singleton.mpr (contains_of_witness? hcls hc)⟩
      · rintro ⟨c, hc, hmember⟩
        exact absurd ((hoff c hc).symm.trans hmember) Bool.false_ne_true
      · rw [hchoices, Option.map_eq_none_iff]
        exact (and_iff_right hoff).symm
    · have hchoices := choices?_of_filter_ne_nil hfilter
      refine ⟨?_, fun _ => hchoices, ?_⟩
      · intro cs hcs
        obtain rfl := Option.some.inj (hchoices.symm.trans hcs)
        exact ⟨hfilter, fun c hc => (List.mem_filter.mp hc).2⟩
      · rw [hchoices, ← filter_contains_eq_nil_iff]
        simp [hfilter]

/-- A negated class leaves out the blanks and all up to the surrogates: its witness lies beyond
them. -/
theorem witness_and_choices_of_built_negated :
    Built (((range ' ' '\uD7FF').pushRange '\t' '\n').negate) ∧
      ((range ' ' '\uD7FF').pushRange '\t' '\n').negate.witness? = some '\uE000' ∧
      IsLeast {d | ((range ' ' '\uD7FF').pushRange '\t' '\n').negate.contains d = true ∧
        (((range ' ' '\uD7FF').pushRange '\t' '\n').negate.negated = true → ' ' ≤ d)} '\uE000' :=
  have hbuilt := ((Built.range ' ' '\uD7FF').pushRange '\t' '\n').negate
  have hwitness : ((range ' ' '\uD7FF').pushRange '\t' '\n').negate.witness? = some '\uE000' := by
    decide
  ⟨hbuilt, hwitness, (((witness_and_choices_of_built hbuilt).2.1 (by decide)).1 '\uE000').mp
    hwitness⟩

end PatternSampler.CharClass
