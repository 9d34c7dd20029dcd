import PatternSampler.Proofs.Classes
/-!
# Ranges have one normal form

Normalizing ranges keeps what they cover, and two lists that cover the same characters have the same
normal form.  What is canonical is said without naming a character's neighbour: between two ranges
some character is left out.  Characters are Unicode scalar values, so that nothing lies between
U+D7FF and U+E000, and nothing beyond U+10FFFF.  Main statement: `normalize_canonical`.
-/
set_option autoImplicit false

namespace PatternSampler

/-! ## The next character -/

theorem le_of_nextChar? {c n d : Char} (h : nextChar? c = some n) (hd : c < d) : n ≤ d := by
  have hvalid : d.toNat < 0xD800 ∨ 0xDFFF < d.toNat ∧ d.toNat < 0x110000 := d.valid
  have hlt : c.toNat < d.toNat := hd
  have hle : ∀ m : Char, m.toNat ≤ d.toNat → m ≤ d := fun m hm => hm
  unfold nextChar? at h
  split at h
  · rename_i hc
    obtain rfl := Option.some.inj h
    have hgap : 0xE000 ≤ d.toNat := by omega
    exact hle _ hgap
  · split at h
    · simp at h
    · have hnext : (c.toNat + 1).isValidChar := by
        have hc : c.toNat < 0xD800 ∨ 0xDFFF < c.toNat ∧ c.toNat < 0x110000 := c.valid
        simp only [Nat.isValidChar]
        omega
      rw [Char.ofNat, dif_pos hnext] at h
      obtain rfl := Option.some.inj h
      exact hle _ hlt

theorem le_of_nextChar?_eq_none {c : Char} (h : nextChar? c = none) (d : Char) : d ≤ c := by
  have hvalid : d.toNat < 0xD800 ∨ 0xDFFF < d.toNat ∧ d.toNat < 0x110000 := d.valid
  have hle : d.toNat ≤ c.toNat → d ≤ c := fun hd => hd
  unfold nextChar? at h
  split at h
  · simp at h
  · split at h
    · apply hle
      omega
    · simp at h

namespace CharRange

/-! ## What ranges cover -/

/-- A character lies in one of the ranges. -/
def Covered (rs : List CharRange) (c : Char) : Prop := ∃ r ∈ rs, r.contains c = true

/-- A character lies between the ends of a range, whichever end comes first. -/
def Spans (r : CharRange) (c : Char) : Prop :=
  r.first ≤ c ∧ c ≤ r.last ∨ r.last ≤ c ∧ c ≤ r.first

theorem contains_iff {r : CharRange} {c : Char} :
    r.contains c = true ↔ r.first ≤ c ∧ c ≤ r.last := by
  simp [contains]

@[simp] theorem covered_nil {c : Char} : ¬Covered [] c := by
  simp [Covered]

@[simp] theorem covered_cons {r : CharRange} {rs : List CharRange} {c : Char} :
    Covered (r :: rs) c ↔ (r.first ≤ c ∧ c ≤ r.last) ∨ Covered rs c := by
  simp [Covered, contains_iff]

theorem any_contains_iff {rs : List CharRange} {c : Char} :
    rs.any (·.contains c) = true ↔ Covered rs c := List.any_eq_true

theorem spans_iff_of_le {r : CharRange} {c : Char} (h : r.first ≤ r.last) :
    r.Spans c ↔ r.contains c = true := by
  rw [contains_iff]
  constructor
  · rintro (hc | ⟨hlast, hfirst⟩)
    · exact hc
    · exact ⟨h.trans hlast, hfirst.trans h⟩
  · exact .inl

theorem contains_ordered {r : CharRange} {c : Char} : r.ordered.contains c = true ↔ r.Spans c := by
  rw [← spans_iff_of_le (first_le_last_ordered r)]
  unfold ordered
  split
  · exact or_comm
  · exact Iff.rfl

/-! ## Canonical ranges -/

/-- Ranges are canonical: none is empty, and between each and those after it some character is left
out. -/
structure Canonical (rs : List CharRange) : Prop where
  proper : ∀ r ∈ rs, r.first ≤ r.last
  apart : rs.Pairwise fun r s => ∃ c, r.last < c ∧ c < s.first

theorem before_iff {r s : CharRange} : r.Before s ↔ ∃ c, r.last < c ∧ c < s.first := by
  constructor
  · rintro ⟨n, hn, hlt⟩
    exact ⟨n, lt_of_nextChar? hn, hlt⟩
  · rintro ⟨c, hrc, hcs⟩
    cases hn : nextChar? r.last with
    | none => exact absurd (le_of_nextChar?_eq_none hn c) (not_le.mpr hrc)
    | some n => exact ⟨n, hn, (le_of_nextChar? hn hrc).trans_lt hcs⟩

theorem normal_iff_canonical {rs : List CharRange} : Normal rs ↔ Canonical rs := by
  constructor
  · intro h
    exact ⟨h.proper, h.apart.imp before_iff.mp⟩
  · intro h
    exact ⟨h.proper, h.apart.imp before_iff.mpr⟩

/-! ## Normalizing keeps what is covered -/

theorem first_le_of_reaches {r s : CharRange} {c : Char} (h : r.reaches s = true)
    (hc : r.last < c) : s.first ≤ c := by
  unfold reaches at h
  split at h
  · rename_i hn
    exact absurd (le_of_nextChar?_eq_none hn c) (not_le.mpr hc)
  · rename_i n hn
    exact (decide_eq_true_eq.mp h).trans (le_of_nextChar? hn hc)

/-- A range extended to the end of one that it reaches covers what the two cover. -/
theorem extend_iff {r s : CharRange} {c : Char} (hfirst : r.first ≤ s.first)
    (h : r.reaches s = true) :
    ((r.extend s).first ≤ c ∧ c ≤ (r.extend s).last) ↔
      (r.first ≤ c ∧ c ≤ r.last) ∨ (s.first ≤ c ∧ c ≤ s.last) := by
  unfold extend
  split
  · rename_i hlast
    constructor
    · rintro ⟨hlow, hhigh⟩
      rcases le_or_gt c r.last with hc | hc
      · exact .inl ⟨hlow, hc⟩
      · exact .inr ⟨first_le_of_reaches h hc, hhigh⟩
    · rintro (⟨hlow, hhigh⟩ | ⟨hlow, hhigh⟩)
      · exact ⟨hlow, hhigh.trans hlast.le⟩
      · exact ⟨hfirst.trans hlow, hhigh⟩
  · rename_i hlast
    constructor
    · exact .inl
    · rintro (hc | ⟨hlow, hhigh⟩)
      · exact hc
      · exact ⟨hfirst.trans hlow, hhigh.trans (not_lt.mp hlast)⟩

theorem covered_joinInto {r : CharRange} {rs : List CharRange} {c : Char}
    (hsorted : (r :: rs).Pairwise (·.first ≤ ·.first)) :
    Covered (joinInto r rs) c ↔ Covered (r :: rs) c := by
  induction rs generalizing r with
  | nil => exact Iff.rfl
  | cons s rest ih =>
    obtain ⟨hfirst, hrest⟩ := List.pairwise_cons.mp hsorted
    rw [List.forall_mem_cons] at hfirst
    rw [joinInto]
    split
    · rename_i hreaches
      have hextended : (r.extend s :: rest).Pairwise (·.first ≤ ·.first) := by
        apply List.pairwise_cons.mpr
        exact ⟨by simpa only [first_extend] using hfirst.2, (List.pairwise_cons.mp hrest).2⟩
      rw [ih hextended, covered_cons, covered_cons, covered_cons, extend_iff hfirst.1 hreaches,
        or_assoc]
    · rw [covered_cons, covered_cons, ih hrest]

theorem covered_normalize {rs : List CharRange} {c : Char} :
    Covered (normalize rs) c ↔ ∃ r ∈ rs, r.Spans c := by
  have hsorted := pairwise_sort (rs.map ordered)
  have hjoin : Covered (normalize rs) c ↔ Covered (sort (rs.map ordered)) c := by
    rw [normalize]
    cases h : sort (rs.map ordered) with
    | nil => exact Iff.rfl
    | cons r rest => exact covered_joinInto (h ▸ hsorted)
  rw [hjoin]
  simp [Covered, mem_sort, contains_ordered]

/-! ## Canonical ranges that cover the same are the same -/

namespace Canonical

variable {r s : CharRange} {rs ss : List CharRange} {c : Char}

theorem tail (h : Canonical (r :: rs)) : Canonical rs :=
  ⟨(List.forall_mem_cons.mp h.proper).2, (List.pairwise_cons.mp h.apart).2⟩

/-- Nothing that a later range covers is right after the first one. -/
theorem exists_between (h : Canonical (r :: rs)) (hc : Covered rs c) :
    ∃ d, r.last < d ∧ d < c ∧ ¬Covered (r :: rs) d := by
  obtain ⟨n, hn⟩ : ∃ n, nextChar? r.last = some n := by
    obtain ⟨t, ht, -⟩ := hc
    obtain ⟨n, hn, -⟩ := before_iff.mpr ((List.pairwise_cons.mp h.apart).1 t ht)
    exact ⟨n, hn⟩
  have hlow : ∀ t ∈ rs, n < t.first := by
    intro t ht
    obtain ⟨m, hm, hlt⟩ := before_iff.mpr ((List.pairwise_cons.mp h.apart).1 t ht)
    rw [hn] at hm
    exact Option.some.inj hm ▸ hlt
  refine ⟨n, lt_of_nextChar? hn, ?_, ?_⟩
  · obtain ⟨t, ht, htc⟩ := hc
    exact (hlow t ht).trans_le (contains_iff.mp htc).1
  · rw [covered_cons]
    rintro (hr | ⟨t, ht, htn⟩)
    · exact not_le.mpr (lt_of_nextChar? hn) hr.2
    · exact not_le.mpr (hlow t ht) (contains_iff.mp htn).1

theorem lt_of_covered (h : Canonical (r :: rs)) (hc : Covered rs c) : r.last < c := by
  obtain ⟨d, hrd, hdc, -⟩ := h.exists_between hc
  exact hrd.trans hdc

theorem first_le_of_covered (h : Canonical (r :: rs)) (hc : Covered (r :: rs) c) :
    r.first ≤ c := by
  rcases covered_cons.mp hc with hr | hrest
  · exact hr.1
  · exact ((List.forall_mem_cons.mp h.proper).1.trans_lt (h.lt_of_covered hrest)).le

theorem covered_first (h : Canonical (r :: rs)) : Covered (r :: rs) r.first :=
  covered_cons.mpr (.inl ⟨le_rfl, (List.forall_mem_cons.mp h.proper).1⟩)

/-- The first range goes as far as all characters from its start on are covered. -/
theorem le_last (h : Canonical (r :: rs)) (hrun : ∀ d, r.first ≤ d → d ≤ c → Covered (r :: rs) d)
    (hc : r.first ≤ c) : c ≤ r.last := by
  rcases covered_cons.mp (hrun c hc le_rfl) with hr | hrest
  · exact hr.2
  · obtain ⟨d, hrd, hdc, hgap⟩ := h.exists_between hrest
    have hfirst : r.first ≤ d := ((List.forall_mem_cons.mp h.proper).1.trans_lt hrd).le
    exact absurd (hrun d hfirst hdc.le) hgap

theorem head_le (hr : Canonical (r :: rs)) (hs : Canonical (s :: ss))
    (h : ∀ c, Covered (r :: rs) c ↔ Covered (s :: ss) c) :
    s.first ≤ r.first ∧ (r.first = s.first → r.last ≤ s.last) := by
  constructor
  · exact hs.first_le_of_covered ((h _).mp hr.covered_first)
  · intro hfirst
    apply hs.le_last
    · intro d hlow hhigh
      exact (h d).mp (covered_cons.mpr (.inl ⟨hfirst.trans_le hlow, hhigh⟩))
    · exact hfirst.symm.trans_le (List.forall_mem_cons.mp hr.proper).1

theorem eq_of_covered_iff (hrs : Canonical rs) (hss : Canonical ss)
    (h : ∀ c, Covered rs c ↔ Covered ss c) : rs = ss := by
  induction rs generalizing ss with
  | nil =>
    cases ss with
    | nil => rfl
    | cons s ss => exact absurd ((h _).mpr hss.covered_first) covered_nil
  | cons r rs ih =>
    cases ss with
    | nil => exact absurd ((h _).mp hrs.covered_first) covered_nil
    | cons s ss =>
      have hrs' := hrs.head_le hss h
      have hsr' := hss.head_le hrs fun c => (h c).symm
      have hfirst : r.first = s.first := le_antisymm hsr'.1 hrs'.1
      have hlast : r.last = s.last := le_antisymm (hrs'.2 hfirst) (hsr'.2 hfirst.symm)
      have hhead : r = s := by
        cases r
        cases s
        exact congrArg₂ CharRange.mk hfirst hlast
      subst hhead
      congr 1
      apply ih hrs.tail hss.tail
      intro c
      constructor
      · intro hc
        have hnot : ¬(r.first ≤ c ∧ c ≤ r.last) := fun hr =>
          not_le.mpr (hrs.lt_of_covered hc) hr.2
        exact (covered_cons.mp ((h c).mp (covered_cons.mpr (.inr hc)))).resolve_left hnot
      · intro hc
        have hnot : ¬(r.first ≤ c ∧ c ≤ r.last) := fun hr =>
          not_le.mpr (hss.lt_of_covered hc) hr.2
        exact (covered_cons.mp ((h c).mpr (covered_cons.mpr (.inr hc)))).resolve_left hnot

end Canonical

theorem canonical_normalize (rs : List CharRange) : Canonical (normalize rs) :=
  normal_iff_canonical.mp (normal_normalize rs)

theorem normalize_congr {rs ss : List CharRange}
    (h : ∀ c, (∃ r ∈ rs, r.Spans c) ↔ ∃ s ∈ ss, s.Spans c) : normalize rs = normalize ss := by
  apply (canonical_normalize rs).eq_of_covered_iff (canonical_normalize ss)
  intro c
  rw [covered_normalize, covered_normalize, h c]

end CharRange

/-! ## Classes -/

namespace CharClass

open CharRange (Canonical Covered Spans)

/-- Adds ranges, each given by its ends in either order, one after the other. -/
def pushRanges (cls : CharClass) (rs : List CharRange) : CharClass :=
  rs.foldl (fun cls r => cls.pushRange r.first r.last) cls

/-- Adding ranges changes nothing else of a class. -/
theorem pushRanges_rest (cls : CharClass) (rs : List CharRange) :
    (cls.pushRanges rs).negated = cls.negated ∧
      (cls.pushRanges rs).categories = cls.categories := by
  induction rs generalizing cls with
  | nil => exact ⟨rfl, rfl⟩
  | cons r rs ih => exact ih (cls.pushRange r.first r.last)

theorem covered_pushRange {cls : CharClass} (h : Canonical cls.ranges) {a b c : Char} :
    Covered (cls.pushRange a b).ranges c ↔ Covered cls.ranges c ∨ Spans ⟨a, b⟩ c := by
  change Covered (CharRange.normalize (cls.ranges ++ [⟨a, b⟩])) c ↔ _
  rw [CharRange.covered_normalize]
  simp only [List.mem_append, List.mem_singleton, or_and_right, exists_or, exists_eq_left]
  apply or_congr_left
  apply exists_congr
  intro r
  apply and_congr_right
  intro hr
  exact CharRange.spans_iff_of_le (h.proper r hr)

theorem canonical_ofRanges (negated : Bool) (rs : List CharRange) (ks : List Category) :
    Canonical (ofRanges negated rs ks).ranges := CharRange.canonical_normalize rs

theorem canonical_pushRange (cls : CharClass) (a b : Char) :
    Canonical (cls.pushRange a b).ranges := CharRange.canonical_normalize _

theorem pushRanges_spec {cls : CharClass} (h : Canonical cls.ranges) (rs : List CharRange) :
    Canonical (cls.pushRanges rs).ranges ∧
      ∀ c, Covered (cls.pushRanges rs).ranges c ↔ Covered cls.ranges c ∨ ∃ r ∈ rs, r.Spans c := by
  induction rs generalizing cls with
  | nil => exact ⟨h, fun c => by simp [pushRanges]⟩
  | cons r rs ih =>
    obtain ⟨hcanonical, hcovered⟩ := ih (canonical_pushRange cls r.first r.last)
    refine ⟨hcanonical, ?_⟩
    intro c
    calc Covered (cls.pushRanges (r :: rs)).ranges c
        ↔ Covered (cls.pushRange r.first r.last).ranges c ∨ ∃ s ∈ rs, s.Spans c := hcovered c
      _ ↔ (Covered cls.ranges c ∨ r.Spans c) ∨ ∃ s ∈ rs, s.Spans c := by
        rw [covered_pushRange h]
      _ ↔ Covered cls.ranges c ∨ ∃ s ∈ r :: rs, s.Spans c := by
        simp only [List.mem_cons, or_and_right, exists_or, exists_eq_left, or_assoc]

/-- Ranges have one normal form.  Those of a class that is made from a list of ranges, and those
left by adding ranges to a class whose own are canonical, are canonical and cover what lies between
the ends of some range given; lists that cover the same have the same normal form. -/
theorem normalize_canonical (negated : Bool) (rs : List CharRange) (ks : List Category)
    {cls : CharClass} (hcls : Canonical cls.ranges) (pushed : List CharRange) :
    (Canonical (ofRanges negated rs ks).ranges ∧
      ∀ c, Covered (ofRanges negated rs ks).ranges c ↔ ∃ r ∈ rs, r.Spans c) ∧
    (Canonical (cls.pushRanges pushed).ranges ∧
      ∀ c, Covered (cls.pushRanges pushed).ranges c ↔
        Covered cls.ranges c ∨ ∃ r ∈ pushed, r.Spans c) ∧
    (∀ negated' ss ks', (∀ c, (∃ r ∈ rs, r.Spans c) ↔ ∃ s ∈ ss, s.Spans c) →
      (ofRanges negated rs ks).ranges = (ofRanges negated' ss ks').ranges) ∧
    ∀ ss, Canonical ss → (∀ c, Covered (cls.pushRanges pushed).ranges c ↔ Covered ss c) →
      (cls.pushRanges pushed).ranges = ss := by
  obtain ⟨hcanonical, hcovered⟩ := pushRanges_spec hcls pushed
  refine ⟨⟨canonical_ofRanges negated rs ks, fun c => CharRange.covered_normalize⟩,
    ⟨hcanonical, hcovered⟩, ?_, ?_⟩
  · intro negated' ss ks' h
    exact CharRange.normalize_congr h
  · intro ss hss h
    exact hcanonical.eq_of_covered_iff hss h

/-- A class with one range that starts right after the surrogates. -/
def gappedClass : CharClass := ⟨false, [⟨'a', 'c'⟩, ⟨'\uE000', '\uE010'⟩], []⟩

theorem canonical_gappedClass : Canonical gappedClass.ranges := by
  refine ⟨by decide, ?_⟩
  simp only [gappedClass, List.pairwise_cons, List.mem_singleton, forall_eq, List.not_mem_nil,
    false_implies, implies_true, List.Pairwise.nil, and_true]
  exact ⟨'d', by decide⟩

/-- A range that ends right before the surrogates, given backwards, joins the one after them. -/
theorem normalize_canonical_gappedClass :
    Canonical gappedClass.ranges ∧
      Canonical (gappedClass.pushRanges [⟨'\uD7FF', '\uD700'⟩]).ranges ∧
      (gappedClass.pushRanges [⟨'\uD7FF', '\uD700'⟩]).ranges =
        [⟨'a', 'c'⟩, ⟨'\uD700', '\uE010'⟩] :=
  ⟨canonical_gappedClass,
    (normalize_canonical false [] [] canonical_gappedClass [⟨'\uD7FF', '\uD700'⟩]).2.1.1,
    by decide⟩

end CharClass

end PatternSampler
