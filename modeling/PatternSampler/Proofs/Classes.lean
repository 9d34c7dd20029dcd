import Mathlib.Data.Char
import Mathlib.Order.Basic
import PatternSampler.CharClass.Choices
import PatternSampler.Proofs.Language
/-!
# What a class offers are its members

The ranges of a class that is built by adding one range after the other are in normal form.  From
there on, the characters that a class offers to draw from are members of it, whatever set each
category stands for within its bounds.
-/
set_option autoImplicit false

namespace PatternSampler

/-! ## Neighbours -/

theorem lt_of_nextChar? {c n : Char} (h : nextChar? c = some n) : c < n := by
  have hvalid : c.toNat < 0xD800 ∨ 0xDFFF < c.toNat ∧ c.toNat < 0x110000 := c.valid
  have hlt : ∀ d : Char, c.toNat < d.toNat → c < d := fun d hd => hd
  unfold nextChar? at h
  split at h
  · rename_i hc
    obtain rfl := Option.some.inj h
    exact hlt _ (by rw [hc]; decide)
  · split at h
    · simp at h
    · have hnext : (c.toNat + 1).isValidChar := by
        simp only [Nat.isValidChar]
        omega
      rw [Char.ofNat, dif_pos hnext] at h
      obtain rfl := Option.some.inj h
      exact hlt _ (Nat.lt_succ_self c.toNat)

namespace CharRange

/-! ## Normal form -/

/-- One range comes before another, and not right before it. -/
def Before (r s : CharRange) : Prop := ∃ n, nextChar? r.last = some n ∧ n < s.first

/-- Ranges in normal form: none is empty, and each comes before those that follow. -/
structure Normal (rs : List CharRange) : Prop where
  proper : ∀ r ∈ rs, r.first ≤ r.last
  apart : rs.Pairwise Before

theorem Before.lt {r s : CharRange} (h : r.Before s) : r.last < s.first := by
  obtain ⟨n, hn, hlt⟩ := h
  exact (lt_of_nextChar? hn).trans hlt

theorem normal_nil : Normal [] := ⟨by simp, .nil⟩

/-- Ranges in normal form start one after the other. -/
theorem Normal.starts {rs : List CharRange} (h : Normal rs) :
    rs.Pairwise fun r s => r.first ≤ s.first :=
  h.apart.imp_of_mem fun hr _ hbefore => (h.proper _ hr).trans hbefore.lt.le

theorem contains_of_lt_first {r : CharRange} {c : Char} (h : c < r.first) :
    r.contains c = false := by
  simp [contains, not_le.mpr h]

theorem contains_of_last_lt {r : CharRange} {c : Char} (h : r.last < c) : r.contains c = false := by
  simp [contains, not_le.mpr h]

theorem first_le_last_ordered (r : CharRange) : r.ordered.first ≤ r.ordered.last := by
  unfold ordered
  split
  · exact le_of_lt ‹_›
  · exact not_lt.mp ‹_›

/-! ## Sorting -/

theorem first_le_of_le {r s : CharRange} (h : r.le s = true) : r.first ≤ s.first := by
  simp only [le, Bool.or_eq_true, Bool.and_eq_true, decide_eq_true_eq] at h
  rcases h with hlt | ⟨heq, -⟩
  · exact le_of_lt hlt
  · exact le_of_eq heq

theorem first_le_of_not_le {r s : CharRange} (h : ¬r.le s = true) : s.first ≤ r.first := by
  simp only [le, Bool.or_eq_true, decide_eq_true_eq, not_or] at h
  exact not_lt.mp h.1

theorem mem_insert {r s : CharRange} {rs : List CharRange} :
    s ∈ insert r rs ↔ s = r ∨ s ∈ rs := by
  induction rs with
  | nil => simp [insert]
  | cons t rest ih =>
    rw [insert]
    split
    · simp
    · simp only [List.mem_cons, ih]
      exact or_left_comm

theorem mem_sort {r : CharRange} {rs : List CharRange} : r ∈ sort rs ↔ r ∈ rs := by
  induction rs with
  | nil => simp [sort]
  | cons s rest ih =>
    rw [sort, List.foldr_cons, mem_insert, List.mem_cons]
    exact or_congr_right ih

theorem pairwise_insert (r : CharRange) {rs : List CharRange}
    (h : rs.Pairwise (·.first ≤ ·.first)) : (insert r rs).Pairwise (·.first ≤ ·.first) := by
  induction rs with
  | nil => simp [insert]
  | cons s rest ih =>
    obtain ⟨hs, hrest⟩ := List.pairwise_cons.mp h
    rw [insert]
    split
    · have hrs := first_le_of_le ‹_›
      refine List.pairwise_cons.mpr ⟨fun t ht => ?_, h⟩
      rcases List.mem_cons.mp ht with rfl | ht
      · exact hrs
      · exact hrs.trans (hs t ht)
    · have hsr := first_le_of_not_le ‹_›
      refine List.pairwise_cons.mpr ⟨fun t ht => ?_, ih hrest⟩
      rcases mem_insert.mp ht with rfl | ht
      · exact hsr
      · exact hs t ht

theorem pairwise_sort (rs : List CharRange) : (sort rs).Pairwise (·.first ≤ ·.first) := by
  induction rs with
  | nil => simp [sort]
  | cons r rest ih => exact pairwise_insert r ih

/-! ## Joining -/

theorem first_extend (r s : CharRange) : (r.extend s).first = r.first := by
  unfold extend
  split <;> rfl

theorem last_le_extend (r s : CharRange) : r.last ≤ (r.extend s).last := by
  unfold extend
  split
  · exact le_of_lt ‹_›
  · exact le_rfl

theorem before_of_not_reaches {r s : CharRange} (h : ¬r.reaches s = true) : r.Before s := by
  unfold reaches at h
  split at h
  · simp at h
  · rename_i n hn
    simp only [decide_eq_true_eq, not_le] at h
    exact ⟨n, hn, h⟩

/-- Joining sorted ranges leaves none that overlap or touch, and none that starts earlier. -/
theorem normal_joinInto {r : CharRange} {rs : List CharRange} (hr : r.first ≤ r.last)
    (hproper : ∀ s ∈ rs, s.first ≤ s.last) (hsorted : (r :: rs).Pairwise (·.first ≤ ·.first)) :
    Normal (joinInto r rs) ∧ ∀ s ∈ joinInto r rs, r.first ≤ s.first := by
  induction rs generalizing r with
  | nil => exact ⟨⟨by simpa [joinInto] using hr, by simp [joinInto]⟩, by simp [joinInto]⟩
  | cons s rest ih =>
    obtain ⟨hfirst, hrest⟩ := List.pairwise_cons.mp hsorted
    rw [List.forall_mem_cons] at hproper hfirst
    rw [joinInto]
    split
    · have h := @ih (r.extend s) ((first_extend r s).le.trans (hr.trans (last_le_extend r s)))
        hproper.2 (List.pairwise_cons.mpr ⟨by simpa only [first_extend] using hfirst.2,
          (List.pairwise_cons.mp hrest).2⟩)
      rwa [first_extend] at h
    · obtain ⟨n, hn, hlt⟩ := before_of_not_reaches ‹_›
      obtain ⟨hnormal, hlow⟩ := ih hproper.1 hproper.2 hrest
      refine ⟨⟨List.forall_mem_cons.mpr ⟨hr, hnormal.proper⟩,
        List.pairwise_cons.mpr ⟨fun t ht => ⟨n, hn, hlt.trans_le (hlow t ht)⟩, hnormal.apart⟩⟩,
        List.forall_mem_cons.mpr ⟨le_rfl, fun t ht => hfirst.1.trans (hlow t ht)⟩⟩

theorem normal_normalize (rs : List CharRange) : Normal (normalize rs) := by
  have hproper : ∀ r ∈ sort (rs.map ordered), r.first ≤ r.last := by
    intro r hr
    obtain ⟨s, -, rfl⟩ := List.mem_map.mp (mem_sort.mp hr)
    exact first_le_last_ordered s
  have hsorted := pairwise_sort (rs.map ordered)
  rw [normalize]
  cases h : sort (rs.map ordered) with
  | nil => exact normal_nil
  | cons r rest =>
    rw [h] at hproper hsorted
    obtain ⟨hr, hrest⟩ := List.forall_mem_cons.mp hproper
    exact (normal_joinInto hr hrest hsorted).1

/-! ## Ranges that are in normal form -/

theorem Before.first_lt {r s : CharRange} (h : r.Before s) (hr : r.first ≤ r.last) :
    r.first < s.first := hr.trans_lt h.lt

theorem sort_of_normal {rs : List CharRange} (h : Normal rs) : sort rs = rs := by
  induction rs with
  | nil => rfl
  | cons r rest ih =>
    obtain ⟨hproper, hapart⟩ := h
    rw [List.forall_mem_cons] at hproper
    obtain ⟨hbefore, hrest⟩ := List.pairwise_cons.mp hapart
    have hsort : sort rest = rest := ih ⟨hproper.2, hrest⟩
    rw [sort, List.foldr_cons]
    change insert r (sort rest) = r :: rest
    rw [hsort]
    cases rest with
    | nil => rfl
    | cons s rest =>
      have hle : r.le s = true := by
        simp [le, (hbefore s List.mem_cons_self).first_lt hproper.1]
      rw [insert, if_pos hle]

theorem join_of_normal {rs : List CharRange} (h : Normal rs) : join rs = rs := by
  cases rs with
  | nil => rfl
  | cons r rest =>
    rw [join]
    induction rest generalizing r with
    | nil => rfl
    | cons s rest ih =>
      obtain ⟨hproper, hapart⟩ := h
      obtain ⟨hbefore, hrest⟩ := List.pairwise_cons.mp hapart
      obtain ⟨n, hn, hlt⟩ := hbefore s List.mem_cons_self
      have hreaches : r.reaches s = false := by
        simp [reaches, hn, hlt]
      rw [joinInto, hreaches, if_neg Bool.false_ne_true,
        ih s ⟨(List.forall_mem_cons.mp hproper).2, hrest⟩]

/-- Ranges in normal form stay as they are. -/
theorem normalize_of_normal {rs : List CharRange} (h : Normal rs) : normalize rs = rs := by
  have hordered : rs.map ordered = rs.map id :=
    List.map_congr_left fun r hr => if_neg (not_lt.mpr (h.proper r hr))
  rw [List.map_id] at hordered
  rw [normalize, hordered, sort_of_normal h, join_of_normal h]

end CharRange

namespace CharClass

open CharRange (Normal contains_of_lt_first contains_of_last_lt)

/-! ## Witnesses -/

/-- The first gap lies in none of the ranges, which need only start one after the other. -/
theorem not_contains_of_firstGap? {rs : List CharRange} {candidate c : Char}
    (hstarts : rs.Pairwise fun r s => r.first ≤ s.first) (h : firstGap? candidate rs = some c) :
    candidate ≤ c ∧ ∀ r ∈ rs, r.contains c = false := by
  induction rs generalizing candidate with
  | nil => exact ⟨(Option.some.inj h).le, by simp⟩
  | cons r rest ih =>
    obtain ⟨hbefore, hrest⟩ := List.pairwise_cons.mp hstarts
    rw [List.forall_mem_cons]
    rw [firstGap?] at h
    split at h
    · obtain ⟨hle, hothers⟩ := ih hrest h
      exact ⟨hle, contains_of_last_lt (lt_of_lt_of_le ‹_› hle), hothers⟩
    · split at h
      · rename_i hlt
        obtain rfl := Option.some.inj h
        exact ⟨le_rfl, contains_of_lt_first hlt, fun s hs =>
          contains_of_lt_first (hlt.trans_le (hbefore s hs))⟩
      · rename_i hge hle
        split at h
        · simp at h
        · rename_i n hn
          obtain ⟨hle', hothers⟩ := ih hrest h
          have hlt := (lt_of_nextChar? hn).trans_le hle'
          exact ⟨(not_lt.mp hge).trans hlt.le, contains_of_last_lt hlt, hothers⟩

variable {T : Membership} {cls : CharClass} {c : Char}

theorem denotes_of_witness? (hnormal : Normal cls.ranges) (h : cls.witness? = some c) :
    cls.Denotes T c := by
  unfold witness? at h
  split at h
  · simp at h
  · rename_i hnone
    rw [ne_eq, not_not] at hnone
    rw [Denotes, Covers, hnone]
    split at h
    · rename_i hneg
      obtain ⟨-, hgap⟩ := not_contains_of_firstGap? hnormal.starts h
      rw [if_pos hneg]
      rintro (⟨r, hr, hc⟩ | ⟨k, hk, -⟩)
      · simp [hgap r hr] at hc
      · simp at hk
    · rename_i hneg
      obtain ⟨r, hr, rfl⟩ := Option.map_eq_some_iff.mp h
      have hmem := List.mem_of_mem_head? hr
      rw [if_neg hneg]
      exact .inl ⟨r, hmem, by simp [CharRange.contains, hnormal.proper r hmem]⟩

/-! ## Choices -/

/-- A member of a class is one whatever the categories stand for. -/
theorem denotes_of_contains (h : cls.contains c = true) : cls.Denotes T c := by
  simp only [contains] at h
  rw [Denotes]
  split at h
  · rename_i hneg
    simp only [Bool.not_eq_true', Bool.or_eq_false_iff, List.any_eq_false] at h
    rw [if_pos hneg]
    rintro (⟨r, hr, hc⟩ | ⟨k, hk, hc⟩)
    · exact h.1 r hr hc
    · exact h.2 k hk (T.possibly_of hc)
  · rename_i hneg
    simp only [Bool.or_eq_true, List.any_eq_true] at h
    rw [if_neg hneg]
    exact h.imp_right fun ⟨k, hk, hc⟩ => ⟨k, hk, T.of_surely hc⟩

/-- A class offers members only. -/
theorem denotes_of_choices? {alphabet choices : List Char} (hnormal : Normal cls.ranges)
    (h : cls.choices? alphabet = some choices) : ∀ c ∈ choices, cls.Denotes T c := by
  unfold choices? at h
  split at h
  · obtain ⟨d, hd, rfl⟩ := Option.map_eq_some_iff.mp h
    simpa using denotes_of_witness? hnormal hd
  · rename_i heq
    rw [← Option.some.inj h, ← heq]
    exact fun c hc => denotes_of_contains (List.mem_filter.mp hc).2

theorem denotes_notChar {d : Char} : (notChar d).Denotes T c ↔ c ≠ d := by
  have hranges : (notChar d).ranges = [⟨d, d⟩] := by
    simp [notChar, ofRanges, CharRange.normalize, CharRange.ordered, CharRange.sort,
      CharRange.insert, CharRange.join, CharRange.joinInto]
  rw [Denotes, Covers, hranges]
  simp only [notChar, ofRanges, if_true, List.mem_singleton, exists_eq_left, List.not_mem_nil,
    false_and, exists_false, or_false, CharRange.contains, Bool.and_eq_true, decide_eq_true_eq]
  rw [← not_iff_not, not_not, not_not, ← le_antisymm_iff, eq_comm]

/-! ## Normal classes -/

theorem normal_ofRanges (negated : Bool) (rs : List CharRange) (ks : List Category) :
    Normal (ofRanges negated rs ks).ranges := CharRange.normal_normalize rs

theorem normal_pushRange (cls : CharClass) (a b : Char) : Normal (cls.pushRange a b).ranges :=
  CharRange.normal_normalize _

theorem normal_pushCategory (hnormal : Normal cls.ranges) (k : Category) :
    Normal (cls.pushCategory k).ranges := by
  unfold pushCategory
  split <;> exact hnormal

end CharClass

end PatternSampler
