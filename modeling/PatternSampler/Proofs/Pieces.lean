import PatternSampler.Pattern.Span
import PatternSampler.Text.Lines
/-!
# Pieces of a text

A piece of a text is cut out between two bytes that both lie between characters (`IsBoundary`),
the one in front first.  Main statements: `slice?_eq_some_iff` and, for a span,
`Span.exists_slice?_iff`.
-/
set_option autoImplicit false

namespace PatternSampler

namespace Text

/-- One character of the text ends at the byte, or it is the first byte. -/
def IsBoundary (n : Nat) (text : List Char) : Prop :=
  ∃ before after, text = before ++ after ∧ byteLength before = n

variable {start stop : Nat} {text piece : List Char}

theorem isBoundary_of_eq {before after : List Char} (h : text = before ++ after) :
    IsBoundary (byteLength before) text := ⟨before, after, h, rfl⟩

theorem IsBoundary.le {n : Nat} (h : IsBoundary n text) : n ≤ byteLength text := by
  obtain ⟨before, after, rfl, rfl⟩ := h
  rw [byteLength_append]
  exact Nat.le_add_right _ _

theorem slice?_eq_some_iff :
    slice? start stop text = some piece ↔
      ∃ before after, text = before ++ (piece ++ after) ∧ byteLength before = start ∧
        byteLength (before ++ piece) = stop := by
  unfold slice?
  constructor
  · intro h
    split at h
    · split at h
      · simp at h
      · rename_i hle _ before rest hsplit
        obtain ⟨⟨first, after⟩, hrest, rfl⟩ := Option.map_eq_some_iff.mp h
        obtain ⟨rfl, hbefore⟩ := splitAtByte?_eq_some_iff.mp hsplit
        obtain ⟨rfl, hfirst⟩ := splitAtByte?_eq_some_iff.mp hrest
        refine ⟨before, after, rfl, hbefore, ?_⟩
        rw [byteLength_append, hbefore, hfirst, Nat.add_sub_cancel' hle]
    · simp at h
  · rintro ⟨before, after, rfl, rfl, rfl⟩
    rw [byteLength_append, if_pos (Nat.le_add_right _ _), splitAtByte?_append]
    simp only [Nat.add_sub_cancel_left, splitAtByte?_append, Option.map_some]

/-- A text is cut at a byte in one way only. -/
theorem append_inj_of_byteLength {xs ys xs' ys' : List Char} (h : xs ++ ys = xs' ++ ys')
    (hlength : byteLength xs = byteLength xs') : xs = xs' ∧ ys = ys' := by
  have hcut := splitAtByte?_append xs ys
  rw [hlength, h, splitAtByte?_append] at hcut
  exact ⟨(congrArg Prod.fst (Option.some.inj hcut)).symm,
    (congrArg Prod.snd (Option.some.inj hcut)).symm⟩

theorem slice?_subset (h : slice? start stop text = some piece) : piece ⊆ text := by
  obtain ⟨before, after, rfl, -, -⟩ := slice?_eq_some_iff.mp h
  exact fun c hc => List.mem_append_right _ (List.mem_append_left _ hc)

theorem trimEnd_subset (p : Char → Bool) (cs : List Char) : trimEnd p cs ⊆ cs := by
  intro c hc
  exact List.mem_reverse.mp ((List.dropWhile_sublist p).subset (List.mem_reverse.mp hc))

/-- A text is trimmed behind its last character that stays. -/
theorem trimEnd_append_cons {p : Char → Bool} {c : Char} (hc : p c = false) (xs ys : List Char) :
    trimEnd p (xs ++ c :: ys) = xs ++ c :: trimEnd p ys := by
  have hkept : (c :: xs.reverse).dropWhile p = c :: xs.reverse :=
    List.dropWhile_cons_of_neg (by simp [hc])
  simp only [trimEnd, List.reverse_append, List.reverse_cons, List.append_assoc,
    List.singleton_append, List.dropWhile_append, hkept]
  split
  · rename_i hempty
    simp [List.isEmpty_iff.mp hempty]
  · simp

/-- A line of a text has no characters of its own. -/
theorem lineText_subset (index : LineIndex) (text : List Char) (line : Nat) :
    index.lineText text line ⊆ text := by
  cases line with
  | zero => exact List.nil_subset _
  | succ i =>
    rw [LineIndex.lineText]
    split
    · exact List.nil_subset _
    · refine List.Subset.trans (trimEnd_subset _ _) (List.Subset.trans (trimEnd_subset _ _) ?_)
      cases hpiece : slice? _ _ text with
      | none => exact List.nil_subset _
      | some piece => exact slice?_subset hpiece

theorem byteLength_pos (h : text ≠ []) : 0 < byteLength text := by
  obtain ⟨c, cs, rfl⟩ := List.exists_cons_of_ne_nil h
  exact Nat.add_pos_left (Char.utf8Size_pos c) _

theorem length_le_byteLength (text : List Char) : text.length ≤ byteLength text := by
  induction text with
  | nil => exact Nat.le_refl _
  | cons c cs ih =>
    have hpos := Char.utf8Size_pos c
    rw [List.length_cons, byteLength_cons]
    omega

/-- A text has as many bytes as characters if each character is one byte. -/
theorem byteLength_eq_length_iff :
    byteLength text = text.length ↔ ∀ c ∈ text, c.utf8Size = 1 := by
  induction text with
  | nil => simp
  | cons c cs ih =>
    have hpos := Char.utf8Size_pos c
    have hle := length_le_byteLength cs
    rw [List.forall_mem_cons, ← ih, List.length_cons, byteLength_cons]
    omega

end Text

/-- The span is in order and in range, and both its ends lie between characters. -/
structure Span.Cuts (s : Span) (text : List Char) : Prop where
  start_le_stop : s.start ≤ s.stop
  stop_le : s.stop ≤ Text.byteLength text
  start : Text.IsBoundary s.start text
  stop : Text.IsBoundary s.stop text

theorem Span.exists_slice?_iff (s : Span) (text : List Char) :
    (∃ piece, Text.slice? s.start s.stop text = some piece) ↔ s.Cuts text := by
  simp only [Text.slice?_eq_some_iff]
  constructor
  · rintro ⟨piece, before, after, htext, hstart, hstop⟩
    have hpieces : text = (before ++ piece) ++ after := by rw [htext, List.append_assoc]
    have hboundary : Text.IsBoundary s.stop text := hstop ▸ Text.isBoundary_of_eq hpieces
    refine ⟨?_, hboundary.le, hstart ▸ Text.isBoundary_of_eq htext, hboundary⟩
    rw [← hstart, ← hstop, Text.byteLength_append]
    exact Nat.le_add_right _ _
  · rintro ⟨hle, -, ⟨before, after, htext, hstart⟩, before', after', htext', hstop⟩
    -- the cut at the later byte comes after the other, unless there is no byte between them
    have hpiece : ∃ piece, before' = before ++ piece := by
      rcases List.append_eq_append_iff.mp (htext.symm.trans htext') with
        ⟨piece, hpiece, -⟩ | ⟨extra, hextra, -⟩
      · exact ⟨piece, hpiece⟩
      · cases extra with
        | nil => exact ⟨[], by rw [hextra, List.append_nil, List.append_nil]⟩
        | cons c cs =>
          have hpos := Text.byteLength_pos (List.cons_ne_nil c cs)
          rw [hextra, Text.byteLength_append] at hstart
          omega
    obtain ⟨piece, rfl⟩ := hpiece
    exact ⟨piece, before, after', by rw [htext', List.append_assoc], hstart, hstop⟩

end PatternSampler
