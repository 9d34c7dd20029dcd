import Mathlib.Data.List.DropRight
import Mathlib.Data.List.Induction
import Mathlib.Data.List.TakeWhile
import PatternSampler.Proofs.Pieces
/-!
# Lines of a source

A source is cut in front of a character into whole lines, the part of a line that is in front of the
character, and the rest (`exists_line`).  The place of the character is then read off the cut: its
line is one more than there are line feeds, and its column one more than the part has bytes
(`place_of_eq`); and the line's text is the part and what is left of the line, without the carriage
returns at its end (`lineText_of_eq`).
-/
set_option autoImplicit false

namespace PatternSampler.Text

variable {text earlier line rest : List Char} {offset : Nat}

/-- The text consists of whole lines, each with its line feed. -/
def WholeLines (text : List Char) : Prop := text = [] ∨ ∃ init, text = init ++ ['\n']

/-- A text is cut behind its last line feed. -/
theorem exists_line (text : List Char) :
    ∃ earlier line, text = earlier ++ line ∧ WholeLines earlier ∧ '\n' ∉ line := by
  induction text using List.reverseRecOn with
  | nil => exact ⟨[], [], rfl, .inl rfl, List.not_mem_nil⟩
  | append_singleton text c ih =>
    by_cases hc : c = '\n'
    · subst hc
      exact ⟨text ++ ['\n'], [], (List.append_nil _).symm, .inr ⟨text, rfl⟩, List.not_mem_nil⟩
    · obtain ⟨earlier, line, rfl, hearlier, hline⟩ := ih
      refine ⟨earlier, line ++ [c], List.append_assoc _ _ _, hearlier, ?_⟩
      simpa [Ne.symm hc] using hline

theorem WholeLines.eq_nil_of_not_mem {more : List Char} (h : WholeLines (text ++ more))
    (hmore : '\n' ∉ more) : more = [] := by
  rcases List.eq_nil_or_concat' more with rfl | ⟨init, c, rfl⟩
  · rfl
  rcases h with hnil | ⟨init', hfeed⟩
  · simp at hnil
  · rw [← List.append_assoc] at hfeed
    obtain rfl := List.singleton_inj.mp (List.append_inj_right' hfeed rfl)
    simp at hmore

/-- There is only one cut of a text into whole lines and a part of a line. -/
theorem WholeLines.append_inj {earlier' line' : List Char} (h : WholeLines earlier)
    (h' : WholeLines earlier') (hline : '\n' ∉ line) (hline' : '\n' ∉ line')
    (heq : earlier ++ line = earlier' ++ line') : earlier = earlier' ∧ line = line' := by
  rcases List.append_eq_append_iff.mp heq with ⟨more, rfl, rfl⟩ | ⟨more, rfl, rfl⟩
  · obtain rfl := h'.eq_nil_of_not_mem (fun hmem => hline (List.mem_append_left _ hmem))
    exact ⟨(List.append_nil _).symm, rfl⟩
  · obtain rfl := h.eq_nil_of_not_mem (fun hmem => hline' (List.mem_append_left _ hmem))
    exact ⟨List.append_nil _, rfl⟩

/-! ## Starts of lines -/

theorem lineStartsFrom_append (offset : Nat) (text more : List Char) :
    lineStartsFrom offset (text ++ more) =
      lineStartsFrom offset text ++ lineStartsFrom (offset + byteLength text) more := by
  induction text generalizing offset with
  | nil => rfl
  | cons c cs ih =>
    have hassoc := Nat.add_assoc offset c.utf8Size (byteLength cs)
    simp only [List.cons_append, lineStartsFrom, ih, byteLength_cons, ← hassoc]
    split <;> rfl

theorem lineStartsFrom_of_not_mem (h : '\n' ∉ text) (offset : Nat) :
    lineStartsFrom offset text = [] := by
  induction text generalizing offset with
  | nil => rfl
  | cons c cs ih =>
    obtain ⟨hc, hcs⟩ := not_or.mp (mt List.mem_cons.mpr h)
    rw [lineStartsFrom, if_neg (Ne.symm hc), ih hcs]

theorem length_lineStartsFrom (offset : Nat) (text : List Char) :
    (lineStartsFrom offset text).length = text.count '\n' := by
  induction text generalizing offset with
  | nil => rfl
  | cons c cs ih =>
    rw [lineStartsFrom, List.count_cons]
    split
    · rename_i hc
      simp [hc, ih]
    · rename_i hc
      simp [hc, ih]

theorem bounds_of_mem_lineStartsFrom {a : Nat} (h : a ∈ lineStartsFrom offset text) :
    offset < a ∧ a ≤ offset + byteLength text := by
  induction text generalizing offset with
  | nil => simp [lineStartsFrom] at h
  | cons c cs ih =>
    have hpos := Char.utf8Size_pos c
    rw [lineStartsFrom] at h
    rw [byteLength_cons]
    split at h
    · rcases List.mem_cons.mp h with rfl | h
      · omega
      · have := ih h
        omega
    · have := ih h
      omega

/-- The last start of whole lines is their end. -/
theorem WholeLines.getLast? (h : WholeLines text) :
    (0 :: lineStartsFrom 0 text).getLast? = some (byteLength text) := by
  rcases h with rfl | ⟨init, rfl⟩
  · rfl
  · have hlast : lineStartsFrom (0 + byteLength init) ['\n'] =
        [byteLength (init ++ ['\n'])] := by
      simp [lineStartsFrom]
    rw [lineStartsFrom_append, hlast, ← List.cons_append, List.getLast?_append,
      List.getLast?_singleton, Option.some_or]

/-- Behind a text the next line starts after the first line feed. -/
theorem head?_lineStartsFrom (offset : Nat) (text : List Char) :
    (lineStartsFrom offset text).head? =
      if '\n' ∈ text then some (offset + byteLength (text.takeWhile (· != '\n')) + 1)
      else none := by
  induction text generalizing offset with
  | nil => rfl
  | cons c cs ih =>
    rw [lineStartsFrom]
    by_cases hc : c = '\n'
    · subst hc
      simp only [if_true, List.head?_cons, List.mem_cons_self]
      rfl
    · have htake : (c :: cs).takeWhile (· != '\n') = c :: cs.takeWhile (· != '\n') :=
        List.takeWhile_cons_of_pos (by simpa using hc)
      rw [if_neg hc, ih, htake, byteLength_cons]
      simp only [List.mem_cons, Ne.symm hc, false_or, Nat.add_assoc]

/-! ## Ends of lines -/

theorem trimEnd_eq_rdropWhile (p : Char → Bool) (text : List Char) :
    trimEnd p text = text.rdropWhile p := rfl

theorem trimEnd_of_forall {p : Char → Bool} (h : ∀ c ∈ text, p c = false) :
    trimEnd p text = text := by
  rw [trimEnd_eq_rdropWhile, List.rdropWhile_eq_self_iff]
  intro hne
  simpa using h _ (List.getLast_mem hne)

/-- A line is trimmed of its line feed. -/
theorem trimEnd_lineFeed (h : '\n' ∉ text) :
    trimEnd (· == '\n') text = text ∧ trimEnd (· == '\n') (text ++ ['\n']) = text := by
  have hfree : trimEnd (· == '\n') text = text := by
    apply trimEnd_of_forall
    intro c hc
    rw [beq_eq_false_iff_ne]
    rintro rfl
    exact h hc
  refine ⟨hfree, ?_⟩
  rw [trimEnd_eq_rdropWhile] at hfree ⊢
  rw [List.rdropWhile_concat_pos _ _ _ rfl, hfree]

/-! ## The place of a character -/

section Cut

variable (hearlier : WholeLines earlier) (hline : '\n' ∉ line)

include hline

theorem starts_of_eq (rest : List Char) :
    (LineIndex.ofSource (earlier ++ (line ++ rest))).starts =
      (0 :: lineStartsFrom 0 earlier) ++ lineStartsFrom (byteLength (earlier ++ line)) rest := by
  simp only [LineIndex.ofSource, lineStartsFrom_append, lineStartsFrom_of_not_mem hline,
    List.nil_append, List.cons_append, Nat.zero_add, byteLength_append]

include hearlier

/-- A character is in the line that begins after the last line feed before it. -/
theorem place_of_eq (rest : List Char) :
    (LineIndex.ofSource (earlier ++ (line ++ rest))).place (byteLength (earlier ++ line)) =
      ⟨earlier.count '\n' + 1, byteLength line + 1⟩ := by
  have hbefore : ∀ a ∈ 0 :: lineStartsFrom 0 earlier,
      decide (a ≤ byteLength (earlier ++ line)) = true := by
    intro a ha
    rw [byteLength_append, decide_eq_true_eq]
    rcases List.mem_cons.mp ha with rfl | ha
    · exact Nat.zero_le _
    · have := (bounds_of_mem_lineStartsFrom ha).2
      omega
  have hafter : (lineStartsFrom (byteLength (earlier ++ line)) rest).takeWhile
      (· ≤ byteLength (earlier ++ line)) = [] := by
    cases hstarts : lineStartsFrom (byteLength (earlier ++ line)) rest with
    | nil => rfl
    | cons a starts =>
      have ha : a ∈ lineStartsFrom (byteLength (earlier ++ line)) rest := by
        rw [hstarts]
        exact List.mem_cons_self
      have hlt := (bounds_of_mem_lineStartsFrom ha).1
      rw [List.takeWhile_cons_of_neg (by simpa using hlt)]
  have hlast := hearlier.getLast?
  have hupTo : (LineIndex.ofSource (earlier ++ (line ++ rest))).startsUpTo
      (byteLength (earlier ++ line)) = 0 :: lineStartsFrom 0 earlier := by
    rw [LineIndex.startsUpTo, starts_of_eq hline, List.takeWhile_append_of_pos hbefore, hafter,
      List.append_nil]
  rw [LineIndex.place, hupTo, List.getLastD_eq_getLast?, hlast, List.length_cons,
    length_lineStartsFrom, Option.getD_some, byteLength_append, Nat.add_sub_cancel_left]

/-- The line of a character goes on after it up to the first line feed, if there is one. -/
theorem getElem?_starts_of_eq (rest : List Char) :
    (LineIndex.ofSource (earlier ++ (line ++ rest))).starts[earlier.count '\n']? =
        some (byteLength earlier) ∧
      (LineIndex.ofSource (earlier ++ (line ++ rest))).starts[earlier.count '\n' + 1]? =
        if '\n' ∈ rest then
          some (byteLength (earlier ++ line) + byteLength (rest.takeWhile (· != '\n')) + 1)
        else none := by
  have hlength := length_lineStartsFrom 0 earlier
  have hlast := hearlier.getLast?
  rw [List.getLast?_eq_getElem?, List.length_cons, hlength, Nat.add_sub_cancel] at hlast
  rw [starts_of_eq hline, ← head?_lineStartsFrom, List.head?_eq_getElem?]
  constructor
  · rw [List.getElem?_append_left (by simp [hlength]), hlast]
  · rw [List.getElem?_append_right (by simp [hlength]), List.length_cons, hlength, Nat.sub_self]

/-- The text of a character's line is what stands before the character and from it on up to a line
feed, without the carriage returns at the end. -/
theorem lineText_of_eq (rest : List Char) :
    (LineIndex.ofSource (earlier ++ (line ++ rest))).lineText (earlier ++ (line ++ rest))
        (earlier.count '\n' + 1) =
      trimEnd (· == '\r') (line ++ rest.takeWhile (· != '\n')) := by
  obtain ⟨hstart, hstop⟩ := getElem?_starts_of_eq hearlier hline rest
  by_cases hmem : '\n' ∈ rest
  · obtain ⟨upTo, more, rfl, hupTo⟩ := List.eq_append_cons_of_mem hmem
    have htake : (upTo ++ '\n' :: more).takeWhile (· != '\n') = upTo := by
      rw [List.takeWhile_append_of_pos, List.takeWhile_cons_of_neg (by simp), List.append_nil]
      intro c hc
      rw [bne_iff_ne]
      rintro rfl
      exact hupTo hc
    rw [htake, if_pos hmem] at hstop
    have hslice : slice? (byteLength earlier)
        (byteLength (earlier ++ line) + byteLength upTo + 1)
        (earlier ++ (line ++ (upTo ++ '\n' :: more))) = some (line ++ upTo ++ ['\n']) := by
      refine slice?_eq_some_iff.mpr ⟨earlier, more, by simp, rfl, ?_⟩
      simp only [byteLength_append, byteLength_cons, byteLength_nil, Nat.add_assoc]
      rfl
    simp only [LineIndex.lineText, hstart, hstop, htake, Option.getD_some, hslice]
    rw [(trimEnd_lineFeed (by simp [hline, hupTo])).2]
  · have htake : rest.takeWhile (· != '\n') = rest := by
      apply List.takeWhile_eq_self_iff.mpr
      intro c hc
      rw [bne_iff_ne]
      rintro rfl
      exact hmem hc
    rw [if_neg hmem] at hstop
    have hslice : slice? (byteLength earlier) (byteLength (earlier ++ (line ++ rest)))
        (earlier ++ (line ++ rest)) = some (line ++ rest) :=
      slice?_eq_some_iff.mpr ⟨earlier, [], by simp, rfl, rfl⟩
    simp only [LineIndex.lineText, hstart, hstop, htake, Option.getD_none, Option.getD_some, hslice]
    rw [(trimEnd_lineFeed (by simp [hline, hmem])).1]

end Cut

end PatternSampler.Text
