import Mathlib.Data.List.Forall2
import PatternSampler.Diagnostic.Terminal
import PatternSampler.Proofs.Pieces
/-!
# Colour

The coloured rendering of a diagnostic is the plain one with escape sequences put in (`Colours`),
none of which breaks a line.  `uncoloured` takes them out again, in the text as a whole and in each
of its lines, as long as the diagnostic brings no escape of its own.
-/
set_option autoImplicit false

namespace PatternSampler.Terminal

/-! ## Escape sequences -/

/-- A text without its escape sequences: each is an escape, a bracket, and what follows up to the
next `m`.  The flag tells whether such a sequence has begun. -/
def uncoloured : Bool → List Char → List Char
  | _, [] => []
  | true, c :: cs => uncoloured (c != 'm') cs
  | false, c :: cs =>
    if c = '\x1b' ∧ cs.head? = some '[' ∧ 'm' ∈ cs then uncoloured true cs
    else c :: uncoloured false cs

/-- The first text is the second one with escape sequences put in, within its lines. -/
inductive Colours : List Char → List Char → Prop where
  | nil : Colours [] []
  | char {c : Char} {xs ys : List Char} (hc : c ≠ '\x1b') (h : Colours xs ys) :
    Colours (c :: xs) (c :: ys)
  | sequence {parameters xs ys : List Char} (hend : 'm' ∉ parameters) (hline : '\n' ∉ parameters)
    (h : Colours xs ys) : Colours ('\x1b' :: '[' :: (parameters ++ 'm' :: xs)) ys

namespace Colours

variable {xs ys xs' ys' : List Char}

theorem uncoloured_parameters {parameters : List Char} (hend : 'm' ∉ parameters)
    (xs : List Char) : uncoloured true (parameters ++ 'm' :: xs) = uncoloured false xs := by
  induction parameters with
  | nil => rfl
  | cons c parameters ih =>
    obtain ⟨hc, hrest⟩ := List.ne_and_not_mem_of_not_mem_cons hend
    have hinside : (c != 'm') = true := bne_iff_ne.mpr hc.symm
    rw [List.cons_append, uncoloured, hinside, ih hrest]

theorem uncoloured_eq (h : Colours xs ys) : uncoloured false xs = ys := by
  induction h with
  | nil => rfl
  | char hc _ ih => rw [uncoloured, if_neg fun hescape => hc hescape.1, ih]
  | sequence hend _ _ ih =>
    have hbracket : ('[' != 'm') = true := rfl
    rw [uncoloured, if_pos ⟨rfl, rfl, by simp⟩, uncoloured, hbracket, uncoloured_parameters hend, ih]

theorem append (h : Colours xs ys) (h' : Colours xs' ys') : Colours (xs ++ xs') (ys ++ ys') := by
  induction h with
  | nil => exact h'
  | char hc _ ih => exact ih.char hc
  | sequence hend hline _ ih =>
    rw [List.cons_append, List.cons_append, List.append_assoc, List.cons_append]
    exact ih.sequence hend hline

/-- A text without an escape stays as it is. -/
theorem refl (h : '\x1b' ∉ xs) : Colours xs xs := by
  induction xs with
  | nil => exact .nil
  | cons c xs ih =>
    obtain ⟨hc, hxs⟩ := List.ne_and_not_mem_of_not_mem_cons h
    exact (ih hxs).char hc.symm

theorem splitOn_append {before : List Char} (h : '\n' ∉ before) (xs : List Char) :
    (before ++ xs).splitOn '\n' = (xs.splitOn '\n').modifyHead (before ++ ·) := by
  induction before with
  | nil =>
    obtain ⟨line, rest, hlines⟩ := List.exists_cons_of_ne_nil (List.splitOn_ne_nil '\n' xs)
    rw [List.nil_append, hlines]
    rfl
  | cons c before ih =>
    obtain ⟨hc, hbefore⟩ := List.ne_and_not_mem_of_not_mem_cons h
    have hbreak : (c == '\n') = false := beq_eq_false_iff_ne.mpr hc.symm
    rw [List.cons_append, List.splitOn_cons_eq_if_modifyHead, hbreak, ih hbefore,
      List.modifyHead_modifyHead]
    rfl

theorem modifyHead {f g : List Char → List Char} {lines lines' : List (List Char)}
    (h : List.Forall₂ Colours lines lines')
    (hhead : ∀ line line', Colours line line' → Colours (f line) (g line')) :
    List.Forall₂ Colours (lines.modifyHead f) (lines'.modifyHead g) := by
  cases h with
  | nil => exact .nil
  | cons hline hlines => exact .cons (hhead _ _ hline) hlines

/-- Each line is coloured on its own. -/
theorem lines (h : Colours xs ys) :
    List.Forall₂ Colours (xs.splitOn '\n') (ys.splitOn '\n') := by
  induction h with
  | nil => exact .cons .nil .nil
  | @char c xs ys hc _ ih =>
    rw [List.splitOn_cons_eq_if_modifyHead, List.splitOn_cons_eq_if_modifyHead]
    split
    · exact .cons .nil ih
    · exact modifyHead ih fun line line' hline => hline.char hc
  | @sequence parameters xs ys hend hline _ ih =>
    have hsequence : '\n' ∉ '\x1b' :: '[' :: (parameters ++ ['m']) := by simp [hline]
    have hlines := splitOn_append hsequence xs
    have hsame : ys.splitOn '\n' = (ys.splitOn '\n').modifyHead id := by
      rw [List.modifyHead_id]
      rfl
    simp only [List.cons_append, List.append_assoc, List.nil_append] at hlines
    rw [hlines, hsame]
    exact modifyHead ih fun line line' hcoloured => hcoloured.sequence hend hline

end Colours

/-! ## Fragments -/

/-- A text without an escape. -/
def EscapeFree (s : String) : Prop := '\x1b' ∉ s.toList

instance (s : String) : Decidable (EscapeFree s) := inferInstanceAs (Decidable ('\x1b' ∉ s.toList))

@[simp]
theorem escapeFree_append {s t : String} : EscapeFree (s ++ t) ↔ EscapeFree s ∧ EscapeFree t := by
  simp [EscapeFree]

theorem escapeFree_ofList {cs : List Char} (h : '\x1b' ∉ cs) : EscapeFree (String.ofList cs) := by
  rwa [EscapeFree, String.toList_ofList]

theorem escapeFree_replicate {c : Char} (hc : '\x1b' ≠ c) (n : Nat) :
    EscapeFree (String.ofList (List.replicate n c)) :=
  escapeFree_ofList fun hmem => hc (List.eq_of_mem_replicate hmem)

theorem escapeFree_decimal (n : Nat) : EscapeFree (Text.decimal n) := by
  refine escapeFree_ofList fun hmem => ?_
  have hdigit := Nat.isDigit_of_mem_toDigits (by decide) (by decide) hmem
  exact absurd hdigit (by decide)

theorem Fragment.colours {f : Fragment} (h : EscapeFree f.text) :
    Colours f.paint.toList f.text.toList := by
  unfold Fragment.paint
  cases f.style with
  | none => exact .refl h
  | some style =>
    have hend : 'm' ∉ style.parameters.toList := by cases style <;> decide
    have hline : '\n' ∉ style.parameters.toList := by cases style <;> decide
    have hreset : Colours "\x1b[0m".toList [] :=
      @Colours.sequence ['0'] [] [] (by decide) (by decide) .nil
    have hpainted := Colours.sequence hend hline ((Colours.refl h).append hreset)
    simpa using hpainted

theorem colours_join {fs : List Fragment} (h : ∀ f ∈ fs, EscapeFree f.text) :
    Colours (join true fs).toList (join false fs).toList := by
  induction fs with
  | nil => exact .nil
  | cons f fs ih =>
    obtain ⟨hf, hfs⟩ := List.forall_mem_cons.mp h
    have hjoin := (Fragment.colours hf).append (ih hfs)
    simpa [join, String.join_cons] using hjoin

/-! ## Diagnostics -/

/-- The diagnostic brings no escape of its own. -/
structure Unescaped (d : Diagnostic) : Prop where
  message : EscapeFree d.message
  labels : ∀ l ∈ d.labels, EscapeFree l.message
  notes : ∀ note ∈ d.notes, EscapeFree note
  suggestion : ∀ suggestion ∈ d.suggestion, EscapeFree suggestion
  code : ∀ code ∈ d.code, EscapeFree code
  source : ∀ source ∈ d.source, EscapeFree source

variable {d : Diagnostic}

theorem escapeFree_headline (h : Unescaped d) : ∀ f ∈ headline d, EscapeFree f.text := by
  simp only [headline, List.forall_mem_append, List.forall_mem_cons, plain, styled]
  refine ⟨⟨?severity, ?code⟩, by decide, h.message, by decide, by simp⟩
  case severity => cases d.severity <;> exact List.forall_mem_singleton.mpr (by decide)
  case code =>
    cases hcode : d.code with
    | none => simp
    | some code =>
      have hbracketed : EscapeFree ("[" ++ code ++ "]") :=
        escapeFree_append.mpr ⟨escapeFree_append.mpr ⟨by decide, h.code code hcode⟩, by decide⟩
      exact List.forall_mem_singleton.mpr hbracketed

theorem escapeFree_excerpt {source : String} {l : Label} (hsource : EscapeFree source)
    (hmessage : EscapeFree l.message) : ∀ f ∈ excerpt source.toList l, EscapeFree f.text := by
  have hblanks : ∀ n, EscapeFree (blanks n) := escapeFree_replicate (by decide)
  have hcarets : ∀ n, EscapeFree (String.ofList (List.replicate n '^')) :=
    escapeFree_replicate (by decide)
  have hline : ∀ index line,
      EscapeFree (String.ofList (Text.LineIndex.lineText index source.toList line)) :=
    fun index line => escapeFree_ofList fun hmem => hsource (Text.lineText_subset _ _ _ hmem)
  have hconstants : ∀ s ∈ ["  ", "-->", " ", ":", "\n", "|"], EscapeFree s := by decide
  simp only [List.forall_mem_cons, List.not_mem_nil, false_imp_iff, implies_true, and_true]
    at hconstants
  simp only [excerpt, List.forall_mem_append, List.forall_mem_cons, plain, styled]
  split <;> simp [hblanks, hcarets, hline, hconstants, hmessage, escapeFree_decimal]

theorem escapeFree_remark {text : String} (h : EscapeFree text) :
    ∀ f ∈ remark text, EscapeFree f.text := by
  have hline : EscapeFree (" " ++ text ++ "\n") :=
    escapeFree_append.mpr ⟨escapeFree_append.mpr ⟨by decide, h⟩, by decide⟩
  simp only [remark, List.forall_mem_cons, plain, styled]
  exact ⟨by decide, by decide, hline, by simp⟩

theorem escapeFree_remarks (h : Unescaped d) : ∀ f ∈ remarks d, EscapeFree f.text := by
  simp only [remarks, List.forall_mem_append, List.forall_mem_flatMap]
  refine ⟨⟨⟨?labels, ?notes⟩, ?suggestion⟩, ?help⟩
  case labels => exact fun l hl => escapeFree_remark (h.labels l (List.mem_filter.mp hl).1)
  case notes =>
    intro note hnote
    exact escapeFree_remark (escapeFree_append.mpr ⟨by decide, h.notes note hnote⟩)
  case suggestion =>
    cases hsome : d.suggestion with
    | none => simp
    | some suggestion =>
      exact escapeFree_remark (escapeFree_append.mpr ⟨by decide, h.suggestion _ hsome⟩)
  case help =>
    cases hsome : d.code with
    | none => simp
    | some code =>
      have hhelp : EscapeFree ("help: run `regexgen --explain " ++ code ++ "` for details") :=
        escapeFree_append.mpr ⟨escapeFree_append.mpr ⟨by decide, h.code code hsome⟩, by decide⟩
      dsimp only
      split
      · exact escapeFree_remark hhelp
      · simp

theorem escapeFree_fragments (h : Unescaped d) : ∀ f ∈ fragments d, EscapeFree f.text := by
  simp only [fragments, List.forall_mem_append]
  refine ⟨⟨escapeFree_headline h, ?excerpt⟩, escapeFree_remarks h⟩
  split
  · rename_i l source hlabel hsource
    exact escapeFree_excerpt (h.source source hsource)
      (h.labels l (List.mem_of_find?_eq_some hlabel))
  · simp

/-- Without its escape sequences the coloured rendering is the plain one, in all and line by
line. -/
theorem uncoloured_render (h : Unescaped d) :
    uncoloured false (render true d).toList = (render false d).toList ∧
      ((render true d).toList.splitOn '\n').map (uncoloured false) =
        (render false d).toList.splitOn '\n' := by
  have hcolours : Colours (render true d).toList (render false d).toList :=
    colours_join (escapeFree_fragments h)
  refine ⟨hcolours.uncoloured_eq, ?_⟩
  have hlines := hcolours.lines.imp fun _ _ hline => hline.uncoloured_eq
  exact List.forall₂_eq_eq_eq ▸ (List.forall₂_map_left_iff.mpr hlines)

/-- A diagnostic with a message of two lines that looks like the end of an escape sequence, and a
label on the second line of its source. -/
def brokenLine : Diagnostic :=
  (((Diagnostic.error "[0m\nm").withCode "RGX-P004").withSpan ⟨4, 5⟩ "here").withSource "(é\n)**"

theorem uncoloured_render_brokenLine :
    Unescaped brokenLine ∧ (render true brokenLine).toList.head? = some '\x1b' ∧
      uncoloured false (render true brokenLine).toList = (render false brokenLine).toList ∧
      ((render true brokenLine).toList.splitOn '\n').map (uncoloured false) =
        (render false brokenLine).toList.splitOn '\n' := by
  have hfree : Unescaped brokenLine :=
    ⟨by decide, by decide, by decide, by decide, by decide, by decide⟩
  have hcoloured : (render true brokenLine).toList.head? = some '\x1b' := by
    simp [render, join, fragments, headline, brokenLine, Diagnostic.error, Diagnostic.withCode,
      Diagnostic.withSpan, Diagnostic.withLabel, Diagnostic.withSource, styled, Fragment.paint]
  exact ⟨hfree, hcoloured, uncoloured_render hfree⟩

end PatternSampler.Terminal
