import Mathlib.Data.List.Forall2
import PatternSampler.Program.Listing
import PatternSampler.Proofs.Pieces
import PatternSampler.Proofs.Safety
/-!
# What a display tells

The notation in which a class is displayed has no delimiters between its ranges and categories, yet
it can be read in one way only: `CharClass.readShown` takes a character back from its notation,
whatever follows, and a dash, the escape of a category and the closing bracket are no character's
notation.  So no two classes have the same display, nor the same line in a listing.
-/
set_option autoImplicit false

namespace PatternSampler

/-! ## Texts in a row -/

namespace Text

/-- Two texts up to the first separator are the same if the whole is. -/
theorem eq_of_append_cons {sep : Char} {xs ys s t : List Char} (hxs : sep ∉ xs) (hys : sep ∉ ys)
    (h : xs ++ sep :: s = ys ++ sep :: t) : xs = ys ∧ s = t := by
  induction xs generalizing ys with
  | nil =>
    cases ys with
    | nil => exact ⟨rfl, (List.cons.inj h).2⟩
    | cons y ys =>
      obtain ⟨rfl, -⟩ := List.cons.inj h
      exact absurd List.mem_cons_self hys
  | cons x xs ih =>
    cases ys with
    | nil =>
      obtain ⟨rfl, -⟩ := List.cons.inj h
      exact absurd List.mem_cons_self hxs
    | cons y ys =>
      obtain ⟨rfl, hrest⟩ := List.cons.inj h
      obtain ⟨rfl, hst⟩ := ih (List.not_mem_of_not_mem_cons hxs) (List.not_mem_of_not_mem_cons hys)
        hrest
      exact ⟨rfl, hst⟩

/-- A text of whole lines tells the lines. -/
theorem eq_of_flatMap_lines {ls ls' : List (List Char)} (hls : ∀ l ∈ ls, '\n' ∉ l)
    (hls' : ∀ l ∈ ls', '\n' ∉ l) (h : ls.flatMap (· ++ ['\n']) = ls'.flatMap (· ++ ['\n'])) :
    ls = ls' := by
  induction ls generalizing ls' with
  | nil =>
    cases ls' with
    | nil => rfl
    | cons l' ls' => simp at h
  | cons l ls ih =>
    cases ls' with
    | nil => simp at h
    | cons l' ls' =>
      obtain ⟨hl, hrest⟩ := List.forall_mem_cons.mp hls
      obtain ⟨hl', hrest'⟩ := List.forall_mem_cons.mp hls'
      simp only [List.flatMap_cons, List.append_assoc, List.singleton_append] at h
      obtain ⟨hline, hlines⟩ := eq_of_append_cons hl hl' h
      rw [hline, ih hrest hrest' hlines]

/-- Words in a row can be told apart if each can from what follows it, and if what follows the
last one does not start with a word. -/
theorem flatMap_append_inj {α : Type} {w : α → List Char} {P : List Char → Prop}
    (hword : ∀ a b xs ys, P xs → P ys → w a ++ xs = w b ++ ys → a = b ∧ xs = ys)
    (hfollows : ∀ a xs, P (w a ++ xs)) {as bs : List α} {xs ys : List Char}
    (hxs : P xs) (hys : P ys) (hxs' : ∀ a zs, w a ++ zs ≠ xs)
    (hys' : ∀ a zs, w a ++ zs ≠ ys) (h : as.flatMap w ++ xs = bs.flatMap w ++ ys) :
    as = bs ∧ xs = ys := by
  have hrow : ∀ (as : List α) {xs : List Char}, P xs → P (as.flatMap w ++ xs) := by
    intro as xs hxs
    cases as with
    | nil => exact hxs
    | cons a as =>
      rw [List.flatMap_cons, List.append_assoc]
      exact hfollows a _
  induction as generalizing bs with
  | nil =>
    cases bs with
    | nil => exact ⟨rfl, h⟩
    | cons b bs =>
      rw [List.flatMap_cons, List.append_assoc] at h
      exact absurd h.symm (hxs' b _)
  | cons a as ih =>
    cases bs with
    | nil =>
      rw [List.flatMap_cons, List.append_assoc] at h
      exact absurd h (hys' a _)
    | cons b bs =>
      simp only [List.flatMap_cons, List.append_assoc] at h
      obtain ⟨rfl, hrest⟩ := hword a b _ _ (hrow as hxs) (hrow bs hys) h
      obtain ⟨rfl, htail⟩ := ih hrest
      exact ⟨rfl, htail⟩

/-! ## Numerals -/

theorem ofHexDigits_append_singleton (cs : List Char) (c : Char) :
    ofHexDigits (cs ++ [c]) = 16 * ofHexDigits cs + (hexDigit? c).getD 0 := by
  rw [ofHexDigits, List.foldl_append]
  rfl

theorem hexDigit?_toUpper_digitChar {d : Nat} (hd : d < 16) :
    hexDigit? d.digitChar.toUpper = some d := by
  revert d
  decide

theorem ofHexDigits_toDigits (n : Nat) :
    ofHexDigits ((Nat.toDigits 16 n).map Char.toUpper) = n := by
  induction n using Nat.strongRecOn with
  | ind n ih =>
    rw [Nat.toDigits_eq_if (by decide)]
    split
    · rename_i hlt
      simp [ofHexDigits, hexDigit?_toUpper_digitChar hlt]
    · have hlast := @hexDigit?_toUpper_digitChar (n % 16) (by omega)
      rw [List.map_append, List.map_singleton, ofHexDigits_append_singleton, ih (n / 16) (by omega),
        hlast, Option.getD_some]
      omega

theorem ofHexDigits_replicate_append (k : Nat) (cs : List Char) :
    ofHexDigits (List.replicate k '0' ++ cs) = ofHexDigits cs := by
  induction k with
  | zero => rfl
  | succ k ih =>
    rw [List.replicate_succ, List.cons_append, ← ih]
    rfl

theorem exists_digit_of_mem_toDigits {n : Nat} {c : Char} (h : c ∈ Nat.toDigits 16 n) :
    ∃ d < 16, c = d.digitChar := by
  induction n using Nat.strongRecOn with
  | ind n ih =>
    rw [Nat.toDigits_eq_if (by decide)] at h
    split at h
    · exact ⟨n, ‹_›, List.mem_singleton.mp h⟩
    · rcases List.mem_append.mp h with hinit | hlast
      · exact ih (n / 16) (by omega) hinit
      · exact ⟨n % 16, by omega, List.mem_singleton.mp hlast⟩

/-- Filling up with zeros does not change the number. -/
theorem ofHexDigits_hexUpper4 (n : Nat) : ofHexDigits (hexUpper4 n).toList = n := by
  have hzero : Char.toUpper '0' = '0' := by decide
  simp only [hexUpper4, padded, String.toList_ofList, List.map_append, List.map_replicate, hzero]
  rw [ofHexDigits_replicate_append, ofHexDigits_toDigits]

theorem isHexDigit_of_mem_hexUpper4 {n : Nat} {c : Char} (h : c ∈ (hexUpper4 n).toList) :
    isHexDigit c = true := by
  simp only [hexUpper4, padded, String.toList_ofList, List.mem_map, List.mem_append] at h
  obtain ⟨c', hzero | hdigit, rfl⟩ := h
  · rw [List.eq_of_mem_replicate hzero]
    decide
  · obtain ⟨d, hd, rfl⟩ := exists_digit_of_mem_toDigits hdigit
    rw [isHexDigit, hexDigit?_toUpper_digitChar hd]
    rfl

end Text

namespace CharClass

/-! ## Characters -/

/-- The character that a letter or a mark stands for after a backslash. -/
def escaped? (e : Char) : Option Char :=
  if e = '\\' ∨ e = ']' ∨ e = '[' ∨ e = '^' ∨ e = '-' then some e
  else if e = 'n' then some '\n'
  else if e = 'r' then some '\r'
  else if e = 't' then some '\t'
  else none

/-- The character that a notation stands for, its backslash already taken, and the text after
it. -/
def readEscaped : List Char → Option (Char × List Char)
  | 'u' :: '\x7b' :: cs =>
    let digits := cs.takeWhile (· != '\x7d')
    (Text.scalar? (Text.ofHexDigits digits)).map fun c => (c, cs.drop (digits.length + 1))
  | e :: cs => (escaped? e).map fun c => (c, cs)
  | [] => none

/-- The character whose notation the text starts with, and the text after it; none where a dash, a
caret, a bracket or the escape of a category stands. -/
def readShown : List Char → Option (Char × List Char)
  | [] => none
  | c :: cs =>
    if c = '\\' then readEscaped cs
    else if c = ']' ∨ c = '[' ∨ c = '^' ∨ c = '-' then none
    else some (c, cs)

/-- A character is shown after a backslash, by its code point, or as it is. -/
theorem displayChar_cases (c : Char) :
    (∃ e, e ≠ 'u' ∧ escaped? e = some c ∧ displayChar c = ['\\', e]) ∨
    displayChar c =
      ['\\', 'u', '\x7b'] ++ (Text.hexUpper4 c.toNat).toList ++ ['\x7d'] ∨
    (¬(c = '\\' ∨ c = ']' ∨ c = '[' ∨ c = '^' ∨ c = '-') ∧ c ≠ '\n' ∧ displayChar c = [c]) := by
  by_cases hmark : c = '\\' ∨ c = ']' ∨ c = '[' ∨ c = '^' ∨ c = '-'
  · refine .inl ⟨c, ?_, by rw [escaped?, if_pos hmark], by rw [displayChar, if_pos hmark]⟩
    rintro rfl
    revert hmark
    decide
  · by_cases hbreak : c = '\n' ∨ c = '\r' ∨ c = '\t'
    · rcases hbreak with rfl | rfl | rfl <;> exact .inl ⟨_, by decide, rfl, rfl⟩
    · simp only [not_or] at hbreak
      by_cases hcode : c.toNat < 0x20 ∨ 0x7E < c.toNat
      · exact .inr (.inl (by simp only [displayChar, hmark, hbreak, hcode, if_true, if_false]))
      · refine .inr (.inr ⟨hmark, hbreak.1, ?_⟩)
        simp only [displayChar, hmark, hbreak, hcode, if_false]

/-- A character is read back from its notation, whatever follows. -/
theorem readShown_displayChar (c : Char) (rest : List Char) :
    readShown (displayChar c ++ rest) = some (c, rest) := by
  rcases displayChar_cases c with ⟨e, hu, he, heq⟩ | heq | ⟨hplain, -, heq⟩
  · simp [heq, readShown, readEscaped, hu, he]
  · have hdigits : ∀ d ∈ (Text.hexUpper4 c.toNat).toList, (d != '\x7d') = true := by
      intro d hd
      have hhex := Text.isHexDigit_of_mem_hexUpper4 hd
      rw [bne_iff_ne]
      rintro rfl
      revert hhex
      decide
    have hwhile : ((Text.hexUpper4 c.toNat).toList ++ '\x7d' :: rest).takeWhile (· != '\x7d') =
        (Text.hexUpper4 c.toNat).toList := by
      rw [List.takeWhile_append_of_pos hdigits]
      simp
    rw [heq]
    simp only [List.cons_append, List.nil_append, List.append_assoc, readShown,
      readEscaped, if_true, hwhile, Text.ofHexDigits_hexUpper4, Text.scalar?_toNat, Option.map_some]
    simp
  · obtain ⟨hslash, hmark⟩ := not_or.mp hplain
    rw [heq, List.singleton_append, readShown, if_neg hslash, if_neg hmark]

theorem displayChar_append_inj {c d : Char} {xs ys : List Char}
    (h : displayChar c ++ xs = displayChar d ++ ys) : c = d ∧ xs = ys := by
  have hread := readShown_displayChar c xs
  rw [h, readShown_displayChar] at hread
  obtain ⟨hchar, hrest⟩ := Prod.mk.inj (Option.some.inj hread)
  exact ⟨hchar.symm, hrest.symm⟩

theorem displayChar_append_ne {c : Char} {xs ys : List Char} (h : readShown ys = none) :
    displayChar c ++ xs ≠ ys := by
  rintro rfl
  rw [readShown_displayChar] at h
  simp at h

/-! ## Ranges and categories -/

theorem exists_displayRange_eq (r : CharRange) :
    ∃ last, displayRange r = displayChar r.first ++ last := by
  unfold displayRange
  split
  · exact ⟨[], (List.append_nil _).symm⟩
  · exact ⟨_, rfl⟩

theorem displayRange_append_ne {r : CharRange} {xs ys : List Char} (h : readShown ys = none) :
    displayRange r ++ xs ≠ ys := by
  obtain ⟨last, hlast⟩ := exists_displayRange_eq r
  rw [hlast, List.append_assoc]
  exact displayChar_append_ne h

theorem readShown_dash (xs : List Char) : readShown ('-' :: xs) = none := by
  simp [readShown]

/-- A range is told from what follows it unless that starts with a dash. -/
theorem displayRange_append_inj (r s : CharRange) (xs ys : List Char)
    (hxs : xs.head? ≠ some '-') (hys : ys.head? ≠ some '-')
    (h : displayRange r ++ xs = displayRange s ++ ys) : r = s ∧ xs = ys := by
  obtain ⟨first, last⟩ := r
  obtain ⟨first', last'⟩ := s
  unfold displayRange at h
  split at h <;> split at h <;>
    simp only [List.append_assoc, List.cons_append] at h <;>
    obtain ⟨rfl, hrest⟩ := displayChar_append_inj h
  · rename_i hlast hlast'
    obtain rfl : first = last := hlast
    obtain rfl : first = last' := hlast'
    exact ⟨rfl, hrest⟩
  · exact absurd (congrArg List.head? hrest) hxs
  · exact absurd (congrArg List.head? hrest).symm hys
  · obtain ⟨rfl, hafter⟩ := displayChar_append_inj (List.cons.inj hrest).2
    exact ⟨rfl, hafter⟩

theorem head?_displayRange_append (r : CharRange) (xs : List Char) :
    (displayRange r ++ xs).head? ≠ some '-' := by
  intro hdash
  obtain ⟨zs, hzs⟩ := List.head?_eq_some_iff.mp hdash
  exact displayRange_append_ne (readShown_dash zs) hzs

theorem spelling_append_inj (k l : Category) (xs ys : List Char)
    (h : k.spelling.toList ++ xs = l.spelling.toList ++ ys) : k = l ∧ xs = ys := by
  cases k <;> cases l <;> simp_all [Category.spelling]

theorem readShown_spelling (k : Category) (xs : List Char) :
    readShown (k.spelling.toList ++ xs) = none := by
  cases k <;> simp [Category.spelling, readShown, readEscaped, escaped?]

/-! ## Classes -/

/-- What stands after the ranges of a class. -/
def displayEnd (categories : List Category) (rest : List Char) : List Char :=
  categories.flatMap (·.spelling.toList) ++ ']' :: rest

theorem readShown_displayEnd (categories : List Category) (rest : List Char) :
    readShown (displayEnd categories rest) = none := by
  cases categories with
  | nil => simp [displayEnd, readShown]
  | cons k categories =>
    rw [displayEnd, List.flatMap_cons, List.append_assoc]
    exact readShown_spelling k _

theorem displayEnd_inj {categories categories' : List Category} {rest rest' : List Char}
    (h : displayEnd categories rest = displayEnd categories' rest') :
    categories = categories' ∧ rest = rest' := by
  have hend : ∀ (k : Category) (zs rest : List Char), k.spelling.toList ++ zs ≠ ']' :: rest := by
    intro k zs rest
    cases k <;> simp [Category.spelling]
  obtain ⟨hcategories, hrest⟩ := Text.flatMap_append_inj (P := fun _ => True)
    (fun k l xs ys _ _ => spelling_append_inj k l xs ys) (fun _ _ => trivial) trivial trivial
    (fun k zs => hend k zs rest) (fun k zs => hend k zs rest') h
  exact ⟨hcategories, (List.cons.inj hrest).2⟩

/-- What stands after the bracket, and after the caret of a negated class. -/
def displayBody (cls : CharClass) (rest : List Char) : List Char :=
  cls.ranges.flatMap displayRange ++ displayEnd cls.categories rest

theorem toList_display_append (cls : CharClass) (rest : List Char) :
    cls.display.toList ++ rest =
      '[' :: ((if cls.negated then ['^'] else []) ++ displayBody cls rest) := by
  cases hnegated : cls.negated <;> simp [display, displayBody, displayEnd, hnegated]

theorem displayBody_inj {cls cls' : CharClass} {rest rest' : List Char}
    (h : displayBody cls rest = displayBody cls' rest') :
    cls.ranges = cls'.ranges ∧ cls.categories = cls'.categories ∧ rest = rest' := by
  have hdash : ∀ categories rest, (displayEnd categories rest).head? ≠ some '-' := by
    intro categories rest
    cases categories with
    | nil => simp [displayEnd]
    | cons k categories => cases k <;> simp [displayEnd, Category.spelling]
  have hend : ∀ categories rest r zs, displayRange r ++ zs ≠ displayEnd categories rest :=
    fun categories rest r zs => displayRange_append_ne (readShown_displayEnd categories rest)
  obtain ⟨hranges, hrest⟩ := Text.flatMap_append_inj (P := fun xs => xs.head? ≠ some '-')
    displayRange_append_inj head?_displayRange_append (hdash _ _) (hdash _ _) (hend _ _)
    (hend _ _) h
  exact ⟨hranges, displayEnd_inj hrest⟩

/-- A caret after the bracket negates the class: no range starts with one. -/
theorem displayBody_ne_caret (cls : CharClass) (rest zs : List Char) :
    displayBody cls rest ≠ '^' :: zs := by
  have hcaret : readShown ('^' :: zs) = none := by simp [readShown]
  unfold displayBody
  cases cls.ranges with
  | nil =>
    cases cls.categories with
    | nil => simp [displayEnd]
    | cons k categories => cases k <;> simp [displayEnd, Category.spelling]
  | cons r ranges =>
    rw [List.flatMap_cons, List.append_assoc]
    exact displayRange_append_ne hcaret

/-- A class can be told from its display, and its display from what follows it. -/
theorem display_append_inj {cls cls' : CharClass} {rest rest' : List Char}
    (h : cls.display.toList ++ rest = cls'.display.toList ++ rest') :
    cls = cls' ∧ rest = rest' := by
  obtain ⟨negated, ranges, categories⟩ := cls
  obtain ⟨negated', ranges', categories'⟩ := cls'
  rw [toList_display_append, toList_display_append] at h
  have hbody := (List.cons.inj h).2
  cases negated <;> cases negated' <;>
    simp only [if_true, if_false, Bool.false_eq_true, List.nil_append, List.singleton_append]
      at hbody
  case false.true => exact absurd hbody (displayBody_ne_caret _ _ _)
  case true.false => exact absurd hbody.symm (displayBody_ne_caret _ _ _)
  case false.false =>
    obtain ⟨rfl, rfl, hrest⟩ := displayBody_inj hbody
    exact ⟨rfl, hrest⟩
  case true.true =>
    obtain ⟨rfl, rfl, hrest⟩ := displayBody_inj (List.cons.inj hbody).2
    exact ⟨rfl, hrest⟩

end CharClass

/-! ## Listings -/

namespace Text

theorem isDigit_of_mem_padded {width n : Nat} {c : Char} (h : c ∈ (padded 10 width n).toList) :
    c.isDigit = true := by
  simp only [padded, String.toList_ofList, List.mem_append] at h
  rcases h with hzero | hdigit
  · rw [List.eq_of_mem_replicate hzero]
    decide
  · exact Nat.isDigit_of_mem_toDigits (by decide) (by decide) hdigit

end Text

/-- An instruction for a class, and the class of the table that it names. -/
def Code.ShowsClass (code : Code) (i : Instruction) (cls : CharClass) : Prop :=
  (∃ r, i.opcode = .chars .set r) ∧ code.class? (i.operand 0) = some cls

namespace Code

variable {code code' : Code} {i j : Instruction} {cls cls' : CharClass}

theorem ShowsClass.detail_eq (h : code.ShowsClass i cls) :
    ∃ tail, (code.detail i).toList = "Set = ".toList ++ (cls.display.toList ++ tail) := by
  obtain ⟨⟨r, hop⟩, hcls⟩ := h
  cases r with
  | single => exact ⟨[], by simp [detail, hop, hcls, charsDetail]⟩
  | _ =>
    refine ⟨(", Rep = " ++ countText (i.operand 1)).toList, ?_⟩
    simp [detail, hop, hcls, charsDetail]

/-- The line of an instruction for a class: the columns in front of the display are of fixed
width, the offset apart. -/
theorem ShowsClass.describe_eq (h : code.ShowsClass i cls) :
    ∃ columns tail, columns.length = 26 ∧ (code.describe i).toList =
      (Text.padded 10 4 i.offset).toList ++ ' ' :: (columns ++ (cls.display.toList ++ tail)) := by
  obtain ⟨tail, htail⟩ := h.detail_eq
  obtain ⟨⟨r, hop⟩, -⟩ := h
  have hname : (Text.leftAligned 16 i.opcode.name).toList.length = 16 := by
    rw [hop]
    cases r <;> decide
  obtain ⟨init, hinit⟩ : ∃ init, cls.display.toList = init ++ [']'] :=
    ⟨_, String.toList_ofList⟩
  let direction := if i.modifiers.rtl then "<" else " "
  let ci := if i.modifiers.ci then "ci " else "   "
  let columns := direction.toList ++ (ci.toList ++
    ((Text.leftAligned 16 i.opcode.name).toList ++ "Set = ".toList))
  have hdirection : direction.toList.length = 1 := by
    cases hrtl : i.modifiers.rtl <;> simp [direction, hrtl]
  have hci : ci.toList.length = 3 := by
    cases hflag : i.modifiers.ci <;> simp [ci, hflag]
  have hcolumns : columns.length = 26 := by
    simp only [columns, List.length_append, hdirection, hci, hname]
    rfl
  have hline : (Text.padded 10 4 i.offset ++ " " ++ direction ++ ci
      ++ Text.leftAligned 16 i.opcode.name ++ code.detail i).toList =
      ((Text.padded 10 4 i.offset).toList ++ ' ' :: (columns ++ init)) ++ ']' :: tail := by
    simp [columns, htail, hinit]
  have hblank : Unicode.isBlank ']' = false := by decide
  refine ⟨columns, Text.trimEnd Unicode.isBlank tail, hcolumns, ?_⟩
  rw [describe, String.toList_ofList, hline, Text.trimEnd_append_cons hblank, hinit]
  simp

/-- What a listing shows of a class tells the class. -/
theorem ShowsClass.eq_of_detail (h : code.ShowsClass i cls) (h' : code'.ShowsClass j cls')
    (heq : code.detail i = code'.detail j) : cls = cls' := by
  obtain ⟨tail, htail⟩ := h.detail_eq
  obtain ⟨tail', htail'⟩ := h'.detail_eq
  rw [heq, htail'] at htail
  exact (CharClass.display_append_inj (List.append_cancel_left htail)).1.symm

theorem ShowsClass.eq_of_describe (h : code.ShowsClass i cls) (h' : code'.ShowsClass j cls')
    (heq : code.describe i = code'.describe j) : cls = cls' := by
  obtain ⟨columns, tail, hlength, hline⟩ := h.describe_eq
  obtain ⟨columns', tail', hlength', hline'⟩ := h'.describe_eq
  have hoffset : ∀ n, ' ' ∉ (Text.padded 10 4 n).toList := fun n hmem =>
    absurd (Text.isDigit_of_mem_padded hmem) (by decide)
  rw [heq, hline'] at hline
  have hrest := (Text.eq_of_append_cons (hoffset _) (hoffset _) hline).2
  have hshown := (List.append_inj hrest (hlength'.trans hlength.symm)).2
  exact (CharClass.display_append_inj hshown).1.symm

end Code

/-! ## Lines -/

namespace Text

theorem break_not_mem_decimal (n : Nat) : '\n' ∉ (decimal n).toList := by
  intro hmem
  rw [decimal, String.toList_ofList] at hmem
  have hdigit := Nat.isDigit_of_mem_toDigits (by decide) (by decide) hmem
  exact absurd hdigit (by decide)

theorem break_not_mem_signed (n : Int) : '\n' ∉ (signed n).toList := by
  cases n with
  | ofNat n => exact break_not_mem_decimal n
  | negSucc n => simp [signed, break_not_mem_decimal]

theorem break_not_mem_hex (n : Nat) : '\n' ∉ (hex n).toList := by
  intro hmem
  rw [hex, String.toList_ofList] at hmem
  obtain ⟨d, hd, heq⟩ := exists_digit_of_mem_toDigits hmem
  have hdigits : ∀ d < 16, '\n' ≠ d.digitChar := by decide
  exact hdigits d hd heq

theorem break_not_mem_quotedChar (quote c : Char) : '\n' ∉ (quotedChar quote c).toList := by
  unfold quotedChar
  by_cases hbreak : c = '\n'
  · simp [hbreak]
  · have hc : '\n' ≠ c := fun h => hbreak h.symm
    repeat' split
    all_goals simp [hc, break_not_mem_hex]

theorem break_not_mem_quote (text : String) : '\n' ∉ (quote text).toList := by
  simp [quote, String.toList_join, break_not_mem_quotedChar]

end Text

theorem break_not_mem_countText (n : Int32) : '\n' ∉ (countText n).toList := by
  unfold countText
  split
  · decide
  · exact Text.break_not_mem_signed _

theorem Opcode.break_not_mem_name (op : Opcode) : '\n' ∉ op.name.toList := by
  cases op with
  | chars matter r => cases matter <;> cases r <;> decide
  | _ => decide

theorem CharClass.break_not_mem_displayChar (c : Char) : '\n' ∉ displayChar c := by
  rcases displayChar_cases c with ⟨e, -, he, heq⟩ | heq | ⟨-, hc, heq⟩
  · have hbreak : '\n' ≠ e := by
      rintro rfl
      simp [escaped?] at he
    simp [heq, hbreak]
  · have hdigits : '\n' ∉ (Text.hexUpper4 c.toNat).toList := fun hmem =>
      absurd (Text.isHexDigit_of_mem_hexUpper4 hmem) (by decide)
    simp [heq, hdigits]
  · simp [heq, hc.symm]

theorem CharClass.break_not_mem_display (cls : CharClass) : '\n' ∉ cls.display.toList := by
  have hrange : ∀ r, '\n' ∉ displayRange r := by
    intro r
    unfold displayRange
    split <;> simp [break_not_mem_displayChar]
  have hcategory : ∀ k : Category, '\n' ∉ k.spelling.toList := by
    intro k
    cases k <;> decide
  have hopen : '\n' ∉ (if cls.negated then ['[', '^'] else ['[']) := by
    cases cls.negated <;> decide
  simp [display, hrange, hcategory, hopen]

theorem Code.break_not_mem_detail (code : Code) (i : Instruction) :
    '\n' ∉ (code.detail i).toList := by
  have hchars : ∀ label what r, '\n' ∉ label.toList → '\n' ∉ what.toList →
      '\n' ∉ (charsDetail label what i r).toList := by
    intro label what r hlabel hwhat
    cases r <;> simp [charsDetail, hlabel, hwhat, break_not_mem_countText]
  unfold detail
  split
  · refine hchars _ _ _ (by decide) ?_
    cases code.class? (i.operand 0) with
    | none => decide
    | some cls => exact cls.break_not_mem_display
  · refine hchars _ _ _ (by decide) ?_
    cases i.char? with
    | none => decide
    | some c => simp [Text.quoteChar, Text.break_not_mem_quotedChar]
  all_goals
    simp [Text.break_not_mem_quote, Text.break_not_mem_signed, break_not_mem_countText]

theorem Code.break_not_mem_describe (code : Code) (i : Instruction) :
    '\n' ∉ (code.describe i).toList := by
  have hoffset : '\n' ∉ (Text.padded 10 4 i.offset).toList := fun hmem =>
    absurd (Text.isDigit_of_mem_padded hmem) (by decide)
  have hname : '\n' ∉ (Text.leftAligned 16 i.opcode.name).toList := by
    simp [Text.leftAligned, i.opcode.break_not_mem_name]
  rw [describe, String.toList_ofList]
  refine fun hmem => ?_
  have hline := Text.trimEnd_subset _ _ hmem
  revert hline
  cases i.modifiers.rtl <;> cases i.modifiers.ci <;>
    simp [hoffset, hname, code.break_not_mem_detail]

namespace Program

variable {p q : Program}

theorem toList_listing (p : Program) :
    p.listing.toList =
      (p.instructions.map fun i => (p.code.describe i).toList).flatMap (· ++ ['\n']) := by
  simp [listing, String.toList_join, List.flatMap_map]

/-- A listing tells the lines it is made of. -/
theorem forall_describe_eq_of_listing (h : p.listing = q.listing) :
    List.Forall₂ (fun i j => p.code.describe i = q.code.describe j)
      p.instructions q.instructions := by
  have hbreak : ∀ (p : Program), ∀ l ∈ p.instructions.map fun i => (p.code.describe i).toList,
      '\n' ∉ l := by
    intro p
    rw [List.forall_mem_map]
    exact fun i _ => p.code.break_not_mem_describe i
  have hlines := congrArg String.toList h
  rw [toList_listing, toList_listing] at hlines
  have hmap := Text.eq_of_flatMap_lines (hbreak p) (hbreak q) hlines
  rw [← List.forall₂_eq_eq_eq, List.forall₂_map_left_iff, List.forall₂_map_right_iff] at hmap
  exact hmap.imp fun i j hline => String.toList_inj.mp hline

/-- No two classes have the same display, nor are they shown in the same way by two instructions of
programs, so equal listings show equal classes, line by line. -/
theorem display_determines :
    (∀ cls cls' : CharClass, cls.display = cls'.display → cls = cls') ∧
    (∀ (p q : Program) (i j : Instruction) (cls cls' : CharClass), p.code.ShowsClass i cls →
      q.code.ShowsClass j cls' → p.code.detail i = q.code.detail j → cls = cls') ∧
    ∀ p q : Program, p.listing = q.listing → List.Forall₂ (fun i j => ∀ cls cls',
      p.code.ShowsClass i cls → q.code.ShowsClass j cls' → cls = cls')
      p.instructions q.instructions := by
  refine ⟨fun cls cls' h => ?_, fun p q i j cls cls' hi hj h => hi.eq_of_detail hj h,
    fun p q h => ?_⟩
  · have hlist : cls.display.toList ++ [] = cls'.display.toList ++ [] := by rw [h]
    exact (CharClass.display_append_inj hlist).1
  · apply (forall_describe_eq_of_listing h).imp
    intro i j hline cls cls' hi hj
    exact hi.eq_of_describe hj hline

/-- A class whose ranges are given in order. -/
def orderedClass : CharClass := ⟨true, [⟨'-', '-'⟩, ⟨'a', 'z'⟩], [.digit]⟩

/-- The same class from ranges in no order. -/
def joinedClass : CharClass := .ofRanges true [⟨'m', 'z'⟩, ⟨'-', '-'⟩, ⟨'n', 'a'⟩] [.digit]

theorem check_firstClass : Code.check ⟨#[11, 0], #[orderedClass], #[]⟩ =
    .ok [⟨0, .chars .set .single, ⟨0⟩, [0]⟩] :=
  Code.Reads.check_eq_ok ⟨rfl, rfl⟩ rfl

theorem check_secondClass : Code.check ⟨#[11, 1], #[.any, joinedClass], #[]⟩ =
    .ok [⟨0, .chars .set .single, ⟨0⟩, [1]⟩] :=
  Code.Reads.check_eq_ok ⟨rfl, rfl⟩ rfl

/-- A program that draws from its first class. -/
def firstProgram : Program := ⟨_, _, check_firstClass⟩

/-- A program that draws from its second class. -/
def secondProgram : Program := ⟨_, _, check_secondClass⟩

/-- The two programs have the same listing, since their instructions name the same class. -/
theorem display_determines_twoTables :
    firstProgram.listing = "0000     Set             Set = [^\\-a-z\\d]\n" ∧
      firstProgram.listing = secondProgram.listing ∧
      orderedClass.display = joinedClass.display ∧ orderedClass = joinedClass ∧
      List.Forall₂ (fun i j => ∀ cls cls', firstProgram.code.ShowsClass i cls →
        secondProgram.code.ShowsClass j cls' → cls = cls')
        firstProgram.instructions secondProgram.instructions := by
  have hlisting : firstProgram.listing = "0000     Set             Set = [^\\-a-z\\d]\n" := by
    with_unfolding_all rfl
  have hlisting' : secondProgram.listing = "0000     Set             Set = [^\\-a-z\\d]\n" := by
    with_unfolding_all rfl
  have hsame : firstProgram.listing = secondProgram.listing := hlisting.trans hlisting'.symm
  have hdisplay : orderedClass.display = joinedClass.display := by
    with_unfolding_all rfl
  exact ⟨hlisting, hsame, hdisplay, display_determines.1 _ _ hdisplay,
    display_determines.2.2 _ _ hsame⟩

end Program

end PatternSampler
