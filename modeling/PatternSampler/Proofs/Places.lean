import Mathlib.Data.List.Sort
import Mathlib.Data.Prod.Lex
import Mathlib.Order.Monotone.Basic
import PatternSampler.Proofs.Lines
/-!
# Places and bytes

The place of a byte offset is what counting on the bytes of the source gives.  From one offset to
the next it moves as a writer does: a line feed goes to the start of the next line, and any other
byte, or none beyond the end, one column on (`place_succ`).  Since the line starts are in
increasing order, halving finds the line too, and no step of it leaves the range of a machine word
(`locate?_of_lt`).  Main statement: `LineIndex.place_exact`.
-/
set_option autoImplicit false

namespace PatternSampler.Text

variable {source : List Char} {offset : Nat}

/-! ## Cutting an ordered list by halving -/

theorem bisect_eq {p : Nat → Bool} {base size cut : Nat} (hbase : base ≤ cut)
    (hsize : cut ≤ base + size) (hp : ∀ i, i < base + size → (p i = true ↔ i < cut)) :
    bisect p base size = cut := by
  -- the cut stays between the ends of the half that is kept
  fun_induction bisect p base size with
  | case1 base size hlt hmid ih =>
    have := (hp _ (by omega)).mp hmid
    exact ih (by omega) (by omega) fun i hi => hp i (by omega)
  | case2 base size hlt hmid ih =>
    have := mt (hp (base + size / 2) (by omega)).mpr hmid
    exact ih hbase (by omega) fun i hi => hp i (by omega)
  | case3 base size hlt hone =>
    have := (hp base (by omega)).mp hone.2
    omega
  | case4 base size hlt hone =>
    by_cases hsize : size = 1
    · have := mt (hp base (by omega)).mpr fun h => hone ⟨hsize, h⟩
      omega
    · omega

section Partitioned

variable {α : Type} {p : α → Bool} {xs : List α}
  (h : xs.Pairwise fun a b => p b = true → p a = true)

include h

theorem takeWhile_eq_filter : xs.takeWhile p = xs.filter p := by
  induction xs with
  | nil => rfl
  | cons a xs ih =>
    obtain ⟨hhead, htail⟩ := List.pairwise_cons.mp h
    by_cases ha : p a = true
    · rw [List.takeWhile_cons_of_pos ha, List.filter_cons_of_pos ha, ih htail]
    · rw [List.takeWhile_cons_of_neg ha, List.filter_cons_of_neg ha, eq_comm,
        List.filter_eq_nil_iff]
      exact fun b hb hpb => ha (hhead b hb hpb)

theorem any_getElem?_iff (i : Nat) :
    xs[i]?.any p = true ↔ i < (xs.takeWhile p).length := by
  induction xs generalizing i with
  | nil => simp
  | cons a xs ih =>
    obtain ⟨hhead, htail⟩ := List.pairwise_cons.mp h
    by_cases ha : p a = true
    · rw [List.takeWhile_cons_of_pos ha]
      cases i with
      | zero => simp [ha]
      | succ i => simp [ih htail]
    · rw [List.takeWhile_cons_of_neg ha]
      cases i with
      | zero => simp [ha]
      | succ i =>
        simp only [List.getElem?_cons_succ, List.length_nil, Nat.not_lt_zero, iff_false]
        rw [Option.any_eq_true]
        rintro ⟨b, hb, hpb⟩
        exact ha (hhead b (List.mem_of_getElem? hb) hpb)

/-- Where what satisfies `p` comes first, halving finds its end. -/
theorem partitionPoint_eq : partitionPoint p xs = (xs.takeWhile p).length := by
  refine bisect_eq (Nat.zero_le _) ?_ fun i _ => any_getElem?_iff h i
  rw [Nat.zero_add]
  exact (List.takeWhile_sublist p).length_le

end Partitioned

/-! ## Line feeds among the bytes -/

/-- The UTF-8 form of a text. -/
def utf8 (text : List Char) : List UInt8 := text.flatMap String.utf8EncodeChar

/-- The byte of a line feed. -/
def lineFeed : UInt8 := 10

/-- The byte after the last line feed before `offset`, or 0 if there is none. -/
def lineStart (source : List Char) : Nat → Nat
  | 0 => 0
  | offset + 1 =>
    if (utf8 source)[offset]? = some lineFeed then offset + 1 else lineStart source offset

theorem lineStart_le (source : List Char) (offset : Nat) : lineStart source offset ≤ offset := by
  induction offset with
  | zero => exact Nat.le_refl 0
  | succ offset ih =>
    rw [lineStart]
    split <;> omega

theorem lineFeed_mem_utf8EncodeChar {c : Char} :
    lineFeed ∈ String.utf8EncodeChar c ↔ c = '\n' := by
  have hbyte (n : Nat) (hn : n < 256) : lineFeed = UInt8.ofNat n ↔ 10 = n := by
    rw [← UInt8.toNat_inj, UInt8.toNat_ofNat_of_lt' hn]
    rfl
  have hchar : c = '\n' ↔ 10 = c.val.toNat := by
    rw [Char.ext_iff, ← UInt32.toNat_inj, eq_comm]
    rfl
  rw [hchar]
  unfold String.utf8EncodeChar
  dsimp only
  -- every byte of a longer form is 128 or more
  split_ifs <;> simp only [List.mem_cons, List.not_mem_nil, or_false] <;>
    simp (disch := omega) only [hbyte] <;> omega

theorem utf8_cons (c : Char) (cs : List Char) :
    utf8 (c :: cs) = String.utf8EncodeChar c ++ utf8 cs := List.flatMap_cons

/-- A line starts at the beginning and behind each line feed. -/
def startsLine (source : List Char) : Nat → Bool
  | 0 => true
  | i + 1 => (utf8 source)[i]? == some lineFeed

theorem mem_lineStartsFrom {text : List Char} {a : Nat} :
    a ∈ lineStartsFrom offset text ↔ ∃ i, (utf8 text)[i]? = some lineFeed ∧ a = offset + i + 1 := by
  induction text generalizing offset with
  | nil => simp [lineStartsFrom, utf8]
  | cons c cs ih =>
    have hlength := String.length_utf8EncodeChar c
    rw [lineStartsFrom, utf8_cons]
    split
    · rename_i hc
      subst hc
      rw [List.mem_cons, ih]
      constructor
      · rintro (rfl | ⟨i, hi, rfl⟩)
        · exact ⟨0, rfl, rfl⟩
        · exact ⟨i + 1, hi, congrArg (· + 1) (Nat.add_right_comm offset 1 i)⟩
      · rintro ⟨i, hi, rfl⟩
        cases i with
        | zero => exact .inl rfl
        | succ i => exact .inr ⟨i, hi, congrArg (· + 1) (Nat.add_right_comm offset i 1)⟩
    · rename_i hc
      rw [ih]
      constructor
      · rintro ⟨i, hi, rfl⟩
        refine ⟨c.utf8Size + i, ?_, by rw [Nat.add_assoc offset]⟩
        rw [List.getElem?_append_right (by omega), hlength, Nat.add_sub_cancel_left, hi]
      · rintro ⟨i, hi, rfl⟩
        rcases Nat.lt_or_ge i c.utf8Size with hlt | hle
        · rw [List.getElem?_append_left (hlength ▸ hlt)] at hi
          exact absurd (lineFeed_mem_utf8EncodeChar.mp (List.mem_of_getElem? hi)) hc
        · rw [List.getElem?_append_right (hlength ▸ hle), hlength] at hi
          exact ⟨i - c.utf8Size, hi, by omega⟩

theorem lineStartsFrom_pairwise (offset : Nat) (text : List Char) :
    (lineStartsFrom offset text).Pairwise (· < ·) := by
  induction text generalizing offset with
  | nil => exact .nil
  | cons c cs ih =>
    rw [lineStartsFrom]
    split
    · exact (ih _).cons fun a ha => (bounds_of_mem_lineStartsFrom ha).1
    · exact ih _

namespace LineIndex

theorem starts_pairwise (source : List Char) : (ofSource source).starts.Pairwise (· < ·) :=
  (lineStartsFrom_pairwise 0 source).cons fun _ ha =>
    Nat.lt_of_le_of_lt (Nat.zero_le _) (bounds_of_mem_lineStartsFrom ha).1

theorem mem_starts {a : Nat} : a ∈ (ofSource source).starts ↔ startsLine source a = true := by
  rw [ofSource, List.mem_cons, mem_lineStartsFrom]
  cases a with
  | zero => simp [startsLine]
  | succ a =>
    rw [startsLine, beq_iff_eq]
    constructor
    · rintro (h | ⟨i, hi, h⟩)
      · exact absurd h (Nat.succ_ne_zero a)
      · obtain rfl : a = i := by omega
        exact hi
    · exact fun h => .inr ⟨a, h, by rw [Nat.zero_add]⟩

theorem starts_ordered (source : List Char) (offset : Nat) :
    (ofSource source).starts.Pairwise
      fun a b => decide (b ≤ offset) = true → decide (a ≤ offset) = true :=
  (starts_pairwise source).imp fun hab hb =>
    decide_eq_true (Nat.le_trans (Nat.le_of_lt hab) (of_decide_eq_true hb))

/-- The line starts up to an offset, without the line index. -/
theorem startsUpTo_eq (source : List Char) (offset : Nat) :
    (ofSource source).startsUpTo offset =
      (List.range (offset + 1)).filter (startsLine source) := by
  rw [startsUpTo, takeWhile_eq_filter (starts_ordered source offset)]
  -- both lists are in increasing order, so their members decide
  refine ((starts_pairwise source).filter _).eq_of_mem_iff (List.pairwise_lt_range.filter _) ?_
  intro a
  rw [List.mem_filter, List.mem_filter, mem_starts, List.mem_range, decide_eq_true_eq,
    Nat.lt_succ_iff, and_comm]

theorem startsUpTo_succ (source : List Char) (offset : Nat) :
    (ofSource source).startsUpTo (offset + 1) =
      (ofSource source).startsUpTo offset ++
        if (utf8 source)[offset]? = some lineFeed then [offset + 1] else [] := by
  rw [startsUpTo_eq, startsUpTo_eq, List.range_succ, List.filter_append]
  by_cases h : (utf8 source)[offset]? = some lineFeed <;> simp [startsLine, h]

/-- The last line start up to an offset. -/
theorem getLast?_startsUpTo (source : List Char) (offset : Nat) :
    ((ofSource source).startsUpTo offset).getLast? = some (lineStart source offset) := by
  induction offset with
  | zero => rw [startsUpTo_eq]; rfl
  | succ offset ih =>
    rw [startsUpTo_succ, List.getLast?_append, ih, lineStart]
    split <;> rfl

theorem length_startsUpTo (source : List Char) (offset : Nat) :
    ((ofSource source).startsUpTo offset).length =
      1 + ((utf8 source).take offset).count lineFeed := by
  induction offset with
  | zero => rw [startsUpTo_eq]; rfl
  | succ offset ih =>
    rw [startsUpTo_succ, List.length_append, ih, List.take_add_one, List.count_append,
      ← Nat.add_assoc]
    congr 1
    cases hbyte : (utf8 source)[offset]? with
    | none => rfl
    | some b => by_cases hb : b = lineFeed <;> simp [hb]

/-- The place of an offset is what counting on the bytes gives. -/
theorem place_eq (source : List Char) (offset : Nat) :
    (ofSource source).place offset =
      ⟨1 + ((utf8 source).take offset).count lineFeed, offset - lineStart source offset + 1⟩ := by
  rw [place, List.getLastD_eq_getLast?, getLast?_startsUpTo, Option.getD_some, length_startsUpTo]

end LineIndex

/-! ## From one offset to the next -/

/-- The place behind a byte: the start of the next line behind a line feed, and else one column
on. -/
def Place.next (place : Place) (byte : Option UInt8) : Place :=
  if byte = some lineFeed then ⟨place.line + 1, 1⟩ else ⟨place.line, place.column + 1⟩

theorem Place.lt_next (place : Place) (byte : Option UInt8) :
    toLex (place.line, place.column) <
      toLex ((place.next byte).line, (place.next byte).column) := by
  rw [Prod.Lex.toLex_lt_toLex, next]
  split
  · exact .inl (Nat.lt_succ_self _)
  · exact .inr ⟨rfl, Nat.lt_succ_self _⟩

namespace LineIndex

theorem place_succ (source : List Char) (offset : Nat) :
    (ofSource source).place (offset + 1) =
      ((ofSource source).place offset).next (utf8 source)[offset]? := by
  have hle := lineStart_le source offset
  rw [place_eq, place_eq, Place.next, lineStart, List.take_add_one, List.count_append]
  by_cases h : (utf8 source)[offset]? = some lineFeed
  · simp [h, Nat.add_assoc]
  · rw [if_neg h, if_neg h, Nat.sub_add_comm hle]
    have hcount : ((utf8 source)[offset]?.toList).count lineFeed = 0 := by
      rw [List.count_eq_zero, Option.mem_toList]
      exact h
    rw [hcount, Nat.add_zero]

theorem place_strictMono (source : List Char) :
    StrictMono fun offset => toLex (((ofSource source).place offset).line,
      ((ofSource source).place offset).column) := by
  refine strictMono_nat_of_lt_succ fun offset => ?_
  rw [place_succ]
  exact Place.lt_next _ _

/-! ## Searches in the index -/

/-- The byte offset of a place. -/
def offset? (index : LineIndex) (place : Place) : Option Nat :=
  match index.starts[place.line - 1]? with
  | none => none
  | some start => some (start + (place.column - 1))

/-- The line of a place starts where the last line feed before it ends. -/
theorem getElem?_starts (source : List Char) (offset : Nat) :
    (ofSource source).starts[((ofSource source).place offset).line - 1]? =
      some (lineStart source offset) := by
  have hlast := getLast?_startsUpTo source offset
  rw [List.getLast?_eq_getElem?] at hlast
  have hprefix : (ofSource source).startsUpTo offset <+: (ofSource source).starts :=
    List.takeWhile_prefix _
  obtain ⟨hlt, hget⟩ := List.getElem?_eq_some_iff.mp hlast
  rw [← hget]
  exact List.prefix_iff_getElem?.mp hprefix _ hlt

theorem offset?_place (source : List Char) (offset : Nat) :
    (ofSource source).offset? ((ofSource source).place offset) = some offset := by
  have hle := lineStart_le source offset
  rw [offset?, getElem?_starts, place_eq]
  dsimp only
  rw [Nat.add_sub_cancel, Nat.add_sub_cancel' hle]

/-- Halving finds the line of an offset. -/
theorem line_of_halving (source : List Char) (offset : Nat) :
    max (partitionPoint (· ≤ offset) (ofSource source).starts) 1 =
      ((ofSource source).place offset).line := by
  rw [partitionPoint_eq (starts_ordered source offset)]
  have hlength := length_startsUpTo source offset
  rw [startsUpTo] at hlength
  exact Nat.max_eq_left (by omega)

/-- The column is counted from the line start, and the place is there if it fits. -/
theorem locate?_eq_some_iff (source : List Char) (offset : Nat) (place : Place) :
    (ofSource source).locate? offset = some place ↔
      offset - lineStart source offset + 1 < UInt64.size ∧
        (ofSource source).place offset = place := by
  have hle := lineStart_le source offset
  rw [locate?, line_of_halving, getElem?_starts, place_eq]
  simp [hle]

theorem locate?_of_lt (source : List Char) {offset : Nat} (h : offset < UInt64.size - 1) :
    (ofSource source).locate? offset = some ((ofSource source).place offset) :=
  (locate?_eq_some_iff source offset _).mpr ⟨by omega, rfl⟩

/-- A lookup counts as far as a machine word goes. -/
theorem lookup_eq (source : List Char) (offset : Nat) :
    (ofSource source).lookup offset =
      ⟨((ofSource source).place offset).line,
        ((ofSource source).place offset).column % UInt64.size⟩ := by
  rw [lookup, line_of_halving, List.getD_eq_getElem?_getD, getElem?_starts, place_eq]
  rfl

/-- Where the place of an offset fits, a lookup finds it. -/
theorem lookup_of_locate? {source : List Char} {offset : Nat} {place : Place}
    (h : (ofSource source).locate? offset = some place) :
    (ofSource source).lookup offset = place := by
  obtain ⟨hfits, rfl⟩ := (locate?_eq_some_iff source offset place).mp h
  rw [lookup_eq, place_eq, Nat.mod_eq_of_lt hfits]

/-- One byte further on the column does not fit, and wraps around. -/
example : (ofSource []).locate? (UInt64.size - 1) = none ∧
    (ofSource []).lookup (UInt64.size - 1) = ⟨1, 0⟩ := by cbv

/-- Places are exact, at every byte of the source, inside characters and beyond the end too. -/
theorem place_exact (source : List Char) {offset : Nat} (h : offset < UInt64.size - 1) :
    ((ofSource source).place offset).line =
        1 + ((utf8 source).take offset).count lineFeed ∧
      ((ofSource source).place offset).column = offset - lineStart source offset + 1 ∧
      lineStart source offset ≤ offset ∧
      (ofSource source).locate? offset = some ((ofSource source).place offset) ∧
      (ofSource source).offset? ((ofSource source).place offset) = some offset ∧
      ∀ later, offset < later →
        toLex (((ofSource source).place offset).line, ((ofSource source).place offset).column) <
          toLex (((ofSource source).place later).line,
            ((ofSource source).place later).column) := by
  have hplace := place_eq source offset
  exact ⟨congrArg Place.line hplace, congrArg Place.column hplace, lineStart_le source offset,
    locate?_of_lt source h, offset?_place source offset,
    fun _ hlater => place_strictMono source hlater⟩

/-- A source of three lines, the second one empty. -/
def threeLines : List Char := ['é', '\n', '\n', 'a', 'b']

/-- Three bytes beyond the end are in the last line, which starts at byte 4. -/
theorem place_exact_threeLines :
    9 < UInt64.size - 1 ∧ (ofSource threeLines).place 9 = ⟨3, 6⟩ ∧
      (ofSource threeLines).locate? 9 = some ⟨3, 6⟩ ∧
      (ofSource threeLines).offset? ⟨3, 6⟩ = some 9 ∧
      ∀ later, 9 < later → toLex (3, 6) <
        toLex (((ofSource threeLines).place later).line,
          ((ofSource threeLines).place later).column) := by
  obtain ⟨hline, hcolumn, -, hlocate, hoffset, hlater⟩ := @place_exact threeLines 9 (by decide)
  have hcount : ((utf8 threeLines).take 9).count lineFeed = 2 := by decide
  have hstart : lineStart threeLines 9 = 4 := by decide
  have hplace : (ofSource threeLines).place 9 = ⟨3, 6⟩ := by
    change Place.mk ((ofSource threeLines).place 9).line
      ((ofSource threeLines).place 9).column = _
    rw [hline, hcount, hcolumn, hstart]
  rw [hplace] at hlocate hoffset hlater
  exact ⟨by decide, hplace, hlocate, hoffset, hlater⟩

end LineIndex

end PatternSampler.Text
