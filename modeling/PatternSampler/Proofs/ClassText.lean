import PatternSampler.Proofs.NormalForm
import PatternSampler.Proofs.ReadBack
import PatternSampler.Proofs.Scans
/-!
# The class that a text spells

A class is written as items between brackets: characters, and ranges given by their two ends.  The
scanner does not know of classes and takes group openers and bounds where their text stands, so that
a lexeme may hold the characters of several items.  Each of these is read as an item of its own,
with one exception: of a lexeme that ends a range, only the first character is read, and the others
are lost.  `ClassItem.kept` says which items are read then, and `parse_classText` that the class of
a text covers just what these cover.
-/
set_option autoImplicit false

namespace PatternSampler

/-! ## Items -/

/-- An item of a class as it is written: a character, or a range with its ends. -/
inductive ClassItem where
  | single (c : Char)
  | range (first last : Char)
  deriving DecidableEq, Repr

namespace ClassItem

/-- The text of an item. -/
def text : ClassItem → List Char
  | single c => [c]
  | range a b => [a, '-', b]

/-- The range that an item stands for. -/
def toRange : ClassItem → CharRange
  | single c => ⟨c, c⟩
  | range a b => ⟨a, b⟩

/-- The item covers a character. -/
def Covers : ClassItem → Char → Prop
  | single d, c => c = d
  | range a b, c => a ≤ c ∧ c ≤ b

/-- The item is made of plain characters, and the ends of a range are in order. -/
def Proper : ClassItem → Prop
  | single c => IsPlain c
  | range a b => IsPlain a ∧ IsPlain b ∧ a ≤ b

instance (i : ClassItem) : Decidable i.Proper :=
  match i with
  | single c => inferInstanceAs (Decidable (IsPlain c))
  | range a b => inferInstanceAs (Decidable (IsPlain a ∧ IsPlain b ∧ a ≤ b))

/-- The character is one that a class of the items, or of all others, is to hold. -/
def Means (negated : Bool) (items : List ClassItem) (c : Char) : Prop :=
  if negated then ¬∃ i ∈ items, i.Covers c else ∃ i ∈ items, i.Covers c

/-- The text of a list of items, and the closing bracket. -/
def bodyText (items : List ClassItem) : List Char := items.flatMap text ++ [']']

/-- How many characters the token has after its first one that starts with `c`. -/
def extra (c : Char) (cs : List Char) : Nat :=
  match scan c cs with
  | .token _ extra => extra
  | .fault _ => 0

/-- The items that are read when `lost` characters at the start belong to the token that ends a
range.  Where the first end of a range is lost, its dash is read as a character. -/
def keptAfter : Nat → List ClassItem → List ClassItem
  | _, [] => []
  | 0, single c :: items => single c :: keptAfter 0 items
  | 0, range a b :: items => range a b :: keptAfter (extra b (bodyText items)) items
  | lost + 1, single _ :: items => keptAfter lost items
  | _ + 1, range _ b :: items => single '-' :: single b :: keptAfter 0 items

/-- The items of a class that are read. -/
def kept (items : List ClassItem) : List ClassItem := keptAfter 0 items

/-- The last character of each range is a token of its own. -/
def Separate (items : List ClassItem) : Prop :=
  ∀ before a b after, items = before ++ range a b :: after → extra b (bodyText after) = 0

theorem kept_of_separate {items : List ClassItem} (h : Separate items) : kept items = items := by
  induction items with
  | nil => rfl
  | cons i items ih =>
    have hitems : Separate items := by
      intro before a b after heq
      exact h (i :: before) a b after (by rw [heq]; rfl)
    cases i with
    | single c => exact congrArg (single c :: ·) (ih hitems)
    | range a b =>
      have hextra : extra b (bodyText items) = 0 := h [] a b items rfl
      rw [kept, keptAfter, hextra]
      exact congrArg (range a b :: ·) (ih hitems)

/-- A class with the ranges of some items added. -/
def pushItems (cls : CharClass) (items : List ClassItem) : CharClass :=
  cls.pushRanges (items.map toRange)

theorem bodyText_cons (i : ClassItem) (items : List ClassItem) :
    bodyText (i :: items) = i.text ++ bodyText items := by
  simp [bodyText]

/-- The text of an item starts with a plain character. -/
theorem exists_bodyText_cons {i : ClassItem} (hi : i.Proper) (items : List ClassItem) :
    ∃ c cs, bodyText (i :: items) = c :: cs ∧ IsPlain c := by
  rw [bodyText_cons]
  cases i with
  | single c => exact ⟨c, bodyText items, rfl, hi⟩
  | range a b => exact ⟨a, '-' :: b :: bodyText items, rfl, hi.1⟩

/-- What follows an item starts with a plain character or the closing bracket, not with a dash. -/
theorem exists_bodyText {items : List ClassItem} (hitems : ∀ i ∈ items, i.Proper) :
    ∃ c cs, bodyText items = c :: cs ∧ (IsPlain c ∨ c = ']') := by
  cases items with
  | nil => exact ⟨']', [], rfl, .inr rfl⟩
  | cons i items =>
    obtain ⟨c, cs, hbody, hc⟩ := exists_bodyText_cons (hitems i List.mem_cons_self) items
    exact ⟨c, cs, hbody, .inl hc⟩

end ClassItem

/-! ## Lexemes that stand for their text -/

namespace ClassBody

variable {lx dash last : Lexeme} {lexemes rest : List Lexeme} {cls cls₁ cls' : CharClass}
  {w : List Char}

theorem unsupported?_of_standsFor (h : lx.token.StandsFor lx.text) (rest : List Lexeme) :
    unsupported? lx rest = none := by
  unfold unsupported?
  cases htoken : lx.token with
  | literal c =>
    rw [htoken] at h
    split <;> simp_all [Token.StandsFor]
  | _ => simp_all [Token.StandsFor]

theorem characters_of_standsFor (h : lx.token.StandsFor lx.text) :
    characters lx = .ok lx.text := by
  unfold characters
  cases htoken : lx.token with
  | literal c =>
    rw [htoken] at h
    rw [h.1]
  | _ => simp_all [Token.StandsFor]

theorem ne_of_standsFor (h : lx.token.StandsFor lx.text) :
    lx.token ≠ .closeClass ∧ lx.token ≠ .dash ∧ ∀ k, lx.token ≠ .classEscape k := by
  cases htoken : lx.token <;> simp_all [Token.StandsFor]

/-! ## Reading to the end of a class -/

/-- A class that has come to `cls` is read to its end, and is `cls'` then. -/
def Finishes (lexemes : List Lexeme) (cls cls' : CharClass) : Prop :=
  ∀ (opener : Span) (position : Nat),
    ∃ position', read opener position false cls lexemes = .ok (cls', position', [])

/-- As `Finishes`, with the characters `w` of a lexeme still to be added. -/
def FinishesFrom (w : List Char) (lexemes : List Lexeme) (cls cls' : CharClass) : Prop :=
  ∀ (item : Lexeme) (position : Nat) (first : Char), w.getLast? = some first →
    ∃ cls₁ taken, readFrom (pushAll cls w.dropLast) item first lexemes position = .ok (cls₁, taken) ∧
      Finishes (lexemes.drop taken) cls₁ cls'

theorem finishes_close (h : lx.token = .closeClass) (cls : CharClass) : Finishes [lx] cls cls := by
  intro opener position
  exact ⟨position + 1, by rw [read, if_pos ⟨h, rfl⟩]⟩

theorem finishes_of_word (hw : w ≠ []) (hsupported : unsupported? lx rest = none)
    (hcharacters : characters lx = .ok w) (hclose : lx.token ≠ .closeClass)
    (hescape : ∀ k, lx.token ≠ .classEscape k) (h : FinishesFrom w rest cls cls') :
    Finishes (lx :: rest) cls cls' := by
  intro opener position
  have hfirst : w.getLast? = some (w.getLast hw) := List.getLast?_eq_some_getLast hw
  obtain ⟨cls₁, taken, hfrom, hfinishes⟩ := h lx (position + 1) _ hfirst
  have hitem : readItem cls lx rest (position + 1) = .ok (cls₁, taken) := by
    simp only [readItem, hsupported, hcharacters, hfirst]
    exact hfrom
  obtain ⟨position', hread⟩ := hfinishes opener (position + 1 + taken)
  exact ⟨position', by rw [read_item hclose hitem, hread]⟩

theorem finishes_of_standsFor (h : lx.token.StandsFor lx.text) (hw : lx.text ≠ [])
    (hrest : FinishesFrom lx.text rest cls cls') : Finishes (lx :: rest) cls cls' := by
  obtain ⟨hclose, -, hescape⟩ := ne_of_standsFor h
  exact finishes_of_word hw (unsupported?_of_standsFor h rest) (characters_of_standsFor h) hclose
    hescape hrest

theorem finishesFrom_cons {c : Char} (hw : w ≠ [])
    (h : FinishesFrom w lexemes (cls.pushRange c c) cls') :
    FinishesFrom (c :: w) lexemes cls cls' := by
  intro item position first hfirst
  rw [List.dropLast_cons_of_ne_nil hw]
  obtain ⟨d, ds, rfl⟩ := List.exists_cons_of_ne_nil hw
  rw [List.getLast?_cons_cons] at hfirst
  exact h item position first hfirst

theorem finishesFrom_single {c : Char} (hdash : ∀ lx ∈ lexemes.head?, lx.token ≠ .dash)
    (h : Finishes lexemes (cls.pushRange c c) cls') : FinishesFrom [c] lexemes cls cls' := by
  intro item position first hfirst
  obtain rfl := Option.some.inj hfirst
  exact ⟨cls.pushRange c c, 0, readFrom_single hdash, h⟩

theorem finishesFrom_range {a b : Char} {bs : List Char} (hab : a ≤ b)
    (hdash : dash.token = .dash) (hlast : last.token.StandsFor last.text)
    (htext : last.text = b :: bs) (h : Finishes rest (cls.pushRange a b) cls') :
    FinishesFrom [a] (dash :: last :: rest) cls cls' := by
  intro item position first hfirst
  obtain rfl : a = first := Option.some.inj hfirst
  obtain ⟨hclose, hnext, hescape⟩ := ne_of_standsFor hlast
  have hcharacters := characters_of_standsFor hlast
  have hsupported : unsupported? dash (last :: rest) = none := by
    simp [unsupported?, hdash, hnext]
  have hrange : readRange cls item dash last a (position + 2) = .ok (cls.pushRange a b) := by
    simp only [readRange, hcharacters, htext, if_pos hab]
  have hfrom : readFrom cls item a (dash :: last :: rest) position =
      .ok (cls.pushRange a b, 2) := by
    unfold readFrom
    rw [if_pos (by simp [rangeFollows, hdash, hclose])]
    simp only [hsupported, unsupported?_of_standsFor hlast rest, hrange]
  exact ⟨cls.pushRange a b, 2, hfrom, h⟩

theorem finishes_dash (hdash : lx.token = .dash) (htext : lx.text = ['-'])
    (hrest : ∀ next ∈ rest.head?, next.token ≠ .dash)
    (h : Finishes rest (cls.pushRange '-' '-') cls') : Finishes (lx :: rest) cls cls' := by
  have hsupported : unsupported? lx rest = none := by
    unfold unsupported?
    rw [hdash]
    cases rest with
    | nil => rfl
    | cons next rest => simp [hrest next rfl]
  have hcharacters : characters lx = .ok ['-'] := by
    unfold characters
    rw [hdash, htext]
  exact finishes_of_word (by simp) hsupported hcharacters (by simp [hdash]) (by simp [hdash])
    (finishesFrom_single hrest h)

end ClassBody

/-! ## Reading items -/

namespace ClassItem

open ClassBody (Finishes FinishesFrom)

variable {items : List ClassItem} {lexemes : List Lexeme} {cls : CharClass} {c : Char}
  {cs : List Char}

theorem head?_ne_dash_of_plain (hc : IsPlain c) (h : Splits (c :: cs) lexemes) :
    ∀ lx ∈ lexemes.head?, lx.token ≠ .dash := by
  obtain ⟨t, extra, span, rest, hscan, -, rfl⟩ := h.exists_cons
  intro lx hlx
  obtain rfl := Option.some.inj hlx
  exact (ClassBody.ne_of_standsFor (standsFor_of_scan hc hscan)).2.1

theorem head?_ne_dash (hitems : ∀ i ∈ items, i.Proper) (h : Splits (bodyText items) lexemes) :
    ∀ lx ∈ lexemes.head?, lx.token ≠ .dash := by
  obtain ⟨c, cs, hbody, hc | rfl⟩ := exists_bodyText hitems
  · exact head?_ne_dash_of_plain hc (hbody ▸ h)
  · rw [hbody] at h
    obtain ⟨t, extra, span, rest, hscan, -, rfl⟩ := h.exists_cons
    intro lx hlx
    obtain rfl := Option.some.inj hlx
    obtain ⟨rfl, -⟩ := Scan.token.inj hscan
    simp

/-- Items are read to the end of the class: from a lexeme on, of which `lost` characters at the
start of the items belong to the one before; and from within a lexeme, of which the characters `w`
are still to be added. -/
structure Readable (items : List ClassItem) : Prop where
  atLexeme : ∀ (lost : Nat) (lexemes : List Lexeme) (cls : CharClass),
    (∀ d ∈ (bodyText items).take lost, isInner d = true) →
    Splits ((bodyText items).drop lost) lexemes →
    Finishes lexemes cls (pushItems cls (keptAfter lost items))
  inLexeme : ∀ (w rest : List Char) (lexemes : List Lexeme) (cls : CharClass), w ≠ [] →
    (∀ d ∈ w, d ≠ '-' ∧ d ≠ ']') → bodyText items = w ++ rest → Splits rest lexemes →
    FinishesFrom w lexemes cls (pushItems cls (keptAfter 0 items))

theorem ne_of_isInner {d : Char} (h : isInner d = true) : d ≠ '-' ∧ d ≠ ']' := by
  constructor
  · rintro rfl
    exact absurd h (by decide)
  · rintro rfl
    exact absurd h (by decide)

/-- A lexeme that starts with a plain character is read as its characters. -/
theorem finishes_of_isPlain {target : CharClass} (hc : IsPlain c)
    (h : ∀ (w rest : List Char) (lexemes : List Lexeme), w ≠ [] →
      (∀ d ∈ w, d ≠ '-' ∧ d ≠ ']') → c :: cs = w ++ rest → Splits rest lexemes →
      FinishesFrom w lexemes cls target)
    (hsplits : Splits (c :: cs) lexemes) : Finishes lexemes cls target := by
  obtain ⟨t, extra, span, rest, hscan, hrest, rfl⟩ := hsplits.exists_cons
  apply ClassBody.finishes_of_standsFor (standsFor_of_scan hc hscan)
  · simp
  · apply h (c :: cs.take extra) (cs.drop extra) rest
    · simp
    · rw [List.forall_mem_cons]
      refine ⟨⟨hc.ne (by decide), hc.ne (by decide)⟩, fun d hd => ne_of_isInner ?_⟩
      exact isInner_of_scan (hc.ne (by decide)) hscan d hd
    · rw [List.cons_append, List.take_append_drop]
    · exact hrest

theorem finishesFrom_single (hitems : ∀ i ∈ items, i.Proper) (h : Readable items)
    {w rest : List Char} (hw : w ≠ []) (hnot : ∀ d ∈ w, d ≠ '-' ∧ d ≠ ']')
    (htext : c :: bodyText items = w ++ rest) (hsplits : Splits rest lexemes) :
    FinishesFrom w lexemes cls (pushItems (cls.pushRange c c) (keptAfter 0 items)) := by
  obtain ⟨d, w, rfl⟩ := List.exists_cons_of_ne_nil hw
  obtain ⟨rfl, hbody⟩ := List.cons.inj htext
  cases w with
  | nil =>
    have hrest : Splits (bodyText items) lexemes := by
      rw [hbody]
      exact hsplits
    apply ClassBody.finishesFrom_single (head?_ne_dash hitems hrest)
    exact h.atLexeme 0 lexemes _ (by simp) hrest
  | cons e w =>
    apply ClassBody.finishesFrom_cons (by simp)
    exact h.inLexeme (e :: w) rest lexemes _ (by simp) (List.forall_mem_cons.mp hnot).2 hbody hsplits

theorem readable_single (hc : IsPlain c) (hitems : ∀ i ∈ items, i.Proper) (h : Readable items) :
    Readable (single c :: items) where
  atLexeme := by
    intro lost lexemes cls hlost hsplits
    rw [bodyText_cons] at hlost hsplits
    cases lost with
    | zero =>
      apply finishes_of_isPlain hc
      · intro w rest lexemes hw hnot htext hsplits
        exact finishesFrom_single hitems h hw hnot htext hsplits
      · exact hsplits
    | succ lost =>
      exact h.atLexeme lost lexemes cls (List.forall_mem_cons.mp hlost).2 hsplits
  inLexeme := by
    intro w rest lexemes cls hw hnot htext hsplits
    rw [bodyText_cons] at htext
    exact finishesFrom_single hitems h hw hnot htext hsplits

theorem finishesFrom_range {a b : Char} (hb : IsPlain b) (hab : a ≤ b) (h : Readable items)
    {w rest : List Char} (hw : w ≠ []) (hnot : ∀ d ∈ w, d ≠ '-' ∧ d ≠ ']')
    (htext : a :: '-' :: b :: bodyText items = w ++ rest) (hsplits : Splits rest lexemes) :
    FinishesFrom w lexemes cls
      (pushItems (cls.pushRange a b) (keptAfter (extra b (bodyText items)) items)) := by
  obtain ⟨d, w, rfl⟩ := List.exists_cons_of_ne_nil hw
  obtain ⟨rfl, hbody⟩ := List.cons.inj htext
  cases w with
  | cons e w =>
    obtain ⟨rfl, -⟩ := List.cons.inj hbody
    exact absurd rfl (hnot '-' (by simp)).1
  | nil =>
    obtain rfl : '-' :: b :: bodyText items = rest := hbody
    obtain ⟨t, extra', span, rest, hscan, hrest, rfl⟩ := hsplits.exists_cons
    obtain ⟨rfl, rfl⟩ := Scan.token.inj hscan
    obtain ⟨t', extra', span', rest', hscan', hrest', rfl⟩ := hrest.exists_cons
    have hextra : extra b (bodyText items) = extra' := by
      rw [extra, hscan']
    rw [hextra]
    apply ClassBody.finishesFrom_range hab rfl (standsFor_of_scan hb hscan') rfl
    apply h.atLexeme extra' rest' _ _ hrest'
    exact isInner_of_scan (hb.ne (by decide)) hscan'

theorem readable_range {a b : Char} (ha : IsPlain a) (hb : IsPlain b) (hab : a ≤ b)
    (hitems : ∀ i ∈ items, i.Proper) (h : Readable items) : Readable (range a b :: items) where
  atLexeme := by
    intro lost lexemes cls hlost hsplits
    rw [bodyText_cons] at hlost hsplits
    match lost with
    | 0 =>
      apply finishes_of_isPlain ha
      · intro w rest lexemes hw hnot htext hsplits
        rw [keptAfter]
        exact finishesFrom_range hb hab h hw hnot htext hsplits
      · exact hsplits
    | 1 =>
      -- the dash stands at the start of a lexeme now, and is read as a character
      obtain ⟨t, extra', span, rest, hscan, hrest, rfl⟩ :=
        @Splits.exists_cons '-' (b :: bodyText items) _ hsplits
      obtain ⟨rfl, rfl⟩ := Scan.token.inj hscan
      apply ClassBody.finishes_dash rfl rfl (head?_ne_dash_of_plain hb hrest)
      exact (readable_single hb hitems h).atLexeme 0 rest _ (by simp)
        (by rw [bodyText_cons]; exact hrest)
    | lost + 2 =>
      exact absurd (hlost '-' (by simp [text])) (by decide)
  inLexeme := by
    intro w rest lexemes cls hw hnot htext hsplits
    rw [bodyText_cons] at htext
    rw [keptAfter]
    exact finishesFrom_range hb hab h hw hnot htext hsplits

theorem readable_nil : Readable [] where
  atLexeme := by
    intro lost lexemes cls hlost hsplits
    cases lost with
    | zero =>
      obtain ⟨t, extra', span, rest, hscan, hrest, rfl⟩ :=
        @Splits.exists_cons ']' [] _ hsplits
      obtain ⟨rfl, rfl⟩ := Scan.token.inj hscan
      cases hrest
      exact ClassBody.finishes_close rfl cls
    | succ lost => exact absurd (hlost ']' (by simp [bodyText])) (by decide)
  inLexeme := by
    intro w rest lexemes cls hw hnot htext hsplits
    obtain ⟨d, w, rfl⟩ := List.exists_cons_of_ne_nil hw
    obtain ⟨rfl, -⟩ := List.cons.inj htext
    exact absurd rfl (hnot ']' (by simp)).2

theorem readable (hitems : ∀ i ∈ items, i.Proper) : Readable items := by
  induction items with
  | nil => exact readable_nil
  | cons i items ih =>
    obtain ⟨hi, hrest⟩ := List.forall_mem_cons.mp hitems
    cases i with
    | single c => exact readable_single hi hrest (ih hrest)
    | range a b => exact readable_range hi.1 hi.2.1 hi.2.2 hrest (ih hrest)

/-! ## The whole class -/

/-- The text of a class. -/
def classText (negated : Bool) (items : List ClassItem) : List Char :=
  (if negated then ['[', '^'] else ['[']) ++ bodyText items

/-- The class that is read from the text of a class. -/
def readClass (negated : Bool) (items : List ClassItem) : CharClass :=
  if negated then (pushItems .empty (kept items)).negate else pushItems .empty (kept items)

theorem not_mem_classText (hitems : ∀ i ∈ items, i.Proper) (negated : Bool) :
    '\\' ∉ classText negated items := by
  have hbody : '\\' ∉ items.flatMap text := by
    intro h
    obtain ⟨i, hi, hmem⟩ := List.mem_flatMap.mp h
    have hproper := hitems i hi
    cases i with
    | single c =>
      obtain rfl := List.mem_singleton.mp hmem
      exact hproper.ne (by decide) rfl
    | range a b =>
      simp only [text, List.mem_cons, List.not_mem_nil, or_false] at hmem
      rcases hmem with rfl | h | rfl
      · exact hproper.1.ne (by decide) rfl
      · exact absurd h (by decide)
      · exact hproper.2.1.ne (by decide) rfl
  rw [classText, bodyText, List.mem_append, List.mem_append, List.mem_singleton]
  rintro (h | h | h)
  · exact absurd h (by cases negated <;> decide)
  · exact hbody h
  · exact absurd h (by decide)

/-- The brackets are lexemes of their own. -/
theorem splits_classText (hitems : ∀ i ∈ items, i.Proper) {negated : Bool}
    (h : Splits (classText negated items) lexemes) :
    ∃ lx rest, lexemes = lx :: rest ∧ lx.token.role = .classOpener negated ∧
      Splits (bodyText items) rest := by
  cases negated with
  | true =>
    obtain ⟨t, extra', span, rest, hscan, hrest, rfl⟩ :=
      @Splits.exists_cons '[' ('^' :: bodyText items) _ h
    obtain ⟨rfl, rfl⟩ := Scan.token.inj hscan
    exact ⟨_, rest, rfl, rfl, hrest⟩
  | false =>
    obtain ⟨t, extra', span, rest, hscan, hrest, rfl⟩ :=
      @Splits.exists_cons '[' (bodyText items) _ h
    obtain ⟨c, cs, hbody, hc⟩ : ∃ c cs, bodyText items = c :: cs ∧ c ≠ '^' := by
      obtain ⟨c, cs, hbody, hc⟩ := exists_bodyText hitems
      refine ⟨c, cs, hbody, ?_⟩
      rintro rfl
      exact absurd hc (by decide)
    have hopen : scan '[' (bodyText items) = .token .openClass 0 := by
      rw [hbody]
      simp [scan, hc]
    obtain ⟨rfl, rfl⟩ := Scan.token.inj (hopen.symm.trans hscan)
    exact ⟨_, rest, rfl, rfl, hrest⟩

/-- The first item is no closing bracket. -/
theorem read_classText (hne : items ≠ []) (hitems : ∀ i ∈ items, i.Proper)
    (h : Splits (bodyText items) lexemes) (opener : Span) (position : Nat) :
    ∃ position', ClassBody.read opener position true .empty lexemes =
      .ok (pushItems .empty (kept items), position', []) := by
  have hfinishes := (readable hitems).atLexeme 0 lexemes .empty (by simp) h
  obtain ⟨i, items, rfl⟩ := List.exists_cons_of_ne_nil hne
  obtain ⟨c, cs, hbody, hc⟩ := exists_bodyText_cons (hitems i List.mem_cons_self) items
  rw [hbody] at h
  obtain ⟨t, extra', span, rest, hscan, -, rfl⟩ := h.exists_cons
  rw [ClassBody.read_start (ClassBody.ne_of_standsFor (standsFor_of_scan hc hscan)).1]
  exact hfinishes opener position

/-- A class without bounds that are too large is read, and nothing else is. -/
theorem parse_of_bounded (hne : items ≠ []) (hitems : ∀ i ∈ items, i.Proper) (negated : Bool)
    (hbounds : ∀ cs, '{' :: cs <:+ classText negated items → ¬OversizedBounds cs) :
    parse (classText negated items) = .ok ⟨.charClass (readClass negated items), 0, []⟩ := by
  obtain ⟨lexemes, hlex⟩ :=
    (exists_lexFrom_iff (not_mem_classText hitems negated) 0).mpr hbounds
  obtain ⟨lx, rest, rfl, hrole, hsplits⟩ :=
    splits_classText hitems (splits_of_lexFrom hlex)
  obtain ⟨position', hread⟩ := read_classText hne hitems hsplits lx.span 1
  have hlexemes : readLexemes 0 .start (lx :: rest) =
      .ok (ParseState.start.push (.charClass (readClass negated items))) := by
    rw [readLexemes_classOpener hrole hread, readLexemes]
    rfl
  rw [parse, lex, hlex]
  simp only [parseLexemes, hlexemes]
  rfl

theorem exists_parse_iff (hne : items ≠ []) (hitems : ∀ i ∈ items, i.Proper) (negated : Bool) :
    (∃ p, parse (classText negated items) = .ok p) ↔
      ∀ cs, '{' :: cs <:+ classText negated items → ¬OversizedBounds cs := by
  constructor
  · rintro ⟨p, hp⟩
    apply (exists_lexFrom_iff (not_mem_classText hitems negated) 0).mp
    rw [parse, lex] at hp
    split at hp
    · simp at hp
    · exact ⟨_, ‹_›⟩
  · intro hbounds
    exact ⟨_, parse_of_bounded hne hitems negated hbounds⟩

/-! ## What the class covers -/

/-- The items that are read are items of the class or characters. -/
theorem mem_keptAfter {i : ClassItem} {lost : Nat} (h : i ∈ keptAfter lost items) :
    i ∈ items ∨ ∃ c, i = single c := by
  induction items generalizing lost with
  | nil => cases lost <;> simp [keptAfter] at h
  | cons j items ih =>
    have htail : ∀ {n}, i ∈ keptAfter n items → i ∈ j :: items ∨ ∃ c, i = single c :=
      fun hi => (ih hi).imp_left (List.mem_cons_of_mem j)
    cases j with
    | single c =>
      cases lost with
      | zero =>
        rcases List.mem_cons.mp h with rfl | h
        · exact .inr ⟨c, rfl⟩
        · exact htail h
      | succ lost => exact htail h
    | range a b =>
      cases lost with
      | zero =>
        rcases List.mem_cons.mp h with rfl | h
        · exact .inl List.mem_cons_self
        · exact htail h
      | succ lost =>
        rcases List.mem_cons.mp h with rfl | h
        · exact .inr ⟨'-', rfl⟩
        · rcases List.mem_cons.mp h with rfl | h
          · exact .inr ⟨b, rfl⟩
          · exact htail h

theorem spans_toRange {i : ClassItem} (hi : ∀ a b, i = range a b → a ≤ b) :
    i.toRange.Spans c ↔ i.Covers c := by
  cases i with
  | single d =>
    simp only [toRange, CharRange.Spans, Covers]
    constructor
    · rintro (⟨h, h'⟩ | ⟨h, h'⟩) <;> exact le_antisymm h' h
    · rintro rfl
      exact .inl ⟨le_rfl, le_rfl⟩
  | range a b =>
    rw [CharRange.spans_iff_of_le (hi a b rfl), CharRange.contains_iff]
    exact Iff.rfl

theorem pushItems_rest (ks : List ClassItem) :
    (pushItems .empty ks).negated = false ∧ (pushItems .empty ks).categories = [] :=
  CharClass.pushRanges_rest .empty (ks.map toRange)

theorem contains_pushItems (ks : List ClassItem) (hks : ∀ a b, range a b ∈ ks → a ≤ b) :
    (pushItems .empty ks).contains c = true ↔ ∃ i ∈ ks, i.Covers c := by
  have hempty : CharRange.Canonical CharClass.empty.ranges :=
    CharRange.normal_iff_canonical.mp CharRange.normal_nil
  have hcovered := (CharClass.pushRanges_spec hempty (ks.map toRange)).2 c
  rw [CharClass.contains, (pushItems_rest ks).1, (pushItems_rest ks).2]
  simp only [Bool.false_eq_true, if_false, List.any_nil, Bool.or_false]
  rw [CharRange.any_contains_iff, pushItems, hcovered]
  simp only [CharClass.empty, CharRange.covered_nil, false_or, List.mem_map, exists_exists_and_eq_and]
  apply exists_congr
  intro i
  apply and_congr_right
  intro hi
  apply spans_toRange
  rintro a b rfl
  exact hks a b hi

theorem contains_negate_pushItems (ks : List ClassItem) :
    (pushItems .empty ks).negate.contains c = !(pushItems .empty ks).contains c := by
  simp [CharClass.contains, CharClass.negate, pushItems_rest]

theorem contains_readClass (hitems : ∀ i ∈ items, i.Proper) (negated : Bool) :
    (readClass negated items).contains c = true ↔ Means negated (kept items) c := by
  have hcontains : (pushItems .empty (kept items)).contains c = true ↔
      ∃ i ∈ kept items, i.Covers c := by
    apply contains_pushItems
    intro a b hab
    rcases mem_keptAfter hab with hmem | ⟨d, hd⟩
    · exact (hitems _ hmem).2.2
    · simp at hd
  cases negated with
  | true =>
    rw [Means, if_pos rfl, ← hcontains, readClass, if_pos rfl, contains_negate_pushItems]
    simp
  | false => exact hcontains

theorem exists_token_ite {p : Prop} [Decidable p] {t : Token} {found : Scan}
    (h : ∃ t, found = .token t 0) : ∃ t', (if p then .token t 0 else found) = .token t' 0 := by
  split
  · exact ⟨t, rfl⟩
  · exact h

/-- Only groups and bounds are tokens with more characters than one. -/
theorem extra_eq_zero (hc : IsPlain c) (hgroup : c ≠ '(') (hbounds : c ≠ '{') (cs : List Char) :
    extra c cs = 0 := by
  have hescape : c ≠ '\\' := hc.ne (by decide)
  have hclass : c ≠ '[' := hc.ne (by decide)
  obtain ⟨t, hscan⟩ : ∃ t, scan c cs = .token t 0 := by
    unfold scan
    rw [if_neg hescape, if_neg hgroup, if_neg hbounds, if_neg hclass]
    iterate 10 apply exists_token_ite
    exact ⟨_, rfl⟩
  rw [extra, hscan]

theorem separate_of_ends (hitems : ∀ i ∈ items, i.Proper)
    (hends : ∀ a b, range a b ∈ items → b ≠ '(' ∧ b ≠ '{') : Separate items := by
  rintro before a b after rfl
  have hmem : range a b ∈ before ++ range a b :: after := by simp
  exact extra_eq_zero (hitems _ hmem).2.1 (hends a b hmem).1 (hends a b hmem).2 _

/-- A class is accepted if no bounds in it are too large, and holds the characters that its items
cover, or all others, but for the items that are lost after a range. -/
theorem parse_classText (negated : Bool) (hne : items ≠ []) (hitems : ∀ i ∈ items, i.Proper) :
    ((∃ p, parse (classText negated items) = .ok p) ↔
      ∀ cs, '{' :: cs <:+ classText negated items → ¬OversizedBounds cs) ∧
    (∀ p, parse (classText negated items) = .ok p →
      ∃ cls, p = ⟨.charClass cls, 0, []⟩ ∧
        (∀ c, cls.contains c = true ↔ Means negated (kept items) c) ∧
        (Separate items → ∀ c, cls.contains c = true ↔ Means negated items c)) ∧
    ((∀ a b, range a b ∈ items → b ≠ '(' ∧ b ≠ '{') → Separate items) := by
  refine ⟨exists_parse_iff hne hitems negated, ?_, separate_of_ends hitems⟩
  intro p hp
  have hbounds := (exists_parse_iff hne hitems negated).mp ⟨p, hp⟩
  obtain rfl := Except.ok.inj ((parse_of_bounded hne hitems negated hbounds).symm.trans hp)
  refine ⟨_, rfl, fun c => contains_readClass hitems negated, fun hseparate c => ?_⟩
  rw [contains_readClass hitems negated, kept_of_separate hseparate]

/-- The items of `[^{2,3}(?:a-c]`. -/
def gluedItems : List ClassItem :=
  ['{', '2', ',', '3', '}', '(', '?', ':'].map single ++ [range 'a' 'c']

/-- Bounds and a group opener are the characters of their texts. -/
theorem parse_classText_gluedItems :
    ∃ cls, parse (classText true gluedItems) = .ok ⟨.charClass cls, 0, []⟩ ∧
      ∀ c, cls.contains c = true ↔ Means true gluedItems c := by
  obtain ⟨haccepted, hmeans, hseparate⟩ :=
    @parse_classText gluedItems true (by decide) (by decide)
  have hbounds : ∀ cs, '{' :: cs <:+ classText true gluedItems → ¬OversizedBounds cs := by
    intro cs hcs hlarge
    obtain rfl : cs = ['2', ',', '3', '}', '(', '?', ':', 'a', '-', 'c', ']'] := by
      simpa [classText, bodyText, gluedItems, text, List.suffix_cons_iff] using hcs
    obtain ⟨extra, hfault⟩ := hlarge.scanBrace_eq
    have htoken : scanBrace ['2', ',', '3', '}', '(', '?', ':', 'a', '-', 'c', ']'] =
        .token (.bounds 2 (some 3)) 4 := by rfl
    exact absurd (htoken.symm.trans hfault) (by simp)
  obtain ⟨p, hp⟩ := haccepted.mpr hbounds
  obtain ⟨cls, rfl, -, hcontains⟩ := hmeans p hp
  refine ⟨cls, hp, hcontains (hseparate ?_)⟩
  intro a b hab
  obtain ⟨rfl, rfl⟩ : a = 'a' ∧ b = 'c' := by
    simpa [gluedItems] using hab
  exact ⟨by decide, by decide⟩

/-- The items of `[!-(?:]`. -/
def lostItems : List ClassItem := [range '!' '(', single '?', single ':']

/-- Only the bracket is read of a group opener that ends a range. -/
theorem not_means_lostItems :
    ¬∀ (negated : Bool) (items : List ClassItem), items ≠ [] → (∀ i ∈ items, i.Proper) →
      ∃ cls, parse (classText negated items) = .ok ⟨.charClass cls, 0, []⟩ ∧
        ∀ c, cls.contains c = true ↔ Means negated items c := by
  intro h
  obtain ⟨cls, hparse, hcontains⟩ := h false lostItems (by decide) (by decide)
  have hbounds : ∀ cs, '{' :: cs <:+ classText false lostItems → ¬OversizedBounds cs := by
    intro cs hcs
    exact absurd (hcs.subset List.mem_cons_self) (by decide)
  have hread := parse_of_bounded (by decide) (by decide) false hbounds
  obtain rfl : readClass false lostItems = cls := by
    simpa [hread] using hparse
  have hmeans : Means false lostItems '?' := ⟨single '?', by simp [lostItems], rfl⟩
  exact absurd ((hcontains '?').mpr hmeans) (by decide)

end ClassItem

end PatternSampler
