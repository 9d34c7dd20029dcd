import PatternSampler.Proofs.Quoting
/-!
# How many copies bounds give

A literal text under bounds is written as often as the lower bound says, and further up to the
distance between the bounds as far as the settings allow.  Both counts are operands, and an operand
goes no further than 2147483647: the mandatory copies stop there, and more optional copies than that
count as unbounded, of which none is written.  Main statement: `Program.generate_bounded`.
-/
set_option autoImplicit false

namespace PatternSampler

open Layout

/-! ## Literals under bounds -/

/-- What stands before bounds: a literal character, or a group of literal text. -/
inductive Literal where
  | char (c : Char)
  | group (s : List Char)
  deriving DecidableEq, Repr

namespace Literal

/-- The text that one copy writes. -/
def text : Literal → List Char
  | char c => [c]
  | group s => s

/-- The text of some copies in a row. -/
def copies (x : Literal) (n : Nat) : String := String.ofList (List.replicate n x.text).flatten

/-- The node of the literal. -/
def node : Literal → Node
  | char c => .char c
  | group s => .group (.ofItems (s.map .char))

/-- The pattern of the literal. -/
def source : Literal → List Char
  | char c => Pattern.quoteChar c
  | group s => ['(', '?', ':'] ++ (Pattern.quote s ++ [')'])

/-- The pattern of the literal under bounds, which a question mark makes lazy. -/
def bounded (x : Literal) (min max : Nat) (isLazy : Bool) : List Char :=
  x.source ++ ('{' :: (Nat.toDigits 10 min ++ ',' :: (Nat.toDigits 10 max ++ ['}'])) ++
    if isLazy then ['?'] else [])

theorem length_copies (x : Literal) (n : Nat) : (x.copies n).length = n * x.text.length := by
  simp [copies]

/-! ## Reading -/

section Reading

open Pattern

/-- The tokens of the literal. -/
def tokens : Literal → List Token
  | char c => [quotedToken c]
  | group s => .nonCapture :: (s.map quotedToken ++ [.closeGroup])

theorem foundIn_nonCapture (rest : List Char) : Token.nonCapture.FoundIn ['(', '?', ':'] rest :=
  ⟨_, _, .nonCapture, rfl, rfl, rfl⟩

theorem foundIn_closeGroup (rest : List Char) : Token.closeGroup.FoundIn [')'] rest :=
  ⟨_, _, .closeGroup, rfl, rfl, rfl⟩

theorem foundIn_question (rest : List Char) : Token.question.FoundIn ['?'] rest :=
  ⟨_, _, .question, rfl, rfl, rfl⟩

theorem lexesTo_source {rest : List Char} {ts : List Token} (h : LexesTo rest ts) (x : Literal) :
    LexesTo (x.source ++ rest) (x.tokens ++ ts) := by
  cases x with
  | char c => exact h.cons (foundIn_quoteChar c rest)
  | group s =>
    have hclose : LexesTo ([')'] ++ rest) (.closeGroup :: ts) := h.cons (foundIn_closeGroup rest)
    have hopen := (lexesTo_quote hclose s).cons (foundIn_nonCapture _)
    simpa [source, tokens] using hopen

theorem lexesTo_bounded (x : Literal) {min max : Nat} (hmin : min ≤ maxBound)
    (hmax : max ≤ maxBound) (isLazy : Bool) :
    LexesTo (x.bounded min max isLazy)
      (x.tokens ++ .bounds min (some max) :: (if isLazy then [.question] else [])) := by
  have hmark : LexesTo (if isLazy then ['?'] else []) (if isLazy then [.question] else []) := by
    cases isLazy with
    | true => exact lexesTo_nil.cons (foundIn_question [])
    | false => exact lexesTo_nil
  have hwritable : (Token.bounds min (some max)).Writable :=
    ⟨hmin, fun _ hbound => Option.some.inj hbound ▸ hmax⟩
  exact lexesTo_source (hmark.cons (Token.foundIn_bounds hwritable (.between min max) _)) x

/-- The literal becomes the last item of the arm at hand. -/
theorem reads_tokens (x : Literal) {next : Option Token} {l : Level} {k : Nat} :
    Reads 0 next l k x.tokens (l.push x.node) k := by
  cases x with
  | char c => exact .leaf (role_quotedToken c)
  | group s =>
    have hhead : (s.map quotedToken).head? ≠ some .question := by
      cases s with
      | nil => simp
      | cons c s =>
        rw [List.map_cons, List.head?_cons, quotedToken]
        split <;> simp
    have hgroup := @Reads.group 0 next l _ k k _ .plain rfl hhead
      (@reads_quotedTokens s _ .start k)
    simpa [tokens, node, Opener.token, Opener.wrap, Level.node, Level.arm, Level.start,
      Node.ofArms] using hgroup

theorem isQuantifiable_node (x : Literal) : x.node.IsQuantifiable := by
  cases x <;> trivial

theorem parse_bounded (x : Literal) {min max : Nat} (hle : min ≤ max) (hmax : max ≤ maxBound)
    (isLazy : Bool) :
    parse (x.bounded min max isLazy) =
      .ok ⟨.repetition x.node min (some max) isLazy, 0, []⟩ := by
  have hbounds : Reads 0 none (Level.start.push x.node) 0
      (.bounds min (some max) :: (if isLazy then [.question] else []))
      ⟨[], [.repetition x.node min (some max) isLazy]⟩ 0 :=
    .quantifier rfl x.isQuantifiable_node (fun _ hbound => Option.some.inj hbound ▸ hle) (by simp)
  exact parse_of_lexesTo (x.lexesTo_bounded (hle.trans hmax) hmax isLazy)
    (x.reads_tokens.append hbounds)

end Reading

/-! ## Writing -/

variable (options : PatternOptions) {cfg : Config}

theorem sample_node (x : Literal) (place : Place) :
    x.node.sample options cfg place = .text (String.ofList x.text) := by
  cases x with
  | char c => exact sample_chars place [c]
  | group s => exact sample_chars place s

/-- A literal under bounds writes its mandatory copies and its optional ones. -/
theorem sampled_repetition (x : Literal) (min : Nat) (max : Option Nat) (isLazy : Bool) :
    (Node.repetition x.node min max isLazy).sampled options cfg =
      .ok (x.copies (mandatoryCopies min + optionalCopies cfg min max isLazy)) := by
  rw [Node.sampled, Node.sample, sample_node, sample_node, ← Writer.times_add, Writer.times_text]
  rfl

theorem width_node (x : Literal) : width options x.node ≤ 2 := by
  cases x with
  | char c => exact width_chars [c]
  | group s => exact width_chars s

theorem single?_node (x : Literal) : single? options x.node = none ∨
    ∃ c, single? options x.node = some (.one c) := by
  match x with
  | char c => exact .inr ⟨c, rfl⟩
  | group [] => exact .inl rfl
  | group [c] => exact .inr ⟨c, rfl⟩
  | group (_ :: _ :: _) => exact .inl rfl

theorem tables_node (x : Literal) (rtl : Bool) (a : Nat) :
    (layoutNode options rtl a .empty x.node).2.classes = [] ∧
      (layoutNode options rtl a .empty x.node).2.strings.length ≤ 1 := by
  cases x with
  | char c => exact tables_chars rtl a [c]
  | group s => exact tables_chars rtl a s

/-- The code of a literal under bounds can be addressed, whatever the bounds are. -/
theorem fits_repetition (x : Literal) (min : Nat) (max : Option Nat) (isLazy : Bool) :
    (layoutRoot options (.repetition x.node min max isLazy)).Fits := by
  apply fits_of_small
  · have hnode := x.width_node options
    simp only [width, singleWidth, headWidth, openWidth, tailWidth]
    grind
  · rw [layoutNode]
    -- one character is an operand, and a longer text one string of the table
    rcases x.single?_node options with hnone | ⟨c, hone⟩
    · simp only [hnone]
      exact x.tables_node options false _
    · simp only [hone, layoutSingle_tables]
      exact ⟨rfl, Nat.zero_le 1⟩

/-- Whatever text is read as a literal under bounds, its program writes the mandatory copies and the
optional ones. -/
theorem generate_of_parse (x : Literal) {source : List Char} {min : Nat} {max : Option Nat}
    {isLazy : Bool} (hparse : parse source = .ok ⟨.repetition x.node min max isLazy, 0, []⟩) :
    ∃ p, Program.ofSource options source = .ok p ∧
      ∀ cfg, ∃ steps, ∀ fuel ≥ steps, p.generate cfg fuel =
        some (.ok (x.copies (mandatoryCopies min + optionalCopies cfg min max isLazy))) := by
  have hfits := x.fits_repetition options min max isLazy
  obtain ⟨p, hp, hcode⟩ := Program.exists_ofNode hfits
  refine ⟨p, Program.ofSource_eq_ofNode hparse hp, fun cfg => ?_⟩
  rw [← x.sampled_repetition options]
  exact Program.generate_of_layoutRoot hcode hfits

end Literal

/-! ## Counts -/

theorem optionalCopies_of_lt {cfg : Config} {min max : Nat} (h : max - min < 2147483647) :
    optionalCopies cfg min (some max) false = Nat.min (max - min) cfg.repetitionCap.toNat := by
  simp [optionalCopies, Nat.not_le.mpr h]

/-- More optional copies than an operand can ask for count as unbounded. -/
theorem optionalCopies_of_le {cfg : Config} {min max : Nat} (h : 2147483647 ≤ max - min)
    (isLazy : Bool) : optionalCopies cfg min (some max) isLazy = 0 := by
  simp [optionalCopies, h]

/-- A literal under bounds is a pattern, and each text that is read as it has a program that ends
with copies of the literal.  The mandatory copies are all written, up to 2147483647 of them.  Lazy
bounds add none.  Other bounds add the distance between them, as far as the cap on repetitions
allows, or nothing if the distance is beyond 2147483647. -/
theorem Program.generate_bounded (x : Literal) {min max : Nat} (hle : min ≤ max)
    (hmax : max ≤ maxBound) (isLazy : Bool) :
    parse (x.bounded min max isLazy) =
      .ok ⟨.repetition x.node min (some max) isLazy, 0, []⟩ ∧
    ∀ (options : PatternOptions) (source : List Char),
      parse source = .ok ⟨.repetition x.node min (some max) isLazy, 0, []⟩ →
      ∃ p, ofSource options source = .ok p ∧ ∀ cfg : Config, ∃ n,
        (∃ steps, ∀ fuel ≥ steps, p.generate cfg fuel = some (.ok (x.copies n))) ∧
        Nat.min min 2147483647 ≤ n ∧
        (isLazy = true → n = Nat.min min 2147483647) ∧
        (isLazy = false → max - min < 2147483647 →
          n = Nat.min min 2147483647 + Nat.min (max - min) cfg.repetitionCap.toNat) ∧
        (isLazy = false → 2147483647 < max - min → n = Nat.min min 2147483647) := by
  refine ⟨x.parse_bounded hle hmax isLazy, fun options source hparse => ?_⟩
  obtain ⟨p, hp, hgenerate⟩ := x.generate_of_parse options hparse
  refine ⟨p, hp, fun cfg => ⟨_, hgenerate cfg, Nat.le_add_right _ _, ?_, ?_, ?_⟩⟩
  · rintro rfl
    rw [optionalCopies_lazy, Nat.add_zero, mandatoryCopies]
  · rintro rfl hdistance
    rw [optionalCopies_of_lt hdistance, mandatoryCopies]
  · rintro rfl hdistance
    rw [optionalCopies_of_le hdistance.le, Nat.add_zero, mandatoryCopies]

/-- A group whose upper bound is beyond reach gives its mandatory copies, one whose optional copies
can just be counted gives as many as the cap allows, and lazy bounds give none of those. -/
theorem Program.generate_bounded_group :
    let x := Literal.group ['a', 'b']
    x.bounded 2 4294967295 false = "(?:ab)\x7b2,4294967295\x7d".toList ∧
    (∃ p, ofSource .default (x.bounded 2 4294967295 false) = .ok p ∧
      ∃ steps, ∀ fuel ≥ steps, p.generate .default fuel = some (.ok "abab")) ∧
    (∃ p, ofSource .default (x.bounded 1 2147483647 false) = .ok p ∧
      ∃ steps, ∀ fuel ≥ steps, p.generate .default fuel = some (.ok "ababababababababab")) ∧
    ∃ p, ofSource .default (x.bounded 1 2147483647 true) = .ok p ∧
      ∃ steps, ∀ fuel ≥ steps, p.generate .default fuel = some (.ok "ab") := by
  intro x
  refine ⟨by decide, ?_, ?_, ?_⟩
  · obtain ⟨hparse, hsources⟩ := @generate_bounded x 2 4294967295 (by decide) (by decide) false
    obtain ⟨p, hp, hcopies⟩ := hsources .default _ hparse
    obtain ⟨n, hrun, -, -, -, hbeyond⟩ := hcopies .default
    obtain rfl := hbeyond rfl (by decide)
    exact ⟨p, hp, hrun⟩
  · obtain ⟨hparse, hsources⟩ := @generate_bounded x 1 2147483647 (by decide) (by decide) false
    obtain ⟨p, hp, hcopies⟩ := hsources .default _ hparse
    obtain ⟨n, hrun, -, -, hcounted, -⟩ := hcopies .default
    obtain rfl := hcounted rfl (by decide)
    exact ⟨p, hp, hrun⟩
  · obtain ⟨hparse, hsources⟩ := @generate_bounded x 1 2147483647 (by decide) (by decide) true
    obtain ⟨p, hp, hcopies⟩ := hsources .default _ hparse
    obtain ⟨n, hrun, -, hlazy, -⟩ := hcopies .default
    obtain rfl := hlazy rfl
    exact ⟨p, hp, hrun⟩

namespace Literal

/-- The literal under bounds writes the lower bound's copies and, unless the bounds are lazy, those
up to the upper bound that the cap allows. -/
def KeepsBounds (x : Literal) (min max : Nat) (isLazy : Bool) : Prop :=
  ∀ (options : PatternOptions) (cfg : Config),
    ∃ p, Program.ofSource options (x.bounded min max isLazy) = .ok p ∧
      ∃ steps, ∀ fuel ≥ steps, p.generate cfg fuel = some (.ok (x.copies
        (min + if isLazy then 0 else Nat.min (max - min) cfg.repetitionCap.toNat)))

theorem eq_of_copies_eq {x : Literal} (hx : x.text ≠ []) {n k : Nat}
    (h : x.copies n = x.copies k) : n = k := by
  have hlength := congrArg String.length h
  rw [length_copies, length_copies] at hlength
  exact Nat.eq_of_mul_eq_mul_right (List.length_pos_of_ne_nil hx) hlength

/-- Bounds that are kept ask for as many copies as are written. -/
theorem KeepsBounds.copies_eq {x : Literal} {min max : Nat} {isLazy : Bool}
    (h : x.KeepsBounds min max isLazy) (hx : x.text ≠ []) (hle : min ≤ max)
    (hmax : max ≤ maxBound) (cfg : Config) :
    mandatoryCopies min + optionalCopies cfg min (some max) isLazy =
      min + if isLazy then 0 else Nat.min (max - min) cfg.repetitionCap.toNat := by
  obtain ⟨p, hp, steps, hstated⟩ := h .default cfg
  obtain ⟨q, hq, hgenerate⟩ :=
    x.generate_of_parse .default (x.parse_bounded hle hmax isLazy)
  obtain rfl : p = q := Except.ok.inj (hp.symm.trans hq)
  -- both say how the run ends, so they agree once there are steps enough for both
  obtain ⟨steps', hwritten⟩ := hgenerate cfg
  have heq := (hwritten _ (Nat.le_max_right steps steps')).symm.trans
    (hstated _ (Nat.le_max_left steps steps'))
  exact eq_of_copies_eq hx (Except.ok.inj (Option.some.inj heq))

/-- Neither an upper bound nor a lower one is kept that is too large for an operand. -/
theorem not_keepsBounds_large :
    ¬(char 'a').KeepsBounds 0 2147483648 false ∧
      ¬(char 'a').KeepsBounds 4294967295 4294967295 false := by
  constructor
  · intro h
    exact absurd (h.copies_eq (by decide) (by decide) (by decide) .default) (by decide)
  · intro h
    exact absurd (h.copies_eq (by decide) (by decide) (by decide) .default) (by decide)

end Literal

end PatternSampler
