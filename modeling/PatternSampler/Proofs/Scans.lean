import PatternSampler.Proofs.Splitting
/-!
# What the scanner takes

A text splits into lexemes by taking the longest token at its start, again and again (`Splits`).
Without a backslash in the text only one thing stops that: bounds with a number that is too large
(`exists_lexFrom_iff`).  The longer tokens of such a text have no dash and no bracket after their
first character, so that none of them reaches beyond a range of a class.
-/
set_option autoImplicit false

namespace PatternSampler

/-! ## Texts and their lexemes -/

/-- Each lexeme is what the scanner takes from the text that those before it leave. -/
inductive Splits : List Char → List Lexeme → Prop where
  | nil : Splits [] []
  | cons {c : Char} {cs : List Char} {t : Token} {extra : Nat} {span : Span}
      {lexemes : List Lexeme} (hscan : scan c cs = .token t extra)
      (hrest : Splits (cs.drop extra) lexemes) :
      Splits (c :: cs) (⟨t, span, c :: cs.take extra⟩ :: lexemes)

theorem splits_of_lexFrom {position : Nat} {text : List Char} {lexemes : List Lexeme}
    (h : lexFrom position text = .ok lexemes) : Splits text lexemes := by
  fun_induction lexFrom position text generalizing lexemes with
  | case1 =>
    obtain rfl := Except.ok.inj h
    exact .nil
  | case2 => simp at h
  | case3 => simp at h
  | case4 position c cs t extra hscan =>
    rename_i ih
    obtain rfl := Except.ok.inj h
    exact .cons hscan (ih ‹_›)

theorem Splits.exists_cons {c : Char} {cs : List Char} {lexemes : List Lexeme}
    (h : Splits (c :: cs) lexemes) :
    ∃ t extra span rest, scan c cs = .token t extra ∧ Splits (cs.drop extra) rest ∧
      lexemes = ⟨t, span, c :: cs.take extra⟩ :: rest := by
  cases h with
  | cons hscan hrest => exact ⟨_, _, _, _, hscan, hrest, rfl⟩

theorem exists_lexFrom {text : List Char}
    (h : ∀ c cs, c :: cs <:+ text → ∀ extra, scan c cs ≠ .fault extra) (position : Nat) :
    ∃ lexemes, lexFrom position text = .ok lexemes := by
  fun_induction lexFrom position text with
  | case1 => exact ⟨[], rfl⟩
  | case2 position c cs extra hscan => exact absurd hscan (h c cs List.suffix_rfl extra)
  | case3 position c cs t extra hscan text stop e herror ih =>
    have hrest : ∀ d ds, d :: ds <:+ cs.drop extra → ∀ extra', scan d ds ≠ .fault extra' := by
      intro d ds hsuffix
      exact h d ds ((hsuffix.trans (List.drop_suffix extra cs)).trans (List.suffix_cons c cs))
    obtain ⟨lexemes, hlexemes⟩ := ih hrest
    rw [herror] at hlexemes
    simp at hlexemes
  | case4 position c cs t extra hscan text stop lexemes hlexemes ih => exact ⟨_, rfl⟩

/-! ## Bounds with a number that is too large -/

/-- What follows a brace gives bounds, and one of their numbers is beyond the limit. -/
inductive OversizedBounds : List Char → Prop where
  | exactly {low rest : List Char} (hne : low ≠ []) (hlow : ∀ d ∈ low, d.isDigit = true)
      (h : maxBound < Text.ofDigits low) : OversizedBounds (low ++ '}' :: rest)
  | between {low high rest : List Char} (hne : low ≠ []) (hlow : ∀ d ∈ low, d.isDigit = true)
      (hhigh : ∀ d ∈ high, d.isDigit = true)
      (h : maxBound < Text.ofDigits low ∨ maxBound < Text.ofDigits high) :
      OversizedBounds (low ++ ',' :: (high ++ '}' :: rest))

theorem OversizedBounds.scanBrace_eq {cs : List Char} (h : OversizedBounds cs) :
    ∃ extra, scanBrace cs = .fault extra := by
  cases h with
  | @exactly low rest hne hlow h =>
    have hscan := scanBrace_exactly_eq ⟨hne, hlow⟩ rest
    rw [if_neg (Nat.not_le.mpr h)] at hscan
    exact ⟨_, hscan⟩
  | @between low high rest hne hlow hhigh h =>
    cases high with
    | nil =>
      have hlarge : maxBound < Text.ofDigits low := h.resolve_right (by decide)
      have hscan := scanBrace_atLeast_eq ⟨hne, hlow⟩ rest
      rw [if_neg (Nat.not_le.mpr hlarge)] at hscan
      exact ⟨_, hscan⟩
    | cons e es =>
      have hscan := scanBrace_between_eq ⟨hne, hlow⟩ ⟨List.cons_ne_nil e es, hhigh⟩ rest
      rw [if_neg (by omega)] at hscan
      exact ⟨_, hscan⟩

/-! ## One token -/

/-- A character that may follow the first one in a token that is no escape. -/
def isInner (c : Char) : Bool :=
  isNameChar c || ['?', ':', '=', '!', '<', '>', ',', '}', '^'].contains c

/-- A character that stands for itself inside a class, whatever stands around it. -/
def IsPlain (c : Char) : Prop := c ∉ ['\\', '[', ']', '^', '-', '&', '~']

instance (c : Char) : Decidable (IsPlain c) := inferInstanceAs (Decidable (_ ∉ _))

theorem IsPlain.ne {c d : Char} (hc : IsPlain c) (hd : ¬IsPlain d) : c ≠ d := by
  rintro rfl
  exact hd hc

/-- Inside a class, the token stands for the characters of its text. -/
def Token.StandsFor (text : List Char) : Token → Prop
  | .literal c => text = [c] ∧ c ≠ '&' ∧ c ≠ '~'
  | .nonCapture | .lookAhead | .negLookAhead | .lookBehind | .negLookBehind | .namedGroup _
  | .openGroup | .closeGroup | .pipe | .star | .plus | .question | .bounds _ _ | .brace | .dollar
  | .dot => True
  | .openClass | .openNegatedClass | .closeClass | .caret | .dash | .classEscape _
  | .assertEscape _ | .backref _ | .namedBackref _ | .hex _ | .control _ | .escaped _ => False

/-- What may be found at the start of a text whose first character is no backslash: a token that
goes on with inner characters, and stands for its text if that starts with a plain character; or
bounds that are too large. -/
def Scan.Regular (c : Char) (cs : List Char) : Scan → Prop
  | .token t extra =>
    (IsPlain c → t.StandsFor (c :: cs.take extra)) ∧ ∀ d ∈ cs.take extra, isInner d = true
  | .fault _ => c = '{' ∧ OversizedBounds cs

theorem isInner_of_isNameChar {d : Char} (h : isNameChar d = true) : isInner d = true := by
  rw [isInner, h, Bool.true_or]

theorem isInner_of_isDigit {d : Char} (h : d.isDigit = true) : isInner d = true := by
  simp [isInner, isNameChar, Char.isAlphanum, h]

theorem isInner_of_isHexDigit {d : Char} (h : Text.isHexDigit d = true) : isInner d = true := by
  simp [isInner, isNameChar, Text.isAlphanum_of_isHexDigit h]

theorem forall_isInner {inner : List Char} (h : inner.all isInner = true) :
    ∀ d ∈ inner, isInner d = true := List.all_eq_true.mp h

theorem IsNumeral.isInner {text : List Char} (h : IsNumeral text) :
    ∀ d ∈ text, isInner d = true := fun d hd => isInner_of_isDigit (h.isDigit d hd)

theorem IsName.isInner {text : List Char} (h : IsName text) : ∀ d ∈ text, isInner d = true := by
  obtain ⟨c, cs, rfl, hstart, hchars⟩ := h
  have hfirst : isNameChar c = true := by
    simp only [isNameStart, Bool.or_eq_true] at hstart
    simp only [isNameChar, Char.isAlphanum, Bool.or_eq_true]
    exact hstart.imp_left .inl
  exact List.forall_mem_cons.mpr
    ⟨isInner_of_isNameChar hfirst, fun d hd => isInner_of_isNameChar (hchars d hd)⟩

namespace TokenRule

variable {text : List Char} {found : Option Token}

/-- A token goes on with inner characters, after the first or after a backslash and the next. -/
theorem inner (h : TokenRule text found) :
    (∃ c inner, text = c :: inner ∧ c ≠ '\\' ∧ ∀ d ∈ inner, isInner d = true) ∨
      ∃ c inner, text = '\\' :: c :: inner ∧ ∀ d ∈ inner, isInner d = true := by
  have hname : ∀ {start name : List Char}, (∀ d ∈ start, isInner d = true) → IsName name →
      ∀ d ∈ start ++ (name ++ ['>']), isInner d = true := fun hstart hname =>
    List.forall_mem_append.mpr
      ⟨hstart, List.forall_mem_append.mpr ⟨hname.isInner, forall_isInner (by decide)⟩⟩
  cases h with
  | sign h =>
    have hall : ∀ sign ∈ signs, sign.1.head? ≠ some '\\' ∧ sign.1.tail.all isInner = true := by
      decide
    obtain ⟨hfirst, hinner⟩ := hall _ h
    obtain ⟨c, inner, rfl⟩ := List.exists_cons_of_ne_nil (TokenRule.sign h).ne_nil
    exact .inl ⟨c, inner, rfl, by simpa using hfirst, forall_isInner hinner⟩
  | literal h => exact .inl ⟨_, [], rfl, fun heq => h (by simp [heq]), by simp⟩
  | @namedGroup _ name hopener h =>
    rcases hopener with rfl | rfl
    · exact .inl ⟨_, _, rfl, by decide, @hname ['?', '<'] name (forall_isInner (by decide)) h⟩
    · exact .inl ⟨_, _, rfl, by decide, @hname ['?', 'P', '<'] name (forall_isInner (by decide)) h⟩
  | exactly hlow | atLeast hlow =>
    exact .inl ⟨_, _, rfl, by decide,
      List.forall_mem_append.mpr ⟨hlow.isInner, forall_isInner (by decide)⟩⟩
  | between hlow hhigh =>
    refine .inl ⟨_, _, rfl, by decide, ?_⟩
    rw [List.forall_mem_append, List.forall_mem_cons, List.forall_mem_append]
    exact ⟨hlow.isInner, by decide, hhigh.isInner, forall_isInner (by decide)⟩
  | category | assertion | control | escaped => exact .inr ⟨_, [], rfl, by simp⟩
  | backref _ _ hdigits => exact .inr ⟨_, _, rfl, fun d hd => isInner_of_isDigit (hdigits d hd)⟩
  | @namedBackref name h =>
    exact .inr ⟨_, _, rfl, @hname ['<'] name (forall_isInner (by decide)) h⟩
  | hex _ hdigits => exact .inr ⟨_, _, rfl, fun d hd => isInner_of_isHexDigit (hdigits d hd)⟩

/-- A plain character starts a token that stands for its text. -/
theorem standsFor (h : TokenRule text found) :
    ∀ t ∈ found, ∀ c ∈ text.head?, IsPlain c → t.StandsFor text := by
  intro t ht c hc hplain
  cases h with
  | sign h =>
    obtain rfl := Option.some.inj ht
    fin_cases h <;>
      first
        | trivial
        | (obtain rfl := Option.some.inj hc; exact absurd hplain (by decide))
  | literal =>
    obtain rfl := Option.some.inj ht
    obtain rfl := Option.some.inj hc
    exact ⟨rfl, hplain.ne (by decide), hplain.ne (by decide)⟩
  | namedGroup =>
    obtain rfl := Option.some.inj ht
    trivial
  | exactly | atLeast | between =>
    simp only [Option.mem_def, Option.ite_none_right_eq_some, Option.some.injEq] at ht
    obtain ⟨-, rfl⟩ := ht
    trivial
  | _ =>
    obtain rfl := Option.some.inj hc
    exact absurd hplain (by decide)

/-- Besides escapes, only bounds are refused. -/
theorem oversizedBounds (h : TokenRule text found) (hfound : found = none) (rest : List Char) :
    (∃ inner, text = '\\' :: inner) ∨
      ∃ inner, text = '{' :: inner ∧ OversizedBounds (inner ++ rest) := by
  cases h with
  | sign | namedGroup | literal => simp at hfound
  | @exactly low hlow =>
    refine .inr ⟨_, rfl, ?_⟩
    rw [List.append_assoc]
    exact .exactly hlow.ne_nil hlow.isDigit (by simpa using hfound)
  | @atLeast low hlow =>
    refine .inr ⟨_, rfl, ?_⟩
    rw [List.append_assoc]
    exact @OversizedBounds.between low [] rest hlow.ne_nil hlow.isDigit (by simp)
      (.inl (by simpa using hfound))
  | @between low high hlow hhigh =>
    refine .inr ⟨_, rfl, ?_⟩
    rw [List.append_assoc, List.cons_append, List.append_assoc]
    have hlarge : ¬(Text.ofDigits low ≤ maxBound ∧ Text.ofDigits high ≤ maxBound) := fun hsmall =>
      by simp [hsmall] at hfound
    exact .between hlow.ne_nil hlow.isDigit hhigh.isDigit (by omega)
  | _ => exact .inl ⟨_, rfl⟩

end TokenRule

/-- Unless it is an escape, a token goes on with inner characters, and only bounds are refused. -/
theorem Scan.regular_scan {c : Char} {cs : List Char} (hc : c ≠ '\\') :
    (scan c cs).Regular c cs := by
  cases h : scan c cs with
  | token t extra =>
    obtain ⟨-, hrule⟩ := rule_of_scan h
    refine ⟨hrule.standsFor t rfl c rfl, ?_⟩
    rcases hrule.inner with ⟨d, inner, heq, -, hinner⟩ | ⟨d, inner, heq, -⟩
    · obtain ⟨rfl, rfl⟩ := List.cons.inj heq
      exact hinner
    · exact absurd (List.cons.inj heq).1 hc
  | fault extra =>
    rcases (rule_of_fault hc h).oversizedBounds rfl (cs.drop extra) with
      ⟨inner, heq⟩ | ⟨inner, heq, hlarge⟩
    · exact absurd (List.cons.inj heq).1 hc
    · obtain ⟨rfl, rfl⟩ := List.cons.inj heq
      rw [List.take_append_drop] at hlarge
      exact ⟨rfl, hlarge⟩

/-! ## Texts without escapes -/

/-- A lexeme that does not start with a backslash takes inner characters after its first. -/
theorem isInner_of_scan {c : Char} {cs : List Char} (hc : c ≠ '\\') {t : Token} {extra : Nat}
    (h : scan c cs = .token t extra) : ∀ d ∈ cs.take extra, isInner d = true := by
  have hregular := @Scan.regular_scan c cs hc
  rw [h] at hregular
  exact hregular.2

/-- A plain character starts a token that stands for its text. -/
theorem standsFor_of_scan {c : Char} {cs : List Char} (hc : IsPlain c) {t : Token} {extra : Nat}
    (h : scan c cs = .token t extra) : t.StandsFor (c :: cs.take extra) := by
  have hregular := @Scan.regular_scan c cs (hc.ne (by decide))
  rw [h] at hregular
  exact hregular.1 hc

theorem suffix_drop_or_mem_take {d : Char} {ds text : List Char} (h : d :: ds <:+ text) (n : Nat) :
    d :: ds <:+ text.drop n ∨ d ∈ text.take n := by
  rcases List.suffix_or_suffix_of_suffix h (List.drop_suffix n text) with hdrop | hdrop
  · exact .inl hdrop
  · rcases List.suffix_cons_iff.mp hdrop with heq | hds
    · exact .inl (heq ▸ List.suffix_rfl)
    · obtain ⟨before, hbefore⟩ := h
      obtain ⟨middle, hmiddle⟩ := hds
      have htake : text.take n = before ++ d :: middle := by
        apply (List.append_left_inj (text.drop n)).mp
        rw [List.take_append_drop, List.append_assoc, List.cons_append, hmiddle, hbefore]
      exact .inr (by simp [htake])

/-- Without escapes a brace always starts a token. -/
theorem not_oversizedBounds_of_splits {text : List Char} {lexemes : List Lexeme}
    (h : Splits text lexemes) (hescape : '\\' ∉ text) {cs : List Char}
    (hcs : '{' :: cs <:+ text) : ¬OversizedBounds cs := by
  induction h with
  | nil => simp at hcs
  | @cons c rest t extra span lexemes hscan hrest ih =>
    intro hlarge
    rcases List.suffix_cons_iff.mp hcs with heq | hsuffix
    · obtain ⟨rfl, rfl⟩ := List.cons.inj heq
      obtain ⟨extra', hfault⟩ := hlarge.scanBrace_eq
      have hscan' : scan '{' cs = scanBrace cs := rfl
      rw [hscan', hfault] at hscan
      simp at hscan
    · have hescape' : '\\' ∉ rest.drop extra := fun h =>
        hescape (List.mem_cons_of_mem c (List.mem_of_mem_drop h))
      have hc : c ≠ '\\' := by
        rintro rfl
        exact hescape List.mem_cons_self
      rcases suffix_drop_or_mem_take hsuffix extra with hdrop | htake
      · exact ih hescape' hdrop hlarge
      · exact absurd (isInner_of_scan hc hscan _ htake) (by decide)

/-- A text without escapes splits into lexemes unless it has bounds that are too large. -/
theorem exists_lexFrom_iff {text : List Char} (hescape : '\\' ∉ text) (position : Nat) :
    (∃ lexemes, lexFrom position text = .ok lexemes) ↔
      ∀ cs, '{' :: cs <:+ text → ¬OversizedBounds cs := by
  constructor
  · rintro ⟨lexemes, hlexemes⟩ cs hcs
    exact not_oversizedBounds_of_splits (splits_of_lexFrom hlexemes) hescape hcs
  · intro h
    apply exists_lexFrom
    intro c cs hsuffix extra hfault
    have hc : c ≠ '\\' := by
      rintro rfl
      exact hescape (hsuffix.subset List.mem_cons_self)
    have hregular := @Scan.regular_scan c cs hc
    rw [hfault] at hregular
    obtain ⟨rfl, hlarge⟩ := hregular
    exact h cs hsuffix hlarge

end PatternSampler
