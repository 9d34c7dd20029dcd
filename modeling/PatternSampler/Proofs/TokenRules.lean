import Mathlib.Data.List.TakeWhile
import Mathlib.Tactic.FinCases
import PatternSampler.Pattern.Lexer
/-!
# The rules of tokens

Each kind of token is a rule about whole texts: the rule fits a text, and makes a token of it or
refuses it (`TokenRule`).  Where several rules fit a start of a text, the longest start wins, and no
text is fitted by two rules.  The scanner finds that start (`scan_eq_token_iff`), and faults only
where the longest start is refused or there is none (`exists_fault_iff`).
-/
set_option autoImplicit false

namespace PatternSampler

/-! ## Rules -/

/-- The texts that are tokens as they stand. -/
def signs : List (List Char × Token) :=
  [(['(', '?', ':'], .nonCapture), (['(', '?', '='], .lookAhead), (['(', '?', '!'], .negLookAhead),
    (['(', '?', '<', '='], .lookBehind), (['(', '?', '<', '!'], .negLookBehind),
    (['('], .openGroup), ([')'], .closeGroup), (['[', '^'], .openNegatedClass), (['['], .openClass),
    ([']'], .closeClass), (['|'], .pipe), (['*'], .star), (['+'], .plus), (['?'], .question),
    (['{'], .brace), (['^'], .caret), (['$'], .dollar), (['.'], .dot), (['-'], .dash)]

/-- The text is the name of a group. -/
def IsName (text : List Char) : Prop :=
  ∃ c cs, text = c :: cs ∧ isNameStart c = true ∧ ∀ d ∈ cs, isNameChar d = true

/-- The text is a numeral. -/
structure IsNumeral (text : List Char) : Prop where
  ne_nil : text ≠ []
  isDigit : ∀ d ∈ text, d.isDigit = true

/-- What a rule makes of the whole text: a token, or nothing if the text is refused. -/
inductive TokenRule : List Char → Option Token → Prop where
  | sign {text : List Char} {t : Token} (h : (text, t) ∈ signs) : TokenRule text (some t)
  | namedGroup {opener name : List Char}
      (hopener : opener = ['(', '?', '<'] ∨ opener = ['(', '?', 'P', '<']) (hname : IsName name) :
      TokenRule (opener ++ (name ++ ['>'])) (some (.namedGroup (String.ofList name)))
  | exactly {low : List Char} (hlow : IsNumeral low) :
      TokenRule ('{' :: (low ++ ['}'])) (if Text.ofDigits low ≤ maxBound then
        some (.bounds (Text.ofDigits low) (some (Text.ofDigits low))) else none)
  | atLeast {low : List Char} (hlow : IsNumeral low) :
      TokenRule ('{' :: (low ++ [',', '}'])) (if Text.ofDigits low ≤ maxBound then
        some (.bounds (Text.ofDigits low) none) else none)
  | between {low high : List Char} (hlow : IsNumeral low) (hhigh : IsNumeral high) :
      TokenRule ('{' :: (low ++ ',' :: (high ++ ['}'])))
        (if Text.ofDigits low ≤ maxBound ∧ Text.ofDigits high ≤ maxBound then
          some (.bounds (Text.ofDigits low) (some (Text.ofDigits high))) else none)
  | category {c : Char} {k : Category} (h : category? c = some k) :
      TokenRule ['\\', c] (some (.classEscape k))
  | assertion {c : Char} (h : c ∈ ['b', 'B', 'A', 'z', 'Z', 'G']) :
      TokenRule ['\\', c] (some (.assertEscape c))
  | control {c d : Char} (h : control? c = some d) : TokenRule ['\\', c] (some (.control d))
  | escaped {c : Char} (h : c.isAlphanum = false) : TokenRule ['\\', c] (some (.escaped c))
  | backref {c : Char} {digits : List Char} (hone : '1' ≤ c) (hnine : c ≤ '9')
      (hdigits : ∀ d ∈ digits, d.isDigit = true) :
      TokenRule ('\\' :: c :: digits) (if Text.ofDigits (c :: digits) ≤ maxGroup then
        some (.backref (Text.ofDigits (c :: digits))) else none)
  | namedBackref {name : List Char} (hname : IsName name) :
      TokenRule ('\\' :: 'k' :: '<' :: (name ++ ['>']))
        (some (.namedBackref (String.ofList name)))
  | hex {letter : Char} {digits : List Char}
      (hlength : letter = 'x' ∧ digits.length = 2 ∨ letter = 'u' ∧ digits.length = 4)
      (hdigits : ∀ d ∈ digits, Text.isHexDigit d = true) :
      TokenRule ('\\' :: letter :: digits)
        ((Text.scalar? (Text.ofHexDigits digits)).map .hex)
  | literal {c : Char}
      (h : c ∉ ['\\', '(', ')', '[', ']', '|', '*', '+', '?', '{', '^', '$', '.', '-']) :
      TokenRule [c] (some (.literal c))

/-- The longest start of the text that a rule fits has `n` characters, and the rule makes `found`
of it. -/
structure LongestRule (text : List Char) (n : Nat) (found : Option Token) : Prop where
  le : n ≤ text.length
  rule : TokenRule (text.take n) found
  longest : ∀ m found', m ≤ text.length → TokenRule (text.take m) found' → m ≤ n

/-! ## What the scanner finds is given by a rule -/

namespace Scan

/-- What is found where a rule that fits `extra` characters after the first has its say. -/
def ofRule (extra : Nat) : Option Token → Scan
  | some t => .token t extra
  | none => .fault extra

@[simp] theorem ofRule_some (extra : Nat) (t : Token) : ofRule extra (some t) = .token t extra :=
  rfl

@[simp] theorem ofRule_none (extra : Nat) : ofRule extra none = .fault extra := rfl

theorem ofRule_ite {p : Prop} [Decidable p] (t : Token) (extra : Nat) :
    ofRule extra (if p then some t else none) = if p then .token t extra else .fault extra := by
  split <;> rfl

/-- What is found at the start of the text is what some rule makes of a start. -/
def Ruled (text : List Char) (s : Scan) : Prop :=
  ∃ start found extra, TokenRule start found ∧ start <+: text ∧ start.length = extra + 1 ∧
    s = ofRule extra found

theorem ruled_sign {start rest : List Char} {t : Token} (h : (start, t) ∈ signs) {extra : Nat}
    (hlength : start.length = extra + 1) : (Scan.token t extra).Ruled (start ++ rest) :=
  ⟨start, some t, extra, .sign h, List.prefix_append _ _, hlength, rfl⟩

end Scan

section Names

variable {cs name rest : List Char}

theorem angleName?_of_isName (h : IsName name) (rest : List Char) :
    angleName? (name ++ '>' :: rest) = some name := by
  obtain ⟨c, cs, rfl, hstart, hchars⟩ := h
  have hpart : namePart (c :: cs ++ '>' :: rest) = c :: cs := by
    have hend : isNameChar '>' = false := by decide
    simp [namePart, hstart, List.takeWhile_append_of_pos hchars, hend]
  simp only [angleName?, hpart, List.drop_left]

theorem isName_namePart (h : namePart cs ≠ []) : IsName (namePart cs) := by
  unfold namePart at h ⊢
  split
  · simp at h
  · split
    · exact ⟨_, _, rfl, ‹_›, fun d => List.mem_takeWhile_imp⟩
    · simp_all

theorem namePart_prefix (cs : List Char) : namePart cs <+: cs := by
  unfold namePart
  split
  · exact List.nil_prefix
  · split
    · exact List.cons_prefix_cons.mpr ⟨rfl, List.takeWhile_prefix _⟩
    · exact List.nil_prefix

theorem angleName?_eq_some_iff :
    angleName? cs = some name ↔ IsName name ∧ ∃ rest, cs = name ++ '>' :: rest := by
  constructor
  · intro h
    simp only [angleName?] at h
    split at h
    · rename_i hpart hdrop
      obtain rfl := Option.some.inj h
      obtain ⟨tail, htail⟩ := namePart_prefix cs
      have hrest := congrArg (List.drop (namePart cs).length) htail
      rw [List.drop_left, hdrop] at hrest
      exact ⟨isName_namePart (by simp [hpart]), _, by rw [← hrest, htail]⟩
    · simp at h
  · rintro ⟨hname, rest, rfl⟩
    exact angleName?_of_isName hname rest

end Names

section Numerals

variable {low high : List Char}

theorem scanBrace_exactly_eq (hlow : IsNumeral low) (rest : List Char) :
    scanBrace (low ++ '}' :: rest) = .ofRule (low.length + 1)
      (if Text.ofDigits low ≤ maxBound then
        some (.bounds (Text.ofDigits low) (some (Text.ofDigits low))) else none) := by
  have htake : (low ++ '}' :: rest).takeWhile (·.isDigit) = low := by
    simp [List.takeWhile_append_of_pos hlow.isDigit]
  obtain ⟨d, ds, rfl⟩ := List.exists_cons_of_ne_nil hlow.ne_nil
  simp only [scanBrace, htake, List.drop_left, Scan.ofRule_ite]

theorem scanBrace_atLeast_eq (hlow : IsNumeral low) (rest : List Char) :
    scanBrace (low ++ ',' :: '}' :: rest) = .ofRule (low.length + 2)
      (if Text.ofDigits low ≤ maxBound then some (.bounds (Text.ofDigits low) none) else none) := by
  have htake : (low ++ ',' :: '}' :: rest).takeWhile (·.isDigit) = low := by
    simp [List.takeWhile_append_of_pos hlow.isDigit]
  have hnone : ('}' :: rest).takeWhile (·.isDigit) = [] := rfl
  obtain ⟨d, ds, rfl⟩ := List.exists_cons_of_ne_nil hlow.ne_nil
  simp only [scanBrace, htake, List.drop_left, hnone, List.length_nil, List.drop_zero,
    Scan.ofRule_ite]

theorem scanBrace_between_eq (hlow : IsNumeral low) (hhigh : IsNumeral high) (rest : List Char) :
    scanBrace (low ++ ',' :: (high ++ '}' :: rest)) = .ofRule (low.length + high.length + 2)
      (if Text.ofDigits low ≤ maxBound ∧ Text.ofDigits high ≤ maxBound then
        some (.bounds (Text.ofDigits low) (some (Text.ofDigits high))) else none) := by
  have htake : (low ++ ',' :: (high ++ '}' :: rest)).takeWhile (·.isDigit) = low := by
    simp [List.takeWhile_append_of_pos hlow.isDigit]
  have htake' : (high ++ '}' :: rest).takeWhile (·.isDigit) = high := by
    simp [List.takeWhile_append_of_pos hhigh.isDigit]
  obtain ⟨d, ds, rfl⟩ := List.exists_cons_of_ne_nil hlow.ne_nil
  obtain ⟨e, es, rfl⟩ := List.exists_cons_of_ne_nil hhigh.ne_nil
  simp only [scanBrace, htake, htake', List.drop_left, Scan.ofRule_ite]

end Numerals

namespace Scan

theorem ruled_scanGroup (cs : List Char) : (scanGroup cs).Ruled ('(' :: cs) := by
  have hname : ∀ {opener cs name : List Char} {extra : Nat},
      (opener = ['(', '?', '<'] ∨ opener = ['(', '?', 'P', '<']) → angleName? cs = some name →
      opener.length + name.length = extra →
      (Scan.token (.namedGroup (String.ofList name)) extra).Ruled (opener ++ cs) := by
    intro opener cs name extra hopener h hlength
    obtain ⟨hname, rest, rfl⟩ := angleName?_eq_some_iff.mp h
    refine ⟨_, _, extra, .namedGroup hopener hname, ⟨rest, by simp⟩, ?_, rfl⟩
    simp only [List.length_append, List.length_singleton]
    omega
  have hopen : (Scan.token .openGroup 0).Ruled ('(' :: cs) :=
    @ruled_sign ['('] cs _ (by decide) 0 rfl
  unfold scanGroup
  split
  · exact @ruled_sign ['(', '?', ':'] _ _ (by decide) 2 rfl
  · exact @ruled_sign ['(', '?', '='] _ _ (by decide) 2 rfl
  · exact @ruled_sign ['(', '?', '!'] _ _ (by decide) 2 rfl
  · exact @ruled_sign ['(', '?', '<', '='] _ _ (by decide) 3 rfl
  · exact @ruled_sign ['(', '?', '<', '!'] _ _ (by decide) 3 rfl
  · split
    · exact hname (.inl rfl) ‹_› (Nat.add_comm _ _)
    · exact hopen
  · split
    · exact hname (.inr rfl) ‹_› (Nat.add_comm _ _)
    · exact hopen
  · exact hopen

/-- What follows a brace is bounds or makes it a brace on its own. -/
theorem scanBrace_forms (cs : List Char) :
    scanBrace cs = .token .brace 0 ∨
    (∃ low rest, IsNumeral low ∧ cs = low ++ '}' :: rest) ∨
    (∃ low rest, IsNumeral low ∧ cs = low ++ ',' :: '}' :: rest) ∨
    ∃ low high rest, IsNumeral low ∧ IsNumeral high ∧ cs = low ++ ',' :: (high ++ '}' :: rest) := by
  have hsplit : ∀ ds : List Char, ∃ digits rest, ds.takeWhile (·.isDigit) = digits ∧
      ds.drop digits.length = rest ∧ ds = digits ++ rest ∧ ∀ d ∈ digits, d.isDigit = true := by
    intro ds
    obtain ⟨rest, hrest⟩ := List.takeWhile_prefix (·.isDigit) (l := ds)
    have hdrop := congrArg (List.drop (ds.takeWhile (·.isDigit)).length) hrest
    rw [List.drop_left] at hdrop
    exact ⟨_, rest, rfl, hdrop.symm, hrest.symm, fun d => List.mem_takeWhile_imp⟩
  obtain ⟨low, tail, hlow, htail, rfl, hlows⟩ := hsplit cs
  simp only [scanBrace, hlow, htail]
  split
  · exact .inl rfl
  · rename_i rest hne
    exact .inr (.inl ⟨low, rest, ⟨hne, hlows⟩, rfl⟩)
  · rename_i rest hne
    obtain ⟨high, tail, hhigh, htail', rfl, hhighs⟩ := hsplit rest
    simp only [hhigh, htail']
    split
    · rename_i rest
      exact .inr (.inr (.inl ⟨low, rest, ⟨hne, hlows⟩, rfl⟩))
    · rename_i rest hne'
      exact .inr (.inr (.inr ⟨low, high, rest, ⟨hne, hlows⟩, ⟨hne', hhighs⟩, rfl⟩))
    · exact .inl rfl
  · exact .inl rfl

theorem ruled_scanBrace (cs : List Char) : (scanBrace cs).Ruled ('{' :: cs) := by
  rcases scanBrace_forms cs with hbrace | ⟨low, rest, hlow, rfl⟩ | ⟨low, rest, hlow, rfl⟩ |
    ⟨low, high, rest, hlow, hhigh, rfl⟩
  · rw [hbrace]
    exact @ruled_sign ['{'] cs _ (by decide) 0 rfl
  · exact ⟨_, _, _, .exactly hlow, ⟨rest, by simp⟩, by simp, scanBrace_exactly_eq hlow rest⟩
  · exact ⟨_, _, _, .atLeast hlow, ⟨rest, by simp⟩, by simp, scanBrace_atLeast_eq hlow rest⟩
  · exact ⟨_, _, _, .between hlow hhigh, ⟨rest, by simp⟩, by simp; omega,
      scanBrace_between_eq hlow hhigh rest⟩

/-- What is found behind a backslash is what a rule makes of it, or nothing. -/
def RuledOrNone (text : List Char) (s : Scan) : Prop := s.Ruled text ∨ ∃ extra, s = .fault extra

theorem ruledOrNone_of_rule {start text : List Char} {found : Option Token} {extra : Nat}
    (h : TokenRule start found) (hstart : start <+: text) (hlength : start.length = extra + 1) :
    (ofRule extra found).RuledOrNone text :=
  .inl ⟨start, found, extra, h, hstart, hlength, rfl⟩

theorem ruledOrNone_scanHex {letter : Char} {count : Nat}
    (hletter : letter = 'x' ∧ count = 2 ∨ letter = 'u' ∧ count = 4) (cs : List Char) :
    (scanHex count cs).RuledOrNone ('\\' :: letter :: cs) := by
  simp only [scanHex]
  split
  · rename_i hlength
    have hfound := (List.takeWhile_prefix Text.isHexDigit).trans (List.take_prefix count cs)
    have hdigits : ∀ d ∈ (cs.take count).takeWhile Text.isHexDigit, Text.isHexDigit d = true :=
      fun d => List.mem_takeWhile_imp
    generalize (cs.take count).takeWhile Text.isHexDigit = digits at *
    subst hlength
    have hstart : '\\' :: letter :: digits <+: '\\' :: letter :: cs := by
      simpa only [List.cons_prefix_cons, true_and] using hfound
    have hrule := ruledOrNone_of_rule (.hex hletter hdigits) hstart rfl
    cases hscalar : Text.scalar? (Text.ofHexDigits digits) <;>
      simpa only [hscalar, Option.map_some, Option.map_none, List.length_cons, ofRule] using hrule
  · exact .inr ⟨_, rfl⟩

theorem ruledOrNone_scanReference (cs : List Char) :
    (scanReference cs).RuledOrNone ('\\' :: 'k' :: cs) := by
  unfold scanReference
  split
  · split
    · rename_i name hangle
      obtain ⟨hname, rest, rfl⟩ := angleName?_eq_some_iff.mp hangle
      exact ruledOrNone_of_rule (.namedBackref hname) ⟨rest, by simp⟩ (by simp)
    · exact .inr ⟨_, rfl⟩
  · exact .inr ⟨_, rfl⟩

theorem scanBackref_eq {c : Char} (hone : '1' ≤ c) (hnine : c ≤ '9') (cs : List Char) :
    scanBackref (c :: cs) = .ofRule ((cs.takeWhile (·.isDigit)).length + 1)
      (if Text.ofDigits (c :: cs.takeWhile (·.isDigit)) ≤ maxGroup then
        some (.backref (Text.ofDigits (c :: cs.takeWhile (·.isDigit)))) else none) := by
  have hdigit := Text.isDigit_of_one_le hone hnine
  simp only [scanBackref, List.takeWhile_cons, hdigit, if_true, List.length_cons, ofRule_ite]

theorem ruledOrNone_scanEscape (cs : List Char) : (scanEscape cs).RuledOrNone ('\\' :: cs) := by
  cases cs with
  | nil => exact .inr ⟨0, rfl⟩
  | cons c cs =>
    have hstart : ['\\', c] <+: '\\' :: c :: cs := ⟨cs, rfl⟩
    simp only [scanEscape]
    split
    · rename_i hescaped
      exact ruledOrNone_of_rule (.escaped (by simpa using hescaped)) hstart rfl
    split
    · rename_i hdigit
      rw [scanBackref_eq hdigit.1 hdigit.2]
      refine ruledOrNone_of_rule (.backref hdigit.1 hdigit.2 fun d => List.mem_takeWhile_imp) ?_ rfl
      simp only [List.cons_prefix_cons, true_and]
      exact List.takeWhile_prefix _
    split
    · rename_i hletter
      exact hletter ▸ ruledOrNone_scanReference cs
    split
    · rename_i hletter
      exact hletter ▸ ruledOrNone_scanHex (.inl ⟨rfl, rfl⟩) cs
    split
    · rename_i hletter
      exact hletter ▸ ruledOrNone_scanHex (.inr ⟨rfl, rfl⟩) cs
    split
    · rename_i hletter
      exact ruledOrNone_of_rule (.assertion (by simpa using hletter)) hstart rfl
    split
    · exact ruledOrNone_of_rule (.category ‹_›) hstart rfl
    · split
      · exact ruledOrNone_of_rule (.control ‹_›) hstart rfl
      · exact .inr ⟨0, rfl⟩

theorem ruled_ite {c d : Char} {text : List Char} {s s' : Scan} (hs : c = d → s.Ruled text)
    (hs' : c ≠ d → s'.Ruled text) : (if c = d then s else s').Ruled text := by
  split
  · exact hs ‹_›
  · exact hs' ‹_›

theorem ruled_scan {c : Char} (hc : c ≠ '\\') (cs : List Char) : (scan c cs).Ruled (c :: cs) := by
  unfold scan
  rw [if_neg hc]
  refine ruled_ite (fun heq => heq ▸ ruled_scanGroup cs) fun hgroup => ?_
  refine ruled_ite (fun heq => heq ▸ ruled_scanBrace cs) fun hbrace => ?_
  refine ruled_ite ?_ fun hopen => ?_
  · rintro rfl
    split
    · exact @ruled_sign ['[', '^'] _ _ (by decide) 1 rfl
    · exact @ruled_sign ['['] cs _ (by decide) 0 rfl
  iterate 10
    refine ruled_ite ?_ fun _ => ?_
    · rintro rfl
      exact @ruled_sign [_] cs _ (by decide) 0 rfl
  exact ⟨[c], _, 0, .literal (by simp [*]), ⟨cs, rfl⟩, rfl, rfl⟩

/-! ## The scanner finds what a rule gives, or more

The rules are not compared with one another.  Each one is compared with what the scanner finds where
the rule fits, and what it finds is itself given by a rule.
-/

/-- How many characters after the first are found. -/
def extra : Scan → Nat
  | .token _ extra => extra
  | .fault extra => extra

@[simp] theorem extra_ofRule (n : Nat) (found : Option Token) : (ofRule n found).extra = n := by
  cases found <;> rfl

/-- A parenthesis is found on its own or with what makes it another opener. -/
theorem scanGroup_open (cs : List Char) :
    scanGroup cs = .token .openGroup 0 ∨ 1 ≤ (scanGroup cs).extra := by
  unfold scanGroup
  split <;> (try split) <;> simp [extra]

theorem scanBrace_open (cs : List Char) :
    scanBrace cs = .token .brace 0 ∨ 1 ≤ (scanBrace cs).extra := by
  rcases scanBrace_forms cs with hbrace | ⟨low, rest, hlow, rfl⟩ | ⟨low, rest, hlow, rfl⟩ |
    ⟨low, high, rest, hlow, hhigh, rfl⟩
  · exact .inl hbrace
  · exact .inr (by simp [scanBrace_exactly_eq hlow])
  · exact .inr (by simp [scanBrace_atLeast_eq hlow])
  · exact .inr (by simp [scanBrace_between_eq hlow hhigh])

/-- A name cannot be taken for the mark of a lookbehind. -/
theorem scanGroup_angle {cs name : List Char} (h : angleName? cs = some name) :
    scanGroup ('?' :: '<' :: cs) = .token (.namedGroup (String.ofList name)) (name.length + 3) := by
  obtain ⟨⟨c, ds, rfl, hstart, -⟩, rest, rfl⟩ := angleName?_eq_some_iff.mp h
  have hequal : c ≠ '=' := by
    rintro rfl
    exact absurd hstart (by decide)
  have hbang : c ≠ '!' := by
    rintro rfl
    exact absurd hstart (by decide)
  rw [List.cons_append] at h ⊢
  simp [scanGroup, hequal, hbang, h]

end Scan

/-- The scanner finds what a rule makes of a start of the text, or what another one makes of a
longer start. -/
def Outdone (text start : List Char) (found : Option Token) (s : Scan) : Prop :=
  s = .ofRule (start.length - 1) found ∨ start.length ≤ s.extra ∧ s.Ruled text

theorem outdone_openClass (cs : List Char) :
    Outdone ('[' :: cs) ['['] (some .openClass) (scan '[' cs) := by
  have hruled := @Scan.ruled_scan '[' (by decide) cs
  simp only [scan, Char.reduceEq, if_true, if_false] at hruled ⊢
  split at hruled
  · exact .inr ⟨Nat.le_refl 1, hruled⟩
  · exact .inl rfl

theorem outdone_sign {sign : List Char × Token} (h : sign ∈ signs) {c : Char}
    {cs rest : List Char} (htext : c :: cs = sign.1 ++ rest) :
    Outdone (c :: cs) sign.1 (some sign.2) (scan c cs) := by
  fin_cases h <;> obtain ⟨rfl, rfl⟩ := List.cons.inj htext <;>
    first
      | exact .inl rfl
      | exact (Scan.scanGroup_open _).imp_right fun hle => ⟨hle, Scan.ruled_scanGroup _⟩
      | exact (Scan.scanBrace_open _).imp_right fun hle => ⟨hle, Scan.ruled_scanBrace _⟩
      | exact outdone_openClass _

theorem mem_of_category? {c : Char} {k : Category} (h : category? c = some k) :
    c ∈ ['d', 'D', 'w', 'W', 's', 'S'] := by
  unfold category? at h
  grind

theorem mem_of_control? {c d : Char} (h : control? c = some d) :
    c ∈ ['n', 'r', 't', 'f', 'v', '0'] := by
  unfold control? at h
  grind

theorem scanHex_eq {count : Nat} {digits : List Char} (hlength : digits.length = count)
    (hdigits : ∀ d ∈ digits, Text.isHexDigit d = true) (rest : List Char) :
    scanHex count (digits ++ rest) =
      .ofRule (count + 1) ((Text.scalar? (Text.ofHexDigits digits)).map .hex) := by
  have htake : (digits ++ rest).take count = digits := List.take_left' hlength
  have hall : digits.takeWhile Text.isHexDigit = digits := List.takeWhile_eq_self_iff.mpr hdigits
  simp only [scanHex, htake, hall, hlength, if_true]
  cases Text.scalar? (Text.ofHexDigits digits) <;> rfl

theorem scan_backref {c : Char} (hone : '1' ≤ c) (hnine : c ≤ '9') (cs : List Char) :
    scan '\\' (c :: cs) = scanBackref (c :: cs) := by
  have halnum : c.isAlphanum = true := by
    rw [Char.isAlphanum, Text.isDigit_of_one_le hone hnine, Bool.or_true]
  simp only [scan, if_true, scanEscape, halnum, Bool.not_true, Bool.false_eq_true, if_false,
    if_pos (And.intro hone hnine)]

/-- More digits may follow a numeral, and then a longer one is found. -/
theorem outdone_backref {c : Char} {digits : List Char} (hone : '1' ≤ c) (hnine : c ≤ '9')
    (hdigits : ∀ d ∈ digits, d.isDigit = true) (rest : List Char) :
    Outdone ('\\' :: c :: (digits ++ rest)) ('\\' :: c :: digits)
      (if Text.ofDigits (c :: digits) ≤ maxGroup then
        some (.backref (Text.ofDigits (c :: digits))) else none)
      (scan '\\' (c :: (digits ++ rest))) := by
  have htake : (digits ++ rest).takeWhile (·.isDigit) = digits ++ rest.takeWhile (·.isDigit) :=
    List.takeWhile_append_of_pos hdigits
  have hmore : ∀ d ∈ digits ++ rest.takeWhile (·.isDigit), d.isDigit = true :=
    List.forall_mem_append.mpr ⟨hdigits, fun d => List.mem_takeWhile_imp⟩
  have hprefix : digits ++ rest.takeWhile (·.isDigit) <+: digits ++ rest :=
    (List.prefix_append_right_inj digits).mpr (List.takeWhile_prefix _)
  rw [scan_backref hone hnine, Scan.scanBackref_eq hone hnine, htake]
  cases htail : rest.takeWhile (·.isDigit) with
  | nil =>
    rw [List.append_nil]
    exact .inl rfl
  | cons d ds =>
    rw [htail] at hmore hprefix
    refine .inr ⟨?_, _, _, _, .backref hone hnine hmore, ?_, rfl, rfl⟩
    · rw [Scan.extra_ofRule]
      simp only [List.length_cons, List.length_append]
      omega
    · simpa only [List.cons_prefix_cons, true_and] using hprefix

theorem TokenRule.outdone {start : List Char} {found : Option Token} (h : TokenRule start found)
    {c : Char} {cs rest : List Char} (htext : c :: cs = start ++ rest) :
    Outdone (c :: cs) start found (scan c cs) := by
  cases h with
  | sign h => exact outdone_sign h htext
  | literal h =>
    obtain ⟨rfl, rfl⟩ := List.cons.inj htext
    simp only [List.mem_cons, List.not_mem_nil, or_false, not_or] at h
    exact .inl (by simp [scan, h, Scan.ofRule])
  | @namedGroup _ name hopener hname =>
    have hangle := angleName?_of_isName hname rest
    rcases hopener with rfl | rfl
    · obtain ⟨rfl, rfl⟩ := List.cons.inj htext
      have hscan := Scan.scanGroup_angle hangle
      exact .inl (by simpa [scan, Scan.ofRule] using hscan)
    · obtain ⟨rfl, rfl⟩ := List.cons.inj htext
      exact .inl (by simp [scan, scanGroup, hangle, Scan.ofRule])
  | @exactly low hlow =>
    obtain ⟨rfl, rfl⟩ := List.cons.inj htext
    have hscan := scanBrace_exactly_eq hlow rest
    exact .inl (by simpa [scan] using hscan)
  | @atLeast low hlow =>
    obtain ⟨rfl, rfl⟩ := List.cons.inj htext
    have hscan := scanBrace_atLeast_eq hlow rest
    exact .inl (by simpa [scan] using hscan)
  | @between low high hlow hhigh =>
    obtain ⟨rfl, rfl⟩ := List.cons.inj htext
    have hscan := scanBrace_between_eq hlow hhigh rest
    exact .inl (by simpa [scan, Nat.add_assoc] using hscan)
  | category h =>
    obtain ⟨rfl, rfl⟩ := List.cons.inj htext
    have hletter := mem_of_category? h
    fin_cases hletter <;> (obtain rfl := Option.some.inj h; exact .inl rfl)
  | assertion h =>
    obtain ⟨rfl, rfl⟩ := List.cons.inj htext
    fin_cases h <;> exact .inl rfl
  | control h =>
    obtain ⟨rfl, rfl⟩ := List.cons.inj htext
    have hletter := mem_of_control? h
    fin_cases hletter <;> (obtain rfl := Option.some.inj h; exact .inl rfl)
  | escaped h =>
    obtain ⟨rfl, rfl⟩ := List.cons.inj htext
    exact .inl (by simp [scan, scanEscape, h, Scan.ofRule])
  | backref hone hnine hdigits =>
    obtain ⟨rfl, rfl⟩ := List.cons.inj htext
    exact outdone_backref hone hnine hdigits rest
  | namedBackref hname =>
    obtain ⟨rfl, rfl⟩ := List.cons.inj htext
    have hangle := angleName?_of_isName hname rest
    exact .inl (by simp [scan, scanEscape, scanReference, hangle, Scan.ofRule])
  | hex hlength hdigits =>
    obtain ⟨rfl, rfl⟩ := List.cons.inj htext
    rcases hlength with ⟨rfl, hlength⟩ | ⟨rfl, hlength⟩ <;>
      exact .inl (by simpa [scan, scanEscape, hlength] using scanHex_eq hlength hdigits rest)

/-! ## The longest rule -/

namespace Scan

variable {text : List Char} {s : Scan}

theorem ruledOrNone_scan (c : Char) (cs : List Char) :
    (scan c cs).RuledOrNone (c :: cs) := by
  by_cases hc : c = '\\'
  · subst hc
    exact ruledOrNone_scanEscape cs
  · exact .inl (ruled_scan hc cs)

theorem ofRule_inj {n : Nat} {found found' : Option Token} (h : ofRule n found = ofRule n found') :
    found = found' := by
  cases found <;> cases found' <;> simp_all [ofRule]

/-- The rule that has its say fits all that is found. -/
theorem Ruled.rule (h : s.Ruled text) :
    ∃ found, s = ofRule s.extra found ∧ s.extra + 1 ≤ text.length ∧
      TokenRule (text.take (s.extra + 1)) found := by
  obtain ⟨start, found, extra, hrule, hprefix, hlength, rfl⟩ := h
  rw [extra_ofRule, ← hlength]
  exact ⟨found, rfl, hprefix.length_le, List.prefix_iff_eq_take.mp hprefix ▸ hrule⟩

end Scan

section Longest

variable {c : Char} {cs : List Char}

/-- A token is found by a rule that fits its text. -/
theorem rule_of_scan {t : Token} {extra : Nat} (h : scan c cs = .token t extra) :
    extra ≤ cs.length ∧ TokenRule (c :: cs.take extra) (some t) := by
  rcases Scan.ruledOrNone_scan c cs with hruled | ⟨extra', hfault⟩
  · obtain ⟨found, heq, hle, hrule⟩ := hruled.rule
    rw [h] at heq hle hrule
    obtain rfl : some t = found := Scan.ofRule_inj heq
    exact ⟨Nat.le_of_succ_le_succ hle, hrule⟩
  · rw [h] at hfault
    simp at hfault

/-- Behind anything but a backslash, what is found is given by a rule in any case. -/
theorem rule_of_fault (hc : c ≠ '\\') {extra : Nat} (h : scan c cs = .fault extra) :
    TokenRule (c :: cs.take extra) none := by
  obtain ⟨found, heq, -, hrule⟩ := (Scan.ruled_scan hc cs).rule
  rw [h] at heq hrule
  obtain rfl : none = found := Scan.ofRule_inj heq
  exact hrule

theorem TokenRule.ne_nil {text : List Char} {found : Option Token} (h : TokenRule text found) :
    text ≠ [] := by
  cases h with
  | sign h => exact (by decide : ∀ sign ∈ signs, sign.1 ≠ []) _ h
  | namedGroup hopener => rcases hopener with rfl | rfl <;> exact List.cons_ne_nil _ _
  | _ => exact List.cons_ne_nil _ _

/-- Where a rule fits, what is found is given by a rule. -/
theorem TokenRule.ruled_scan {start rest : List Char} {found : Option Token}
    (h : TokenRule start found) (htext : c :: cs = start ++ rest) :
    (scan c cs).Ruled (c :: cs) := by
  rcases h.outdone htext with hscan | ⟨-, hruled⟩
  · have hpos := List.length_pos_of_ne_nil h.ne_nil
    exact ⟨start, found, _, h, ⟨rest, htext.symm⟩, (Nat.sub_add_cancel hpos).symm, hscan⟩
  · exact hruled

/-- The rule that has its say is the one with the longest start. -/
theorem exists_longestRule (h : (scan c cs).Ruled (c :: cs)) :
    ∃ found, scan c cs = .ofRule (scan c cs).extra found ∧
      LongestRule (c :: cs) ((scan c cs).extra + 1) found := by
  obtain ⟨found, heq, hle, hrule⟩ := h.rule
  refine ⟨found, heq, hle, hrule, fun m found' hm hrule' => ?_⟩
  have hlength : ((c :: cs).take m).length = m := List.length_take_of_le hm
  rcases hrule'.outdone (List.take_append_drop m (c :: cs)).symm with hscan | ⟨hbeyond, -⟩
  · rw [hscan, Scan.extra_ofRule, hlength]
    omega
  · rw [hlength] at hbeyond
    omega

theorem LongestRule.scan_eq {n : Nat} {found : Option Token}
    (h : LongestRule (c :: cs) n found) : scan c cs = .ofRule (n - 1) found := by
  have hlength : ((c :: cs).take n).length = n := List.length_take_of_le h.le
  rcases h.rule.outdone (List.take_append_drop n (c :: cs)).symm with hscan | ⟨hbeyond, hruled⟩
  · rwa [hlength] at hscan
  · obtain ⟨found', -, hlonger⟩ := exists_longestRule hruled
    have hle := h.longest _ _ hlonger.le hlonger.rule
    rw [hlength] at hbeyond
    omega

/-- A token is found just where the longest start that a rule fits gives it. -/
theorem scan_eq_token_iff {t : Token} {extra : Nat} :
    scan c cs = .token t extra ↔ LongestRule (c :: cs) (extra + 1) (some t) := by
  constructor
  · intro h
    obtain ⟨hle, hrule⟩ := rule_of_scan h
    have htext : c :: cs = (c :: cs.take extra) ++ cs.drop extra := by
      rw [List.cons_append, List.take_append_drop]
    have hruled := hrule.ruled_scan htext
    obtain ⟨found, heq, hlongest⟩ := exists_longestRule hruled
    rw [h] at heq hlongest
    obtain rfl : some t = found := Scan.ofRule_inj heq
    exact hlongest
  · intro h
    exact h.scan_eq

/-- No token starts the text: the longest start that a rule fits is refused, or no rule fits. -/
def Tokenless (text : List Char) : Prop :=
  (∃ n, LongestRule text n none) ∨
    ∀ n found, n ≤ text.length → ¬TokenRule (text.take n) found

theorem tokenless_iff : Tokenless (c :: cs) ↔ ∃ extra, scan c cs = .fault extra := by
  constructor
  · rintro (⟨n, hlongest⟩ | hnone)
    · exact ⟨_, hlongest.scan_eq⟩
    · cases h : scan c cs with
      | token t extra =>
        obtain ⟨hle, hrule⟩ := rule_of_scan h
        exact absurd hrule (hnone (extra + 1) _ (Nat.succ_le_succ hle))
      | fault extra => exact ⟨extra, rfl⟩
  · rintro ⟨extra, h⟩
    by_cases hfits : ∃ n found, n ≤ (c :: cs).length ∧ TokenRule ((c :: cs).take n) found
    · obtain ⟨n, found, -, hrule⟩ := hfits
      have hruled := hrule.ruled_scan (List.take_append_drop n (c :: cs)).symm
      obtain ⟨found', heq, hlongest⟩ := exists_longestRule hruled
      rw [h] at heq
      cases found' with
      | none => exact .inl ⟨_, hlongest⟩
      | some t => simp [Scan.ofRule] at heq
    · exact .inr fun n found hn hrule => hfits ⟨n, found, hn, hrule⟩

end Longest

end PatternSampler
