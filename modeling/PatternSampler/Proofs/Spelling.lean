import Mathlib.Data.List.Forall2
import PatternSampler.Proofs.WellFormed
/-!
# Spelling a pattern

How a tree is written as the text of a pattern: first as tokens (`Node.tokens`), then each token as
text (`Token.Spelled`).  A character is given after a backslash or by its code point, so that a tree
may have many texts; a writable tree has at least one (`Writable.exists_spelledBy`).
-/
set_option autoImplicit false

namespace PatternSampler

/-- The token of an assertion. -/
def Anchor.token : Anchor → Token
  | .lineStart => .caret
  | .lineEnd => .dollar
  | .textStart => .assertEscape 'A'
  | .textEnd => .assertEscape 'z'
  | .textEndNewline => .assertEscape 'Z'
  | .searchStart => .assertEscape 'G'
  | .wordBoundary => .assertEscape 'b'
  | .notWordBoundary => .assertEscape 'B'

/-! ## Texts of tokens -/

namespace Token

/-- The token, whichever way it gives a character. -/
def plain : Token → Token
  | .hex c => .escaped c
  | t => t

theorem role_plain (t : Token) : t.plain.role = t.role := by
  cases t <;> rfl

/-- The token gives a character after a backslash or by its code point. -/
theorem eq_of_plain_eq_escaped {t : Token} {c : Char} (h : t.plain = .escaped c) :
    t = .escaped c ∨ t = .hex c := by
  cases t <;> simp_all [plain]

theorem eq_of_plain_eq {t u : Token} (h : t.plain = u) (hu : ∀ c, u ≠ .escaped c) : t = u := by
  cases t <;> first | exact h | exact absurd h.symm (hu _)

/-- The text of a token that has but one. -/
def symbol? : Token → Option (List Char)
  | .nonCapture => some ['(', '?', ':']
  | .lookAhead => some ['(', '?', '=']
  | .negLookAhead => some ['(', '?', '!']
  | .lookBehind => some ['(', '?', '<', '=']
  | .negLookBehind => some ['(', '?', '<', '!']
  | .openGroup => some ['(']
  | .closeGroup => some [')']
  | .openNegatedClass => some ['[', '^']
  | .openClass => some ['[']
  | .closeClass => some [']']
  | .pipe => some ['|']
  | .star => some ['*']
  | .plus => some ['+']
  | .question => some ['?']
  | .caret => some ['^']
  | .dollar => some ['$']
  | .dot => some ['.']
  | .dash => some ['-']
  | .classEscape k => some k.spelling.toList
  | .assertEscape letter => some ['\\', letter]
  | _ => none

/-- The texts of a token.  A character that is no ASCII letter and no digit may follow a backslash,
and one whose code point has a numeral of two or four hexadecimal digits may be given by it. -/
inductive Spelled : Token → List Char → Prop where
  | symbol {t : Token} {text : List Char} (h : t.symbol? = some text) : Spelled t text
  | escaped {c : Char} (h : c.isAlphanum = false) : Spelled (.escaped c) ['\\', c]
  | hex {c letter : Char} {digits : List Char}
      (hlength : letter = 'x' ∧ digits.length = 2 ∨ letter = 'u' ∧ digits.length = 4)
      (hdigits : ∀ d ∈ digits, Text.isHexDigit d = true)
      (hvalue : Text.ofHexDigits digits = c.toNat) :
      Spelled (.escaped c) ('\\' :: letter :: digits)
  | exactly (n : Nat) : Spelled (.bounds n (some n)) ('{' :: (Nat.toDigits 10 n ++ ['}']))
  | atLeast (min : Nat) :
      Spelled (.bounds min none) ('{' :: (Nat.toDigits 10 min ++ [',', '}']))
  | between (min max : Nat) :
      Spelled (.bounds min (some max))
        ('{' :: (Nat.toDigits 10 min ++ ',' :: (Nat.toDigits 10 max ++ ['}'])))
  | backref (index : Nat) : Spelled (.backref index) ('\\' :: Nat.toDigits 10 index)

/-- The token has a text, and the numbers in it are within the limits of patterns. -/
def Writable : Token → Prop
  | .bounds min max => min ≤ maxBound ∧ ∀ bound ∈ max, bound ≤ maxBound
  | .backref index => 1 ≤ index ∧ index ≤ maxGroup
  | .assertEscape letter => ∃ anchor : Anchor, anchor.token = .assertEscape letter
  | .hex _ | .control _ | .literal _ | .brace | .namedGroup _ | .namedBackref _ => False
  | _ => True

end Token

/-! ## Tokens of a tree -/

/-- The token that opens a group. -/
def Opener.token : Opener → Token
  | .plain => .nonCapture
  | .capture _ => .openGroup
  | .look false false => .lookAhead
  | .look true false => .negLookAhead
  | .look false true => .lookBehind
  | .look true true => .negLookBehind

/-- The token of a quantifier. -/
def quantifierToken : Nat → Option Nat → Token
  | 0, none => .star
  | 1, none => .plus
  | 0, some 1 => .question
  | min, max => .bounds min max

theorem role_quantifierToken (min : Nat) (max : Option Nat) :
    (quantifierToken min max).role = .quantifier min max := by
  unfold quantifierToken
  split <;> rfl

/-- The tokens of a range: its ends, or the one character that it has. -/
def CharRange.tokens (r : CharRange) : List Token :=
  if r.first = r.last then [.escaped r.first] else [.escaped r.first, .dash, .escaped r.last]

/-- The tokens between the brackets of a class: its ranges, then its categories. -/
def CharClass.bodyTokens (cls : CharClass) : List Token :=
  cls.ranges.flatMap CharRange.tokens ++ cls.categories.map .classEscape

namespace Node

mutual

/-- The tokens of a tree. -/
def tokens : Node → List Token
  | .empty => []
  | .char c => [.escaped c]
  | .any => [.dot]
  | .charClass cls =>
    (if cls.negated then .openNegatedClass else .openClass) :: (cls.bodyTokens ++ [.closeClass])
  | .concat items => itemTokens items
  | .alternate arms => armTokens arms
  | .group body => Opener.plain.token :: (tokens body ++ [.closeGroup])
  | .capture index body => (Opener.capture index).token :: (tokens body ++ [.closeGroup])
  | .repetition body min max isLazy =>
    tokens body ++ quantifierToken min max :: (if isLazy then [.question] else [])
  | .backref index => [.backref index]
  | .assert anchor => [anchor.token]
  | .lookAround body negative behind =>
    (Opener.look negative behind).token :: (tokens body ++ [.closeGroup])

/-- The tokens of a sequence: those of each item. -/
def itemTokens : List Node → List Token
  | [] => []
  | item :: items => tokens item ++ itemTokens items

/-- The tokens of a choice: those of each arm, with bars between them. -/
def armTokens : List Node → List Token
  | [] => []
  | [arm] => tokens arm
  | arm :: arms => tokens arm ++ .pipe :: armTokens arms

end

/-- The text is one that spells the tree. -/
def SpelledBy (n : Node) (text : List Char) : Prop :=
  ∃ texts, List.Forall₂ Token.Spelled n.tokens texts ∧ texts.flatten = text

/-- What a text can express: no class is without a range and a category, and bounds are within the
limits of patterns. -/
def Expressible : Node → Prop
  | .charClass cls => cls.ranges ≠ [] ∨ cls.categories ≠ []
  | .repetition _ min max _ => min ≤ maxBound ∧ ∀ bound ∈ max, bound ≤ maxBound
  | _ => True

/-- The tree is well formed, and a text can express it. -/
structure Writable (n : Node) (groups : Nat) : Prop extends n.WellFormed groups where
  expressible : n.Everywhere Expressible
  groups_le : groups ≤ maxGroup

/-- The rules that each node of a writable tree meets. -/
structure Legible (groups : Nat) (n : Node) : Prop where
  shaped : n.Shaped
  expressible : n.Expressible
  reference : ∀ index, n = .backref index → 1 ≤ index ∧ index ≤ groups

theorem Writable.legible {n : Node} {groups : Nat} (h : n.Writable groups) :
    n.Everywhere (Legible groups) := fun m hm =>
  ⟨h.shaped m hm, h.expressible m hm, fun index heq => h.references index (heq ▸ hm)⟩

end Node

/-! ## Every token has a text -/

namespace Token

theorem exists_spelled {t : Token} (ht : t.Writable) : ∃ text, t.Spelled text := by
  cases t with
  | hex | control | literal | brace | namedGroup | namedBackref => exact ht.elim
  | escaped c =>
    cases hc : c.isAlphanum with
    | false => exact ⟨_, .escaped hc⟩
    | true =>
      have hlt : c.toNat < 256 := Text.toNat_lt_of_isAlphanum hc
      obtain ⟨digits, hlength, hdigits, hvalue⟩ := Text.exists_hexDigits hlt
      exact ⟨_, .hex (.inl ⟨rfl, hlength⟩) hdigits hvalue⟩
  | bounds min max =>
    cases max with
    | none => exact ⟨_, .atLeast min⟩
    | some max => exact ⟨_, .between min max⟩
  | backref index => exact ⟨_, .backref index⟩
  | _ => exact ⟨_, .symbol rfl⟩

theorem exists_spelled_of_forall {ts : List Token} (hts : ∀ t ∈ ts, t.Writable) :
    ∃ texts, List.Forall₂ Spelled ts texts := by
  induction ts with
  | nil => exact ⟨[], .nil⟩
  | cons t ts ih =>
    obtain ⟨ht, hts⟩ := List.forall_mem_cons.mp hts
    obtain ⟨text, htext⟩ := exists_spelled ht
    obtain ⟨texts, htexts⟩ := ih hts
    exact ⟨text :: texts, .cons htext htexts⟩

end Token

/-! ## The tokens of a tree are writable -/

theorem Anchor.writable_token (anchor : Anchor) : anchor.token.Writable := by
  cases anchor with
  | lineStart | lineEnd => trivial
  | textStart => exact ⟨.textStart, rfl⟩
  | textEnd => exact ⟨.textEnd, rfl⟩
  | textEndNewline => exact ⟨.textEndNewline, rfl⟩
  | searchStart => exact ⟨.searchStart, rfl⟩
  | wordBoundary => exact ⟨.wordBoundary, rfl⟩
  | notWordBoundary => exact ⟨.notWordBoundary, rfl⟩

theorem Opener.writable_group (o : Opener) {ts : List Token} (hts : ∀ t ∈ ts, t.Writable) :
    ∀ t ∈ o.token :: (ts ++ [.closeGroup]), t.Writable := by
  rw [List.forall_mem_cons, List.forall_mem_append, List.forall_mem_singleton]
  refine ⟨?_, hts, trivial⟩
  rcases o with _ | _ | ⟨_ | _, _ | _⟩ <;> trivial

namespace CharClass

theorem mem_bodyTokens {cls : CharClass} {t : Token} (h : t ∈ cls.bodyTokens) :
    (∃ c, t = .escaped c) ∨ t = .dash ∨ ∃ k, t = .classEscape k := by
  rcases List.mem_append.mp h with h | h
  · obtain ⟨r, -, hr⟩ := List.mem_flatMap.mp h
    unfold CharRange.tokens at hr
    split at hr
    · exact .inl ⟨r.first, List.mem_singleton.mp hr⟩
    · simp only [List.mem_cons, List.not_mem_nil, or_false] at hr
      rcases hr with rfl | rfl | rfl
      · exact .inl ⟨r.first, rfl⟩
      · exact .inr (.inl rfl)
      · exact .inl ⟨r.last, rfl⟩
  · obtain ⟨k, -, rfl⟩ := List.mem_map.mp h
    exact .inr (.inr ⟨k, rfl⟩)

theorem bodyTokens_ne_nil {cls : CharClass}
    (h : cls.ranges ≠ [] ∨ cls.categories ≠ []) : cls.bodyTokens ≠ [] := by
  rw [bodyTokens, ne_eq, List.append_eq_nil_iff, List.map_eq_nil_iff]
  rintro ⟨hranges, hcategories⟩
  refine h.elim (fun hne => ?_) (· hcategories)
  obtain ⟨r, ranges, heq⟩ := List.exists_cons_of_ne_nil hne
  rw [heq, List.flatMap_cons, CharRange.tokens] at hranges
  split at hranges <;> simp at hranges

end CharClass

namespace Node

theorem mem_itemTokens {ns : List Node} {t : Token} (h : t ∈ itemTokens ns) :
    ∃ n ∈ ns, t ∈ n.tokens := by
  induction ns with
  | nil => simp [itemTokens] at h
  | cons n ns ih =>
    rw [itemTokens, List.mem_append] at h
    rcases h with h | h
    · exact ⟨n, List.mem_cons_self, h⟩
    · obtain ⟨m, hm, ht⟩ := ih h
      exact ⟨m, List.mem_cons_of_mem _ hm, ht⟩

theorem armTokens_cons_cons (arm next : Node) (arms : List Node) :
    armTokens (arm :: next :: arms) = arm.tokens ++ .pipe :: armTokens (next :: arms) := by
  rw [armTokens]
  simp

theorem mem_armTokens {ns : List Node} {t : Token} (h : t ∈ armTokens ns) :
    t = .pipe ∨ ∃ n ∈ ns, t ∈ n.tokens := by
  induction ns with
  | nil => simp [armTokens] at h
  | cons n ns ih =>
    cases ns with
    | nil => exact .inr ⟨n, List.mem_cons_self, h⟩
    | cons m ns =>
      rw [armTokens_cons_cons, List.mem_append, List.mem_cons] at h
      rcases h with h | h | h
      · exact .inr ⟨n, List.mem_cons_self, h⟩
      · exact .inl h
      · exact (ih h).imp_right fun ⟨m, hm, ht⟩ => ⟨m, List.mem_cons_of_mem _ hm, ht⟩

variable {groups : Nat} {n : Node}

theorem writable_quantifierToken {min : Nat} {max : Option Nat}
    (h : min ≤ maxBound ∧ ∀ bound ∈ max, bound ≤ maxBound) :
    (quantifierToken min max).Writable := by
  unfold quantifierToken
  split
  · trivial
  · trivial
  · trivial
  · exact h

theorem writable_of_mem_tokens (hgroups : groups ≤ maxGroup) (h : n.Everywhere (Legible groups)) :
    ∀ t ∈ n.tokens, t.Writable := by
  induction n using Node.inductionOn with
  | empty => simp [tokens]
  | char | any => exact List.forall_mem_singleton.mpr trivial
  | charClass cls =>
    rw [tokens, List.forall_mem_cons, List.forall_mem_append, List.forall_mem_singleton]
    refine ⟨by split <;> trivial, fun t ht => ?_, trivial⟩
    rcases CharClass.mem_bodyTokens ht with ⟨c, rfl⟩ | rfl | ⟨k, rfl⟩ <;> trivial
  | concat items ih =>
    intro t ht
    obtain ⟨n, hn, ht⟩ := mem_itemTokens ht
    exact ih n hn ((Everywhere.concat_iff.mp h).2 n hn) t ht
  | alternate arms ih =>
    intro t ht
    rcases mem_armTokens ht with rfl | ⟨n, hn, ht⟩
    · trivial
    · exact ih n hn ((Everywhere.alternate_iff.mp h).2 n hn) t ht
  | group body ih => exact Opener.plain.writable_group (ih (Everywhere.group_iff.mp h).2)
  | capture index body ih =>
    exact (Opener.capture index).writable_group (ih (Everywhere.capture_iff.mp h).2)
  | repetition body min max isLazy ih =>
    rw [tokens, List.forall_mem_append, List.forall_mem_cons]
    obtain ⟨hself, hbody⟩ := Everywhere.repetition_iff.mp h
    refine ⟨ih hbody, writable_quantifierToken hself.expressible, ?_⟩
    cases isLazy with
    | true => exact List.forall_mem_singleton.mpr trivial
    | false => simp
  | backref index =>
    obtain ⟨hone, hle⟩ := h.self.reference index rfl
    exact List.forall_mem_singleton.mpr ⟨hone, hle.trans hgroups⟩
  | assert anchor => exact List.forall_mem_singleton.mpr anchor.writable_token
  | lookAround body negative behind ih =>
    exact (Opener.look negative behind).writable_group (ih (Everywhere.lookAround_iff.mp h).2)

theorem Writable.exists_spelledBy (h : n.Writable groups) : ∃ text, n.SpelledBy text := by
  obtain ⟨texts, htexts⟩ :=
    Token.exists_spelled_of_forall (writable_of_mem_tokens h.groups_le h.legible)
  exact ⟨_, texts, htexts, rfl⟩

end Node

end PatternSampler
