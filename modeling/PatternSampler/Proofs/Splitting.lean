import Mathlib.Data.List.Chain
import Mathlib.Data.List.TakeWhile
import PatternSampler.Proofs.Spelling
/-!
# Splitting what was spelled

A text that was put together from tokens splits into these tokens again, if no two neighbours make a
longer one (`lexesTo_of_spelled`).  In the tokens of a tree that never happens: a parenthesis is not
followed by a quantifier, an opening bracket not by a caret, and no token starts with a digit that a
reference by number could take.  So each text of a tree splits into the tokens of the tree
(`Writable.lex_of_spelledBy`).
-/
set_option autoImplicit false

namespace PatternSampler

/-! ## Finding a token -/

namespace Token

/-- The token is what `text` starts with, before `rest`; a character may be given either way. -/
def FoundIn (t : Token) (text rest : List Char) : Prop :=
  ∃ c cs t', text = c :: cs ∧ t'.plain = t ∧ scan c (cs ++ rest) = .token t' cs.length

/-- What follows the token does not lengthen it. -/
def EndsBefore : Token → List Char → Prop
  | .openGroup, c :: _ => c ≠ '?'
  | .openClass, c :: _ => c ≠ '^'
  | .backref _, c :: _ => c.isDigit = false
  | _, _ => True

theorem foundIn_symbol {t : Token} (ht : t.Writable) {text rest : List Char}
    (h : t.symbol? = some text) (hrest : t.EndsBefore rest) : t.FoundIn text rest := by
  cases t with
  | hex | control | literal | brace | namedGroup | namedBackref => exact ht.elim
  | bounds | backref | escaped => simp [symbol?] at h
  | classEscape k =>
    obtain rfl := Option.some.inj h
    cases k <;> exact ⟨_, _, _, rfl, rfl, rfl⟩
  | assertEscape letter =>
    obtain rfl := Option.some.inj h
    refine ⟨_, _, .assertEscape letter, rfl, rfl, ?_⟩
    obtain ⟨anchor, hanchor⟩ := ht
    cases anchor <;> simp only [Anchor.token, reduceCtorEq, assertEscape.injEq] at hanchor <;>
      subst hanchor <;> simp [scan, scanEscape]
  | openGroup =>
    obtain rfl := Option.some.inj h
    refine ⟨_, _, .openGroup, rfl, rfl, ?_⟩
    change scanGroup rest = .token .openGroup 0
    unfold scanGroup
    split <;> simp_all [EndsBefore]
  | openClass =>
    obtain rfl := Option.some.inj h
    refine ⟨_, _, .openClass, rfl, rfl, ?_⟩
    cases rest with
    | nil => rfl
    | cons c rest =>
      simp only [EndsBefore] at hrest
      simp [scan, hrest]
  | _ =>
    obtain rfl := Option.some.inj h
    exact ⟨_, _, _, rfl, rfl, rfl⟩

theorem foundIn_escaped {c : Char} (h : c.isAlphanum = false) (rest : List Char) :
    (Token.escaped c).FoundIn ['\\', c] rest :=
  ⟨_, _, .escaped c, rfl, rfl, by simp [scan, scanEscape, h]⟩

theorem foundIn_hex {c letter : Char} {digits : List Char}
    (hlength : letter = 'x' ∧ digits.length = 2 ∨ letter = 'u' ∧ digits.length = 4)
    (hdigits : ∀ d ∈ digits, Text.isHexDigit d = true)
    (hvalue : Text.ofHexDigits digits = c.toNat) (rest : List Char) :
    (Token.escaped c).FoundIn ('\\' :: letter :: digits) rest := by
  refine ⟨_, _, .hex c, rfl, rfl, ?_⟩
  have hscan := fun count hcount => @scanHex_eq count digits hcount hdigits rest
  simp only [hvalue, Text.scalar?_toNat, Option.map_some, Scan.ofRule_some] at hscan
  rcases hlength with ⟨rfl, hlength⟩ | ⟨rfl, hlength⟩ <;>
    simpa [scan, scanEscape, hlength] using hscan _ hlength

/-! ### Bounds -/

theorem foundIn_bounds {min : Nat} {max : Option Nat} (ht : (Token.bounds min max).Writable)
    {text : List Char} (h : (Token.bounds min max).Spelled text) (rest : List Char) :
    (Token.bounds min max).FoundIn text rest := by
  have hnumeral : ∀ n, IsNumeral (Nat.toDigits 10 n) := fun n =>
    ⟨Nat.toDigits_ne_nil, fun d hd => Nat.isDigit_of_mem_toDigits (by decide) (by decide) hd⟩
  obtain ⟨hmin, hmax⟩ := ht
  cases h with
  | symbol h => simp [symbol?] at h
  | exactly =>
    refine ⟨_, _, .bounds min (some min), rfl, rfl, ?_⟩
    have hscan := scanBrace_exactly_eq (hnumeral min) rest
    rw [Text.ofDigits_toDigits, if_pos hmin] at hscan
    simpa [scan] using hscan
  | atLeast =>
    refine ⟨_, _, .bounds min none, rfl, rfl, ?_⟩
    have hscan := scanBrace_atLeast_eq (hnumeral min) rest
    rw [Text.ofDigits_toDigits, if_pos hmin] at hscan
    simpa [scan] using hscan
  | between _ max =>
    refine ⟨_, _, .bounds min (some max), rfl, rfl, ?_⟩
    have hscan := scanBrace_between_eq (hnumeral min) (hnumeral max) rest
    rw [Text.ofDigits_toDigits, Text.ofDigits_toDigits, if_pos ⟨hmin, hmax max rfl⟩] at hscan
    simpa [scan, Nat.add_assoc] using hscan

theorem foundIn_backref {index : Nat} (ht : (Token.backref index).Writable) {rest : List Char}
    (hrest : (Token.backref index).EndsBefore rest) :
    (Token.backref index).FoundIn ('\\' :: Nat.toDigits 10 index) rest := by
  refine ⟨_, _, .backref index, rfl, rfl, ?_⟩
  have hnext : ∀ c ∈ rest.head?, c.isDigit = false := by
    cases rest with
    | nil => simp
    | cons c rest => simpa [EndsBefore] using hrest
  have htake := Text.takeWhile_toDigits index hnext
  have hvalue := Text.ofDigits_toDigits index
  obtain ⟨c, cs, hcs, hone, hnine⟩ := Text.exists_toDigits_eq_cons ht.1
  rw [hcs] at htake hvalue ⊢
  rw [List.cons_append, scan_backref hone hnine]
  simp only [scanBackref, ← List.cons_append, htake, hvalue, if_pos ht.2]

/-! ### Neighbours -/

/-- The second token may follow the first in a text without making it longer.  A reference by number
is never followed by a digit, as no token starts with one. -/
def Apart (t u : Token) : Prop :=
  (t = .openGroup → u ≠ .question) ∧ (t = .openClass → u ≠ .caret)

/-- What a text starts with tells whether its token may follow another. -/
theorem exists_cons_of_spelled {t : Token} {text : List Char} (h : t.Spelled text) :
    ∃ c cs, text = c :: cs ∧ c.isDigit = false ∧ (t ≠ .question → c ≠ '?') ∧
      (t ≠ .caret → c ≠ '^') := by
  cases h with
  | symbol h =>
    cases t with
    | hex | control | literal | brace | namedGroup | namedBackref | bounds | backref | escaped =>
      simp [symbol?] at h
    | classEscape k =>
      obtain rfl := Option.some.inj h
      cases k <;> exact ⟨_, _, rfl, by decide⟩
    | assertEscape letter =>
      obtain rfl := Option.some.inj h
      exact ⟨_, _, rfl, by simp⟩
    | _ =>
      obtain rfl := Option.some.inj h
      exact ⟨_, _, rfl, by simp⟩
  | _ => exact ⟨_, _, rfl, by simp⟩

theorem endsBefore_of_apart {t u : Token} {text : List Char} (h : t.Apart u) (hu : u.Spelled text)
    (rest : List Char) : t.EndsBefore (text ++ rest) := by
  obtain ⟨c, cs, rfl, hdigit, hquestion, hcaret⟩ := exists_cons_of_spelled hu
  cases t with
  | openGroup => exact hquestion (h.1 rfl)
  | openClass => exact hcaret (h.2 rfl)
  | backref => exact hdigit
  | _ => trivial

theorem foundIn_of_spelled {t : Token} (ht : t.Writable) {text rest : List Char}
    (h : t.Spelled text) (hrest : t.EndsBefore rest) : t.FoundIn text rest := by
  cases h with
  | symbol h => exact foundIn_symbol ht h hrest
  | escaped h => exact foundIn_escaped h rest
  | hex hlength hdigits hvalue => exact foundIn_hex hlength hdigits hvalue rest
  | exactly n => exact foundIn_bounds ht (.exactly n) rest
  | atLeast min => exact foundIn_bounds ht (.atLeast min) rest
  | between min max => exact foundIn_bounds ht (.between min max) rest
  | backref => exact foundIn_backref ht hrest

end Token

/-! ## Splitting a text -/

theorem lexFrom_of_foundIn {t : Token} {text rest : List Char} (h : t.FoundIn text rest)
    {position : Nat} {lexemes : List Lexeme}
    (hrest : lexFrom (position + Text.byteLength text) rest = .ok lexemes) :
    ∃ lx : Lexeme, lx.token.plain = t ∧
      lexFrom position (text ++ rest) = .ok (lx :: lexemes) := by
  obtain ⟨c, cs, t', rfl, ht', hscan⟩ := h
  refine ⟨⟨t', ⟨position, position + Text.byteLength (c :: cs)⟩, c :: cs⟩, ht', ?_⟩
  rw [List.cons_append, lexFrom, hscan]
  simp only [List.take_left, List.drop_left, hrest]

/-- The text is split into the tokens, whichever way they give characters. -/
def LexesTo (text : List Char) (ts : List Token) : Prop :=
  ∀ position, ∃ lexemes, lexFrom position text = .ok lexemes ∧ lexemes.map (·.token.plain) = ts

theorem lexesTo_nil : LexesTo [] [] := fun _ => ⟨[], by rw [lexFrom], rfl⟩

theorem LexesTo.cons {t : Token} {text rest : List Char} {ts : List Token} (h : LexesTo rest ts)
    (ht : t.FoundIn text rest) : LexesTo (text ++ rest) (t :: ts) := by
  intro position
  obtain ⟨lexemes, hlex, rfl⟩ := h (position + Text.byteLength text)
  obtain ⟨lx, rfl, hcons⟩ := lexFrom_of_foundIn ht hlex
  exact ⟨lx :: lexemes, hcons, rfl⟩

/-- A text is split into the tokens that it is made of. -/
theorem lexesTo_of_spelled {ts : List Token} {texts : List (List Char)}
    (h : List.Forall₂ Token.Spelled ts texts) (hts : ∀ t ∈ ts, t.Writable)
    (hchain : ts.IsChain Token.Apart) : LexesTo texts.flatten ts := by
  induction h with
  | nil => exact lexesTo_nil
  | @cons t text ts texts ht hrest ih =>
    obtain ⟨hwritable, hts⟩ := List.forall_mem_cons.mp hts
    obtain ⟨happart, hchain⟩ := List.isChain_cons.mp hchain
    have hends : t.EndsBefore texts.flatten := by
      cases hrest with
      | nil => cases t <;> trivial
      | cons hu _ => exact Token.endsBefore_of_apart (happart _ rfl) hu _
    rw [List.flatten_cons]
    exact (ih hts hchain).cons (Token.foundIn_of_spelled hwritable ht hends)

/-! ## Neighbours -/

namespace Token

/-- No two neighbours are glued together, and nothing that follows is glued to the last. -/
structure Steady (ts : List Token) : Prop where
  chain : ts.IsChain Apart
  last : ∀ t ∈ ts.getLast?, ∀ u, t.Apart u

theorem steady_nil : Steady [] := ⟨.nil, by simp⟩

theorem Steady.append {ts us : List Token} (ht : Steady ts) (hu : Steady us) :
    Steady (ts ++ us) := by
  refine ⟨List.isChain_append.mpr ⟨ht.chain, hu.chain, fun t ht' u _ => ht.last t ht' u⟩, ?_⟩
  intro t hlast
  rw [List.getLast?_append, Option.mem_def, Option.or_eq_some_iff] at hlast
  exact hlast.elim (hu.last t) fun h => ht.last t h.2

theorem apart_of_ne {t : Token} (hgroup : t ≠ .openGroup) (hclass : t ≠ .openClass) (u : Token) :
    t.Apart u := ⟨fun h => absurd h hgroup, fun h => absurd h hclass⟩

theorem steady_cons {t : Token} {ts : List Token} (hhead : ∀ u ∈ ts.head?, t.Apart u)
    (hts : Steady ts) (hne : ts ≠ []) : Steady (t :: ts) := by
  refine ⟨List.isChain_cons.mpr ⟨hhead, hts.chain⟩, ?_⟩
  obtain ⟨u, us, rfl⟩ := List.exists_cons_of_ne_nil hne
  rw [List.getLast?_cons_cons]
  exact hts.last

theorem steady_of_forall {ts : List Token} (h : ∀ t ∈ ts, t ≠ .openGroup ∧ t ≠ .openClass) :
    Steady ts := by
  refine ⟨?_, fun t ht u => apart_of_ne (h t (List.mem_of_getLast? ht)).1
    (h t (List.mem_of_getLast? ht)).2 u⟩
  induction ts with
  | nil => exact .nil
  | cons t ts ih =>
    rw [List.forall_mem_cons] at h
    exact List.isChain_cons.mpr ⟨fun u _ => apart_of_ne h.1.1 h.1.2 u, ih h.2⟩

end Token

open Token (Steady)

theorem Opener.steady_group (o : Opener) {ts : List Token} (hts : Steady ts)
    (hhead : ts.head? ≠ some .question) :
    Steady (o.token :: (ts ++ [.closeGroup])) := by
  refine Token.steady_cons (fun u hu => ⟨fun _ => ?_, fun ho => ?_⟩)
    (hts.append (Token.steady_of_forall (by simp))) (by simp)
  · cases ts with
    | nil =>
      obtain rfl := Option.some.inj hu
      simp
    | cons t ts =>
      rintro rfl
      exact hhead hu
  · rcases o with _ | _ | ⟨_ | _, _ | _⟩ <;> simp [Opener.token] at ho

namespace Node

variable {groups : Nat} {n : Node}

theorem head?_append_ne_question {ts us : List Token} (ht : ts.head? ≠ some .question)
    (hu : us.head? ≠ some .question) : (ts ++ us).head? ≠ some .question := by
  cases ts with
  | nil => exact hu
  | cons t ts => exact ht

theorem head?_itemTokens_ne_question {ns : List Node}
    (h : ∀ n ∈ ns, n.tokens.head? ≠ some .question) :
    (itemTokens ns).head? ≠ some .question := by
  induction ns with
  | nil => simp [itemTokens]
  | cons n ns ih =>
    rw [List.forall_mem_cons] at h
    exact head?_append_ne_question h.1 (ih h.2)

theorem head?_armTokens_ne_question {ns : List Node}
    (h : ∀ n ∈ ns, n.tokens.head? ≠ some .question) :
    (armTokens ns).head? ≠ some .question := by
  match ns with
  | [] => simp [armTokens]
  | [n] => exact h n List.mem_cons_self
  | n :: m :: ns =>
    rw [armTokens_cons_cons]
    exact head?_append_ne_question (h n List.mem_cons_self) (by simp)

/-- No tree starts with a quantifier that the parser could take for a lazy mark. -/
theorem head?_tokens_ne_question (h : n.Everywhere (Legible groups)) :
    n.tokens.head? ≠ some .question := by
  induction n using Node.inductionOn with
  | empty | char | any | backref => simp [tokens]
  | charClass cls =>
    rw [tokens]
    split <;> simp
  | concat items ih =>
    exact head?_itemTokens_ne_question fun n hn => ih n hn ((Everywhere.concat_iff.mp h).2 n hn)
  | alternate arms ih =>
    exact head?_armTokens_ne_question fun n hn => ih n hn ((Everywhere.alternate_iff.mp h).2 n hn)
  | group | capture => simp [tokens, Opener.token]
  | repetition body min max isLazy ih =>
    obtain ⟨hself, hbody⟩ := Everywhere.repetition_iff.mp h
    have hne : body.tokens ≠ [] := by
      cases body <;> first | exact hself.shaped.1.elim | simp [tokens]
    obtain ⟨t, ts, hts⟩ := List.exists_cons_of_ne_nil hne
    have hhead := ih hbody
    rw [hts] at hhead
    rwa [tokens, hts]
  | assert anchor => cases anchor <;> simp [tokens, Anchor.token]
  | lookAround body negative behind =>
    cases negative <;> cases behind <;> simp [tokens, Opener.token]

theorem steady_itemTokens {ns : List Node} (h : ∀ n ∈ ns, Steady n.tokens) :
    Steady (itemTokens ns) := by
  induction ns with
  | nil => exact Token.steady_nil
  | cons n ns ih =>
    rw [List.forall_mem_cons] at h
    exact h.1.append (ih h.2)

theorem steady_armTokens {ns : List Node} (h : ∀ n ∈ ns, Steady n.tokens) :
    Steady (armTokens ns) := by
  induction ns with
  | nil => exact Token.steady_nil
  | cons n ns ih =>
    rw [List.forall_mem_cons] at h
    cases ns with
    | nil => exact h.1
    | cons m ns =>
      rw [armTokens_cons_cons, List.append_cons]
      exact (h.1.append (Token.steady_of_forall (by simp))).append (ih h.2)

theorem steady_tokens (h : n.Everywhere (Legible groups)) : Steady n.tokens := by
  induction n using Node.inductionOn with
  | empty => exact Token.steady_nil
  | char | any | backref => exact Token.steady_of_forall (by simp [tokens])
  | charClass cls =>
    have hbody : ∀ t ∈ cls.bodyTokens ++ [.closeClass],
        t ≠ .openGroup ∧ t ≠ .openClass ∧ t ≠ .caret := by
      rw [List.forall_mem_append, List.forall_mem_singleton]
      refine ⟨fun t ht => ?_, by simp⟩
      rcases CharClass.mem_bodyTokens ht with ⟨c, rfl⟩ | rfl | ⟨k, rfl⟩ <;> simp
    refine Token.steady_cons (fun u hu => ⟨fun ho => ?_, fun _ => ?_⟩)
      (Token.steady_of_forall fun t ht => ⟨(hbody t ht).1, (hbody t ht).2.1⟩) (by simp)
    · split at ho <;> simp at ho
    · exact (hbody u (List.mem_of_mem_head? hu)).2.2
  | concat items ih =>
    exact steady_itemTokens fun n hn => ih n hn ((Everywhere.concat_iff.mp h).2 n hn)
  | alternate arms ih =>
    exact steady_armTokens fun n hn => ih n hn ((Everywhere.alternate_iff.mp h).2 n hn)
  | group body ih =>
    have hbody := (Everywhere.group_iff.mp h).2
    exact Opener.plain.steady_group (ih hbody) (head?_tokens_ne_question hbody)
  | capture index body ih =>
    have hbody := (Everywhere.capture_iff.mp h).2
    exact (Opener.capture index).steady_group (ih hbody) (head?_tokens_ne_question hbody)
  | repetition body min max isLazy ih =>
    refine (ih (Everywhere.repetition_iff.mp h).2).append (Token.steady_of_forall ?_)
    rw [List.forall_mem_cons]
    refine ⟨?_, by cases isLazy <;> simp⟩
    unfold quantifierToken
    split <;> simp
  | assert anchor =>
    refine Token.steady_of_forall (List.forall_mem_singleton.mpr ?_)
    cases anchor <;> simp [Anchor.token]
  | lookAround body negative behind ih =>
    have hbody := (Everywhere.lookAround_iff.mp h).2
    exact (Opener.look negative behind).steady_group (ih hbody) (head?_tokens_ne_question hbody)

theorem Writable.lex_of_spelledBy (h : n.Writable groups) {text : List Char}
    (htext : n.SpelledBy text) :
    ∃ lexemes, lex text = .ok lexemes ∧ lexemes.map (·.token.plain) = n.tokens := by
  obtain ⟨texts, htexts, rfl⟩ := htext
  exact lexesTo_of_spelled htexts (writable_of_mem_tokens h.groups_le h.legible)
    (steady_tokens h.legible).chain 0

end Node

end PatternSampler
