import PatternSampler.Proofs.Splitting
/-!
# Reading a pattern back

The parser reads the tokens of a tree back as that tree.  `ClassBody.Reads` and `Reads` say what a
stretch of tokens adds to a class and to a parse, whatever follows it; they compose, so that each
node of a tree needs but one lemma about its own tokens.  Together with the splitting of a text into
tokens this gives `parse_spelledBy`: every text that spells a tree is read as the tree.
-/
set_option autoImplicit false

namespace PatternSampler

/-! ## Class bodies -/

namespace ClassBody

/-- The body of a class goes on from `cls` with the tokens `ts`, which add up to `cls'`, unless a
dash follows. -/
def Reads (cls : CharClass) (ts : List Token) (cls' : CharClass) : Prop :=
  ∀ (opener : Span) (position : Nat) (lexemes rest : List Lexeme),
    lexemes.map (·.token.plain) = ts → (∀ lx ∈ rest.head?, lx.token ≠ .dash) →
    ∃ position', read opener position false cls (lexemes ++ rest) =
      read opener position' false cls' rest

variable {cls cls₁ cls' : CharClass} {ts us : List Token}

theorem reads_nil (cls : CharClass) : Reads cls [] cls := by
  intro opener position lexemes rest hlexemes _
  rw [List.map_eq_nil_iff.mp hlexemes]
  exact ⟨position, rfl⟩

theorem Reads.append (h₁ : Reads cls ts cls₁) (h₂ : Reads cls₁ us cls')
    (hus : us.head? ≠ some .dash) : Reads cls (ts ++ us) cls' := by
  intro opener position lexemes rest hlexemes hrest
  obtain ⟨first, second, rfl, rfl, rfl⟩ := List.map_eq_append_iff.mp hlexemes
  have hnext : ∀ lx ∈ (second ++ rest).head?, lx.token ≠ .dash := by
    cases second with
    | nil => exact hrest
    | cons lx second =>
      rintro lx' hlx hdash
      obtain rfl := Option.some.inj hlx
      exact hus (by simp [hdash, Token.plain])
  obtain ⟨position₁, hfirst⟩ := h₁ opener position first (second ++ rest) rfl hnext
  obtain ⟨position', hsecond⟩ := h₂ opener position₁ second rest rfl hrest
  exact ⟨position', by rw [List.append_assoc, hfirst, hsecond]⟩

theorem read_item {opener : Span} {position : Nat} {atStart : Bool} {lx : Lexeme}
    {rest : List Lexeme} {taken : Nat} (hlx : lx.token ≠ .closeClass)
    (h : readItem cls lx rest (position + 1) = .ok (cls', taken)) :
    read opener position atStart cls (lx :: rest) =
      read opener (position + 1 + taken) false cls' (rest.drop taken) := by
  rw [read, if_neg (fun hclose => hlx hclose.1), h]

/-- Only a closing bracket is read in another way at the start. -/
theorem read_start {opener : Span} {position : Nat} {lx : Lexeme} {rest : List Lexeme}
    (hlx : lx.token ≠ .closeClass) :
    read opener position true cls (lx :: rest) = read opener position false cls (lx :: rest) := by
  rw [read, read, if_neg (fun h => hlx h.1), if_neg (fun h => hlx h.1)]

/-- What a lexeme is that gives a character. -/
theorem of_plain_eq_escaped {lx : Lexeme} {c : Char} (h : lx.token.plain = .escaped c)
    (rest : List Lexeme) : unsupported? lx rest = none ∧ characters lx = .ok [c] := by
  rcases Token.eq_of_plain_eq_escaped h with heq | heq <;>
    simp [unsupported?, characters, heq]

theorem readItem_escaped {lx : Lexeme} {c : Char} (h : lx.token.plain = .escaped c)
    (rest : List Lexeme) (position : Nat) :
    readItem cls lx rest position = readFrom cls lx c rest position := by
  obtain ⟨hsupported, hcharacters⟩ := of_plain_eq_escaped h rest
  rcases Token.eq_of_plain_eq_escaped h with heq | heq <;>
    simp [readItem, hsupported, hcharacters, heq, pushAll]

/-- A character that no dash follows is an item of its own. -/
theorem readFrom_single {item : Lexeme} {c : Char} {rest : List Lexeme} {position : Nat}
    (hrest : ∀ lx ∈ rest.head?, lx.token ≠ .dash) :
    readFrom cls item c rest position = .ok (cls.pushRange c c, 0) := by
  have hfollows : rangeFollows rest = false := by
    match rest with
    | [] | [_] => rfl
    | dash :: next :: _ => simp [rangeFollows, hrest dash rfl]
  unfold readFrom
  rw [if_neg (by simp [hfollows])]

theorem reads_single (c : Char) : Reads cls [.escaped c] (cls.pushRange c c) := by
  intro opener position lexemes rest hlexemes hrest
  obtain ⟨lx, rfl, hlx⟩ := List.map_eq_singleton_iff.mp hlexemes
  have hfrom : readFrom cls lx c rest (position + 1) = .ok (cls.pushRange c c, 0) :=
    readFrom_single hrest
  have hopen : lx.token ≠ .closeClass := by
    rintro heq
    simp [heq, Token.plain] at hlx
  exact ⟨_, read_item hopen ((readItem_escaped hlx rest (position + 1)).trans hfrom)⟩

theorem reads_between {a b : Char} (hab : a ≤ b) :
    Reads cls [.escaped a, .dash, .escaped b] (cls.pushRange a b) := by
  intro opener position lexemes rest hlexemes _
  obtain ⟨lx, lexemes, rfl, hlx, hlexemes⟩ := List.map_eq_cons_iff.mp hlexemes
  obtain ⟨dash, lexemes, rfl, hdash, hlexemes⟩ := List.map_eq_cons_iff.mp hlexemes
  obtain ⟨last, rfl, hlast⟩ := List.map_eq_singleton_iff.mp hlexemes
  have hdash : dash.token = .dash := Token.eq_of_plain_eq hdash (by simp)
  have hopen : lx.token ≠ .closeClass := by
    rintro heq
    simp [heq, Token.plain] at hlx
  obtain ⟨hsupported, hcharacters⟩ := of_plain_eq_escaped hlast rest
  have hlast' : last.token ≠ .closeClass ∧ last.token ≠ .dash := by
    rcases Token.eq_of_plain_eq_escaped hlast with heq | heq <;> simp [heq]
  have hrange : readRange cls lx dash last a (position + 1 + 2) = .ok (cls.pushRange a b) := by
    rcases Token.eq_of_plain_eq_escaped hlast with heq | heq <;>
      simp [readRange, heq, hcharacters, hab]
  have hnone : unsupported? dash (last :: rest) = none := by
    simp [unsupported?, hdash, hlast'.2]
  have hitem : readItem cls lx (dash :: last :: rest) (position + 1) =
      .ok (cls.pushRange a b, 2) := by
    rw [readItem_escaped hlx]
    unfold readFrom
    rw [if_pos (by simp [rangeFollows, hdash, hlast'.1])]
    simp only [hnone, hsupported, hrange]
  exact ⟨_, read_item hopen hitem⟩

theorem reads_range {r : CharRange} (hr : r.first ≤ r.last) :
    Reads cls r.tokens (cls.pushRange r.first r.last) := by
  rw [CharRange.tokens]
  split
  · rename_i heq
    exact heq ▸ reads_single r.first
  · exact reads_between hr

theorem reads_category (k : Category) : Reads cls [.classEscape k] (cls.pushCategory k) := by
  intro opener position lexemes rest hlexemes _
  obtain ⟨lx, rfl, hlx⟩ := List.map_eq_singleton_iff.mp hlexemes
  have htoken : lx.token = .classEscape k := Token.eq_of_plain_eq hlx (by simp)
  have hitem : readItem cls lx rest (position + 1) = .ok (cls.pushCategory k, 0) := by
    simp [readItem, unsupported?, htoken]
  exact ⟨_, read_item (by simp [htoken]) hitem⟩

theorem head?_ranges_ne_dash (ranges : List CharRange) :
    (ranges.flatMap CharRange.tokens).head? ≠ some .dash := by
  cases ranges with
  | nil => simp
  | cons r ranges =>
    rw [List.flatMap_cons, CharRange.tokens]
    split <;> simp

/-- Ranges that are in normal form together with those before them are added one by one. -/
theorem reads_ranges {negated : Bool} {done ranges : List CharRange} {categories : List Category}
    (h : CharRange.Normal (done ++ ranges)) :
    Reads ⟨negated, done, categories⟩ (ranges.flatMap CharRange.tokens)
      ⟨negated, done ++ ranges, categories⟩ := by
  induction ranges generalizing done with
  | nil =>
    rw [List.append_nil]
    exact reads_nil _
  | cons r ranges ih =>
    rw [List.append_cons] at h ⊢
    have hdone : CharRange.Normal (done ++ [r]) :=
      ⟨fun s hs => h.proper s (List.mem_append_left _ hs), (List.pairwise_append.mp h.apart).1⟩
    have hpush : CharClass.pushRange ⟨negated, done, categories⟩ r.first r.last =
        ⟨negated, done ++ [r], categories⟩ := by
      rw [CharClass.pushRange, CharRange.normalize_of_normal hdone]
    have hr : Reads ⟨negated, done, categories⟩ r.tokens ⟨negated, done ++ [r], categories⟩ :=
      hpush ▸ reads_range (h.proper r (by simp))
    exact hr.append (ih h) (head?_ranges_ne_dash ranges)

theorem reads_categories {negated : Bool} {ranges : List CharRange}
    {done categories : List Category} (h : (done ++ categories).Nodup) :
    Reads ⟨negated, ranges, done⟩ (categories.map .classEscape)
      ⟨negated, ranges, done ++ categories⟩ := by
  induction categories generalizing done with
  | nil =>
    rw [List.append_nil]
    exact reads_nil _
  | cons k categories ih =>
    have hnew : k ∉ done := fun hk => (List.nodup_append.mp h).2.2 k hk k List.mem_cons_self rfl
    rw [List.append_cons] at h ⊢
    have hpush : CharClass.pushCategory ⟨negated, ranges, done⟩ k =
        ⟨negated, ranges, done ++ [k]⟩ := if_neg hnew
    have hk : Reads ⟨negated, ranges, done⟩ [.classEscape k] ⟨negated, ranges, done ++ [k]⟩ :=
      hpush ▸ reads_category k
    refine hk.append (ih h) ?_
    cases categories <;> simp

/-- A whole class is read back from its tokens. -/
theorem read_of_bodyTokens (hnormal : CharRange.Normal cls.ranges) (hnodup : cls.categories.Nodup)
    (hne : cls.ranges ≠ [] ∨ cls.categories ≠ []) {body rest : List Lexeme} {close : Lexeme}
    (hbody : body.map (·.token.plain) = cls.bodyTokens) (hclose : close.token = .closeClass)
    (opener : Span) (position : Nat) :
    ∃ position', read opener position true .empty (body ++ close :: rest) =
      .ok ({ cls with negated := false }, position', rest) := by
  have hranges : Reads .empty (cls.ranges.flatMap CharRange.tokens) ⟨false, cls.ranges, []⟩ :=
    reads_ranges hnormal
  have hcategories : Reads ⟨false, cls.ranges, []⟩ (cls.categories.map .classEscape)
      { cls with negated := false } := reads_categories hnodup
  have hreads : Reads .empty cls.bodyTokens { cls with negated := false } :=
    hranges.append hcategories (by cases cls.categories <;> simp)
  obtain ⟨position', hread⟩ :=
    hreads opener position body (close :: rest) hbody (by simp [hclose])
  refine ⟨position' + 1, ?_⟩
  have hstart : read opener position true .empty (body ++ close :: rest) =
      read opener position false .empty (body ++ close :: rest) := by
    cases body with
    | nil => exact absurd hbody.symm (CharClass.bodyTokens_ne_nil hne)
    | cons lx body =>
      have hmem : lx.token.plain ∈ cls.bodyTokens := hbody ▸ List.mem_cons_self
      refine read_start fun heq => ?_
      rw [heq] at hmem
      rcases CharClass.mem_bodyTokens hmem with ⟨c, h⟩ | h | ⟨k, h⟩ <;> simp [Token.plain] at h
  rw [hstart, hread, read, if_pos ⟨hclose, rfl⟩]

end ClassBody

/-! ## One token -/

section Equations

variable {position : Nat} {st st' : ParseState} {lx : Lexeme} {rest : List Lexeme}

theorem readLexemes_cons_action {a : Action} (hrole : lx.token.role = .action a) :
    readLexemes position st (lx :: rest) =
      match st.act a lx.span rest.head? position with
      | .error e => .error e
      | .ok st => readLexemes (position + 1) st rest := by
  rw [readLexemes]
  split
  · simp_all
  · simp_all
  · rename_i heq
    obtain rfl := Role.action.inj (heq.symm.trans hrole)
    rfl

theorem readLexemes_cons_quantifier {min : Nat} {max : Option Nat}
    (hrole : lx.token.role = .quantifier min max) :
    readLexemes position st (lx :: rest) =
      match st.quantify min max (lazyMark rest == 1) lx.span position with
      | .error e => .error e
      | .ok st =>
        readLexemes (position + 1 + lazyMark rest) st (rest.drop (lazyMark rest)) := by
  rw [readLexemes]
  split
  · rename_i heq
    obtain ⟨rfl, rfl⟩ := Role.quantifier.inj (heq.symm.trans hrole)
    rfl
  · simp_all
  · simp_all

theorem readLexemes_cons_classOpener {negated : Bool}
    (hrole : lx.token.role = .classOpener negated) :
    readLexemes position st (lx :: rest) =
      match ClassBody.read lx.span (position + 1) true .empty rest with
      | .error e => .error e
      | .ok (cls, position', rest') =>
        readLexemes position'
          (st.push (.charClass (if negated then cls.negate else cls))) rest' := by
  rw [readLexemes]
  split
  · simp_all
  · rename_i heq
    obtain rfl := Role.classOpener.inj (heq.symm.trans hrole)
    split <;> rename_i hread <;> simp only [hread]
  · simp_all

theorem readLexemes_action {a : Action} (hrole : lx.token.role = .action a)
    (h : st.act a lx.span rest.head? position = .ok st') :
    readLexemes position st (lx :: rest) = readLexemes (position + 1) st' rest := by
  rw [readLexemes_cons_action hrole, h]

theorem readLexemes_quantifier {min : Nat} {max : Option Nat}
    (hrole : lx.token.role = .quantifier min max)
    (h : st.quantify min max (lazyMark rest == 1) lx.span position = .ok st') :
    readLexemes position st (lx :: rest) =
      readLexemes (position + 1 + lazyMark rest) st' (rest.drop (lazyMark rest)) := by
  rw [readLexemes_cons_quantifier hrole, h]

theorem readLexemes_classOpener {negated : Bool} (hrole : lx.token.role = .classOpener negated)
    {cls : CharClass} {position' : Nat} {rest' : List Lexeme}
    (h : ClassBody.read lx.span (position + 1) true .empty rest = .ok (cls, position', rest')) :
    readLexemes position st (lx :: rest) =
      readLexemes position'
        (st.push (.charClass (if negated then cls.negate else cls))) rest' := by
  rw [readLexemes_cons_classOpener hrole, h]

end Equations

/-! ## A stretch of tokens -/

/-- A parse that has `level` at hand and `captures` groups opened reads the tokens `ts`, which stand
before the token `next`, and has `level'` at hand and `captures'` groups opened then.  Nothing else
of it changes, except that references to groups up to `total` may be added. -/
def Reads (total : Nat) (next : Option Token) (level : Level) (captures : Nat) (ts : List Token)
    (level' : Level) (captures' : Nat) : Prop :=
  ∀ (st : ParseState) (lexemes rest : List Lexeme) (position : Nat),
    st.level = level → st.captures = captures → (∀ r ∈ st.backrefs, r.1 ≤ total) →
    lexemes.map (·.token.plain) = ts → rest.head?.map (·.token.plain) = next →
    ∃ backrefs position', (∀ r ∈ backrefs, r.1 ≤ total) ∧
      readLexemes position st (lexemes ++ rest) =
        readLexemes position'
          { st with level := level', captures := captures', backrefs := backrefs } rest

namespace Reads

variable {total : Nat} {next : Option Token} {l l₁ l' : Level} {k k₁ k' : Nat}
  {ts us : List Token}

theorem nil : Reads total next l k [] l k := by
  rintro st lexemes rest position rfl rfl hbackrefs hlexemes -
  rw [List.map_eq_nil_iff.mp hlexemes]
  exact ⟨st.backrefs, position, hbackrefs, rfl⟩

theorem append (h₁ : Reads total (us.head?.or next) l k ts l₁ k₁)
    (h₂ : Reads total next l₁ k₁ us l' k') : Reads total next l k (ts ++ us) l' k' := by
  intro st lexemes rest position hlevel hcaptures hbackrefs hlexemes hrest
  obtain ⟨first, second, rfl, rfl, rfl⟩ := List.map_eq_append_iff.mp hlexemes
  have hnext : (second ++ rest).head?.map (·.token.plain) =
      (second.map (·.token.plain)).head?.or next := by
    cases second with
    | nil => exact hrest
    | cons => rfl
  obtain ⟨backrefs₁, position₁, hbackrefs₁, hfirst⟩ :=
    h₁ st first (second ++ rest) position hlevel hcaptures hbackrefs rfl hnext
  obtain ⟨backrefs', position', hbackrefs', hsecond⟩ :=
    h₂ { st with level := l₁, captures := k₁, backrefs := backrefs₁ } second rest position₁ rfl rfl
      hbackrefs₁ rfl hrest
  exact ⟨backrefs', position', hbackrefs', by rw [List.append_assoc, hfirst, hsecond]⟩

/-- A token that does something to the alternation at hand only. -/
theorem of_act {t : Token} {a : Action} (hrole : t.role = .action a)
    (h : ∀ (st : ParseState) (span : Span) (next : Option Lexeme) (position : Nat),
      st.level = l → st.act a span next position = .ok { st with level := l' }) :
    Reads total next l k [t] l' k := by
  rintro st lexemes rest position hlevel rfl hbackrefs hlexemes -
  obtain ⟨lx, rfl, rfl⟩ := List.map_eq_singleton_iff.mp hlexemes
  rw [Token.role_plain] at hrole
  exact ⟨st.backrefs, position + 1, hbackrefs,
    readLexemes_action hrole (h st lx.span rest.head? position hlevel)⟩

theorem leaf {t : Token} {n : Node} (hrole : t.role = .action (.leaf n)) :
    Reads total next l k [t] (l.push n) k :=
  of_act hrole fun st _ _ _ hlevel => by rw [← hlevel]; rfl

theorem bar : Reads total next l k [.pipe] l.nextArm k :=
  of_act rfl fun st _ _ _ hlevel => by rw [← hlevel]; rfl

theorem reference {index : Nat} (hindex : index ≤ total) :
    Reads total next l k [.backref index] (l.push (.backref index)) k := by
  rintro st lexemes rest position rfl rfl hbackrefs hlexemes -
  obtain ⟨lx, rfl, hlx⟩ := List.map_eq_singleton_iff.mp hlexemes
  have htoken : lx.token = .backref index := Token.eq_of_plain_eq hlx (by simp)
  have hrole : lx.token.role = .action (.reference index) := by rw [htoken]; rfl
  exact ⟨(index, lx.span) :: st.backrefs, position + 1,
    List.forall_mem_cons.mpr ⟨hindex, hbackrefs⟩, readLexemes_action hrole rfl⟩

theorem charClass {cls : CharClass} (hnormal : CharRange.Normal cls.ranges)
    (hnodup : cls.categories.Nodup) (hne : cls.ranges ≠ [] ∨ cls.categories ≠ []) :
    Reads total next l k (Node.charClass cls).tokens (l.push (.charClass cls)) k := by
  rintro st lexemes rest position rfl rfl hbackrefs hlexemes -
  rw [Node.tokens] at hlexemes
  obtain ⟨lx, lexemes, rfl, hlx, hlexemes⟩ := List.map_eq_cons_iff.mp hlexemes
  obtain ⟨body, last, rfl, hbody, hlast⟩ := List.map_eq_append_iff.mp hlexemes
  obtain ⟨close, rfl, hclose⟩ := List.map_eq_singleton_iff.mp hlast
  have hrole : lx.token.role = .classOpener cls.negated := by
    rw [← Token.role_plain, hlx]
    cases cls.negated <;> rfl
  obtain ⟨position', hread⟩ := ClassBody.read_of_bodyTokens hnormal hnodup hne hbody
    (Token.eq_of_plain_eq hclose (by simp)) lx.span (position + 1)
  refine ⟨st.backrefs, position', hbackrefs, ?_⟩
  have hcls : (if cls.negated then CharClass.negate { cls with negated := false }
      else { cls with negated := false }) = cls := by
    obtain ⟨negated, ranges, categories⟩ := cls
    cases negated <;> rfl
  rw [List.cons_append, List.append_assoc, List.singleton_append,
    readLexemes_classOpener hrole hread, hcls]
  rfl

/-- What stands between an opener and a closing parenthesis is read as the body of a group. -/
theorem enclosed {o : Opener} {t : Token} (hts : ts.head? ≠ some .question)
    (hopen : ∀ (st : ParseState) (lx : Lexeme) (rest : List Lexeme) (position : Nat),
      st.captures = k → lx.token.plain = t →
      rest.head?.map (·.token.plain) ≠ some .question →
      readLexemes position st (lx :: rest) =
        readLexemes (position + 1) { st.openGroup o lx.span with captures := k₁ } rest)
    (hbody : Reads total (some .closeGroup) .start k₁ ts l' k') :
    Reads total next l k (t :: (ts ++ [.closeGroup])) (l.push (o.wrap l'.node)) k' := by
  rintro st lexemes rest position rfl hcaptures hbackrefs hlexemes -
  obtain ⟨lx, lexemes, rfl, hlx, hlexemes⟩ := List.map_eq_cons_iff.mp hlexemes
  obtain ⟨body, last, rfl, rfl, hlast⟩ := List.map_eq_append_iff.mp hlexemes
  obtain ⟨close, rfl, hclose⟩ := List.map_eq_singleton_iff.mp hlast
  have hhead : ((body ++ [close]) ++ rest).head?.map (·.token.plain) ≠ some .question := by
    cases body with
    | nil => simp [hclose]
    | cons lx body => exact hts
  obtain ⟨backrefs, position', hbackrefs', hread⟩ :=
    hbody { st.openGroup o lx.span with captures := k₁ } body (close :: rest) (position + 1) rfl rfl
      hbackrefs rfl (by simp [hclose])
  have hrole : close.token.role = .action .close := by rw [← Token.role_plain, hclose]; rfl
  refine ⟨backrefs, position' + 1, hbackrefs', ?_⟩
  rw [List.cons_append, hopen st lx _ position hcaptures hlx hhead, List.append_assoc,
    List.singleton_append, hread]
  exact readLexemes_action hrole rfl

theorem group {o : Opener} (hrole : o.token.role = .action (.openAs o))
    (hts : ts.head? ≠ some .question)
    (hbody : Reads total (some .closeGroup) .start k ts l' k') :
    Reads total next l k (o.token :: (ts ++ [.closeGroup])) (l.push (o.wrap l'.node)) k' := by
  refine enclosed hts (fun st lx rest position hcaptures hlx _ => ?_) hbody
  have hrole' : lx.token.role = .action (.openAs o) := by rw [← Token.role_plain, hlx, hrole]
  subst hcaptures
  exact readLexemes_action hrole' rfl

theorem capture (hts : ts.head? ≠ some .question)
    (hbody : Reads total (some .closeGroup) .start (k + 1) ts l' k') :
    Reads total next l k (.openGroup :: (ts ++ [.closeGroup]))
      (l.push (.capture (k + 1) l'.node)) k' := by
  refine @enclosed _ _ _ _ _ _ _ _ (.capture (k + 1)) _ hts
    (fun st lx rest position hcaptures hlx hnext => ?_) hbody
  have hrole : lx.token.role = .action .openCapture := by rw [← Token.role_plain, hlx]; rfl
  subst hcaptures
  refine readLexemes_action hrole ?_
  simp only [ParseState.act]
  split
  · rename_i hquestion
    simp [hquestion, Token.plain] at hnext
  · rfl

theorem quantifier {t : Token} {body : Node} {arms items : List Node} {min : Nat}
    {max : Option Nat} {isLazy : Bool} (ht : t.role = .quantifier min max)
    (hbody : body.IsQuantifiable) (hbounds : ∀ bound ∈ max, min ≤ bound)
    (hnext : next ≠ some .question) :
    Reads total next ⟨arms, body :: items⟩ k (t :: (if isLazy then [.question] else []))
      ⟨arms, .repetition body min max isLazy :: items⟩ k := by
  rintro st lexemes rest position hlevel rfl hbackrefs hlexemes hrest
  obtain ⟨lx, marks, rfl, hlx, hmarks⟩ := List.map_eq_cons_iff.mp hlexemes
  have hrole : lx.token.role = .quantifier min max := by
    rw [← Token.role_plain, hlx, ht]
  have hmark : lazyMark (marks ++ rest) = marks.length ∧ (marks.length == 1) = isLazy := by
    cases isLazy with
    | true =>
      obtain ⟨mark, rfl, hmark⟩ := List.map_eq_singleton_iff.mp hmarks
      obtain ⟨t, span, text⟩ := mark
      obtain rfl : t = .question := Token.eq_of_plain_eq hmark (by simp)
      exact ⟨rfl, rfl⟩
    | false =>
      obtain rfl := List.map_eq_nil_iff.mp hmarks
      refine ⟨?_, rfl⟩
      rw [List.nil_append]
      unfold lazyMark
      split
      · exact absurd hrest.symm hnext
      · rfl
  have hquantify : st.quantify min max isLazy lx.span position =
      .ok { st with level := ⟨arms, .repetition body min max isLazy :: items⟩ } := by
    have hfault : ParseState.boundsFault? min max = none := by
      cases max with
      | none => rfl
      | some bound => exact if_neg (Nat.not_lt.mpr (hbounds bound rfl))
    simp only [ParseState.quantify, hlevel, hfault]
    cases body <;> first | exact hbody.elim | rfl
  refine ⟨st.backrefs, position + 1 + marks.length, hbackrefs, ?_⟩
  rw [List.cons_append, readLexemes_quantifier hrole (by rw [hmark.1, hmark.2, hquantify]),
    hmark.1, List.drop_left]

end Reads

/-! ## Trees -/

namespace Node

/-- The items that a tree consists of as an arm. -/
def asItems : Node → List Node
  | .empty => []
  | .concat items => items
  | n => [n]

theorem ofItems_asItems {n : Node} (h : n.Shaped) : ofItems n.asItems = n := by
  cases n with
  | concat items =>
    match items, h with
    | _ :: _ :: _, _ => rfl
    | [], h => exact absurd h.1 (by simp)
    | [_], h => exact absurd h.1 (by simp)
  | _ => rfl

theorem ofArms_of_two_le {arms : List Node} (h : 2 ≤ arms.length) :
    ofArms arms = .alternate arms := by
  unfold ofArms
  split
  · simp at h
  · rfl

theorem asItems_of_isItem {n : Node} (h : n.IsItem) : n.asItems = [n] := by
  cases n <;> first | exact h.elim | rfl

/-- The tree is read back from its tokens as one arm, unless a quantifier mark follows that would
belong to it. -/
def ReadAsArm (total : Nat) (n : Node) : Prop :=
  ∀ (next : Option Token) (l : Level) (k count : Nat),
    n.captureIndices = List.range' (k + 1) count → (n.IsQuantifiable ∨ next ≠ some .question) →
    Reads total next l k n.tokens ⟨l.arms, n.asItems.reverse ++ l.items⟩ (k + count)

/-- The tree is read back from its tokens as the body of a group. -/
def ReadAsBody (total : Nat) (n : Node) : Prop :=
  ∀ (next : Option Token) (k count : Nat),
    n.captureIndices = List.range' (k + 1) count → next ≠ some .question →
    ∃ l', l'.node = n ∧ Reads total next .start k n.tokens l' (k + count)

/-- The tree is read back from its tokens wherever it may stand. -/
def ReadBack (total : Nat) (n : Node) : Prop :=
  (n.IsArm → n.ReadAsArm total) ∧ n.ReadAsBody total

variable {total : Nat} {n : Node}

theorem ReadAsArm.readAsBody (h : n.ReadAsArm total) (hn : n.Shaped) : n.ReadAsBody total := by
  intro next k count hindices hnext
  refine ⟨_, ?_, h next .start k count hindices (.inr hnext)⟩
  simp [Level.node, Level.arm, Level.start, ofItems_asItems hn, ofArms]

/-- The numbers of consecutive parts of a tree are consecutive. -/
theorem exists_range'_of_append {xs ys : List Nat} {k count : Nat}
    (h : xs ++ ys = List.range' (k + 1) count) :
    ∃ a b, count = a + b ∧ xs = List.range' (k + 1) a ∧ ys = List.range' (k + a + 1) b := by
  obtain ⟨a, ha, hxs, hys⟩ := List.range'_eq_append_iff.mp h.symm
  exact ⟨a, count - a, (Nat.add_sub_cancel' ha).symm, hxs,
    by rw [hys, Nat.mul_one, Nat.add_right_comm]⟩

theorem reads_itemTokens {ns : List Node}
    (h : ∀ n ∈ ns, n.IsItem ∧ n.ReadAsArm total ∧ n.tokens.head? ≠ some .question)
    {next : Option Token} {l : Level} {k count : Nat}
    (hindices : ns.flatMap captureIndices = List.range' (k + 1) count)
    (hnext : next ≠ some .question) :
    Reads total next l k (itemTokens ns) ⟨l.arms, ns.reverse ++ l.items⟩ (k + count) := by
  induction ns generalizing l k count with
  | nil =>
    obtain rfl : count = 0 := by simpa using hindices.symm
    exact .nil
  | cons n ns ih =>
    obtain ⟨⟨hitem, hread, -⟩, hns⟩ := List.forall_mem_cons.mp h
    obtain ⟨a, b, rfl, ha, hb⟩ := exists_range'_of_append (List.flatMap_cons ▸ hindices)
    have hhead : (itemTokens ns).head?.or next ≠ some .question := by
      have hrest := head?_itemTokens_ne_question fun m hm => (hns m hm).2.2
      cases heq : (itemTokens ns).head? with
      | none => exact hnext
      | some t => rwa [heq] at hrest
    have hfirst := hread ((itemTokens ns).head?.or next) l k a ha (.inr hhead)
    rw [asItems_of_isItem hitem] at hfirst
    have hrest := @ih hns ⟨l.arms, n :: l.items⟩ (k + a) b hb
    rw [itemTokens, List.reverse_cons, List.append_assoc, ← Nat.add_assoc]
    exact hfirst.append hrest

/-- Arms that are read with bars between them end up as the arms of the alternation at hand. -/
theorem reads_armTokens {arms : List Node} (hne : arms ≠ [])
    (h : ∀ n ∈ arms, n.Shaped ∧ n.ReadAsArm total)
    {next : Option Token} {done : List Node} {k count : Nat}
    (hindices : arms.flatMap captureIndices = List.range' (k + 1) count)
    (hnext : next ≠ some .question) :
    ∃ l', (l'.arm :: l'.arms).reverse = done.reverse ++ arms ∧
      Reads total next ⟨done, []⟩ k (armTokens arms) l' (k + count) := by
  induction arms generalizing done k count with
  | nil => exact absurd rfl hne
  | cons n arms ih =>
    obtain ⟨⟨hshaped, hread⟩, harms⟩ := List.forall_mem_cons.mp h
    cases arms with
    | nil =>
      rw [List.flatMap_singleton] at hindices
      refine ⟨_, ?_, hread next ⟨done, []⟩ k count hindices (.inr hnext)⟩
      simp [Level.arm, ofItems_asItems hshaped]
    | cons m arms =>
      obtain ⟨a, b, rfl, ha, hb⟩ := exists_range'_of_append (List.flatMap_cons ▸ hindices)
      have hfirst := hread (some .pipe) ⟨done, []⟩ k a ha (.inr (by simp))
      have hbar : Reads total ((armTokens (m :: arms)).head?.or next)
          ⟨done, n.asItems.reverse ++ []⟩ (k + a) [.pipe] ⟨n :: done, []⟩ (k + a) := by
        have harm : Level.nextArm ⟨done, n.asItems.reverse ++ []⟩ = ⟨n :: done, []⟩ := by
          simp [Level.nextArm, Level.arm, ofItems_asItems hshaped]
        exact harm ▸ .bar
      obtain ⟨l', hl', hrest⟩ := @ih (by simp) harms (n :: done) (k + a) b hb
      refine ⟨l', by rw [hl', List.reverse_cons, List.append_assoc, List.singleton_append], ?_⟩
      rw [armTokens_cons_cons, ← Nat.add_assoc]
      exact hfirst.append (hbar.append hrest)

theorem ReadAsArm.readBack (h : n.ReadAsArm total) (hn : n.Shaped) : n.ReadBack total :=
  ⟨fun _ => h, h.readAsBody hn⟩

theorem IsQuantifiable.isItem (h : n.IsQuantifiable) : n.IsItem := by
  cases n <;> first | exact h.elim | trivial

/-- A node without groups that is read as one item. -/
theorem readAsArm_of_leaf (hindices : n.captureIndices = []) (hitem : n.IsItem)
    (h : ∀ next l k, Reads total next l k n.tokens (l.push n) k) : n.ReadAsArm total := by
  intro next l k count hcount _
  obtain rfl : count = 0 := by simpa [hindices] using hcount.symm
  rw [asItems_of_isItem hitem]
  exact h next l k

/-- A tree in brackets is read as one item if it is read as what they enclose. -/
theorem readAsArm_of_wrap {o : Opener} {body : Node} (hbody : body.ReadAsBody total)
    (hhead : body.tokens.head? ≠ some .question) (hrole : o.token.role = .action (.openAs o))
    (htokens : (o.wrap body).tokens = o.token :: (body.tokens ++ [.closeGroup]))
    (hindices : (o.wrap body).captureIndices = body.captureIndices)
    (hitem : (o.wrap body).IsItem) : (o.wrap body).ReadAsArm total := by
  intro next l k count hcount _
  obtain ⟨l', rfl, hread⟩ := hbody (some .closeGroup) k count (hindices ▸ hcount) (by simp)
  rw [asItems_of_isItem hitem, htokens]
  exact .group hrole hhead hread

theorem readAsArm_of_anchor (anchor : Anchor) : (Node.assert anchor).ReadAsArm total :=
  readAsArm_of_leaf rfl trivial fun next l k => by
    cases anchor <;> exact .leaf rfl

/-- Every tree whose nodes meet the rules is read back from its tokens. -/
theorem readBack (h : n.Everywhere (Legible total)) : n.ReadBack total := by
  -- what is read of a part does not hang on what stands around it, apart from the next token and
  -- the number of groups before it
  induction n using Node.inductionOn with
  | empty =>
    refine ReadAsArm.readBack (fun next l k count hcount _ => ?_) h.self.shaped
    have hnone : Node.empty.captureIndices = [] := rfl
    obtain rfl : count = 0 := by simpa [hnone] using hcount.symm
    exact .nil
  | char | any =>
    exact ReadAsArm.readBack (readAsArm_of_leaf rfl trivial fun _ _ _ => .leaf rfl) h.self.shaped
  | charClass cls =>
    obtain ⟨⟨hnormal, hnodup⟩, hne, -⟩ := h.self
    exact ReadAsArm.readBack (readAsArm_of_leaf rfl trivial fun _ _ _ =>
      .charClass hnormal hnodup hne) h.self.shaped
  | concat items ih =>
    obtain ⟨hself, hitems⟩ := Everywhere.concat_iff.mp h
    refine ReadAsArm.readBack (fun next l k count hcount hnext => ?_) h.self.shaped
    rw [captureIndices_concat] at hcount
    exact reads_itemTokens (fun n hn => ⟨hself.shaped.2 n hn,
      (ih n hn (hitems n hn)).1 (hself.shaped.2 n hn).isArm,
      head?_tokens_ne_question (hitems n hn)⟩) hcount (hnext.resolve_left id)
  | alternate arms ih =>
    obtain ⟨hself, harms⟩ := Everywhere.alternate_iff.mp h
    refine ⟨False.elim, fun next k count hcount hnext => ?_⟩
    have hne : arms ≠ [] := by
      rintro rfl
      exact absurd hself.shaped.1 (by simp)
    rw [captureIndices_alternate] at hcount
    obtain ⟨l', hl', hread⟩ := @reads_armTokens _ _ hne (fun n hn =>
      ⟨(harms n hn).self.shaped, (ih n hn (harms n hn)).1 (hself.shaped.2 n hn)⟩) next [] k count
      hcount hnext
    refine ⟨l', ?_, hread⟩
    rw [Level.node, hl', List.reverse_nil, List.nil_append, ofArms_of_two_le hself.shaped.1]
  | group body ih =>
    have hbody := (Everywhere.group_iff.mp h).2
    exact (@readAsArm_of_wrap _ .plain body (ih hbody).2 (head?_tokens_ne_question hbody) rfl rfl
      (captureIndices_group body) trivial).readBack h.self.shaped
  | capture index body ih =>
    have hbody := (Everywhere.capture_iff.mp h).2
    refine ReadAsArm.readBack (fun next l k count hcount _ => ?_) h.self.shaped
    rw [captureIndices_capture] at hcount
    obtain ⟨count, rfl⟩ : ∃ c, count = c + 1 :=
      Nat.exists_eq_succ_of_ne_zero (by rintro rfl; simp at hcount)
    rw [List.range'_succ, List.cons.injEq] at hcount
    obtain ⟨rfl, hcount⟩ := hcount
    obtain ⟨l', rfl, hread⟩ := (ih hbody).2 (some .closeGroup) (k + 1) count hcount (by simp)
    rw [Nat.add_comm count, ← Nat.add_assoc]
    exact .capture (head?_tokens_ne_question hbody) hread
  | repetition body min max isLazy ih =>
    obtain ⟨hself, hbody⟩ := Everywhere.repetition_iff.mp h
    obtain ⟨hquantifiable, hbounds⟩ := hself.shaped
    refine ReadAsArm.readBack (fun next l k count hcount hnext => ?_) h.self.shaped
    rw [captureIndices_repetition] at hcount
    have hread := (ih hbody).1 hquantifiable.isItem.isArm (some (quantifierToken min max)) l k count
      hcount (.inl hquantifiable)
    rw [asItems_of_isItem hquantifiable.isItem] at hread
    exact hread.append (.quantifier (role_quantifierToken min max) hquantifiable hbounds
      (hnext.resolve_left id))
  | backref index =>
    exact ReadAsArm.readBack (readAsArm_of_leaf rfl trivial fun _ _ _ =>
      .reference (h.self.reference index rfl).2) h.self.shaped
  | assert anchor => exact (readAsArm_of_anchor anchor).readBack h.self.shaped
  | lookAround body negative behind ih =>
    have hbody := (Everywhere.lookAround_iff.mp h).2
    exact (@readAsArm_of_wrap _ (.look negative behind) body (ih hbody).2
      (head?_tokens_ne_question hbody) (by cases negative <;> cases behind <;> rfl) rfl
      (captureIndices_lookAround body negative behind) trivial).readBack h.self.shaped

end Node

/-! ## Texts -/

/-- A parse that is read as a level, with no reference beyond its groups, is that level's tree. -/
theorem parseLexemes_of_reads {ts : List Token} {l : Level} {groups : Nat}
    (h : Reads groups none .start 0 ts l groups) {lexemes : List Lexeme}
    (hlexemes : lexemes.map (·.token.plain) = ts) :
    parseLexemes lexemes = .ok ⟨l.node, groups, []⟩ := by
  obtain ⟨backrefs, position', hbackrefs, hparse⟩ :=
    h .start lexemes [] 0 rfl rfl (by simp [ParseState.start]) hlexemes rfl
  rw [List.append_nil] at hparse
  have hunknown : unknownGroup? ⟨[], l, groups, [], backrefs⟩ = none := by
    refine List.find?_eq_none.mpr fun r hr => ?_
    simpa using hbackrefs r (List.mem_reverse.mp hr)
  rw [parseLexemes, hparse, readLexemes]
  simp only [ParseState.start, hunknown]

/-- A text that is split into tokens that are read as a level is a pattern with that level's tree.
-/
theorem parse_of_lexesTo {text : List Char} {ts : List Token} {l : Level} {groups : Nat}
    (hlexes : LexesTo text ts) (h : Reads groups none .start 0 ts l groups) :
    parse text = .ok ⟨l.node, groups, []⟩ := by
  obtain ⟨lexemes, hlex, hlexemes⟩ := hlexes 0
  rw [parse, lex, hlex]
  simp only [parseLexemes_of_reads h hlexemes]

theorem parseLexemes_of_tokens {n : Node} {groups : Nat} (h : n.Writable groups)
    {lexemes : List Lexeme} (hlexemes : lexemes.map (·.token.plain) = n.tokens) :
    parseLexemes lexemes = .ok ⟨n, groups, []⟩ := by
  obtain ⟨l', rfl, hread⟩ :=
    (Node.readBack h.legible).2 none 0 groups h.captures (by simp)
  rw [Nat.zero_add] at hread
  exact parseLexemes_of_reads hread hlexemes

/-- Every writable tree has a text, and each text that spells it is read back as that tree, with its
number of groups and without names. -/
theorem parse_spelledBy {n : Node} {groups : Nat} (h : n.Writable groups) :
    (∃ text, n.SpelledBy text) ∧
      ∀ text, n.SpelledBy text → parse text = .ok ⟨n, groups, []⟩ := by
  refine ⟨h.exists_spelledBy, fun text htext => ?_⟩
  obtain ⟨lexemes, hlex, hlexemes⟩ := h.lex_of_spelledBy htext
  rw [parse, hlex]
  simp only [parseLexemes_of_tokens h hlexemes]

/-- An optional arm, a reference under lazy bounds before a digit, a negated class with a dash and a
lookbehind. -/
def Node.writableTree : Node :=
  .concat [
    .capture 1 (.alternate [.empty, .char 'a']),
    .repetition (.backref 1) 2 none true,
    .char '1',
    .repetition (.charClass ⟨true, [⟨'-', '-'⟩, ⟨'0', '9'⟩], [.word]⟩) 0 (some 1) false,
    .lookAround (.group .any) true true]

/-- A text that spells it. -/
def Node.writableSource : List Char :=
  "(|\\x61)\\1\x7b2,\x7d?\\x31[^\\-\\x30-\\u0039\\w]?(?<!(?:.))".toList

theorem Node.writable_writableTree : Node.writableTree.Writable 1 where
  shaped := by
    have hclass : CharRange.Normal [⟨'-', '-'⟩, ⟨'0', '9'⟩] :=
      ⟨by decide, .cons (by simpa using ⟨'.', by decide, by decide⟩) (.cons (by simp) .nil)⟩
    simp only [Everywhere, writableTree, subnodes, subnodesOf, List.cons_append, List.nil_append,
      List.append_nil, List.forall_mem_cons]
    simp [Shaped, hclass, IsItem, IsArm, IsQuantifiable]
  captures := rfl
  references index hindex := by
    simp [writableTree, subnodes, subnodesOf] at hindex
    omega
  expressible := by
    simp only [Everywhere, writableTree, subnodes, subnodesOf, List.cons_append, List.nil_append,
      List.append_nil, List.forall_mem_cons]
    simp [Expressible, maxBound]
  groups_le := by decide

theorem Node.spelledBy_writableSource : Node.writableTree.SpelledBy Node.writableSource := by
  refine ⟨[['('], ['|'], ['\\', 'x', '6', '1'], [')'], ['\\', '1'], ['{', '2', ',', '}'], ['?'],
    ['\\', 'x', '3', '1'], ['[', '^'], ['\\', '-'], ['\\', 'x', '3', '0'], ['-'],
    ['\\', 'u', '0', '0', '3', '9'], ['\\', 'w'], [']'], ['?'], ['(', '?', '<', '!'],
    ['(', '?', ':'], ['.'], [')'], [')']], ?_, by cbv⟩
  have hhex : ∀ digits ∈ [['6', '1'], ['3', '1'], ['3', '0'], ['0', '0', '3', '9']],
      ∀ d ∈ digits, Text.isHexDigit d = true := by simp [Text.isHexDigit, Text.hexDigit?]
  exact .cons (.symbol rfl) <| .cons (.symbol rfl) <|
    .cons (.hex (.inl ⟨rfl, rfl⟩) (hhex _ (by simp)) rfl) <|
    .cons (.symbol rfl) <| .cons (.backref 1) <| .cons (.atLeast 2) <| .cons (.symbol rfl) <|
    .cons (.hex (.inl ⟨rfl, rfl⟩) (hhex _ (by simp)) rfl) <|
    .cons (.symbol rfl) <| .cons (.escaped rfl) <|
    .cons (.hex (.inl ⟨rfl, rfl⟩) (hhex _ (by simp)) rfl) <| .cons (.symbol rfl) <|
    .cons (.hex (.inr ⟨rfl, rfl⟩) (hhex _ (by simp)) rfl) <|
    .cons (.symbol rfl) <| .cons (.symbol rfl) <| .cons (.symbol rfl) <| .cons (.symbol rfl) <|
    .cons (.symbol rfl) <| .cons (.symbol rfl) <| .cons (.symbol rfl) <| .cons (.symbol rfl) .nil

theorem parse_spelledBy_writableTree :
    Node.writableTree.Writable 1 ∧ Node.writableTree.SpelledBy Node.writableSource ∧
      parse Node.writableSource = .ok ⟨Node.writableTree, 1, []⟩ :=
  ⟨Node.writable_writableTree, Node.spelledBy_writableSource,
    (parse_spelledBy Node.writable_writableTree).2 _ Node.spelledBy_writableSource⟩

end PatternSampler
