import PatternSampler.Pattern.Descent
import PatternSampler.Proofs.ClassBodies
import PatternSampler.Proofs.ReadBack
import PatternSampler.Proofs.Tiling
/-!
# Two ways to read a pattern

The reader that calls itself for each group agrees with the one that keeps the open groups on a
stack, on the lexemes of every text (`Descent.parse_placed`).  So it finds a token where each of its
calls needs one, and each piece that it takes from the source by a span is there.
-/
set_option autoImplicit false

namespace PatternSampler

/-- The lexemes are what is left of the source. -/
def Remain (source : List Char) (lexemes : List Lexeme) : Prop :=
  ∃ before, Fills before lexemes source

namespace Remain

variable {source : List Char} {lx : Lexeme} {lexemes rest : List Lexeme}

theorem tail (h : Remain source (lx :: rest)) : Remain source rest := by
  obtain ⟨before, hfills⟩ := h
  cases hfills with
  | cons _ _ hrest => exact ⟨_, hrest⟩

theorem drop (h : Remain source lexemes) (n : Nat) : Remain source (lexemes.drop n) := by
  induction lexemes generalizing n with
  | nil => rwa [List.drop_nil]
  | cons lx rest ih =>
    cases n with
    | zero => exact h
    | succ n => exact ih h.tail n

theorem suffix (h : Remain source lexemes) (hsuffix : rest <:+ lexemes) : Remain source rest := by
  rw [List.suffix_iff_eq_drop.mp hsuffix]
  exact h.drop _

/-- A piece that what is left starts with stands in the source at the start of the lexeme. -/
theorem exists_prefix (h : Remain source (lx :: rest)) {piece : List Char}
    (hpiece : piece <+: lx.text ++ rest.flatMap (·.text)) :
    ∃ before after, source = before ++ (piece ++ after) ∧
      Text.byteLength before = lx.span.start := by
  obtain ⟨before, hfills⟩ := h
  obtain ⟨after, hafter⟩ := hpiece
  have heq := hfills.eq_append
  rw [List.flatMap_cons, ← hafter] at heq
  cases hfills with
  | cons _ hspan _ => exact ⟨before, after, heq, by rw [hspan]⟩

end Remain

theorem remain_of_lex {source : List Char} {lexemes : List Lexeme}
    (h : lex source = .ok lexemes) : Remain source lexemes :=
  ⟨[], fills_of_lexFrom h [] rfl⟩

namespace Descent

variable {source : List Char}

/-! ## Pieces of the source -/

theorem slice_eq_ok {start stop : Nat} {before piece after : List Char}
    (h : source = before ++ (piece ++ after)) (hstart : Text.byteLength before = start)
    (hstop : Text.byteLength (before ++ piece) = stop) : slice source start stop = .ok piece := by
  rw [slice, Text.slice?_eq_some_iff.mpr ⟨before, after, h, hstart, hstop⟩]

/-- From the start of a lexeme on, the source has the texts of the lexemes that are left. -/
theorem slice_rest {lx : Lexeme} {rest : List Lexeme} (h : Remain source (lx :: rest)) :
    slice source lx.span.start (Text.byteLength source) =
      .ok (lx.text ++ rest.flatMap (·.text)) := by
  obtain ⟨before, hfills⟩ := h
  have heq := hfills.eq_append
  rw [List.flatMap_cons] at heq
  cases hfills with
  | cons _ hspan _ =>
    rw [hspan]
    exact slice_eq_ok (heq.trans (by rw [List.append_nil])) rfl (by rw [heq])

/-- Between the start of a lexeme and a byte within what is left, the source has what the lexemes
have there. -/
theorem slice_prefix {lx : Lexeme} {rest : List Lexeme} (h : Remain source (lx :: rest))
    {piece : List Char} (hpiece : piece <+: lx.text ++ rest.flatMap (·.text)) :
    slice source lx.span.start (lx.span.start + Text.byteLength piece) = .ok piece := by
  obtain ⟨before, after, heq, hstart⟩ := h.exists_prefix hpiece
  rw [← hstart]
  exact slice_eq_ok heq rfl (Text.byteLength_append before piece)

theorem stop_eq {lx : Lexeme} {rest : List Lexeme} (h : Remain source (lx :: rest)) :
    lx.span.stop = lx.span.start + Text.byteLength lx.text := by
  obtain ⟨before, hfills⟩ := h
  cases hfills with
  | cons _ hspan _ => rw [hspan, Text.byteLength_append]

theorem start_eq {lx next : Lexeme} {rest : List Lexeme} (h : Remain source (lx :: next :: rest)) :
    next.span.start = lx.span.stop := by
  obtain ⟨before, hfills⟩ := h
  cases hfills with
  | cons _ hspan hrest =>
    cases hrest with
    | cons _ hspan' _ => rw [hspan, hspan']

theorem slice_self {lx : Lexeme} {rest : List Lexeme} (h : Remain source (lx :: rest)) :
    slice source lx.span.start lx.span.stop = .ok lx.text := by
  rw [stop_eq h]
  exact slice_prefix h (List.prefix_append _ _)

/-- The span over two neighbours starts with the first and ends with the second. -/
theorem span_merge {lx next : Lexeme} {rest : List Lexeme}
    (h : Remain source (lx :: next :: rest)) :
    lx.span.merge next.span =
      ⟨lx.span.start, lx.span.start + Text.byteLength (lx.text ++ next.text)⟩ := by
  rw [Span.merge, stop_eq h.tail, start_eq h, stop_eq h, Text.byteLength_append]
  congr 1 <;> omega

/-! ## Classes -/

/-- The outcome of a check of class syntax. -/
def refusal (position : Nat) : Option (ParseCause × Span) → Except Fault Unit
  | some (cause, span) => fail cause position span
  | none => .ok ()

theorem posixStop_placed {lx : Lexeme} {rest : List Lexeme} (h : Remain source (lx :: rest)) :
    posixStop lx.placed (lx.text ++ rest.flatMap (·.text)) =
      lx.span.start + Text.byteLength (ClassBody.posixName lx rest) := by
  unfold posixStop ClassBody.posixName
  cases ClassBody.upToPosixEnd? (lx.text ++ rest.flatMap (·.text)) with
  | none => exact stop_eq h
  | some name => rfl

theorem refuseBracket_placed {lx : Lexeme} {rest : List Lexeme} (h : Remain source (lx :: rest))
    (hlx : lx.token = .openClass ∨ lx.token = .openNegatedClass) (position : Nat) :
    refuseBracket source position lx.placed (lx.text ++ rest.flatMap (·.text)) =
      refusal position (ClassBody.unsupported? lx rest) := by
  have hstop := posixStop_placed h
  have hslice := slice_prefix h (ClassBody.posixName_isPrefix lx rest)
  rcases ClassBody.unsupported?_bracket hlx with ⟨tail, htext, hrefused⟩ | ⟨hne, hrefused⟩
  · rw [htext] at hstop ⊢
    simp only [refuseBracket, Lexeme.placed_span, hstop, hslice, hrefused]
    rfl
  · rw [hrefused]
    unfold refuseBracket
    split
    · exact absurd ‹_› (hne _)
    · rfl

theorem refuseDouble_placed {lx : Lexeme} {rest : List Lexeme} (h : Remain source (lx :: rest))
    (hlx : lx.token = .dash ∨ lx.token = .literal '&' ∨ lx.token = .literal '~')
    (position : Nat) :
    refuseDouble source position lx.placed (rest.map Lexeme.placed) =
      refusal position (ClassBody.unsupported? lx rest) := by
  cases rest with
  | nil => rcases hlx with hlx | hlx | hlx <;> simp [ClassBody.unsupported?, hlx] <;> rfl
  | cons next rest =>
    rw [ClassBody.unsupported?_operator hlx]
    have hslice : slice source (lx.span.merge next.span).start (lx.span.merge next.span).stop =
        .ok (lx.text ++ next.text) := by
      rw [span_merge h]
      exact slice_prefix h (by simp)
    simp only [List.map_cons, refuseDouble, Lexeme.placed, hslice]
    split <;> rfl

theorem refuse_placed {lx : Lexeme} {rest : List Lexeme} (h : Remain source (lx :: rest))
    (position : Nat) :
    refuse source position ((lx :: rest).map Lexeme.placed) =
      refusal position (ClassBody.unsupported? lx rest) := by
  rw [List.map_cons]
  unfold refuse
  simp only [Lexeme.placed_span, Lexeme.placed_token, slice_rest h, bind, Except.bind]
  split
  · exact refuseBracket_placed h (.inl ‹_›) position
  · exact refuseBracket_placed h (.inr ‹_›) position
  · exact refuseDouble_placed h (.inl ‹_›) position
  · exact refuseDouble_placed h (.inr (.inl ‹_›)) position
  · exact refuseDouble_placed h (.inr (.inr ‹_›)) position
  · rw [ClassBody.unsupported?_other (by simp_all) (by simp_all)]
    rfl

theorem characters_placed {lx : Lexeme} {rest : List Lexeme} (h : Remain source (lx :: rest))
    (position : Nat) :
    characters source position lx.placed =
      (ClassBody.characters lx).mapError fun cause => .error ⟨cause, position, lx.span⟩ := by
  unfold characters ClassBody.characters
  simp only [Lexeme.placed_span, Lexeme.placed_token, slice_self h, bind, Except.bind]
  cases lx.token with
  | assertEscape letter =>
    by_cases hletter : letter = 'b'
    · rw [hletter]
      rfl
    · simp
      rfl
  | _ => rfl

theorem rangeFollows_placed (lexemes : List Lexeme) :
    rangeFollows (lexemes.map Lexeme.placed) = ClassBody.rangeFollows lexemes := by
  match lexemes with
  | [] | [_] => rfl
  | _ :: _ :: _ => rfl

theorem rangeEnd?_placed {last : Lexeme} {rest : List Lexeme} (h : Remain source (last :: rest))
    (hlast : ∀ k, last.token ≠ .classEscape k) (position : Nat) :
    rangeEnd? source position last.placed =
      ((ClassBody.characters last).mapError fun cause => .error ⟨cause, position, last.span⟩).map
        List.head? := by
  unfold rangeEnd?
  split
  · exact absurd ‹_› (hlast _)
  · rw [characters_placed h]
    cases ClassBody.characters last <;> rfl

theorem readRange_of_ne {cls : CharClass} {item dash last : Lexeme} {first : Char} {position : Nat}
    (hlast : ∀ k, last.token ≠ .classEscape k) :
    ClassBody.readRange cls item dash last first position =
      match ClassBody.characters last with
      | .error cause => .error ⟨cause, position, last.span⟩
      | .ok cs =>
        match cs.head?.filter fun stop => decide (first ≤ stop) with
        | some stop => .ok (cls.pushRange first stop)
        | none => .error ⟨.invalidRange (item.text ++ dash.text ++ last.text), position,
            item.span.merge last.span⟩ := by
  unfold ClassBody.readRange
  split
  · exact absurd ‹_› (hlast _)
  · cases ClassBody.characters last with
    | error cause => rfl
    | ok cs =>
      cases cs with
      | nil => rfl
      | cons stop cs => by_cases hle : first ≤ stop <;> simp [Option.filter, hle]

/-- A range, after the checks of its dash and of its end. -/
theorem readRange_placed {item dash last : Lexeme} {rest : List Lexeme}
    (h : Remain source (item :: dash :: last :: rest)) (opener : Span) (cls : CharClass)
    (first : Char) (position : Nat) (hdash : ClassBody.unsupported? dash (last :: rest) = none)
    (hlast : ClassBody.unsupported? last rest = none) :
    readRange source opener cls item.placed first position
        ((dash :: last :: rest).map Lexeme.placed) =
      (ClassBody.readRange cls item dash last first (position + 2)).mapError .error := by
  have hstop : last.span.stop =
      item.span.start + Text.byteLength (item.text ++ dash.text ++ last.text) := by
    rw [stop_eq h.tail.tail, start_eq h.tail, stop_eq h.tail, start_eq h, stop_eq h]
    simp only [Text.byteLength_append, Nat.add_assoc]
  have hslice : slice source item.span.start last.span.stop =
      .ok (item.text ++ dash.text ++ last.text) := by
    rw [hstop]
    exact slice_prefix h (by simp)
  unfold readRange
  rw [refuse_placed h.tail, hdash, List.map_cons, List.tail_cons, refuse_placed h.tail.tail, hlast]
  simp only [refusal, bind, Except.bind, List.map_cons, Lexeme.placed_span, hslice]
  by_cases hcategory : ∃ k, last.token = .classEscape k
  · obtain ⟨k, hk⟩ := hcategory
    simp only [rangeEnd?, Lexeme.placed_token, hk, ClassBody.readRange]
    rfl
  · have hne : ∀ k, last.token ≠ .classEscape k := fun k hk => hcategory ⟨k, hk⟩
    rw [rangeEnd?_placed h.tail.tail hne, readRange_of_ne hne]
    cases ClassBody.characters last with
    | error cause => rfl
    | ok cs =>
      simp only [Except.mapError, Except.map]
      cases cs.head?.filter fun stop => decide (first ≤ stop) <;> rfl

theorem readFrom_placed {item : Lexeme} {rest : List Lexeme} (h : Remain source (item :: rest))
    (opener : Span) (cls : CharClass) (first : Char) (position : Nat) :
    readFrom source opener cls item.placed first (rest.map Lexeme.placed) position =
      (ClassBody.readFrom cls item first rest position).mapError .error := by
  unfold readFrom ClassBody.readFrom
  rw [rangeFollows_placed]
  match rest, h with
  | [], _ | [_], _ => rfl
  | dash :: last :: after, h =>
    split
    · cases hdash : ClassBody.unsupported? dash (last :: after) with
      | some e =>
        rw [readRange, refuse_placed h.tail, hdash]
        simp only [hdash]
        rfl
      | none =>
        cases hlast : ClassBody.unsupported? last after with
        | some e =>
          rw [readRange, refuse_placed h.tail, hdash, List.map_cons, List.tail_cons,
            refuse_placed h.tail.tail, hlast]
          simp only [hdash, hlast]
          rfl
        | none =>
          rw [readRange_placed h opener cls first position hdash hlast]
          simp only [hdash, hlast]
          cases ClassBody.readRange cls item dash last first (position + 2) <;> rfl
    · rfl

theorem readItem_placed {item : Lexeme} {rest : List Lexeme} (h : Remain source (item :: rest))
    (opener : Span) (cls : CharClass) (position : Nat) :
    readItem source opener cls item.placed (rest.map Lexeme.placed) position =
      (ClassBody.readItem cls item rest position).mapError .error := by
  unfold readItem ClassBody.readItem
  rw [← List.map_cons, refuse_placed h]
  cases ClassBody.unsupported? item rest with
  | some e => rfl
  | none =>
    simp only [refusal, bind, Except.bind, Lexeme.placed_token, characters_placed h,
      readFrom_placed h]
    cases ClassBody.characters item with
    | error cause => cases item.token <;> rfl
    | ok cs =>
      simp only [Except.mapError]
      cases cs.getLast? <;> cases item.token <;> rfl

/-- The body of a class is read alike, with as many tokens. -/
theorem readClass_placed {lexemes : List Lexeme} (h : Remain source lexemes) (opener : Span)
    (position : Nat) (atStart : Bool) (cls : CharClass) :
    match ClassBody.read opener position atStart cls lexemes with
    | .error e =>
      readClass source opener position atStart cls (lexemes.map Lexeme.placed) = .error (.error e)
    | .ok (cls', position', rest) =>
      ∃ taken, readClass source opener position atStart cls (lexemes.map Lexeme.placed) =
        .ok (cls', taken) ∧ 0 < taken ∧ taken ≤ lexemes.length ∧ position' = position + taken ∧
        rest = lexemes.drop taken := by
  fun_induction ClassBody.read opener position atStart cls lexemes with
  | case1 position =>
    rw [List.map_nil, readClass]
    rfl
  | case2 position atStart cls lx rest hclose =>
    rw [List.map_cons, readClass, Lexeme.placed_token, if_pos hclose]
    exact ⟨1, rfl, Nat.one_pos, by simp, rfl, rfl⟩
  | case3 position atStart cls lx rest hclose e hitem =>
    rw [List.map_cons, readClass, Lexeme.placed_token, if_neg hclose, readItem_placed h, hitem]
    rfl
  | case4 position atStart cls lx rest hclose cls' taken hitem ih =>
    rw [List.map_cons, readClass, Lexeme.placed_token, if_neg hclose, readItem_placed h, hitem]
    have hrest := ih (h.tail.drop taken)
    simp only [Except.mapError, ← List.map_drop]
    split
    · rename_i hread
      rw [hread] at hrest
      simp only [hrest]
      rfl
    · rename_i hread
      rw [hread] at hrest
      obtain ⟨more, hmore, hpos, hle, rfl, rfl⟩ := hrest
      rw [List.length_drop] at hle
      simp only [hmore]
      refine ⟨1 + taken + more, rfl, by omega, by simp only [List.length_cons]; omega, by omega, ?_⟩
      rw [List.drop_drop, Nat.add_comm 1 taken, Nat.add_right_comm, List.drop_succ_cons]

/-! ## Groups -/

/-- A parse that has noted as much, with the open groups and the alternation at hand. -/
def Notes.state (notes : Notes) (groups : List OpenGroup) (level : Level) : ParseState :=
  ⟨groups, level, notes.captures, notes.names, notes.backrefs⟩

/-- A reader and a parse in the state `st` agree on the lexemes: they fail alike, or the parse comes
to the lexemes after those that the reader has taken, `k` more than it counts.  `After` says in
which state it does. -/
def Agrees (position : Nat) (st : ParseState) (lexemes : List Lexeme) (k : Nat)
    (After : Node → Notes → ParseState → List Lexeme → Prop) :
    Except Fault (Node × Notes × Nat) → Prop
  | .error f => ∃ e, f = .error e ∧ readLexemes position st lexemes = .error e
  | .ok (node, notes, taken) =>
    k + taken ≤ lexemes.length ∧ ∃ st', After node notes st' (lexemes.drop (k + taken)) ∧
      readLexemes position st lexemes =
        readLexemes (position + (k + taken)) st' (lexemes.drop (k + taken))

section Agrees

variable {position j k n : Nat} {st st₁ : ParseState} {lexemes : List Lexeme}
  {After After' : Node → Notes → ParseState → List Lexeme → Prop}
  {r : Except Fault (Node × Notes × Nat)}

theorem Agrees.of_error {e : ParseError} (h : readLexemes position st lexemes = .error e) :
    Agrees position st lexemes k After (.error (.error e)) := ⟨e, rfl, h⟩

/-- Nothing is taken. -/
theorem Agrees.here {node : Node} {notes : Notes} (h : After node notes st lexemes) :
    Agrees position st lexemes 0 After (.ok (node, notes, 0)) := ⟨Nat.zero_le _, st, h, rfl⟩

/-- Agreement on what is left after `n` lexemes is agreement on all of them. -/
theorem Agrees.of_rest (h : Agrees (position + n) st₁ (lexemes.drop n) k After r)
    (hn : n ≤ lexemes.length)
    (hread : readLexemes position st lexemes = readLexemes (position + n) st₁ (lexemes.drop n))
    (wrap : Node → Node) (count : Nat → Nat) (hcount : ∀ taken, j + count taken = n + (k + taken))
    (hafter : ∀ node notes st' rest, After node notes st' rest →
      After' (wrap node) notes st' rest) :
    Agrees position st lexemes j After' (do
      let (node, notes, taken) ← r
      pure (wrap node, notes, count taken)) := by
  match r, h with
  | .error f, h =>
    obtain ⟨e, rfl, he⟩ := h
    exact ⟨e, rfl, hread.trans he⟩
  | .ok (node, notes, taken), h =>
    obtain ⟨hle, st', hst', hrest⟩ := h
    rw [List.length_drop] at hle
    rw [List.drop_drop] at hst' hrest
    refine ⟨by rw [hcount]; omega, st', ?_, ?_⟩
    · rw [hcount]
      exact hafter _ _ _ _ hst'
    · rw [hcount, hread, hrest, Nat.add_assoc]

end Agrees

/-- The alternation at hand is `node`, and its end has been reached. -/
def AfterArms (groups : List OpenGroup) (node : Node) (notes : Notes) (st : ParseState)
    (rest : List Lexeme) : Prop :=
  ∃ level : Level, level.node = node ∧ st = notes.state groups level ∧
    ∀ lx ∈ rest.head?, lx.token = .closeGroup

/-- The arm at hand is `node`, and its end has been reached. -/
def AfterItems (groups : List OpenGroup) (arms : List Node) (node : Node) (notes : Notes)
    (st : ParseState) (rest : List Lexeme) : Prop :=
  ∃ items : List Node, Node.ofItems items.reverse = node ∧ st = notes.state groups ⟨arms, items⟩ ∧
    ∀ lx ∈ rest.head?, lx.token = .pipe ∨ lx.token = .closeGroup

/-- The lexemes go on with no quantifier. -/
def Unquantified (lexemes : List Lexeme) : Prop :=
  ∀ lx ∈ lexemes.head?, ∀ min max, lx.token.role ≠ .quantifier min max

/-- The latest item is `node`. -/
def AfterAtom (groups : List OpenGroup) (level : Level) (node : Node) (notes : Notes)
    (st : ParseState) (_ : List Lexeme) : Prop :=
  st = notes.state groups (level.push node)

/-- The latest item is `node`, and no quantifier over it follows. -/
def AfterItem (groups : List OpenGroup) (level : Level) (node : Node) (notes : Notes)
    (st : ParseState) (rest : List Lexeme) : Prop :=
  AfterAtom groups level node notes st rest ∧ Unquantified rest

theorem lazyMark_placed (lexemes : List Lexeme) :
    (if (lexemes.map Lexeme.placed).head?.map (·.token) = some .question then 1 else 0) =
      lazyMark lexemes := by
  match lexemes with
  | [] => rfl
  | ⟨token, span, text⟩ :: rest =>
    by_cases htoken : token = .question
    · rw [htoken]
      rfl
    · simp [lazyMark, Lexeme.placed, htoken]

theorem lazyMark_le (lexemes : List Lexeme) : lazyMark lexemes ≤ lexemes.length := by
  unfold lazyMark
  split <;> simp

theorem unquantified_of_role {lx : Lexeme} {rest : List Lexeme}
    (h : ∀ min max, lx.token.role ≠ .quantifier min max) : Unquantified (lx :: rest) := by
  intro lx' hlx
  obtain rfl := Option.some.inj hlx
  exact h

theorem quantify_state (notes : Notes) (groups : List OpenGroup) (level : Level) (node : Node)
    (min : Nat) (max : Option Nat) (isLazy : Bool) (span : Span) (position : Nat) :
    (notes.state groups (level.push node)).quantify min max isLazy span position =
      match quantify node min max isLazy with
      | .error cause => .error ⟨cause, position, span⟩
      | .ok node => .ok (notes.state groups (level.push node)) := by
  unfold quantify ParseState.quantify
  simp only [Notes.state, Level.push]
  cases ParseState.boundsFault? min max with
  | some cause => rfl
  | none => cases node.isRepetition <;> cases node.isRepeatable <;> rfl

/-- A run of quantifiers is put over the latest item. -/
theorem readQuantifiers_placed (notes : Notes) (groups : List OpenGroup) (level : Level)
    (lexemes : List Lexeme) (position : Nat) (node : Node) :
    Agrees position (notes.state groups (level.push node)) lexemes 0 (AfterItem groups level)
      ((readQuantifiers position node (lexemes.map Lexeme.placed)).map
        fun (node, taken) => (node, notes, taken)) := by
  match lexemes with
  | [] =>
    rw [List.map_nil, readQuantifiers]
    exact .here ⟨rfl, by simp [Unquantified]⟩
  | lx :: rest =>
    rw [List.map_cons, readQuantifiers]
    simp only [Lexeme.placed_token, Lexeme.placed_span, lazyMark_placed, ← List.map_drop]
    cases hrole : lx.token.role with
    | quantifier min max =>
      have hread := @readLexemes_cons_quantifier position (notes.state groups (level.push node))
        lx rest min max hrole
      rw [quantify_state] at hread
      cases hnode : quantify node min max (lazyMark rest == 1) with
      | error cause =>
        simp only [hnode] at hread ⊢
        exact .of_error hread
      | ok node' =>
        simp only [hnode] at hread ⊢
        have hle : 1 + lazyMark rest ≤ (lx :: rest).length := by
          have := lazyMark_le rest
          simp only [List.length_cons]
          omega
        have hdrop : rest.drop (lazyMark rest) = (lx :: rest).drop (1 + lazyMark rest) := by
          rw [Nat.add_comm, List.drop_succ_cons]
        have hrest := readQuantifiers_placed notes groups level (rest.drop (lazyMark rest))
          (position + 1 + lazyMark rest) node'
        rw [Nat.add_assoc, hdrop] at hread hrest ⊢
        have hall : Agrees position (notes.state groups (level.push node)) (lx :: rest) 0
            (AfterItem groups level) _ :=
          hrest.of_rest hle hread id (1 + lazyMark rest + ·) (by omega) fun _ _ _ _ => id
        generalize readQuantifiers _ _ _ = result at hall ⊢
        cases result <;> exact hall
    | classOpener negated => exact .here ⟨rfl, unquantified_of_role (by simp [hrole])⟩
    | action a => exact .here ⟨rfl, unquantified_of_role (by simp [hrole])⟩
  termination_by lexemes.length
  decreasing_by simp only [List.length_drop, List.length_cons]; omega

/-- A group's body and its closing parenthesis put the group into the alternation around it. -/
def AfterBody (groups : List OpenGroup) (outer : Level) (opener : Opener) (body : Node)
    (notes : Notes) (st : ParseState) (_ : List Lexeme) : Prop :=
  st = notes.state groups (outer.push (opener.wrap body))

/-- A token may start an item behind `items`. -/
def StartsItem (items : List Node) (t : Token) : Prop :=
  t ≠ .pipe ∧ t ≠ .closeGroup ∧ (items = [] ∨ ∀ min max, t.role ≠ .quantifier min max)

theorem drop_succ_of_eq_cons {α : Type} {n : Nat} {l rest : List α} {a : α}
    (h : l.drop n = a :: rest) : n + 1 ≤ l.length ∧ rest = l.drop (n + 1) := by
  have hne : l.drop n ≠ [] := by simp [h]
  rw [Ne, List.drop_eq_nil_iff, not_le] at hne
  refine ⟨hne, ?_⟩
  rw [List.drop_add_one_eq_tail_drop, h, List.tail_cons]

theorem Agrees.group {position : Nat} {st : ParseState} {notes : Notes} {groups : List OpenGroup}
    {level : Level} {opener : Opener} {lx : Lexeme} {rest : List Lexeme}
    {r : Except Fault (Node × Notes × Nat)}
    (h : Agrees (position + 1) (notes.state (⟨opener, lx.span, level⟩ :: groups) .start) rest 0
      (AfterBody groups level opener) r)
    (hread : readLexemes position st (lx :: rest) =
      readLexemes (position + 1) (notes.state (⟨opener, lx.span, level⟩ :: groups) .start) rest) :
    Agrees position st (lx :: rest) 1 (AfterAtom groups level) (do
      let (body, notes, taken) ← r
      pure (opener.wrap body, notes, taken)) :=
  Agrees.of_rest (n := 1) h (by simp) hread opener.wrap id (by simp) fun _ _ _ _ => id

/-- The token at hand is an item. -/
theorem Agrees.item {position : Nat} {st : ParseState} {notes : Notes} {groups : List OpenGroup}
    {level : Level} {node : Node} {lx : Lexeme} {rest : List Lexeme}
    (hread : readLexemes position st (lx :: rest) =
      readLexemes (position + 1) (notes.state groups (level.push node)) rest) :
    Agrees position st (lx :: rest) 1 (AfterAtom groups level) (.ok (node, notes, 0)) :=
  ⟨by simp, _, rfl, hread⟩

theorem act_openCapture (st : ParseState) (span : Span) (rest : List Lexeme) (position : Nat) :
    (∃ next, (rest.map Lexeme.placed).head? = some ⟨.question, next⟩ ∧
      st.act .openCapture span rest.head? position =
        .error ⟨.unsupportedGroup, position + 1, span.merge next⟩) ∨
    (∀ next, (rest.map Lexeme.placed).head? ≠ some ⟨.question, next⟩) ∧
      st.act .openCapture span rest.head? position = .ok (st.openCapture span) := by
  match rest with
  | [] => exact .inr ⟨by simp, rfl⟩
  | ⟨token, next, text⟩ :: rest =>
    by_cases htoken : token = .question
    · exact .inl ⟨next, by rw [htoken]; rfl, by rw [htoken]; rfl⟩
    · refine .inr ⟨by simp [Lexeme.placed, htoken], ?_⟩
      cases token <;> first | rfl | exact absurd rfl htoken

theorem lookup?_state (notes : Notes) (groups : List OpenGroup) (level : Level) (name : String) :
    (notes.state groups level).lookup? name = (notes.names.find? (·.1 == name)).map (·.2) := rfl

theorem token_of_role_bar {t : Token} (h : t.role = .action .bar) : t = .pipe := by
  cases t <;> simp_all [Token.role]

theorem token_of_role_close {t : Token} (h : t.role = .action .close) : t = .closeGroup := by
  cases t <;> simp_all [Token.role]

mutual

theorem readArms_placed {lexemes : List Lexeme} (h : Remain source lexemes) (position : Nat)
    (notes : Notes) (groups : List OpenGroup) (arms : List Node) :
    Agrees position (notes.state groups ⟨arms, []⟩) lexemes 0 (AfterArms groups)
      (readArms source position notes arms (lexemes.map Lexeme.placed)) := by
  rw [readArms]
  have hitems := readItems_placed h position notes groups arms [] (.inl rfl)
  split
  · rename_i f hread
    rw [hread] at hitems
    exact hitems
  · rename_i arm notes' taken hread
    rw [hread] at hitems
    obtain ⟨hle, st', ⟨items, rfl, rfl, hnext⟩, hrest⟩ := hitems
    rw [Nat.zero_add] at hle hnext hrest
    rw [← List.map_drop]
    split
    · rename_i hmap
      obtain ⟨bar, rest, hdrop, hbar, rfl⟩ := List.map_eq_cons_iff.mp hmap
      obtain ⟨hle', rfl⟩ := drop_succ_of_eq_cons hdrop
      obtain ⟨token, barSpan, text⟩ := bar
      obtain ⟨rfl, rfl⟩ := Placed.mk.inj hbar
      rw [hdrop, readLexemes_action (a := .bar) rfl rfl] at hrest
      have hmore := readArms_placed (h.drop (taken + 1)) (position + taken + 1) notes' groups
        (Node.ofItems items.reverse :: arms)
      exact hmore.of_rest hle' hrest id (taken + 1 + ·) (by omega) fun _ _ _ _ => id
    · rename_i hne
      refine ⟨(Nat.zero_add _).trans_le hle, _, ⟨⟨arms, items⟩, rfl, rfl, ?_⟩, ?_⟩
      · rw [Nat.zero_add]
        intro lx hlx
        refine (hnext lx hlx).resolve_left fun hpipe => ?_
        obtain ⟨rest, hdrop⟩ := List.head?_eq_some_iff.mp hlx
        exact hne lx.span (rest.map Lexeme.placed) (by rw [hdrop, List.map_cons, ← hpipe]; rfl)
      · rwa [Nat.zero_add]
  termination_by (lexemes.length, 3)

theorem readItems_placed {lexemes : List Lexeme} (h : Remain source lexemes) (position : Nat)
    (notes : Notes) (groups : List OpenGroup) (arms items : List Node)
    (hitems : items = [] ∨ Unquantified lexemes) :
    Agrees position (notes.state groups ⟨arms, items⟩) lexemes 0 (AfterItems groups arms)
      (readItems source position notes items (lexemes.map Lexeme.placed)) := by
  match lexemes with
  | [] =>
    rw [List.map_nil, readItems]
    exact .here ⟨items, rfl, rfl, by simp⟩
  | lx :: rest =>
    rw [List.map_cons, readItems, Lexeme.placed_token]
    split
    · rename_i hend
      exact .here ⟨items, rfl, rfl, by simpa using hend⟩
    · rename_i hend
      have hstarts : StartsItem items lx.token :=
        ⟨fun heq => hend (.inl heq), fun heq => hend (.inr heq), hitems.imp_right (· lx rfl)⟩
      have hitem := readQuantified_placed h position notes groups arms items hstarts
      split
      · rename_i f hread
        rw [hread] at hitem
        exact hitem
      · rename_i item notes' extra hread
        rw [hread] at hitem
        obtain ⟨hle, st', ⟨rfl, hnext⟩, hrest⟩ := hitem
        have hmore := readItems_placed (h.drop (1 + extra)) (position + (1 + extra)) notes' groups
          arms (item :: items) (.inr hnext)
        rw [Nat.add_comm 1 extra] at hle hrest hmore
        rw [Nat.add_assoc, Nat.add_comm 1 extra, ← List.map_drop]
        exact hmore.of_rest hle hrest id (extra + 1 + ·) (by omega) fun _ _ _ _ => id
  termination_by (lexemes.length, 2)

theorem readQuantified_placed {lx : Lexeme} {rest : List Lexeme} (h : Remain source (lx :: rest))
    (position : Nat) (notes : Notes) (groups : List OpenGroup) (arms items : List Node)
    (hstarts : StartsItem items lx.token) :
    Agrees position (notes.state groups ⟨arms, items⟩) (lx :: rest) 1
      (AfterItem groups ⟨arms, items⟩)
      (readQuantified source position notes (lx.placed :: rest.map Lexeme.placed)) := by
  rw [readQuantified]
  have hatom := readAtom_placed h position notes groups arms items hstarts
  cases hread : readAtom source position notes (lx.placed :: rest.map Lexeme.placed) with
  | error f =>
    rw [hread] at hatom
    exact hatom
  | ok read =>
    obtain ⟨atom, notes', extra⟩ := read
    rw [hread] at hatom
    obtain ⟨hle, st', rfl, hrest⟩ := hatom
    have hmore := readQuantifiers_placed notes' groups ⟨arms, items⟩ ((lx :: rest).drop (1 + extra))
      (position + (1 + extra)) atom
    have hall : Agrees position (notes.state groups ⟨arms, items⟩) (lx :: rest) 1
        (AfterItem groups ⟨arms, items⟩) _ :=
      hmore.of_rest hle hrest id (extra + ·) (by omega) fun _ _ _ _ => id
    rw [List.map_drop, List.map_cons] at hall
    simp only [bind, Except.bind, Nat.add_assoc]
    generalize readQuantifiers _ _ _ = result at hall ⊢
    cases result <;> exact hall
  termination_by (rest.length + 1, 1)

theorem readAtom_placed {lx : Lexeme} {rest : List Lexeme} (h : Remain source (lx :: rest))
    (position : Nat) (notes : Notes) (groups : List OpenGroup) (arms items : List Node)
    (hstarts : StartsItem items lx.token) :
    Agrees position (notes.state groups ⟨arms, items⟩) (lx :: rest) 1
      (AfterAtom groups ⟨arms, items⟩)
      (readAtom source position notes (lx.placed :: rest.map Lexeme.placed)) := by
  have hbody := fun notes opener =>
    readBody_placed h.tail (position + 1) notes groups ⟨arms, items⟩ opener lx.span
  rw [readAtom]
  simp only [Lexeme.placed_token, Lexeme.placed_span]
  cases hrole : lx.token.role with
  | quantifier min max =>
    obtain ⟨-, -, hitems⟩ := hstarts
    obtain rfl : items = [] := hitems.resolve_right fun hne => hne min max hrole
    exact .of_error (readLexemes_cons_quantifier hrole)
  | classOpener negated =>
    have hread := @readLexemes_cons_classOpener position (notes.state groups ⟨arms, items⟩) lx rest
      negated hrole
    have hclass := readClass_placed h.tail lx.span (position + 1) true .empty
    split at hclass
    · rename_i e hbody
      rw [hbody] at hread
      rw [hclass]
      exact .of_error hread
    · rename_i cls position' rest' hbody
      obtain ⟨taken, htaken, -, hle, rfl, rfl⟩ := hclass
      rw [hbody] at hread
      rw [htaken]
      have hdrop : rest.drop taken = (lx :: rest).drop (1 + taken) := by
        rw [Nat.add_comm, List.drop_succ_cons]
      rw [hdrop, Nat.add_assoc] at hread
      exact ⟨by simp only [List.length_cons]; omega, _, rfl, hread⟩
  | action a =>
    have hread := @readLexemes_cons_action position (notes.state groups ⟨arms, items⟩) lx rest a
      hrole
    cases a with
    | bar => exact absurd (token_of_role_bar hrole) hstarts.1
    | close => exact absurd (token_of_role_close hrole) hstarts.2.1
    | openAs opener =>
      exact (hbody notes opener).group hread
    | openCapture =>
      dsimp only
      rcases act_openCapture (notes.state groups ⟨arms, items⟩) lx.span rest position with
        ⟨next, hnext, hact⟩ | ⟨hnext, hact⟩
      · rw [hact] at hread
        rw [hnext]
        exact .of_error hread
      · rw [hact] at hread
        split
        · exact absurd ‹_› (hnext _)
        · exact (hbody notes.addCapture _).group hread
    | openNamed name =>
      dsimp only
      simp only [ParseState.act, lookup?_state] at hread
      rw [← List.isSome_find?]
      cases hfind : notes.names.find? (·.1 == name) with
      | some entry =>
        rw [hfind] at hread
        exact .of_error hread
      | none =>
        rw [hfind] at hread
        exact (hbody (notes.addNamed name) _).group hread
    | leaf node => exact .item hread
    | reference group => exact .item hread
    | namedReference name =>
      dsimp only
      simp only [ParseState.act, lookup?_state] at hread
      cases hfind : notes.names.find? (·.1 == name) with
      | none =>
        rw [hfind] at hread
        exact .of_error hread
      | some entry =>
        rw [hfind] at hread
        exact .item hread
  termination_by (rest.length + 1, 0)

theorem readBody_placed {lexemes : List Lexeme} (h : Remain source lexemes) (position : Nat)
    (notes : Notes) (groups : List OpenGroup) (outer : Level) (opener : Opener) (span : Span) :
    Agrees position (notes.state (⟨opener, span, outer⟩ :: groups) .start) lexemes 0
      (AfterBody groups outer opener)
      (readBody source position notes span (lexemes.map Lexeme.placed)) := by
  rw [readBody]
  have harms := readArms_placed h position notes (⟨opener, span, outer⟩ :: groups) []
  cases hread : readArms source position notes [] (lexemes.map Lexeme.placed) with
  | error f =>
    rw [hread] at harms
    exact harms
  | ok read =>
    obtain ⟨node, notes', taken⟩ := read
    rw [hread] at harms
    obtain ⟨hle, st', ⟨level, rfl, rfl, hnext⟩, hrest⟩ := harms
    rw [Nat.zero_add] at hle hnext hrest
    simp only [bind, Except.bind, ← List.map_drop]
    cases hdrop : lexemes.drop taken with
    | nil =>
      rw [hdrop, readLexemes] at hrest
      exact .of_error hrest
    | cons close rest =>
      obtain ⟨hle', rfl⟩ := drop_succ_of_eq_cons hdrop
      rw [hdrop] at hnext hrest
      obtain ⟨token, closeSpan, text⟩ := close
      obtain rfl : token = .closeGroup := hnext _ rfl
      rw [readLexemes_action (a := .close) rfl rfl] at hrest
      refine ⟨(Nat.zero_add _).trans_le hle', _, rfl, ?_⟩
      rw [Nat.zero_add]
      exact hrest
  termination_by (lexemes.length, 4)

end

/-! ## Whole patterns -/

theorem start_eq_state : ParseState.start = Notes.state ⟨0, [], []⟩ [] ⟨[], []⟩ := rfl

/-- The two readers agree on what is left of a source, so that the second one never fails in a way
of its own. -/
theorem parse_placed {lexemes : List Lexeme} (h : Remain source lexemes) :
    parse source (lexemes.map Lexeme.placed) = (parseLexemes lexemes).mapError .error := by
  have harms := readArms_placed h 0 ⟨0, [], []⟩ [] []
  rw [parse, parseLexemes]
  cases hread : readArms source 0 ⟨0, [], []⟩ [] (lexemes.map Lexeme.placed) with
  | error f =>
    rw [hread] at harms
    obtain ⟨e, rfl, he⟩ := harms
    rw [start_eq_state, he]
    rfl
  | ok read =>
    obtain ⟨root, notes, taken⟩ := read
    rw [hread] at harms
    obtain ⟨hle, st', ⟨level, rfl, rfl, hnext⟩, hrest⟩ := harms
    simp only [Nat.zero_add] at hle hnext hrest
    rw [start_eq_state, hrest]
    simp only [bind, Except.bind, ← List.map_drop]
    cases hdrop : lexemes.drop taken with
    | nil =>
      have htaken : lexemes.length = taken :=
        Nat.le_antisymm (List.drop_eq_nil_iff.mp hdrop) hle
      rw [readLexemes, htaken]
      simp only [Notes.state, unknownGroup?, List.map_nil]
      cases notes.backrefs.reverse.find? fun r => decide (notes.captures < r.1) <;> rfl
    | cons close rest =>
      rw [hdrop] at hnext
      obtain ⟨token, span, text⟩ := close
      obtain rfl : token = .closeGroup := hnext _ rfl
      rw [readLexemes_cons_action (a := .close) rfl]
      rfl

/-- A fault of the second reader is an error that the first one reports as well. -/
theorem exists_error_of_parse {lexemes : List Lexeme} (h : Remain source lexemes) {f : Fault}
    (hf : parse source (lexemes.map Lexeme.placed) = .error f) : ∃ e, f = .error e := by
  rw [parse_placed h] at hf
  cases hread : parseLexemes lexemes with
  | error e =>
    rw [hread] at hf
    exact ⟨e, (Except.error.inj hf).symm⟩
  | ok p =>
    rw [hread] at hf
    simp [Except.mapError] at hf

end Descent

end PatternSampler
