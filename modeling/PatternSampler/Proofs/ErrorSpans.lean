import PatternSampler.Diagnostic.OfError
import PatternSampler.Proofs.Descent
/-!
# Where errors point

What a parse may report is at fault among its lexemes: one that is more than a character, with the
neighbour or the POSIX name that goes with it, or a range of a class (`FaultSpan`).  The spans that
it keeps for later, of open groups and of references, are of the first kind from the step that notes
them on (`ParseState.KeepsSyntax`).  So the span of an error covers some whole characters of the
source, one at least (`Span.Within`).  Main statement: `error_label_within`.
-/
set_option autoImplicit false

namespace PatternSampler

variable {source : List Char} {lexemes : List Lexeme}

/-! ## Spans -/

namespace Remain

variable {lx : Lexeme} {rest : List Lexeme}

theorem prefix_within (h : Remain source (lx :: rest)) {piece : List Char} (hne : piece ≠ [])
    (hpiece : piece <+: lx.text ++ rest.flatMap (·.text)) :
    Span.Within ⟨lx.span.start, lx.span.start + Text.byteLength piece⟩ source := by
  obtain ⟨before, after, heq, hstart⟩ := h.exists_prefix hpiece
  rw [← hstart, ← Text.byteLength_append]
  exact Span.within_of_eq hne heq

theorem text_ne_nil (h : Remain source (lx :: rest)) : lx.text ≠ [] := by
  obtain ⟨before, hfills⟩ := h
  cases hfills with
  | cons htext _ _ => exact htext

end Remain

/-- The token is more than a character, or is one of the characters that a set operator is made
of. -/
def Token.IsSyntax : Token → Prop
  | .literal c => c = '&' ∨ c = '~'
  | _ => True

/-- What a token does that is not syntax is to add a character. -/
theorem Token.isSyntax_of_role {t : Token} (h : ∀ node, t.role ≠ .action (.leaf node)) :
    t.IsSyntax := by
  cases t with
  | literal c => exact absurd rfl (h (.char c))
  | _ => trivial

/-- The span covers a lexeme that is syntax, this lexeme and its neighbour, or the POSIX name from
it on. -/
inductive SyntaxSpan (lexemes : List Lexeme) : Span → Prop where
  | lexeme {lx : Lexeme} {rest : List Lexeme} (h : lx :: rest <:+ lexemes)
      (hlx : lx.token.IsSyntax) : SyntaxSpan lexemes lx.span
  | pair {lx next : Lexeme} {rest : List Lexeme} (h : lx :: next :: rest <:+ lexemes)
      (hlx : lx.token.IsSyntax) : SyntaxSpan lexemes (lx.span.merge next.span)
  | posixName {lx : Lexeme} {rest : List Lexeme} (h : lx :: rest <:+ lexemes)
      (hlx : lx.token.IsSyntax) : SyntaxSpan lexemes
        ⟨lx.span.start, lx.span.start + Text.byteLength (ClassBody.posixName lx rest)⟩

/-- The span is at fault for the cause: it covers syntax, or a range that is none. -/
inductive FaultSpan (lexemes : List Lexeme) : ParseCause → Span → Prop where
  | syntax_ {cause : ParseCause} {span : Span} (h : SyntaxSpan lexemes span) :
      FaultSpan lexemes cause span
  | range {item dash last : Lexeme} {rest : List Lexeme}
      (h : item :: dash :: last :: rest <:+ lexemes) (hdash : dash.token = .dash) :
      FaultSpan lexemes (.invalidRange (item.text ++ dash.text ++ last.text))
        (item.span.merge last.span)

/-- The piece stands at the span, from the start of one of the lexemes on. -/
structure PieceAt (lexemes : List Lexeme) (span : Span) (lx : Lexeme) (rest : List Lexeme)
    (piece : List Char) : Prop where
  suffix : lx :: rest <:+ lexemes
  ne_nil : piece ≠ []
  isPrefix : piece <+: lx.text ++ rest.flatMap (·.text)
  span_eq : span = ⟨lx.span.start, lx.span.start + Text.byteLength piece⟩

theorem PieceAt.within {span : Span} {lx : Lexeme} {rest : List Lexeme} {piece : List Char}
    (h : PieceAt lexemes span lx rest piece) (hlexemes : Remain source lexemes) :
    span.Within source := by
  rw [h.span_eq]
  exact (hlexemes.suffix h.suffix).prefix_within h.ne_nil h.isPrefix

theorem ClassBody.ne_nil_of_upToPosixEnd? {text name : List Char}
    (h : upToPosixEnd? text = some name) : name ≠ [] := by
  fun_cases upToPosixEnd? text with
  | case1 rest =>
    obtain rfl := Option.some.inj h
    exact List.cons_ne_nil _ _
  | case2 c cs hne =>
    rw [upToPosixEnd?.eq_2 c cs hne] at h
    obtain ⟨name', -, rfl⟩ := Option.map_eq_some_iff.mp h
    exact List.cons_ne_nil _ _
  | case3 => simp [upToPosixEnd?] at h

theorem ClassBody.posixName_ne_nil {lx : Lexeme} (hlx : lx.text ≠ []) (rest : List Lexeme) :
    posixName lx rest ≠ [] := by
  unfold posixName
  cases hend : upToPosixEnd? (lx.text ++ rest.flatMap (·.text)) with
  | none => exact hlx
  | some name => exact ne_nil_of_upToPosixEnd? hend

theorem SyntaxSpan.exists_piece (hlexemes : Remain source lexemes) {span : Span}
    (h : SyntaxSpan lexemes span) :
    ∃ lx rest piece, PieceAt lexemes span lx rest piece ∧ lx.token.IsSyntax := by
  cases h with
  | @lexeme lx rest h hlx =>
    have hrest := hlexemes.suffix h
    have hspan : lx.span = ⟨lx.span.start, lx.span.start + Text.byteLength lx.text⟩ := by
      rw [← Descent.stop_eq hrest]
    exact ⟨lx, rest, lx.text, ⟨h, hrest.text_ne_nil, List.prefix_append _ _, hspan⟩, hlx⟩
  | @pair lx next rest h hlx =>
    have hrest := hlexemes.suffix h
    exact ⟨lx, next :: rest, lx.text ++ next.text, ⟨h, by simp [hrest.text_ne_nil], by simp,
      Descent.span_merge hrest⟩, hlx⟩
  | @posixName lx rest h hlx =>
    have hne := ClassBody.posixName_ne_nil (hlexemes.suffix h).text_ne_nil rest
    exact ⟨lx, rest, _, ⟨h, hne, ClassBody.posixName_isPrefix lx rest, rfl⟩, hlx⟩

/-- What is at fault is a piece of the source that starts with syntax, or a whole range. -/
theorem FaultSpan.exists_piece (hlexemes : Remain source lexemes) {cause : ParseCause} {span : Span}
    (h : FaultSpan lexemes cause span) :
    ∃ lx rest piece, PieceAt lexemes span lx rest piece ∧
      (lx.token.IsSyntax ∨ cause = .invalidRange piece ∧
        ∃ dash, dash ∈ lexemes ∧ dash.token = .dash ∧ lx.text ++ dash.text <+: piece) := by
  cases h with
  | syntax_ h =>
    obtain ⟨lx, rest, piece, hpiece, hlx⟩ := h.exists_piece hlexemes
    exact ⟨lx, rest, piece, hpiece, .inl hlx⟩
  | @range item dash last rest h hdash =>
    have hrest := hlexemes.suffix h
    have hmerge : item.span.merge last.span = ⟨item.span.start,
        item.span.start + Text.byteLength (item.text ++ dash.text ++ last.text)⟩ := by
      rw [Span.merge, Descent.stop_eq hrest.tail.tail, Descent.start_eq hrest.tail,
        Descent.stop_eq hrest.tail, Descent.start_eq hrest, Descent.stop_eq hrest]
      simp only [Text.byteLength_append]
      congr 1 <;> omega
    have hmem : dash ∈ lexemes := h.subset (by simp)
    exact ⟨item, dash :: last :: rest, _, ⟨h, by simp [hrest.text_ne_nil], by simp, hmerge⟩,
      .inr ⟨rfl, dash, hmem, hdash, List.prefix_append _ _⟩⟩

/-! ## Classes -/

/-- What may be wrong with a class. -/
def ParseCause.OfClass : ParseCause → Prop
  | .unclosedClass | .escapeInClass _ | .invalidRange _ | .nestedClass | .posixClass _
  | .setOperator _ => True
  | _ => False

/-- Something is wrong with a class, at some of the lexemes. -/
structure ParseError.InClass (e : ParseError) (lexemes : List Lexeme) : Prop where
  span : FaultSpan lexemes e.cause e.span
  cause : e.cause.OfClass

namespace ClassBody

variable {item lx : Lexeme} {rest : List Lexeme} {position : Nat} {e : ParseError}

theorem inClass_of_unsupported? (h : lx :: rest <:+ lexemes) {cause : ParseCause} {span : Span}
    (hspan : unsupported? lx rest = some (cause, span)) (position : Nat) :
    ParseError.InClass ⟨cause, position, span⟩ lexemes := by
  by_cases hbracket : lx.token = .openClass ∨ lx.token = .openNegatedClass
  · have hlx : lx.token.IsSyntax := by rcases hbracket with hlx | hlx <;> simp [hlx, Token.IsSyntax]
    rcases unsupported?_bracket hbracket with ⟨tail, -, hrefused⟩ | ⟨-, hrefused⟩
    · obtain ⟨rfl, rfl⟩ := Prod.mk.inj (Option.some.inj (hrefused.symm.trans hspan))
      exact ⟨.syntax_ (.posixName h hlx), trivial⟩
    · obtain ⟨rfl, rfl⟩ := Prod.mk.inj (Option.some.inj (hrefused.symm.trans hspan))
      exact ⟨.syntax_ (.lexeme h hlx), trivial⟩
  · by_cases hoperator : lx.token = .dash ∨ lx.token = .literal '&' ∨ lx.token = .literal '~'
    · have hlx : lx.token.IsSyntax := by
        rcases hoperator with hlx | hlx | hlx <;> simp [hlx, Token.IsSyntax]
      cases rest with
      | nil => rcases hoperator with hlx | hlx | hlx <;> simp [unsupported?, hlx] at hspan
      | cons next rest =>
        rw [unsupported?_operator hoperator] at hspan
        split at hspan
        · obtain ⟨rfl, rfl⟩ := Prod.mk.inj (Option.some.inj hspan)
          exact ⟨.syntax_ (.pair h hlx), trivial⟩
        · simp at hspan
    · rw [unsupported?_other hbracket hoperator] at hspan
      simp at hspan

/-- A lexeme that stands for no character inside a class is an escape. -/
theorem inClass_of_characters (h : lx :: rest <:+ lexemes) {cause : ParseCause}
    (hcause : characters lx = .error cause) (position : Nat) :
    ParseError.InClass ⟨cause, position, lx.span⟩ lexemes := by
  have hlx : cause.OfClass ∧ lx.token.IsSyntax := by
    unfold characters at hcause
    split at hcause <;>
      first
        | exact ⟨(Except.error.inj hcause) ▸ trivial, by simp [*, Token.IsSyntax]⟩
        | simp at hcause
  exact ⟨.syntax_ (.lexeme h hlx.2), hlx.1⟩

theorem inClass_of_readRange {dash last : Lexeme} (h : item :: dash :: last :: rest <:+ lexemes)
    (hdash : dash.token = .dash) {cls : CharClass} {first : Char}
    (herror : readRange cls item dash last first position = .error e) : e.InClass lexemes := by
  have hinvalid : ParseError.InClass ⟨.invalidRange (item.text ++ dash.text ++ last.text), position,
      item.span.merge last.span⟩ lexemes := ⟨.range h hdash, trivial⟩
  have hlast : last :: rest <:+ lexemes := (List.suffix_append [item, dash] _).trans h
  unfold readRange at herror
  split at herror
  · obtain rfl := Except.error.inj herror
    exact hinvalid
  · split at herror
    · obtain rfl := Except.error.inj herror
      exact inClass_of_characters hlast ‹_› _
    · split at herror
      · simp at herror
      · obtain rfl := Except.error.inj herror
        exact hinvalid
    · obtain rfl := Except.error.inj herror
      exact hinvalid

theorem inClass_of_readFrom (h : item :: rest <:+ lexemes) {cls : CharClass} {first : Char}
    (herror : readFrom cls item first rest position = .error e) : e.InClass lexemes := by
  unfold readFrom at herror
  split at herror
  · rename_i hfollows
    split at herror
    · rename_i dash last after
      have hdash : dash.token = .dash := by simp_all [rangeFollows]
      have hrest : dash :: last :: after <:+ lexemes := (List.suffix_cons _ _).trans h
      split at herror
      · obtain rfl := Except.error.inj herror
        exact inClass_of_unsupported? hrest ‹_› _
      · split at herror
        · obtain rfl := Except.error.inj herror
          exact inClass_of_unsupported? ((List.suffix_cons _ _).trans hrest) ‹_› _
        · split at herror
          · obtain rfl := Except.error.inj herror
            exact inClass_of_readRange h hdash ‹_›
          · simp at herror
    · simp at herror
  · simp at herror

theorem inClass_of_readItem (h : item :: rest <:+ lexemes) {cls : CharClass}
    (herror : readItem cls item rest position = .error e) : e.InClass lexemes := by
  unfold readItem at herror
  split at herror
  · obtain rfl := Except.error.inj herror
    exact inClass_of_unsupported? h ‹_› _
  · split at herror
    · simp at herror
    · split at herror
      · obtain rfl := Except.error.inj herror
        exact inClass_of_characters h ‹_› _
      · split at herror
        · simp at herror
        · exact inClass_of_readFrom h herror

theorem inClass_of_read {opener : Span} (hopener : SyntaxSpan lexemes opener)
    (h : rest <:+ lexemes) {atStart : Bool} {cls : CharClass}
    (herror : read opener position atStart cls rest = .error e) : e.InClass lexemes := by
  fun_induction read opener position atStart cls rest with
  | case1 =>
    obtain rfl := Except.error.inj herror
    exact ⟨.syntax_ hopener, trivial⟩
  | case2 => simp at herror
  | case3 position atStart cls lx rest _ e hitem =>
    obtain rfl := Except.error.inj herror
    exact inClass_of_readItem h hitem
  | case4 position atStart cls lx rest _ cls' taken _ ih =>
    exact ih (((List.drop_suffix _ _).trans (List.suffix_cons _ _)).trans h) herror

end ClassBody

/-! ## Patterns -/

/-- What may be wrong with a quantifier. -/
def ParseCause.OfQuantifier : ParseCause → Prop
  | .nothingToRepeat | .nestedQuantifier | .boundsOutOfOrder _ _ => True
  | _ => False

theorem ofQuantifier_of_boundsFault? {min : Nat} {max : Option Nat} {cause : ParseCause}
    (h : ParseState.boundsFault? min max = some cause) : cause.OfQuantifier := by
  unfold ParseState.boundsFault? at h
  split at h
  · split at h
    · exact Option.some.inj h ▸ trivial
    · simp at h
  · simp at h

/-- What a parse has kept of spans are spans of syntax. -/
structure ParseState.KeepsSyntax (st : ParseState) (lexemes : List Lexeme) : Prop where
  openGroups : ∀ g ∈ st.openGroups, SyntaxSpan lexemes g.span
  backrefs : ∀ r ∈ st.backrefs, SyntaxSpan lexemes r.2

namespace ParseState

variable {st : ParseState}

theorem KeepsSyntax.push (h : st.KeepsSyntax lexemes) (node : Node) :
    (st.push node).KeepsSyntax lexemes := ⟨h.openGroups, h.backrefs⟩

theorem KeepsSyntax.openGroup (h : st.KeepsSyntax lexemes) (opener : Opener) {span : Span}
    (hspan : SyntaxSpan lexemes span) : (st.openGroup opener span).KeepsSyntax lexemes :=
  ⟨List.forall_mem_cons.mpr ⟨hspan, h.openGroups⟩, h.backrefs⟩

theorem KeepsSyntax.openCapture (h : st.KeepsSyntax lexemes) {span : Span}
    (hspan : SyntaxSpan lexemes span) : (st.openCapture span).KeepsSyntax lexemes :=
  ⟨(h.openGroup _ hspan).openGroups, h.backrefs⟩

theorem KeepsSyntax.openNamed (h : st.KeepsSyntax lexemes) (name : String) {span : Span}
    (hspan : SyntaxSpan lexemes span) : (st.openNamed name span).KeepsSyntax lexemes :=
  ⟨(h.openCapture hspan).openGroups, h.backrefs⟩

/-- What a token does that takes no further ones keeps spans of syntax, or fails at one. -/
theorem act_outcome (h : st.KeepsSyntax lexemes) {lx : Lexeme} {rest : List Lexeme}
    (hrest : lx :: rest <:+ lexemes) {a : Action} (hrole : lx.token.role = .action a)
    (position : Nat) :
    match st.act a lx.span rest.head? position with
    | .error e => SyntaxSpan lexemes e.span
    | .ok st' => st'.KeepsSyntax lexemes := by
  by_cases hleaf : ∃ node, a = .leaf node
  · obtain ⟨node, rfl⟩ := hleaf
    exact h.push node
  have hlx : lx.token.IsSyntax := by
    apply Token.isSyntax_of_role
    intro node hnode
    exact hleaf ⟨node, Role.action.inj (hrole.symm.trans hnode)⟩
  have hspan : SyntaxSpan lexemes lx.span := .lexeme hrest hlx
  cases a with
  | bar => exact ⟨h.openGroups, h.backrefs⟩
  | close =>
    cases hgroups : st.openGroups with
    | nil =>
      simp only [act, hgroups]
      exact hspan
    | cons g outer =>
      simp only [act, hgroups]
      have hopen := h.openGroups
      rw [hgroups] at hopen
      exact ⟨(List.forall_mem_cons.mp hopen).2, h.backrefs⟩
  | openAs opener => exact h.openGroup opener hspan
  | openCapture =>
    match rest, hrest with
    | [], _ => exact h.openCapture hspan
    | ⟨token, next, text⟩ :: rest, hrest =>
      have hmerge : SyntaxSpan lexemes (lx.span.merge next) := .pair hrest hlx
      cases token <;> first | exact h.openCapture hspan | exact hmerge
  | openNamed name =>
    cases hname : st.lookup? name with
    | some index =>
      simp only [act, hname]
      exact hspan
    | none =>
      simp only [act, hname]
      exact h.openNamed name hspan
  | leaf node => exact absurd ⟨node, rfl⟩ hleaf
  | reference group => exact ⟨h.openGroups, List.forall_mem_cons.mpr ⟨hspan, h.backrefs⟩⟩
  | namedReference name =>
    cases hname : st.lookup? name with
    | some index =>
      simp only [act, hname]
      exact h.push _
    | none =>
      simp only [act, hname]
      exact hspan

/-- A quantifier changes the alternation at hand only, or is itself at fault. -/
theorem quantify_outcome (st : ParseState) (min : Nat) (max : Option Nat) (isLazy : Bool)
    (span : Span) (position : Nat) :
    match st.quantify min max isLazy span position with
    | .error e => e.span = span ∧ e.cause.OfQuantifier
    | .ok st' => ∃ level, st' = { st with level := level } := by
  cases hitems : st.level.items with
  | nil =>
    simp only [quantify, hitems, true_and]
    trivial
  | cons item items =>
    cases hbounds : boundsFault? min max with
    | some cause =>
      simp only [quantify, hitems, hbounds, true_and]
      exact ofQuantifier_of_boundsFault? hbounds
    | none =>
      simp only [quantify, hitems, hbounds]
      cases item.isRepetition <;> cases item.isRepeatable <;>
        first | exact ⟨rfl, trivial⟩ | exact ⟨_, rfl⟩

end ParseState

/-- What is left is read to an end that keeps spans of syntax, or to a fault. -/
theorem readLexemes_outcome {rest : List Lexeme} (hrest : rest <:+ lexemes) (position : Nat)
    {st : ParseState} (h : st.KeepsSyntax lexemes) :
    match readLexemes position st rest with
    | .error e => FaultSpan lexemes e.cause e.span
    | .ok st' => st'.KeepsSyntax lexemes := by
  fun_induction readLexemes position st rest with
  | case1 => exact h
  | case2 position st g outer hgroups =>
    exact .syntax_ (h.openGroups g (hgroups ▸ List.mem_cons_self))
  | case3 position st lx rest min max hrole e hquantify =>
    have hstep := st.quantify_outcome min max (lazyMark rest == 1) lx.span position
    rw [hquantify] at hstep
    have hspan : SyntaxSpan lexemes lx.span :=
      .lexeme hrest (Token.isSyntax_of_role (by simp [hrole]))
    rw [← hstep.1] at hspan
    exact .syntax_ hspan
  | case4 position st lx rest min max hrole st' hquantify ih =>
    have hstep := st.quantify_outcome min max (lazyMark rest == 1) lx.span position
    rw [hquantify] at hstep
    obtain ⟨level, rfl⟩ := hstep
    exact ih (((List.drop_suffix _ _).trans (List.suffix_cons _ _)).trans hrest)
      ⟨h.openGroups, h.backrefs⟩
  | case5 position st lx rest negated hrole e hread =>
    have hspan : SyntaxSpan lexemes lx.span :=
      .lexeme hrest (Token.isSyntax_of_role (by simp [hrole]))
    exact (ClassBody.inClass_of_read hspan ((List.suffix_cons _ _).trans hrest) hread).span
  | case6 position st lx rest negated hrole cls position' rest' hread _ ih =>
    exact ih (((ClassBody.read_suffix hread).trans (List.suffix_cons _ _)).trans hrest) (h.push _)
  | case7 position st lx rest a hrole e hact =>
    have hstep := ParseState.act_outcome h hrest hrole position
    rw [hact] at hstep
    exact .syntax_ hstep
  | case8 position st lx rest a hrole st' hact ih =>
    have hstep := ParseState.act_outcome h hrest hrole position
    rw [hact] at hstep
    exact ih ((List.suffix_cons _ _).trans hrest) hstep

theorem faultSpan_of_parseLexemes {e : ParseError} (herror : parseLexemes lexemes = .error e) :
    FaultSpan lexemes e.cause e.span := by
  have hstart : ParseState.start.KeepsSyntax lexemes :=
    ⟨by simp [ParseState.start], by simp [ParseState.start]⟩
  have hread := readLexemes_outcome List.suffix_rfl 0 hstart
  unfold parseLexemes at herror
  split at herror
  · rename_i hfail
    rw [hfail] at hread
    obtain rfl := Except.error.inj herror
    exact hread
  · rename_i st hst
    rw [hst] at hread
    split at herror
    · rename_i index span hunknown
      obtain rfl := Except.error.inj herror
      have hmem : (index, span) ∈ st.backrefs := by
        simpa using List.mem_of_find?_eq_some hunknown
      exact .syntax_ (hread.backrefs _ hmem)
    · simp at herror

theorem parseLexemes_within (h : Remain source lexemes) {e : ParseError}
    (herror : parseLexemes lexemes = .error e) : e.span.Within source := by
  obtain ⟨lx, rest, piece, hpiece, -⟩ := (faultSpan_of_parseLexemes herror).exists_piece h
  exact hpiece.within h

theorem lex_error_within {e : LexError} (h : lex source = .error e) :
    Span.Within ⟨e.position, e.position + max 1 (Text.byteLength e.snippet)⟩ source := by
  obtain ⟨upTo, c, cs, extra, heq, -, -, rfl⟩ := exists_fault_of_lexFrom h [] rfl
  have hne : c :: cs.take extra ≠ [] := List.cons_ne_nil _ _
  rw [max_eq_right (Text.byteLength_pos hne), ← Text.byteLength_append]
  have hsplit : source = upTo ++ (c :: cs.take extra ++ cs.drop extra) := by
    rw [List.cons_append, List.take_append_drop]
    exact heq
  exact Span.within_of_eq hne hsplit

theorem labels_ofLexError (e : LexError) :
    (Diagnostic.ofLexError e).labels =
      [⟨⟨e.position, e.position + max 1 (Text.byteLength e.snippet)⟩, "here", true⟩] := rfl

theorem labels_ofParseError (e : ParseError) :
    (Diagnostic.ofParseError e).labels = [⟨e.span, "here", true⟩] := by
  unfold Diagnostic.ofParseError
  dsimp only
  split <;> rfl

/-- The diagnostic of a text that is no pattern points at some whole characters of the text; and a
reader that takes what it needs of the text by spans finds each piece there. -/
theorem error_label_within (source : List Char) :
    (∀ e, parse source = .error e →
      ∃ label, (Diagnostic.ofPatternError e).labels = [label] ∧ label.span.Within source) ∧
    (∀ lexemes, lex source = .ok lexemes →
      Descent.parse source (lexemes.map Lexeme.placed) =
        (parseLexemes lexemes).mapError .error ∧
      ∀ start stop,
        Descent.parse source (lexemes.map Lexeme.placed) ≠ .error (.badSlice start stop)) := by
  refine ⟨fun e h => ?_, fun lexemes hlex => ?_⟩
  · unfold parse at h
    split at h
    · rename_i e' hlex
      obtain rfl := Except.error.inj h
      exact ⟨_, labels_ofLexError e', lex_error_within hlex⟩
    · rename_i lexemes hlex
      split at h
      · rename_i e' hparse
        obtain rfl := Except.error.inj h
        exact ⟨_, labels_ofParseError e', parseLexemes_within (remain_of_lex hlex) hparse⟩
      · simp at h
  · have hlexemes := remain_of_lex hlex
    refine ⟨Descent.parse_placed hlexemes, fun start stop hbad => ?_⟩
    obtain ⟨e, he⟩ := Descent.exists_error_of_parse hlexemes hbad
    simp at he

/-- A POSIX class name in a class, with characters of several bytes around it. -/
def posixSource : List Char := "é[ß[:ä:]]".toList

theorem error_label_within_posixSource :
    parse posixSource = .error (.parse ⟨.posixClass "[:ä:]".toList, 4, ⟨5, 11⟩⟩) ∧
      ∃ label, (Diagnostic.ofPatternError
        (.parse ⟨.posixClass "[:ä:]".toList, 4, ⟨5, 11⟩⟩)).labels = [label] ∧
        label.span.Within posixSource := by
  have hparse : parse posixSource =
      .error (.parse ⟨.posixClass "[:ä:]".toList, 4, ⟨5, 11⟩⟩) := by
    with_unfolding_all rfl
  exact ⟨hparse, (error_label_within posixSource).1 _ hparse⟩

end PatternSampler
