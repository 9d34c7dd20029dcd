import PatternSampler.Proofs.ErrorSpans
import PatternSampler.Proofs.Openers
/-!
# Parentheses that are missing

A walk along the lexemes of a text says which groups are open at each place: those whose openers
stand before it, outside classes, less those that a closing parenthesis has ended (`nesting`).  The
parser blames a closing parenthesis only where no group is open, and an opener only at the end of
the text and while its group is open there (`parenthesis_errors`).
-/
set_option autoImplicit false

namespace PatternSampler

/-! ## Open groups -/

/-- Whether a token opens a group or a lookaround, outside classes. -/
def Token.opensGroup : Token → Bool
  | .openGroup | .namedGroup _ | .nonCapture | .lookAhead | .negLookAhead | .lookBehind
  | .negLookBehind => true
  | _ => false

/-- Where a lexeme stands: inside a class or not, and there before the first item or not. -/
inductive Nesting.Place where
  | outside
  | inClass (atStart : Bool)
  deriving DecidableEq, Repr

/-- The openers of the open groups, innermost first, and where the next lexeme stands. -/
structure Nesting where
  groups : List Lexeme
  place : Nesting.Place
  deriving DecidableEq, Repr

/-- The groups that are open after one more lexeme. -/
def Nesting.step (n : Nesting) (lx : Lexeme) : Nesting :=
  match n.place with
  | .inClass atStart =>
    if lx.token = .closeClass ∧ atStart = false then ⟨n.groups, .outside⟩
    else ⟨n.groups, .inClass false⟩
  | .outside =>
    if lx.token.opensClass then ⟨n.groups, .inClass true⟩
    else if lx.token.opensGroup then ⟨lx :: n.groups, .outside⟩
    else if lx.token = .closeGroup then ⟨n.groups.tail, .outside⟩
    else n

/-- The groups that are open after the lexemes. -/
def nesting (lexemes : List Lexeme) : Nesting := lexemes.foldl Nesting.step ⟨[], .outside⟩

theorem nesting_append (before after : List Lexeme) :
    nesting (before ++ after) = after.foldl Nesting.step (nesting before) := List.foldl_append

theorem nesting_concat (before : List Lexeme) (lx : Lexeme) :
    nesting (before ++ [lx]) = (nesting before).step lx := nesting_append before [lx]

/-- Whether a token opens and closes nothing, outside classes. -/
def Token.Idle (t : Token) : Prop :=
  t.opensClass = false ∧ t.opensGroup = false ∧ t ≠ .closeGroup

namespace Nesting

theorem step_idle {n : Nesting} {lx : Lexeme} (h : lx.token.Idle) (hplace : n.place = .outside) :
    n.step lx = n := by
  rw [step, hplace]
  simp [h.1, h.2.1, h.2.2]

theorem foldl_idle {n : Nesting} (hplace : n.place = .outside) {lexemes : List Lexeme}
    (h : ∀ lx ∈ lexemes, lx.token.Idle) : lexemes.foldl step n = n := by
  induction lexemes with
  | nil => rfl
  | cons lx lexemes ih =>
    obtain ⟨hlx, hlexemes⟩ := List.forall_mem_cons.mp h
    rw [List.foldl_cons, step_idle hlx hplace, ih hlexemes]

theorem step_inClass (groups : List Lexeme) {lx : Lexeme} (h : lx.token ≠ .closeClass)
    (atStart : Bool) : step ⟨groups, .inClass atStart⟩ lx = ⟨groups, .inClass false⟩ :=
  if_neg fun hclose => h hclose.1

theorem foldl_inClass (groups : List Lexeme) {body : List Lexeme}
    (h : ∀ lx ∈ body, lx.token ≠ .closeClass) :
    body.foldl step ⟨groups, .inClass false⟩ = ⟨groups, .inClass false⟩ := by
  induction body with
  | nil => rfl
  | cons lx body ih =>
    obtain ⟨hlx, hbody⟩ := List.forall_mem_cons.mp h
    rw [List.foldl_cons, step_inClass groups hlx, ih hbody]

/-- A class opens and ends no group. -/
theorem foldl_class (groups : List Lexeme) {body : List Lexeme} (hne : body ≠ [])
    (hbody : ∀ lx ∈ body.tail, lx.token ≠ .closeClass) {close : Lexeme}
    (hclose : close.token = .closeClass) :
    (body ++ [close]).foldl step ⟨groups, .inClass true⟩ = ⟨groups, .outside⟩ := by
  obtain ⟨first, body, rfl⟩ := List.exists_cons_of_ne_nil hne
  have hfirst : step ⟨groups, .inClass true⟩ first = ⟨groups, .inClass false⟩ :=
    if_neg (by simp)
  rw [List.tail_cons] at hbody
  rw [List.cons_append, List.foldl_cons, hfirst, List.foldl_append, foldl_inClass groups hbody]
  exact if_pos ⟨hclose, rfl⟩

/-- A lexeme opens at most one group, its own, and only outside classes. -/
theorem suffix_of_suffix_step {n : Nesting} {lx g : Lexeme} {outer : List Lexeme}
    (h : g :: outer <:+ (n.step lx).groups) :
    g :: outer <:+ n.groups ∨
      g = lx ∧ outer = n.groups ∧ n.place = .outside ∧ lx.token.opensGroup = true := by
  unfold step at h
  split at h
  · split at h <;> exact .inl h
  · rename_i hplace
    split at h
    · exact .inl h
    · split at h
      · rename_i hopens
        rcases List.suffix_cons_iff.mp h with heq | hsuffix
        · obtain ⟨rfl, rfl⟩ := List.cons.inj heq
          exact .inr ⟨rfl, rfl, hplace, hopens⟩
        · exact .inl hsuffix
      · split at h
        · exact .inl (h.trans (List.tail_suffix _))
        · exact .inl h

end Nesting

/-- A group that is open has been opened where those around it were open, and has been open
since. -/
theorem exists_opener {lexemes : List Lexeme} {g : Lexeme} {outer : List Lexeme}
    (h : g :: outer <:+ (nesting lexemes).groups) :
    ∃ before after, lexemes = before ++ g :: after ∧ g.token.opensGroup = true ∧
      nesting before = ⟨outer, .outside⟩ ∧
      ∀ mid, mid <+: after → g :: outer <:+ (nesting (before ++ g :: mid)).groups := by
  induction lexemes using List.reverseRecOn with
  | nil => simp [nesting] at h
  | append_singleton lexemes lx ih =>
    have hlast := h
    rw [nesting_concat] at h
    rcases Nesting.suffix_of_suffix_step h with hbefore | ⟨rfl, rfl, hplace, hopens⟩
    · obtain ⟨before, after, rfl, hopens, hnesting, hmid⟩ := ih hbefore
      refine ⟨before, after ++ [lx], by simp, hopens, hnesting, fun mid hprefix => ?_⟩
      rcases List.prefix_concat_iff.mp hprefix with rfl | hprefix
      · simpa using hlast
      · exact hmid mid hprefix
    · refine ⟨lexemes, [], rfl, hopens, ?_, fun mid hprefix => ?_⟩
      · rw [← hplace]
      · rw [List.prefix_nil.mp hprefix]
        exact hlast

/-! ## Errors about parentheses -/

/-- The lexemes up to the place of the error bear out what it says about parentheses. -/
structure ParseError.Blames (e : ParseError) (lexemes : List Lexeme) : Prop where
  supplied : e.cause ≠ .endOfPattern
  unmatched : e.cause = .unmatchedClose → ∃ before lx after, lexemes = before ++ lx :: after ∧
    e.position = before.length ∧ lx.token = .closeGroup ∧ e.span = lx.span ∧
    nesting before = ⟨[], .outside⟩
  unclosed : e.cause = .unclosedGroup → e.position = lexemes.length ∧
    ∃ g outer, nesting lexemes = ⟨g :: outer, .outside⟩ ∧ e.span = g.span

/-- The cause has nothing to do with parentheses. -/
def ParseCause.Other (cause : ParseCause) : Prop :=
  cause ≠ .endOfPattern ∧ cause ≠ .unmatchedClose ∧ cause ≠ .unclosedGroup

theorem ParseCause.OfClass.other {cause : ParseCause} (h : cause.OfClass) : cause.Other := by
  cases cause <;> first | exact h.elim | exact ⟨nofun, nofun, nofun⟩

theorem ParseCause.OfQuantifier.other {cause : ParseCause} (h : cause.OfQuantifier) :
    cause.Other := by
  cases cause <;> first | exact h.elim | exact ⟨nofun, nofun, nofun⟩

theorem ParseError.blames_of_other {e : ParseError} (h : e.cause.Other) (lexemes : List Lexeme) :
    e.Blames lexemes := ⟨h.1, fun heq => absurd heq h.2.1, fun heq => absurd heq h.2.2⟩

/-- The open groups of a parse are those of the walk. -/
structure ParseState.Tracks (st : ParseState) (n : Nesting) : Prop where
  place : n.place = .outside
  groups : st.openGroups.map (·.span) = n.groups.map (·.span)

namespace ParseState.Tracks

variable {st st' : ParseState} {n : Nesting} {lx : Lexeme}

/-- A lexeme that neither opens nor closes anything. -/
theorem idle (h : st.Tracks n) (hgroups : st'.openGroups = st.openGroups) (hlx : lx.token.Idle) :
    st'.Tracks (n.step lx) := by
  rw [Nesting.step_idle hlx h.place]
  exact ⟨h.place, hgroups ▸ h.groups⟩

theorem opened (h : st.Tracks n) {opener : Opener} {outer : Level}
    (hgroups : st'.openGroups = ⟨opener, lx.span, outer⟩ :: st.openGroups)
    (hclass : lx.token.opensClass = false) (hopens : lx.token.opensGroup = true) :
    st'.Tracks (n.step lx) := by
  rw [Nesting.step, h.place]
  simp only [hclass, hopens, Bool.false_eq_true, if_false, if_true]
  refine ⟨rfl, ?_⟩
  rw [hgroups, List.map_cons, List.map_cons, h.groups]

theorem closed (h : st.Tracks n) (hgroups : st'.openGroups = st.openGroups.tail)
    (hlx : lx.token = .closeGroup) : st'.Tracks (n.step lx) := by
  rw [Nesting.step, h.place, hlx]
  refine ⟨rfl, ?_⟩
  rw [hgroups, List.map_tail, h.groups]
  exact (List.map_tail).symm

end ParseState.Tracks

/-- What the part of a token says about the groups and classes it opens and closes. -/
theorem Token.nests_of_role {t : Token} {a : Action} (h : t.role = .action a) :
    t.opensClass = false ∧
      match a with
      | .openAs _ | .openCapture | .openNamed _ => t.opensGroup = true
      | .close => t = .closeGroup
      | _ => t.Idle := by
  cases t <;>
    first
      | (obtain rfl := Role.action.inj h; exact ⟨rfl, rfl⟩)
      | (obtain rfl := Role.action.inj h; exact ⟨rfl, rfl, rfl, by simp⟩)
      | simp [role] at h

theorem Token.idle_of_role {t : Token} {min : Nat} {max : Option Nat}
    (h : t.role = .quantifier min max) : t.Idle := by
  have hclose : t ≠ .closeGroup := by
    rintro rfl
    simp [role] at h
  cases t <;> first | exact ⟨rfl, rfl, hclose⟩ | simp [role] at h

theorem idle_of_mem_lazyMark {lexemes : List Lexeme} {lx : Lexeme}
    (h : lx ∈ lexemes.take (lazyMark lexemes)) : lx.token.Idle := by
  unfold lazyMark at h
  split at h
  · rw [List.take_succ_cons, List.take_zero, List.mem_singleton] at h
    rw [h]
    exact ⟨rfl, rfl, nofun⟩
  · simp at h

namespace ParseState

variable {st st' : ParseState} {n : Nesting} {before : List Lexeme} {lx : Lexeme}

/-- A token that takes no further ones is blamed for a missing parenthesis only if it closes a group
and none is open. -/
theorem act_blames (h : st.Tracks (nesting before)) {a : Action}
    (hrole : lx.token.role = .action a) (rest : List Lexeme) :
    match st.act a lx.span rest.head? before.length with
    | .error e => e.Blames (before ++ lx :: rest)
    | .ok st' => st'.Tracks (nesting (before ++ [lx])) := by
  obtain ⟨hclass, hnests⟩ := Token.nests_of_role hrole
  rw [nesting_concat]
  cases a with
  | bar => exact h.idle rfl hnests
  | close =>
    cases hgroups : st.openGroups with
    | nil =>
      simp only [act, hgroups]
      have hnone : (nesting before).groups = [] := by
        simpa [hgroups] using h.groups.symm
      refine ⟨nofun, fun _ => ⟨before, lx, rest, rfl, rfl, hnests, rfl, ?_⟩, nofun⟩
      rw [← hnone, ← h.place]
    | cons g outer =>
      simp only [act, hgroups]
      exact h.closed (by rw [hgroups]; rfl) hnests
  | openAs opener => exact h.opened rfl hclass hnests
  | openCapture =>
    rcases Descent.act_openCapture st lx.span rest before.length with
      ⟨next, -, hact⟩ | ⟨-, hact⟩
    · rw [hact]
      exact ParseError.blames_of_other (by simp [ParseCause.Other]) _
    · rw [hact]
      exact h.opened rfl hclass hnests
  | openNamed name =>
    cases hname : st.lookup? name with
    | some index =>
      simp only [act, hname]
      exact ParseError.blames_of_other (by simp [ParseCause.Other]) _
    | none =>
      simp only [act, hname]
      exact h.opened rfl hclass hnests
  | leaf node => exact h.idle rfl hnests
  | reference group => exact h.idle rfl hnests
  | namedReference name =>
    cases hname : st.lookup? name with
    | some index =>
      simp only [act, hname]
      exact h.idle rfl hnests
    | none =>
      simp only [act, hname]
      exact ParseError.blames_of_other (by simp [ParseCause.Other]) _

theorem quantify_blames (h : st.Tracks (nesting before)) {min : Nat} {max : Option Nat}
    (hrole : lx.token.role = .quantifier min max) (rest : List Lexeme) :
    match st.quantify min max (lazyMark rest == 1) lx.span before.length with
    | .error e => e.Blames (before ++ lx :: rest)
    | .ok st' => st'.Tracks (nesting (before ++ lx :: rest.take (lazyMark rest))) := by
  have hidle : ∀ lx' ∈ lx :: rest.take (lazyMark rest), lx'.token.Idle :=
    List.forall_mem_cons.mpr ⟨Token.idle_of_role hrole, fun _ => idle_of_mem_lazyMark⟩
  rw [nesting_append, Nesting.foldl_idle h.place hidle]
  have houtcome := st.quantify_outcome min max (lazyMark rest == 1) lx.span before.length
  split
  · rename_i e hquantify
    rw [hquantify] at houtcome
    exact ParseError.blames_of_other houtcome.2.other _
  · rename_i st' hquantify
    rw [hquantify] at houtcome
    obtain ⟨level, rfl⟩ := houtcome
    exact ⟨h.place, h.groups⟩

end ParseState

/-- A class that is read is as if it had not been there: no group opens or ends in it. -/
theorem nesting_of_readClass {before : List Lexeme} (hplace : (nesting before).place = .outside)
    {lx : Lexeme} (hopens : lx.token.opensClass = true) {span : Span} {position position' : Nat}
    {cls cls' : CharClass} {lexemes rest : List Lexeme}
    (hread : ClassBody.read span position true cls lexemes = .ok (cls', position', rest)) :
    ∃ body, lexemes = body ++ rest ∧ position' = position + body.length ∧
      nesting (before ++ lx :: body) = nesting before := by
  obtain ⟨body, close, rfl, hclose, rfl, hne, hbody, -⟩ := ClassBody.exists_body_of_read hread
  have hstep : (nesting before).step lx = ⟨(nesting before).groups, .inClass true⟩ := by
    rw [Nesting.step, hplace]
    exact if_pos hopens
  refine ⟨body ++ [close], (List.append_cons ..), by simp [Nat.add_assoc], ?_⟩
  rw [nesting_append, List.foldl_cons, hstep, Nesting.foldl_class _ (hne rfl) hbody hclose,
    ← hplace]

theorem readLexemes_blames {source : List Char} (before : List Lexeme) {lexemes : List Lexeme}
    (hlexemes : Remain source lexemes) {st : ParseState} (h : st.Tracks (nesting before))
    {e : ParseError} (herror : readLexemes before.length st lexemes = .error e) :
    e.Blames (before ++ lexemes) := by
  generalize hposition : before.length = position at herror
  fun_induction readLexemes position st lexemes generalizing before with
  | case1 => simp at herror
  | case2 position st g outer hgroups =>
    obtain rfl := Except.error.inj herror
    rw [List.append_nil]
    refine ⟨by simp, by simp, fun _ => ⟨hposition.symm, ?_⟩⟩
    have hall := h.groups
    rw [hgroups, List.map_cons] at hall
    obtain ⟨lx, lexemes, hnesting, hlx, -⟩ := List.map_eq_cons_iff.mp hall.symm
    exact ⟨lx, lexemes, by rw [← hnesting, ← h.place], hlx.symm⟩
  | case3 position st lx rest min max hrole e' hquantify =>
    subst hposition
    obtain rfl := Except.error.inj herror
    have hstep := ParseState.quantify_blames h hrole rest
    rwa [hquantify] at hstep
  | case4 position st lx rest min max hrole st' hquantify ih =>
    subst hposition
    have hstep := ParseState.quantify_blames h hrole rest
    rw [hquantify] at hstep
    have hlength : (rest.take (lazyMark rest)).length = lazyMark rest :=
      List.length_take_of_le (Descent.lazyMark_le rest)
    have hrest := ih _ (hlexemes.tail.drop _) hstep
      (by rw [List.length_append, List.length_cons, hlength]; omega) herror
    rwa [List.append_assoc, List.cons_append, List.take_append_drop] at hrest
  | case5 position st lx rest negated hrole e' hread =>
    obtain rfl := Except.error.inj herror
    have hopener : SyntaxSpan (lx :: rest) lx.span :=
      .lexeme List.suffix_rfl (Token.isSyntax_of_role (by simp [hrole]))
    exact ParseError.blames_of_other
      (ClassBody.inClass_of_read hopener (List.suffix_cons _ _) hread).cause.other _
  | case6 position st lx rest negated hrole cls position' rest' hread _ ih =>
    subst hposition
    obtain ⟨body, rfl, rfl, hclass⟩ := nesting_of_readClass h.place
      (Token.opensClass_of_role hrole) hread
    have htracks : (st.push (.charClass (if negated then cls.negate else cls))).Tracks
        (nesting (before ++ lx :: body)) := by
      rw [hclass]
      exact ⟨h.place, h.groups⟩
    have hlength : (before ++ lx :: body).length = before.length + 1 + body.length := by
      simp
      omega
    have hrest := ih _ (hlexemes.tail.suffix (ClassBody.read_suffix hread)) htracks hlength herror
    rwa [List.append_assoc, List.cons_append] at hrest
  | case7 position st lx rest a hrole e' hact =>
    subst hposition
    obtain rfl := Except.error.inj herror
    have hstep := ParseState.act_blames h hrole rest
    rwa [hact] at hstep
  | case8 position st lx rest a hrole st' hact ih =>
    subst hposition
    have hstep := ParseState.act_blames h hrole rest
    rw [hact] at hstep
    have hrest := ih _ hlexemes.tail hstep (by simp) herror
    rwa [List.append_assoc] at hrest

theorem parseLexemes_blames {source : List Char} {lexemes : List Lexeme}
    (hlexemes : Remain source lexemes) {e : ParseError} (h : parseLexemes lexemes = .error e) :
    e.Blames lexemes := by
  unfold parseLexemes at h
  split at h
  · rename_i e' hread
    obtain rfl := Except.error.inj h
    exact readLexemes_blames [] hlexemes ⟨rfl, rfl⟩ hread
  · split at h
    · obtain rfl := Except.error.inj h
      exact ParseError.blames_of_other (by simp [ParseCause.Other]) _
    · simp at h

theorem ParseCause.eq_of_code {cause : ParseCause} :
    (cause.code = "RGX-P001" → cause = .endOfPattern) ∧
    (cause.code = "RGX-P002" → cause = .unmatchedClose) ∧
    (cause.code = "RGX-P003" → cause = .unclosedGroup) := by
  cases cause <;> simp [code]

/-- Where the group that an error blames has been opened.  It is open from there on. -/
theorem exists_index_opener {lexemes : List Lexeme} {g : Lexeme} {outer : List Lexeme}
    (h : nesting lexemes = ⟨g :: outer, .outside⟩) :
    ∃ i, lexemes[i]? = some g ∧ g.token.opensGroup = true ∧
      nesting (lexemes.take i) = ⟨outer, .outside⟩ ∧
      ∀ j, i < j → g :: outer <:+ (nesting (lexemes.take j)).groups := by
  have hsuffix : g :: outer <:+ (nesting lexemes).groups := h ▸ List.suffix_rfl
  obtain ⟨before, after, rfl, hopens, hnesting, hmid⟩ := exists_opener hsuffix
  refine ⟨before.length, by simp, hopens, by simpa using hnesting, fun j hj => ?_⟩
  obtain ⟨n, rfl⟩ := Nat.exists_eq_add_of_lt hj
  have htake : (before ++ g :: after).take (before.length + n + 1) =
      before ++ g :: after.take n := by
    rw [Nat.add_assoc, List.take_length_add_append, List.take_succ_cons]
  rw [htake]
  exact hmid _ (List.take_prefix n after)

/-- The parser blames a text for parentheses only where they are missing: a closing parenthesis
where no group is open, and at the end of the text the innermost group that is still open.  It
always finds an item where it needs one. -/
theorem parenthesis_errors {source : List Char} {lexemes : List Lexeme}
    (h : lex source = .ok lexemes) :
    Descent.parse source (lexemes.map Lexeme.placed) = (parseLexemes lexemes).mapError .error ∧
    (∀ t position span,
      Descent.parse source (lexemes.map Lexeme.placed) ≠ .error (.unexpected t position span)) ∧
    ∀ e, parseLexemes lexemes = .error e →
      e.cause.code ≠ "RGX-P001" ∧
      (e.cause.code = "RGX-P002" → ∃ lx, lexemes[e.position]? = some lx ∧
        lx.token = .closeGroup ∧ e.span = lx.span ∧
        nesting (lexemes.take e.position) = ⟨[], .outside⟩) ∧
      (e.cause.code = "RGX-P003" → e.position = lexemes.length ∧
        ∃ i g, lexemes[i]? = some g ∧ g.token.opensGroup = true ∧ e.span = g.span ∧
          (nesting (lexemes.take i)).place = .outside ∧
          nesting lexemes = ⟨g :: (nesting (lexemes.take i)).groups, .outside⟩ ∧
          ∀ j, i < j → g :: (nesting (lexemes.take i)).groups <:+
            (nesting (lexemes.take j)).groups) := by
  have hlexemes := remain_of_lex h
  refine ⟨Descent.parse_placed hlexemes, fun t position span hbad => ?_, fun e herror => ?_⟩
  · obtain ⟨e, he⟩ := Descent.exists_error_of_parse hlexemes hbad
    simp at he
  · have hblames := parseLexemes_blames hlexemes herror
    obtain ⟨hsupplied, hunmatched, hunclosed⟩ := @ParseCause.eq_of_code e.cause
    refine ⟨fun hcode => hblames.supplied (hsupplied hcode), fun hcode => ?_, fun hcode => ?_⟩
    · obtain ⟨before, lx, after, rfl, hposition, hclose, hspan, hnesting⟩ :=
        hblames.unmatched (hunmatched hcode)
      rw [hposition]
      exact ⟨lx, by simp, hclose, hspan, by simpa using hnesting⟩
    · obtain ⟨hposition, g, outer, hnesting, hspan⟩ := hblames.unclosed (hunclosed hcode)
      obtain ⟨i, hi, hopens, hbefore, hopen⟩ := exists_index_opener hnesting
      refine ⟨hposition, i, g, hi, hopens, hspan, ?_⟩
      rw [hbefore]
      exact ⟨rfl, hnesting, hopen⟩

/-- A group that ends nowhere but inside a class. -/
def unclosedSource : List Char := "(a[)]".toList

/-- Its lexemes. -/
def unclosedLexemes : List Lexeme :=
  [⟨.openGroup, ⟨0, 1⟩, ['(']⟩, ⟨.literal 'a', ⟨1, 2⟩, ['a']⟩, ⟨.openClass, ⟨2, 3⟩, ['[']⟩,
    ⟨.closeGroup, ⟨3, 4⟩, [')']⟩, ⟨.closeClass, ⟨4, 5⟩, [']']⟩]

theorem parenthesis_errors_unclosedSource :
    lex unclosedSource = .ok unclosedLexemes ∧
    parseLexemes unclosedLexemes = .error ⟨.unclosedGroup, 5, ⟨0, 1⟩⟩ ∧
    ∃ i g, unclosedLexemes[i]? = some g ∧ g.token.opensGroup = true ∧ ⟨0, 1⟩ = g.span ∧
      nesting unclosedLexemes = ⟨g :: (nesting (unclosedLexemes.take i)).groups, .outside⟩ := by
  have hlex : lex unclosedSource = .ok unclosedLexemes := by
    with_unfolding_all rfl
  have herror : parseLexemes unclosedLexemes = .error ⟨.unclosedGroup, 5, ⟨0, 1⟩⟩ := by
    with_unfolding_all rfl
  obtain ⟨-, -, herrors⟩ := parenthesis_errors hlex
  obtain ⟨-, i, g, hi, hopens, hspan, -, hnesting, -⟩ := (herrors _ herror).2.2 rfl
  exact ⟨hlex, herror, i, g, hi, hopens, hspan, hnesting⟩

end PatternSampler
