import PatternSampler.Pattern.Parser
import PatternSampler.Proofs.ClassBodies
/-!
# Capture groups in a text

Which lexemes of a text open capture groups, said without the parser: those of an opener that stand
outside classes.  The parser counts exactly these, and gives each name the number of its opener
(`opens_readLexemes`).
-/
set_option autoImplicit false

namespace PatternSampler

/-! ## Openers -/

/-- The name that a token gives a group. -/
def Token.groupName? : Token → Option String
  | .namedGroup name => some name
  | _ => none

/-- Whether a token opens a capture group, outside classes. -/
def Token.opensCapture (t : Token) : Bool := t == .openGroup || t.groupName?.isSome

/-- Whether a token opens a class. -/
def Token.opensClass (t : Token) : Bool := t == .openClass || t == .openNegatedClass

/-- What follows a class, from the lexeme after its opening bracket on.  The first lexeme belongs to
the class in any case. -/
def afterClass (lexemes : List Lexeme) : List Lexeme :=
  (lexemes.tail.dropWhile (·.token != .closeClass)).tail

/-- The lexemes that open capture groups, in order. -/
def captureOpeners : List Lexeme → List Lexeme
  | [] => []
  | lx :: rest =>
    if lx.token.opensClass then captureOpeners (afterClass rest)
    else if lx.token.opensCapture then lx :: captureOpeners rest
    else captureOpeners rest
  termination_by lexemes => lexemes.length
  decreasing_by
    all_goals simp only [afterClass, List.length_tail, List.length_cons]
    · have hle := (List.dropWhile_sublist (fun lx : Lexeme => lx.token != .closeClass)
        (l := rest.tail)).length_le
      rw [List.length_tail] at hle
      omega
    all_goals omega

/-- The groups that are opened with a name, with their numbers from `first` on. -/
def namedOpeners (first : Nat) (openers : List Lexeme) : List (String × Nat) :=
  (openers.zipIdx first).filterMap fun e => e.1.token.groupName?.map (·, e.2)

namespace ClassBody

/-- A class ends with the first closing bracket after its first lexeme. -/
theorem eq_afterClass_of_read {opener : Span} {position position' : Nat} {cls cls' : CharClass}
    {lexemes rest : List Lexeme}
    (h : read opener position true cls lexemes = .ok (cls', position', rest)) :
    rest = afterClass lexemes := by
  obtain ⟨body, close, rfl, hclose, -, hne, hopen, -⟩ := exists_body_of_read h
  obtain ⟨first, body, rfl⟩ := List.exists_cons_of_ne_nil (hne rfl)
  have hall : ∀ lx ∈ body, (lx.token != .closeClass) = true := by
    simpa using hopen
  rw [afterClass, List.cons_append, List.tail_cons, List.dropWhile_append_of_pos hall,
    List.dropWhile_cons_of_neg (by simp [hclose]), List.tail_cons]

end ClassBody

namespace ParseState

/-- A stretch of the parse opens the capture groups of the lexemes `openers`. -/
structure Opens (st : ParseState) (openers : List Lexeme) (st' : ParseState) : Prop where
  captures : st'.captures = st.captures + openers.length
  names : st'.names = st.names ++ namedOpeners (st.captures + 1) openers

variable {st st₁ st' : ParseState}

theorem Opens.refl (st : ParseState) : st.Opens [] st := ⟨rfl, by simp [namedOpeners]⟩

theorem Opens.trans {openers₁ openers₂ : List Lexeme} (h₁ : st.Opens openers₁ st₁)
    (h₂ : st₁.Opens openers₂ st') : st.Opens (openers₁ ++ openers₂) st' := by
  refine ⟨?_, ?_⟩
  · rw [h₂.captures, h₁.captures, List.length_append, Nat.add_assoc]
  · rw [h₂.names, h₁.names, h₁.captures, List.append_assoc, namedOpeners, namedOpeners,
      namedOpeners, List.zipIdx_append, List.filterMap_append, Nat.add_right_comm]

theorem opens_quantify {min : Nat} {max : Option Nat} {isLazy : Bool} {span : Span}
    {position : Nat} (h : st.quantify min max isLazy span position = .ok st') :
    st.Opens [] st' := by
  unfold quantify at h
  split at h
  · simp at h
  · split at h
    · simp at h
    · split at h
      · simp at h
      · split at h
        · simp at h
        · obtain rfl := Except.ok.inj h
          exact ⟨rfl, by simp [namedOpeners]⟩

theorem opens_act {lx : Lexeme} {a : Action} (hrole : lx.token.role = .action a) {span : Span}
    {next : Option Lexeme} {position : Nat} (h : st.act a span next position = .ok st') :
    st.Opens (if lx.token.opensCapture then [lx] else []) st' := by
  obtain ⟨t, s, text⟩ := lx
  cases t with
  | star | plus | question | bounds | openClass | openNegatedClass => simp [Token.role] at hrole
  | openGroup =>
    obtain rfl := Role.action.inj hrole
    simp only [act] at h
    split at h
    · simp at h
    · obtain rfl := Except.ok.inj h
      exact ⟨rfl, by simp [namedOpeners, Token.groupName?, Token.opensCapture, openCapture,
        openGroup]⟩
  | namedGroup name =>
    obtain rfl := Role.action.inj hrole
    simp only [act] at h
    split at h
    · simp at h
    · obtain rfl := Except.ok.inj h
      exact ⟨rfl, by simp [namedOpeners, Token.groupName?, Token.opensCapture, openNamed]⟩
  | closeGroup =>
    obtain rfl := Role.action.inj hrole
    simp only [act] at h
    split at h
    · simp at h
    · obtain rfl := Except.ok.inj h
      exact ⟨rfl, by simp [namedOpeners, Token.groupName?, Token.opensCapture]⟩
  | namedBackref name =>
    obtain rfl := Role.action.inj hrole
    simp only [act] at h
    split at h
    · obtain rfl := Except.ok.inj h
      exact ⟨rfl, by simp [namedOpeners, Token.groupName?, Token.opensCapture, push]⟩
    · simp at h
  | _ =>
    obtain rfl := Role.action.inj hrole
    obtain rfl := Except.ok.inj h
    exact ⟨rfl, by simp [namedOpeners, Token.groupName?, Token.opensCapture, push, openGroup]⟩

end ParseState

theorem captureOpeners_cons {lx : Lexeme} {rest : List Lexeme}
    (hclass : lx.token.opensClass = false) :
    captureOpeners (lx :: rest) =
      (if lx.token.opensCapture then [lx] else []) ++ captureOpeners rest := by
  rw [captureOpeners, if_neg (by simp [hclass])]
  split <;> rfl

theorem captureOpeners_drop_lazyMark (lexemes : List Lexeme) :
    captureOpeners (lexemes.drop (lazyMark lexemes)) = captureOpeners lexemes := by
  unfold lazyMark
  split
  · rw [captureOpeners_cons rfl]
    rfl
  · rfl

theorem Token.opensClass_eq_false_of_role {t : Token} {a : Action} (h : t.role = .action a) :
    t.opensClass = false := by
  cases t <;> first | rfl | simp [Token.role] at h

theorem Token.opens_of_role_quantifier {t : Token} {min : Nat} {max : Option Nat}
    (h : t.role = .quantifier min max) : t.opensClass = false ∧ t.opensCapture = false := by
  cases t <;> first | exact ⟨rfl, rfl⟩ | simp [Token.role] at h

theorem Token.opensClass_of_role {t : Token} {negated : Bool}
    (h : t.role = .classOpener negated) : t.opensClass = true := by
  cases t <;> first | rfl | simp [Token.role] at h

theorem opens_readLexemes {position : Nat} {st st' : ParseState} {lexemes : List Lexeme}
    (h : readLexemes position st lexemes = .ok st') : st.Opens (captureOpeners lexemes) st' := by
  fun_induction readLexemes position st lexemes with
  | case1 =>
    obtain rfl := Except.ok.inj h
    rw [captureOpeners]
    exact .refl _
  | case2 => simp at h
  | case3 => simp at h
  | case4 _ _ lx rest _ _ hrole _ hquantify ih =>
    obtain ⟨hclass, hcapture⟩ := Token.opens_of_role_quantifier hrole
    have hrest := (ParseState.opens_quantify hquantify).trans (ih h)
    rw [captureOpeners_drop_lazyMark] at hrest
    rwa [captureOpeners_cons hclass, hcapture]
  | case5 => simp at h
  | case6 _ st lx rest negated hrole cls _ _ hread _ ih =>
    rw [captureOpeners, if_pos (Token.opensClass_of_role hrole),
      ← ClassBody.eq_afterClass_of_read hread]
    exact ⟨(ih h).captures, (ih h).names⟩
  | case7 => simp at h
  | case8 _ _ lx rest _ hrole _ hact ih =>
    rw [captureOpeners_cons (Token.opensClass_eq_false_of_role hrole)]
    exact (ParseState.opens_act hrole hact).trans (ih h)

end PatternSampler
