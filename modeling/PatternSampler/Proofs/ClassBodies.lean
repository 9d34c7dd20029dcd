import PatternSampler.Pattern.ClassBody
/-!
# What a class holds

The body of a class that is read reaches up to the first closing bracket after its first lexeme, and
each lexeme of it has passed the check for class syntax that is not supported
(`exists_body_of_read`).
-/
set_option autoImplicit false

namespace PatternSampler.ClassBody

/-! ## The check of a lexeme -/

theorem upToPosixEnd?_prefix {text name : List Char}
    (h : upToPosixEnd? text = some name) : name <+: text := by
  fun_induction upToPosixEnd? text generalizing name with
  | case1 rest =>
    obtain rfl := Option.some.inj h
    exact List.prefix_append [':', ']'] rest
  | case2 c cs _ ih =>
    obtain ⟨name', hname, rfl⟩ := Option.map_eq_some_iff.mp h
    exact List.cons_prefix_cons.mpr ⟨rfl, ih hname⟩
  | case3 => simp at h

/-- The name that an opening bracket may start: the text from it on, up to the first `:]`, or the
bracket alone if there is none. -/
def posixName (lx : Lexeme) (rest : List Lexeme) : List Char :=
  (upToPosixEnd? (lx.text ++ rest.flatMap (·.text))).getD lx.text

theorem posixName_isPrefix (lx : Lexeme) (rest : List Lexeme) :
    posixName lx rest <+: lx.text ++ rest.flatMap (·.text) := by
  unfold posixName
  cases hend : upToPosixEnd? (lx.text ++ rest.flatMap (·.text)) with
  | none => exact List.prefix_append _ _
  | some name => exact upToPosixEnd?_prefix hend

/-- An opening bracket is refused in any case, for the name it starts or on its own. -/
theorem unsupported?_bracket {lx : Lexeme} {rest : List Lexeme}
    (hlx : lx.token = .openClass ∨ lx.token = .openNegatedClass) :
    (∃ tail, lx.text ++ rest.flatMap (·.text) = '[' :: ':' :: tail ∧
      unsupported? lx rest = some (.posixClass (posixName lx rest),
        ⟨lx.span.start, lx.span.start + Text.byteLength (posixName lx rest)⟩)) ∨
    (∀ tail, lx.text ++ rest.flatMap (·.text) ≠ '[' :: ':' :: tail) ∧
      unsupported? lx rest = some (.nestedClass, lx.span) := by
  by_cases hposix : ∃ tail, lx.text ++ rest.flatMap (·.text) = '[' :: ':' :: tail
  · obtain ⟨tail, htext⟩ := hposix
    refine .inl ⟨tail, htext, ?_⟩
    rcases hlx with hlx | hlx <;> simp only [unsupported?, hlx, htext, posixName]
  · have hplain : ∀ tail, lx.text ++ rest.flatMap (·.text) = '[' :: ':' :: tail → False :=
      fun tail htext => hposix ⟨tail, htext⟩
    refine .inr ⟨hplain, ?_⟩
    rcases hlx with hlx | hlx <;> simp only [unsupported?, hlx]

theorem unsupported?_operator {lx next : Lexeme} {rest : List Lexeme}
    (hlx : lx.token = .dash ∨ lx.token = .literal '&' ∨ lx.token = .literal '~') :
    unsupported? lx (next :: rest) =
      if next.token = lx.token then
        some (.setOperator (lx.text ++ next.text), lx.span.merge next.span)
      else none := by
  rcases hlx with hlx | hlx | hlx <;> simp only [unsupported?, hlx]

theorem unsupported?_other {lx : Lexeme} {rest : List Lexeme}
    (hbracket : ¬(lx.token = .openClass ∨ lx.token = .openNegatedClass))
    (hoperator : ¬(lx.token = .dash ∨ lx.token = .literal '&' ∨ lx.token = .literal '~')) :
    unsupported? lx rest = none := by
  unfold unsupported?
  split <;> first | rfl | simp_all

/-! ## Bodies -/

/-- No lexeme of the body, which `rest` follows, is refused. -/
def Supported : List Lexeme → List Lexeme → Prop
  | [], _ => True
  | lx :: body, rest => unsupported? lx (body ++ rest) = none ∧ Supported body rest

theorem Supported.append {body more rest : List Lexeme} (h : Supported body (more ++ rest))
    (hmore : Supported more rest) : Supported (body ++ more) rest := by
  induction body with
  | nil => exact hmore
  | cons lx body ih =>
    refine ⟨?_, ih h.2⟩
    rw [List.append_eq, List.append_assoc]
    exact h.1

variable {cls cls' : CharClass} {item : Lexeme} {rest : List Lexeme} {position taken : Nat}

theorem readFrom_takes {first : Char} (hitem : unsupported? item rest = none)
    (h : readFrom cls item first rest position = .ok (cls', taken)) :
    taken ≤ rest.length ∧ (∀ lx ∈ rest.take taken, lx.token ≠ .closeClass) ∧
      Supported (item :: rest.take taken) (rest.drop taken) := by
  unfold readFrom at h
  split at h
  · rename_i hrange
    split at h
    · rename_i dash last after
      split at h
      · simp at h
      · rename_i hdash
        split at h
        · simp at h
        · rename_i hlast
          split at h
          · simp at h
          · obtain ⟨-, rfl⟩ := Prod.mk.inj (Except.ok.inj h)
            simp only [rangeFollows, Bool.and_eq_true, beq_iff_eq, bne_iff_ne] at hrange
            exact ⟨by simp, by simp [hrange.1, hrange.2], hitem, hdash, hlast, trivial⟩
    · obtain ⟨-, rfl⟩ := Prod.mk.inj (Except.ok.inj h)
      exact ⟨Nat.zero_le _, by simp, hitem, trivial⟩
  · obtain ⟨-, rfl⟩ := Prod.mk.inj (Except.ok.inj h)
    exact ⟨Nat.zero_le _, by simp, hitem, trivial⟩

theorem readItem_takes (h : readItem cls item rest position = .ok (cls', taken)) :
    taken ≤ rest.length ∧ (∀ lx ∈ rest.take taken, lx.token ≠ .closeClass) ∧
      Supported (item :: rest.take taken) (rest.drop taken) := by
  unfold readItem at h
  split at h
  · simp at h
  · rename_i hitem
    split at h
    · obtain ⟨-, rfl⟩ := Prod.mk.inj (Except.ok.inj h)
      exact ⟨Nat.zero_le _, by simp, hitem, trivial⟩
    · split at h
      · simp at h
      · split at h
        · obtain ⟨-, rfl⟩ := Prod.mk.inj (Except.ok.inj h)
          exact ⟨Nat.zero_le _, by simp, hitem, trivial⟩
        · exact readFrom_takes hitem h

/-- A class that is read ends with the first closing bracket after its first lexeme, and nothing
before that is refused. -/
theorem exists_body_of_read {opener : Span} {atStart : Bool} {lexemes : List Lexeme}
    {position' : Nat}
    (h : read opener position atStart cls lexemes = .ok (cls', position', rest)) :
    ∃ body close, lexemes = body ++ close :: rest ∧ close.token = .closeClass ∧
      position' = position + body.length + 1 ∧ (atStart = true → body ≠ []) ∧
      (∀ lx ∈ if atStart then body.tail else body, lx.token ≠ .closeClass) ∧
      Supported body (close :: rest) := by
  fun_induction read opener position atStart cls lexemes with
  | case1 => simp at h
  | case2 position atStart cls lx after hclose =>
    obtain ⟨-, rfl, rfl⟩ := Prod.mk.inj (Except.ok.inj h) |>.imp_right Prod.mk.inj
    exact ⟨[], lx, rfl, hclose.1, rfl, by simp [hclose.2], by simp [hclose.2], trivial⟩
  | case3 => simp at h
  | case4 position atStart cls lx after hclose cls₁ taken hitem ih =>
    obtain ⟨hle, hopen, hsupported⟩ := readItem_takes hitem
    obtain ⟨body, close, hdrop, htoken, rfl, -, hbody, hrest⟩ := ih h
    have hbody : ∀ lx' ∈ after.take taken ++ body, lx'.token ≠ .closeClass :=
      List.forall_mem_append.mpr ⟨hopen, hbody⟩
    refine ⟨lx :: (after.take taken ++ body), close, ?_, htoken, ?_, by simp, ?_, ?_⟩
    · rw [List.cons_append, List.append_assoc, ← hdrop, List.take_append_drop]
    · rw [List.length_cons, List.length_append, List.length_take, Nat.min_eq_left hle]
      omega
    · cases atStart with
      | true => exact hbody
      | false => exact List.forall_mem_cons.mpr ⟨fun heq => hclose ⟨heq, rfl⟩, hbody⟩
    · rw [hdrop] at hsupported
      exact hsupported.append hrest

end PatternSampler.ClassBody
