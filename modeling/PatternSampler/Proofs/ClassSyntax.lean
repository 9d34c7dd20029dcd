import Mathlib.Data.List.Chain
import PatternSampler.Proofs.ClassBodies
import PatternSampler.Proofs.Openers
import PatternSampler.Proofs.Scans
/-!
# Class syntax that is read in different ways

Some readers of patterns take an unescaped bracket inside a class for a class of its own, and a
doubled `&`, `-` or `~` for an operator on classes.  A text that is a pattern has none of these in
any of its classes (`classBodies_of_parse`).  What the classes of a text are is said by a walk
along its characters, without tokens.
-/
set_option autoImplicit false

namespace PatternSampler

/-! ## The classes of a text -/

/-- The characters of a text, with `none` for a backslash and for the character after it. -/
def unescaped : List Char → List (Option Char)
  | '\\' :: _ :: cs => none :: none :: unescaped cs
  | c :: cs => some c :: unescaped cs
  | [] => []

/-- What follows an opening bracket, less the circumflex that belongs to it. -/
def behindCaret : List (Option Char) → List (Option Char)
  | some '^' :: cs => cs
  | cs => cs

/-- The body of a class, which `cs` starts with: all up to a closing bracket, the first character in
any case. -/
def classBody (cs : List (Option Char)) : List (Option Char) :=
  cs.take 1 ++ cs.tail.takeWhile (· != some ']')

/-- What follows the closing bracket of a class whose body `cs` starts with. -/
def behindClass (cs : List (Option Char)) : List (Option Char) :=
  (cs.tail.dropWhile (· != some ']')).tail

theorem length_behindCaret_le (cs : List (Option Char)) :
    (behindCaret cs).length ≤ cs.length := by
  unfold behindCaret
  split <;> simp

theorem length_behindClass_le (cs : List (Option Char)) :
    (behindClass cs).length ≤ cs.length := by
  have hle := (List.dropWhile_sublist (· != some ']') (l := cs.tail)).length_le
  simp only [behindClass, List.length_tail] at hle ⊢
  omega

/-- The bodies of the classes of a text, in order. -/
def classBodies : List (Option Char) → List (List (Option Char))
  | [] => []
  | c :: cs =>
    if c = some '[' then
      classBody (behindCaret cs) :: classBodies (behindClass (behindCaret cs))
    else classBodies cs
  termination_by cs => cs.length
  decreasing_by
    · have hcaret := length_behindCaret_le cs
      have hclass := length_behindClass_le (behindCaret cs)
      simp only [List.length_cons]
      omega
    · simp

theorem classBodies_append {before : List (Option Char)} (h : some '[' ∉ before)
    (cs : List (Option Char)) : classBodies (before ++ cs) = classBodies cs := by
  induction before with
  | nil => rfl
  | cons c before ih =>
    rw [List.mem_cons, not_or] at h
    rw [List.cons_append, classBodies, if_neg (Ne.symm h.1), ih h.2]

/-- The lexemes of the classes, in order. -/
def classLexemes : List Lexeme → List (List Lexeme)
  | [] => []
  | lx :: rest =>
    if lx.token.opensClass then
      (rest.take 1 ++ rest.tail.takeWhile (·.token != .closeClass)) ::
        classLexemes (afterClass rest)
    else classLexemes rest
  termination_by lexemes => lexemes.length
  decreasing_by
    · have hle := (List.dropWhile_sublist (fun lx : Lexeme => lx.token != .closeClass)
        (l := rest.tail)).length_le
      simp only [afterClass, List.length_tail, List.length_cons] at hle ⊢
      omega
    · simp

/-! ## How tokens show in a text -/

/-- The characters that brackets and operators of classes are made of. -/
def classMarks : List Char := ['[', ']', '&', '-', '~']

/-- The characters that make an operator on classes when they are doubled. -/
def classOperators : List Char := ['&', '-', '~']

/-- The character that shows a token of brackets or operators of classes. -/
def Token.mark? : Token → Option Char
  | .openClass | .openNegatedClass => some '['
  | .closeClass => some ']'
  | .dash => some '-'
  | .literal '&' => some '&'
  | .literal '~' => some '~'
  | _ => none

namespace Token

theorem mark?_eq_open_iff (t : Token) : t.mark? = some '[' ↔ t.opensClass = true := by
  unfold mark?
  split <;> simp_all [opensClass]

theorem mark?_eq_close_iff (t : Token) : t.mark? = some ']' ↔ t = .closeClass := by
  unfold mark?
  split <;> simp_all

/-- The token of an operator character. -/
def ofOperator (c : Char) : Token := if c = '-' then .dash else .literal c

theorem mem_classMarks_of_mem_classOperators {c : Char} (hc : c ∈ classOperators) :
    c ∈ classMarks ∧ c ≠ '[' := by
  simp only [classOperators, List.mem_cons, List.not_mem_nil, or_false] at hc
  rcases hc with rfl | rfl | rfl <;> decide

theorem mark?_eq_operator_iff (t : Token) {c : Char} (hc : c ∈ classOperators) :
    t.mark? = some c ↔ t = ofOperator c := by
  simp only [classOperators, List.mem_cons, List.not_mem_nil, or_false] at hc
  unfold mark?
  rcases hc with rfl | rfl | rfl <;> split <;> simp_all [ofOperator]

end Token

/-- A token of brackets or operators of classes shows by the first character of its text, and no
other token starts with such a character.  Only an opening bracket takes further characters. -/
def Token.Marked (text : List Char) (t : Token) : Prop :=
  ∀ d ∈ classMarks, (text.head? = some d ↔ t.mark? = some d) ∧
    (text.head? = some d → d ≠ '[' → text = [d])

instance (text : List Char) (t : Token) : Decidable (t.Marked text) :=
  List.decidableBAll _ _

theorem Token.marked_cons {c : Char} {cs : List Char} {t : Token} (h : t.mark? = none)
    (hc : c ∉ classMarks) : t.Marked (c :: cs) := by
  intro d hd
  have hfirst : (c :: cs).head? ≠ some d := by
    rw [List.head?_cons, Ne, Option.some.injEq]
    rintro rfl
    exact hc hd
  rw [h]
  exact ⟨⟨fun heq => absurd heq hfirst, nofun⟩, fun heq => absurd heq hfirst⟩

theorem Token.marked_literal {c : Char} (h : c ∉ ['[', ']', '-']) : (literal c).Marked [c] := by
  by_cases hand : c = '&'
  · subst hand
    decide
  by_cases htilde : c = '~'
  · subst htilde
    decide
  refine marked_cons ?_ ?_
  · unfold mark?
    split <;> simp_all
  · simp_all [classMarks]

theorem TokenRule.marked {text : List Char} {found : Option Token} (h : TokenRule text found) :
    ∀ t ∈ found, t.Marked text := by
  intro t ht
  cases h with
  | sign h =>
    obtain rfl := Option.some.inj ht
    exact (by decide : ∀ sign ∈ signs, sign.2.Marked sign.1) _ h
  | literal h =>
    obtain rfl := Option.some.inj ht
    exact Token.marked_literal fun hmem => h (List.Sublist.subset (by decide) hmem)
  | namedGroup hopener =>
    obtain rfl := Option.some.inj ht
    rcases hopener with rfl | rfl <;> exact Token.marked_cons rfl (by decide)
  | exactly | atLeast | between | backref =>
    simp only [Option.mem_def, Option.ite_none_right_eq_some, Option.some.injEq] at ht
    obtain ⟨-, rfl⟩ := ht
    exact Token.marked_cons rfl (by decide)
  | hex =>
    obtain ⟨c, -, rfl⟩ := Option.map_eq_some_iff.mp ht
    exact Token.marked_cons rfl (by decide)
  | _ =>
    obtain rfl := Option.some.inj ht
    exact Token.marked_cons rfl (by decide)

theorem unescaped_of_not_mem {text : List Char} (h : '\\' ∉ text) (rest : List Char) :
    unescaped (text ++ rest) = text.map some ++ unescaped rest := by
  induction text with
  | nil => rfl
  | cons c text ih =>
    rw [List.mem_cons, not_or] at h
    rw [List.cons_append, unescaped.eq_2 c _ (fun _ _ heq => absurd heq.symm h.1), ih h.2]
    rfl

theorem unescaped_eq_map {text : List Char} (h : '\\' ∉ text) :
    unescaped text = text.map some := by
  have hall := unescaped_of_not_mem h []
  rwa [List.append_nil, unescaped, List.append_nil] at hall

theorem not_mem_of_isInner {text : List Char} (h : ∀ d ∈ text, isInner d = true) {c : Char}
    (hc : isInner c = false) : c ∉ text := by
  intro hmem
  rw [h c hmem] at hc
  simp at hc

theorem isInner_of_mem_classMarks {d : Char} (h : d ∈ classMarks) : isInner d = false := by
  have hall : classMarks.all (fun d => isInner d = false) := by decide
  simpa using List.all_eq_true.mp hall d h

/-- The unescaped text of a token: a bracket or an operator character shows by its first character,
and the further ones are no such characters. -/
structure Token.ShowsAs (t : Token) (first : Option Char) (more : List (Option Char)) : Prop where
  first_iff : ∀ d ∈ classMarks, first = some d ↔ t.mark? = some d
  not_mem : ∀ d ∈ classMarks, some d ∉ more
  alone : ∀ d ∈ classMarks, d ≠ '[' → first = some d → more = []

theorem not_mem_map_some {inner : List Char} (h : ∀ d ∈ inner, isInner d = true) {d : Char}
    (hd : d ∈ classMarks) : some d ∉ inner.map some := by
  intro hsome
  obtain ⟨e, he, heq⟩ := List.mem_map.mp hsome
  obtain rfl := Option.some.inj heq
  exact not_mem_of_isInner h (isInner_of_mem_classMarks hd) he

namespace TokenRule

variable {text : List Char}

/-- The text of a token can be told from what follows it. -/
theorem unescaped_append {found : Option Token} (h : TokenRule text found) (rest : List Char) :
    unescaped (text ++ rest) = unescaped text ++ unescaped rest := by
  rcases h.inner with ⟨c, inner, rfl, hc, hinner⟩ | ⟨c, inner, rfl, hinner⟩
  · have hplain : '\\' ∉ c :: inner := by
      rw [List.mem_cons, not_or]
      exact ⟨Ne.symm hc, not_mem_of_isInner hinner (by decide)⟩
    rw [unescaped_of_not_mem hplain, unescaped_eq_map hplain]
  · have hplain : '\\' ∉ inner := not_mem_of_isInner hinner (by decide)
    rw [List.cons_append, List.cons_append, unescaped, unescaped, unescaped_of_not_mem hplain,
      unescaped_eq_map hplain]
    rfl

/-- The text of a token shows what the token is. -/
theorem exists_showsAs {t : Token} (h : TokenRule text (some t)) :
    ∃ first more, unescaped text = first :: more ∧ t.ShowsAs first more := by
  have hmarked := h.marked t rfl
  rcases h.inner with ⟨c, inner, rfl, hc, hinner⟩ | ⟨c, inner, rfl, hinner⟩
  · have hplain : '\\' ∉ c :: inner := by
      rw [List.mem_cons, not_or]
      exact ⟨Ne.symm hc, not_mem_of_isInner hinner (by decide)⟩
    refine ⟨some c, inner.map some, unescaped_eq_map hplain, fun d hd => (hmarked d hd).1,
      fun d hd => not_mem_map_some hinner hd, fun d hd hne heq => ?_⟩
    obtain ⟨-, rfl⟩ := List.cons.inj ((hmarked d hd).2 heq hne)
    rfl
  · have hplain : '\\' ∉ inner := not_mem_of_isInner hinner (by decide)
    refine ⟨none, none :: inner.map some, by rw [unescaped, unescaped_eq_map hplain],
      fun d hd => ⟨nofun, fun hmark => ?_⟩, fun d hd => ?_, nofun⟩
    · obtain rfl := Option.some.inj ((hmarked d hd).1.mpr hmark)
      exact absurd hd (by decide)
    · simpa using not_mem_map_some hinner hd

end TokenRule

/-! ## Classes of a text and of its lexemes -/

/-- The lexeme shows in the text what it is. -/
def Lexeme.Shown (lx : Lexeme) : Prop :=
  ∃ first more, unescaped lx.text = first :: more ∧ lx.token.ShowsAs first more

/-- The characters of the lexemes. -/
def shown (lexemes : List Lexeme) : List (Option Char) := lexemes.flatMap (unescaped ·.text)

theorem shown_cons (lx : Lexeme) (lexemes : List Lexeme) :
    shown (lx :: lexemes) = unescaped lx.text ++ shown lexemes := List.flatMap_cons

theorem eq_bracket_of_scan {c : Char} {cs : List Char} {t : Token} {extra : Nat}
    (h : scan c cs = .token t extra) (hopens : t.opensClass = true) : c = '[' := by
  rw [← Token.mark?_eq_open_iff] at hopens
  have hfirst := ((rule_of_scan h).2.marked t rfl '[' (by decide)).1.mpr hopens
  exact Option.some.inj hfirst

theorem behindCaret_unescaped {cs : List Char} (h : ∀ ds, cs = '^' :: ds → False) :
    behindCaret (unescaped cs) = unescaped cs := by
  unfold behindCaret
  split
  · rename_i tail htail
    fun_cases unescaped cs with
    | case1 c cs => simp [unescaped] at htail
    | case2 c cs hc =>
      rw [unescaped.eq_2 c cs hc] at htail
      obtain ⟨hcaret, -⟩ := List.cons.inj htail
      exact absurd (by rw [Option.some.inj hcaret]) (h cs)
    | case3 => simp [unescaped] at htail
  · rfl

namespace Splits

variable {text : List Char} {lexemes : List Lexeme}

theorem forall_shown (h : Splits text lexemes) : ∀ lx ∈ lexemes, lx.Shown := by
  induction h with
  | nil => simp
  | cons hscan _ ih =>
    exact List.forall_mem_cons.mpr ⟨(rule_of_scan hscan).2.exists_showsAs, ih⟩

theorem unescaped_eq (h : Splits text lexemes) : unescaped text = shown lexemes := by
  induction h with
  | nil => rfl
  | @cons c cs _ extra _ _ hscan _ ih =>
    have hsplit := (rule_of_scan hscan).2.unescaped_append (cs.drop extra)
    rw [List.cons_append, List.take_append_drop] at hsplit
    rw [hsplit, ih, shown_cons]

theorem suffix (h : Splits text lexemes) {rest : List Lexeme} (hrest : rest <:+ lexemes) :
    ∃ text', Splits text' rest := by
  induction h with
  | nil =>
    rw [List.suffix_nil.mp hrest]
    exact ⟨[], .nil⟩
  | cons hscan hlexemes ih =>
    rcases List.suffix_cons_iff.mp hrest with rfl | hrest
    · exact ⟨_, .cons hscan hlexemes⟩
    · exact ih hrest

/-- An opening bracket has its circumflex, and no other one follows it. -/
theorem behindCaret_shown {lx : Lexeme} {rest : List Lexeme} (h : Splits text (lx :: rest))
    (hopens : lx.token.opensClass = true) :
    ∃ cs, shown (lx :: rest) = some '[' :: cs ∧ behindCaret cs = shown rest := by
  cases h with
  | @cons c cs t extra span _ hscan hrest =>
    obtain rfl := eq_bracket_of_scan hscan hopens
    simp only [scan, Char.reduceEq, if_true, if_false] at hscan
    split at hscan
    · obtain ⟨-, rfl⟩ := Scan.token.inj hscan
      exact ⟨some '^' :: shown rest, rfl, rfl⟩
    · rename_i hcaret
      obtain ⟨-, rfl⟩ := Scan.token.inj hscan
      refine ⟨shown rest, rfl, ?_⟩
      rw [← hrest.unescaped_eq]
      exact behindCaret_unescaped hcaret

end Splits

theorem Lexeme.Shown.of_closeClass {lx : Lexeme} (h : lx.Shown) (hclose : lx.token = .closeClass) :
    unescaped lx.text = [some ']'] := by
  obtain ⟨first, more, htext, hshows⟩ := h
  have hfirst : first = some ']' :=
    (hshows.first_iff ']' (by decide)).mpr ((Token.mark?_eq_close_iff _).mpr hclose)
  rw [htext, hfirst, hshows.alone ']' (by decide) (by decide) hfirst]

theorem Lexeme.Shown.not_mem_of_ne_closeClass {lx : Lexeme} (h : lx.Shown)
    (hopen : lx.token ≠ .closeClass) : some ']' ∉ unescaped lx.text := by
  obtain ⟨first, more, htext, hshows⟩ := h
  rw [htext, List.mem_cons, not_or]
  refine ⟨fun hfirst => hopen ?_, hshows.not_mem ']' (by decide)⟩
  exact (Token.mark?_eq_close_iff _).mp ((hshows.first_iff ']' (by decide)).mp hfirst.symm)

theorem Lexeme.Shown.not_mem_of_opensClass {lx : Lexeme} (h : lx.Shown)
    (hopens : lx.token.opensClass = false) : some '[' ∉ unescaped lx.text := by
  obtain ⟨first, more, htext, hshows⟩ := h
  rw [htext, List.mem_cons, not_or]
  refine ⟨fun hfirst => ?_, hshows.not_mem '[' (by decide)⟩
  have hmark := (hshows.first_iff '[' (by decide)).mp hfirst.symm
  rw [Token.mark?_eq_open_iff, hopens] at hmark
  simp at hmark

theorem forall_bne_of_not_mem {cs : List (Option Char)} {d : Option Char} (h : d ∉ cs) :
    ∀ c ∈ cs, (c != d) = true := by
  intro c hc
  rw [bne_iff_ne]
  rintro rfl
  exact h hc

/-- Up to a closing bracket, a text shows the lexemes up to a closing bracket. -/
theorem takeWhile_shown {lexemes : List Lexeme} (h : ∀ lx ∈ lexemes, lx.Shown) :
    (shown lexemes).takeWhile (· != some ']') =
      shown (lexemes.takeWhile (·.token != .closeClass)) := by
  induction lexemes with
  | nil => rfl
  | cons lx lexemes ih =>
    obtain ⟨hlx, hlexemes⟩ := List.forall_mem_cons.mp h
    rw [shown_cons]
    by_cases hclose : lx.token = .closeClass
    · rw [hlx.of_closeClass hclose, List.takeWhile_cons_of_neg (by simp [hclose])]
      rfl
    · have hall := forall_bne_of_not_mem (hlx.not_mem_of_ne_closeClass hclose)
      rw [List.takeWhile_append_of_pos hall, ih hlexemes,
        List.takeWhile_cons_of_pos (by simp [hclose]), shown_cons]

theorem tail_dropWhile_shown {lexemes : List Lexeme} (h : ∀ lx ∈ lexemes, lx.Shown) :
    ((shown lexemes).dropWhile (· != some ']')).tail =
      shown (lexemes.dropWhile (·.token != .closeClass)).tail := by
  induction lexemes with
  | nil => rfl
  | cons lx lexemes ih =>
    obtain ⟨hlx, hlexemes⟩ := List.forall_mem_cons.mp h
    rw [shown_cons]
    by_cases hclose : lx.token = .closeClass
    · rw [hlx.of_closeClass hclose, List.dropWhile_cons_of_neg (by simp [hclose])]
      rfl
    · have hall := forall_bne_of_not_mem (hlx.not_mem_of_ne_closeClass hclose)
      rw [List.dropWhile_append_of_pos hall, ih hlexemes,
        List.dropWhile_cons_of_pos (by simp [hclose])]

/-- The first lexeme of a class has no closing bracket behind its first character. -/
theorem exists_shown_cons {lx : Lexeme} (h : lx.Shown) (lexemes : List Lexeme) :
    ∃ first more, shown (lx :: lexemes) = first :: (more ++ shown lexemes) ∧
      unescaped lx.text = first :: more ∧ ∀ c ∈ more, (c != some ']') = true := by
  obtain ⟨first, more, htext, hshows⟩ := h
  exact ⟨first, more, by rw [shown_cons, htext]; rfl, htext,
    forall_bne_of_not_mem (hshows.not_mem ']' (by decide))⟩

theorem classBody_shown {lexemes : List Lexeme} (h : ∀ lx ∈ lexemes, lx.Shown) :
    classBody (shown lexemes) =
      shown (lexemes.take 1 ++ lexemes.tail.takeWhile (·.token != .closeClass)) := by
  cases lexemes with
  | nil => rfl
  | cons lx lexemes =>
    obtain ⟨hlx, hlexemes⟩ := List.forall_mem_cons.mp h
    obtain ⟨first, more, hshown, htext, hmore⟩ := exists_shown_cons hlx lexemes
    rw [classBody, hshown, List.tail_cons, List.takeWhile_append_of_pos hmore,
      takeWhile_shown hlexemes]
    simp [shown_cons, htext]

theorem behindClass_shown {lexemes : List Lexeme} (h : ∀ lx ∈ lexemes, lx.Shown) :
    behindClass (shown lexemes) = shown (afterClass lexemes) := by
  cases lexemes with
  | nil => rfl
  | cons lx lexemes =>
    obtain ⟨hlx, hlexemes⟩ := List.forall_mem_cons.mp h
    obtain ⟨first, more, hshown, -, hmore⟩ := exists_shown_cons hlx lexemes
    rw [behindClass, hshown, List.tail_cons, List.dropWhile_append_of_pos hmore,
      tail_dropWhile_shown hlexemes, afterClass, List.tail_cons]

theorem afterClass_suffix (lexemes : List Lexeme) : afterClass lexemes <:+ lexemes :=
  ((List.tail_suffix _).trans (List.dropWhile_suffix _)).trans (List.tail_suffix lexemes)

theorem mem_of_mem_classLexemes {lexemes body : List Lexeme} {lx : Lexeme}
    (hbody : body ∈ classLexemes lexemes) (hlx : lx ∈ body) : lx ∈ lexemes := by
  fun_induction classLexemes lexemes with
  | case1 => simp at hbody
  | case2 opener rest _ ih =>
    rcases List.mem_cons.mp hbody with rfl | hbody
    · refine List.mem_cons_of_mem _ ?_
      rcases List.mem_append.mp hlx with hlx | hlx
      · exact List.mem_of_mem_take hlx
      · exact List.mem_of_mem_tail ((List.takeWhile_subset _) hlx)
    · exact List.mem_cons_of_mem _ ((afterClass_suffix rest).subset (ih hbody))
  | case3 lx' rest _ ih => exact List.mem_cons_of_mem _ (ih hbody)

/-- The classes of a text are those of its lexemes. -/
theorem classBodies_shown {text : List Char} {lexemes : List Lexeme} (h : Splits text lexemes) :
    classBodies (shown lexemes) = (classLexemes lexemes).map shown := by
  fun_induction classLexemes lexemes generalizing text with
  | case1 =>
    rw [shown, List.flatMap_nil, classBodies]
    rfl
  | case2 lx rest hopens ih =>
    obtain ⟨cs, hshown, hcaret⟩ := h.behindCaret_shown hopens
    obtain ⟨-, hrest⟩ := List.forall_mem_cons.mp h.forall_shown
    obtain ⟨text', hafter⟩ := h.suffix ((afterClass_suffix rest).trans (List.suffix_cons lx rest))
    rw [hshown, classBodies, if_pos rfl, hcaret, classBody_shown hrest, behindClass_shown hrest,
      ih hafter, List.map_cons]
  | case3 lx rest hopens ih =>
    obtain ⟨text', hrest⟩ := h.suffix (List.suffix_cons lx rest)
    have hplain := (h.forall_shown lx List.mem_cons_self).not_mem_of_opensClass
      (by simpa using hopens)
    rw [shown_cons, classBodies_append hplain, ih hrest]

/-! ## The classes that are read -/

/-- No lexeme opens a class, and no two neighbours make an operator. -/
structure Unmixed (body : List Lexeme) : Prop where
  brackets : ∀ lx ∈ body, lx.token.opensClass = false
  operators : ∀ c ∈ classOperators, body.IsChain fun lx next =>
    lx.token = .ofOperator c → next.token ≠ .ofOperator c

theorem Unmixed.nil : Unmixed [] := ⟨by simp, fun _ _ => .nil⟩

theorem opensClass_eq_false_of_supported {lx : Lexeme} {rest : List Lexeme}
    (h : ClassBody.unsupported? lx rest = none) : lx.token.opensClass = false := by
  by_contra hopens
  simp only [Bool.not_eq_false, Token.opensClass, Bool.or_eq_true, beq_iff_eq] at hopens
  rcases ClassBody.unsupported?_bracket hopens with ⟨-, -, hrefused⟩ | ⟨-, hrefused⟩ <;>
    exact absurd (h.symm.trans hrefused) (by simp)

theorem ne_of_supported {lx next : Lexeme} {rest : List Lexeme}
    (h : ClassBody.unsupported? lx (next :: rest) = none) {c : Char} (hc : c ∈ classOperators)
    (hlx : lx.token = .ofOperator c) : next.token ≠ .ofOperator c := by
  intro hnext
  have hoperator : lx.token = .dash ∨ lx.token = .literal '&' ∨ lx.token = .literal '~' := by
    rw [hlx]
    simp only [classOperators, List.mem_cons, List.not_mem_nil, or_false] at hc
    rcases hc with rfl | rfl | rfl <;> simp [Token.ofOperator]
  rw [ClassBody.unsupported?_operator hoperator, if_pos (hnext.trans hlx.symm)] at h
  simp at h

/-- What is not refused is unmixed. -/
theorem unmixed_of_supported {body rest : List Lexeme} (h : ClassBody.Supported body rest) :
    Unmixed body := by
  induction body with
  | nil => exact .nil
  | cons lx body ih =>
    obtain ⟨hlx, hbody⟩ := h
    obtain ⟨hbrackets, hoperators⟩ := ih hbody
    refine ⟨List.forall_mem_cons.mpr ⟨opensClass_eq_false_of_supported hlx, hbrackets⟩, ?_⟩
    intro c hc
    cases body with
    | nil => exact .singleton _
    | cons next body =>
      exact List.isChain_cons_cons.mpr ⟨ne_of_supported hlx hc, hoperators c hc⟩

/-- A class that is read has the lexemes up to a closing bracket, and they are unmixed. -/
theorem unmixed_of_read {opener : Span} {position position' : Nat} {cls cls' : CharClass}
    {lexemes rest : List Lexeme}
    (h : ClassBody.read opener position true cls lexemes = .ok (cls', position', rest)) :
    Unmixed (lexemes.take 1 ++ lexemes.tail.takeWhile (·.token != .closeClass)) := by
  obtain ⟨body, close, rfl, hclose, -, hne, hopen, hsupported⟩ := ClassBody.exists_body_of_read h
  obtain ⟨first, body, rfl⟩ := List.exists_cons_of_ne_nil (hne rfl)
  have hall : ∀ lx ∈ body, (lx.token != .closeClass) = true := by
    simpa using hopen
  rw [List.cons_append, List.tail_cons, List.takeWhile_append_of_pos hall,
    List.takeWhile_cons_of_neg (by simp [hclose]), List.append_nil]
  exact unmixed_of_supported hsupported

theorem classLexemes_cons {lx : Lexeme} (h : lx.token.opensClass = false) (rest : List Lexeme) :
    classLexemes (lx :: rest) = classLexemes rest := by
  rw [classLexemes, if_neg (by simp [h])]

theorem classLexemes_drop_lazyMark (lexemes : List Lexeme) :
    classLexemes (lexemes.drop (lazyMark lexemes)) = classLexemes lexemes := by
  unfold lazyMark
  split
  · rw [classLexemes_cons rfl]
    rfl
  · rfl

theorem unmixed_of_readLexemes {position : Nat} {st st' : ParseState} {lexemes : List Lexeme}
    (h : readLexemes position st lexemes = .ok st') :
    ∀ body ∈ classLexemes lexemes, Unmixed body := by
  fun_induction readLexemes position st lexemes with
  | case1 => simp [classLexemes]
  | case2 => simp at h
  | case3 => simp at h
  | case4 _ _ lx rest _ _ hrole _ _ ih =>
    have hrest := ih h
    rw [classLexemes_drop_lazyMark] at hrest
    rwa [classLexemes_cons (Token.opens_of_role_quantifier hrole).1]
  | case5 => simp at h
  | case6 _ st lx rest negated hrole cls _ _ hread _ ih =>
    obtain rfl := ClassBody.eq_afterClass_of_read hread
    rw [classLexemes, if_pos (Token.opensClass_of_role hrole)]
    exact List.forall_mem_cons.mpr ⟨unmixed_of_read hread, ih h⟩
  | case7 => simp at h
  | case8 _ _ lx rest _ hrole _ _ ih =>
    rw [classLexemes_cons (Token.opensClass_eq_false_of_role hrole)]
    exact ih h

/-! ## Unmixed classes in a text -/

theorem Unmixed.not_mem_shown {body : List Lexeme} (h : Unmixed body)
    (hshown : ∀ lx ∈ body, lx.Shown) : some '[' ∉ shown body := by
  rw [shown, List.mem_flatMap]
  rintro ⟨lx, hlx, hmem⟩
  exact (hshown lx hlx).not_mem_of_opensClass (h.brackets lx hlx) hmem

theorem infix_of_not_mem {c : Option Char} {more rest : List (Option Char)} (hmore : c ∉ more)
    (h : [c, c] <:+: more ++ rest) : [c, c] <:+: rest := by
  induction more with
  | nil => exact h
  | cons d more ih =>
    rw [List.mem_cons, not_or] at hmore
    rcases List.infix_cons_iff.mp h with hprefix | hinfix
    · exact absurd (List.cons_prefix_cons.mp hprefix).1 hmore.1
    · exact ih hmore.2 hinfix

theorem Unmixed.not_infix_shown {body : List Lexeme} (h : Unmixed body)
    (hshown : ∀ lx ∈ body, lx.Shown) {c : Char} (hc : c ∈ classOperators) :
    ¬[some c, some c] <:+: shown body := by
  have hchain := h.operators c hc
  clear h
  induction body with
  | nil => simp [shown]
  | cons lx body ih =>
    obtain ⟨⟨first, more, htext, hshows⟩, hbody⟩ := List.forall_mem_cons.mp hshown
    rw [shown_cons, htext, List.cons_append]
    intro hinfix
    rcases List.infix_cons_iff.mp hinfix with hprefix | hinfix
    · obtain ⟨hfirst, hnext⟩ := List.cons_prefix_cons.mp hprefix
      have hmark := Token.mem_classMarks_of_mem_classOperators hc
      rw [hshows.alone c hmark.1 hmark.2 hfirst.symm, List.nil_append] at hnext
      have hlx := (hshows.first_iff c hmark.1).mp hfirst.symm
      cases body with
      | nil => simp [shown] at hnext
      | cons next body =>
        obtain ⟨first', more', htext', hshows'⟩ := hbody next List.mem_cons_self
        rw [shown_cons, htext'] at hnext
        have hfirst' := (List.cons_prefix_cons.mp hnext).1
        have hmark' := (hshows'.first_iff c hmark.1).mp hfirst'.symm
        rw [Token.mark?_eq_operator_iff _ hc] at hlx hmark'
        exact (List.isChain_cons_cons.mp hchain).1 hlx hmark'
    · have hmore := hshows.not_mem c (Token.mem_classMarks_of_mem_classOperators hc).1
      exact ih hbody hchain.tail (infix_of_not_mem hmore hinfix)

/-- No class of a pattern holds an unescaped opening bracket or an unescaped doubled operator
character. -/
theorem classBodies_of_parse {source : List Char} {p : Pattern} (h : parse source = .ok p) :
    ∀ body ∈ classBodies (unescaped source), some '[' ∉ body ∧
      ∀ c ∈ classOperators, ¬[some c, some c] <:+: body := by
  obtain ⟨lexemes, st, hlex, -, hread, -⟩ := exists_readLexemes_of_parse h
  have hsplits := splits_of_lexFrom hlex
  rw [hsplits.unescaped_eq, classBodies_shown hsplits]
  simp only [List.forall_mem_map]
  intro body hbody
  have hunmixed := unmixed_of_readLexemes hread body hbody
  have hshown : ∀ lx ∈ body, lx.Shown := fun lx hlx =>
    hsplits.forall_shown lx (mem_of_mem_classLexemes hbody hlx)
  exact ⟨hunmixed.not_mem_shown hshown, fun c hc => hunmixed.not_infix_shown hshown hc⟩

/-- A class whose first character is a closing bracket, and whose operator characters are single or
escaped. -/
def singleSource : List Char := "[^]a-c&\\&-]".toList

theorem classBodies_of_parse_singleSource :
    parse singleSource = .ok ⟨.charClass
      ⟨true, [⟨'&', '&'⟩, ⟨'-', '-'⟩, ⟨']', ']'⟩, ⟨'a', 'c'⟩], []⟩, 0, []⟩ ∧
    classBodies (unescaped singleSource) =
      [[some ']', some 'a', some '-', some 'c', some '&', none, none, some '-']] ∧
    ∀ body ∈ classBodies (unescaped singleSource), some '[' ∉ body ∧
      ∀ c ∈ classOperators, ¬[some c, some c] <:+: body := by
  have hparse : parse singleSource = .ok ⟨.charClass
      ⟨true, [⟨'&', '&'⟩, ⟨'-', '-'⟩, ⟨']', ']'⟩, ⟨'a', 'c'⟩], []⟩, 0, []⟩ := by
    with_unfolding_all rfl
  exact ⟨hparse, by with_unfolding_all rfl, classBodies_of_parse hparse⟩

end PatternSampler
