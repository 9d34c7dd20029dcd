import PatternSampler.Proofs.Openers
import PatternSampler.Proofs.ParsedTree
import PatternSampler.Proofs.TokenRules
/-!
# Well-formed patterns

The shape of what the parser returns.  A sequence has at least two items and a choice at least two
arms, neither directly inside another of its kind; a quantifier stands over something that can be
repeated, under bounds in order; capture groups are numbered as they open, and names and references
go to them.  `ParseState.Shaped` is the invariant of the parse, and `parse_wellFormed` the result.
-/
set_option autoImplicit false

namespace PatternSampler

open CharRange (Normal)

/-! ## Nodes -/

namespace Node

/-- The node can be one of several items. -/
def IsItem : Node → Prop
  | .empty | .concat _ | .alternate _ => False
  | _ => True

/-- The node can be one of several arms. -/
def IsArm : Node → Prop
  | .alternate _ => False
  | _ => True

/-- The node can stand under a quantifier. -/
def IsQuantifiable : Node → Prop
  | .empty | .assert _ | .repetition .. | .lookAround .. | .concat _ | .alternate _ => False
  | _ => True

/-- The rules that each node of a pattern's tree meets, whatever the groups of the pattern. -/
def Shaped : Node → Prop
  | .charClass cls => Normal cls.ranges ∧ cls.categories.Nodup
  | .concat items => 2 ≤ items.length ∧ ∀ item ∈ items, item.IsItem
  | .alternate arms => 2 ≤ arms.length ∧ ∀ arm ∈ arms, arm.IsArm
  | .repetition body min max _ => body.IsQuantifiable ∧ ∀ bound ∈ max, min ≤ bound
  | .backref index => 1 ≤ index
  | _ => True

theorem IsItem.isArm {n : Node} (h : n.IsItem) : n.IsArm := by
  cases n <;> trivial

theorem isQuantifiable_of_isItem {n : Node} (h : n.IsItem) (hn : n.isRepeatable = true) :
    n.IsQuantifiable := by
  cases n <;> trivial

theorem shaped_ofItems {items : List Node}
    (h : ∀ item ∈ items, item.IsItem ∧ item.Everywhere Shaped) :
    (ofItems items).IsArm ∧ (ofItems items).Everywhere Shaped := by
  unfold ofItems
  split
  · exact ⟨trivial, .leaf rfl trivial⟩
  · have hitem := h _ (List.mem_singleton_self _)
    exact ⟨hitem.1.isArm, hitem.2⟩
  · rename_i hnil hsingle
    refine ⟨trivial, Everywhere.concat_iff.mpr ⟨⟨?_, fun n hn => (h n hn).1⟩,
      fun n hn => (h n hn).2⟩⟩
    match items with
    | [] => exact absurd rfl hnil
    | [item] => exact absurd rfl (hsingle item)
    | _ :: _ :: rest => exact Nat.le_add_left 2 rest.length

theorem shaped_ofArms {arms : List Node} (hne : arms ≠ [])
    (h : ∀ arm ∈ arms, arm.IsArm ∧ arm.Everywhere Shaped) : (ofArms arms).Everywhere Shaped := by
  unfold ofArms
  split
  · exact (h _ (List.mem_singleton_self _)).2
  · rename_i hsingle
    refine Everywhere.alternate_iff.mpr ⟨⟨?_, fun n hn => (h n hn).1⟩, fun n hn => (h n hn).2⟩
    match arms with
    | [] => exact absurd rfl hne
    | [arm] => exact absurd rfl (hsingle arm)
    | _ :: _ :: rest => exact Nat.le_add_left 2 rest.length

end Node

open Node (Shaped)

/-! ## Levels -/

/-- What has been read of an alternation is in shape. -/
structure Level.Shaped (l : Level) : Prop where
  arms : ∀ n ∈ l.arms, n.IsArm ∧ n.Everywhere Node.Shaped
  items : ∀ n ∈ l.items, n.IsItem ∧ n.Everywhere Node.Shaped

namespace Level

variable {l : Level}

theorem shaped_start : Level.start.Shaped := ⟨by simp [start], by simp [start]⟩

theorem Shaped.push (h : l.Shaped) {n : Node} (hitem : n.IsItem)
    (hn : n.Everywhere Node.Shaped) : (l.push n).Shaped :=
  ⟨h.arms, List.forall_mem_cons.mpr ⟨⟨hitem, hn⟩, h.items⟩⟩

theorem Shaped.arm (h : l.Shaped) : l.arm.IsArm ∧ l.arm.Everywhere Node.Shaped :=
  Node.shaped_ofItems fun n hn => h.items n (List.mem_reverse.mp hn)

theorem Shaped.nextArm (h : l.Shaped) : l.nextArm.Shaped :=
  ⟨List.forall_mem_cons.mpr ⟨h.arm, h.arms⟩, by simp [Level.nextArm]⟩

theorem Shaped.node (h : l.Shaped) : l.node.Everywhere Node.Shaped := by
  refine Node.shaped_ofArms (by simp) fun n hn => ?_
  rcases List.mem_cons.mp (List.mem_reverse.mp hn) with rfl | hn
  · exact h.arm
  · exact h.arms n hn

end Level

theorem Opener.shaped_wrap (o : Opener) {n : Node} (h : n.Everywhere Node.Shaped) :
    (o.wrap n).IsItem ∧ (o.wrap n).Everywhere Node.Shaped := by
  cases o with
  | plain => exact ⟨trivial, Node.Everywhere.group_iff.mpr ⟨trivial, h⟩⟩
  | capture => exact ⟨trivial, Node.Everywhere.capture_iff.mpr ⟨trivial, h⟩⟩
  | look => exact ⟨trivial, Node.Everywhere.lookAround_iff.mpr ⟨trivial, h⟩⟩

/-! ## The parse under way -/

/-- The names of groups and their numbers: each name is given once, and the numbers go up among
those of the groups. -/
structure NamesOrdered (names : List (String × Nat)) (groups : Nat) : Prop where
  distinct : (names.map (·.1)).Nodup
  increasing : (names.map (·.2)).Pairwise (· < ·)
  known : ∀ e ∈ names, 1 ≤ e.2 ∧ e.2 ≤ groups

namespace NamesOrdered

variable {names : List (String × Nat)} {groups : Nat}

theorem nil (groups : Nat) : NamesOrdered [] groups := ⟨by simp, by simp, by simp⟩

theorem succ (h : NamesOrdered names groups) : NamesOrdered names (groups + 1) :=
  ⟨h.distinct, h.increasing, fun e he => ⟨(h.known e he).1, Nat.le_succ_of_le (h.known e he).2⟩⟩

/-- The next group may have any name that is not taken. -/
theorem append (h : NamesOrdered names groups) {name : String} (hnew : name ∉ names.map (·.1)) :
    NamesOrdered (names ++ [(name, groups + 1)]) (groups + 1) := by
  refine ⟨?_, ?_, ?_⟩
  · rw [List.map_append, List.map_singleton, List.nodup_append]
    exact ⟨h.distinct, by simp, by grind⟩
  · rw [List.map_append, List.map_singleton, List.pairwise_append]
    refine ⟨h.increasing, List.pairwise_singleton _ _, fun i hi j hj => ?_⟩
    obtain ⟨e, he, rfl⟩ := List.mem_map.mp hi
    rw [List.mem_singleton.mp hj]
    exact Nat.lt_succ_of_le (h.known e he).2
  · rw [List.forall_mem_append, List.forall_mem_singleton]
    exact ⟨h.succ.known, Nat.le_add_left 1 _, Nat.le_refl _⟩

end NamesOrdered

namespace ParseState

/-- What a parse under way has read is in shape. -/
structure Shaped (st : ParseState) : Prop where
  levels : ∀ l ∈ st.levels, l.Shaped
  names : NamesOrdered st.names st.captures

theorem shaped_start : Shaped .start :=
  ⟨by simp [levels, start, Level.shaped_start], .nil 0⟩

variable {st : ParseState}

/-- Only the alternation at hand changes. -/
theorem Shaped.level (h : st.Shaped) {l : Level} (hl : l.Shaped) :
    Shaped { st with level := l } :=
  ⟨List.forall_mem_cons.mpr ⟨hl, (List.forall_mem_cons.mp h.levels).2⟩, h.names⟩

theorem Shaped.here (h : st.Shaped) : st.level.Shaped := (List.forall_mem_cons.mp h.levels).1

theorem Shaped.push (h : st.Shaped) {n : Node} (hitem : n.IsItem)
    (hn : n.Everywhere Node.Shaped) : (st.push n).Shaped := h.level (h.here.push hitem hn)

theorem Shaped.openGroup (h : st.Shaped) (o : Opener) (span : Span) :
    (st.openGroup o span).Shaped :=
  ⟨List.forall_mem_cons.mpr ⟨Level.shaped_start, h.levels⟩, h.names⟩

theorem Shaped.openCapture (h : st.Shaped) (span : Span) : (st.openCapture span).Shaped :=
  ⟨(h.openGroup _ span).levels, h.names.succ⟩

theorem Shaped.openNamed (h : st.Shaped) {name : String} (hnew : st.lookup? name = none)
    (span : Span) : (st.openNamed name span).Shaped := by
  refine ⟨(h.openCapture span).levels, h.names.append fun hmem => ?_⟩
  rw [lookup?, Option.map_eq_none_iff, List.find?_eq_none] at hnew
  obtain ⟨e, he, rfl⟩ := List.mem_map.mp hmem
  exact hnew e he (beq_self_eq_true _)

theorem Shaped.closeGroup (h : st.Shaped) {g : OpenGroup} {outer : List OpenGroup}
    (hopen : st.openGroups = g :: outer) :
    Shaped { st with
      openGroups := outer
      level := g.outer.push (g.opener.wrap st.level.node) } := by
  have hlevels := h.levels
  simp only [ParseState.levels, hopen, List.map_cons, List.forall_mem_cons] at hlevels
  obtain ⟨hitem, hn⟩ := g.opener.shaped_wrap hlevels.1.node
  exact ⟨List.forall_mem_cons.mpr ⟨hlevels.2.1.push hitem hn, hlevels.2.2⟩, h.names⟩

end ParseState

/-! ## What a token does -/

/-- What a token may ask for: a leaf is an item in shape, and references count from one. -/
def Action.InShape : Action → Prop
  | .leaf n => n.IsItem ∧ n.Everywhere Shaped
  | .reference index => 1 ≤ index
  | _ => True

/-- Group numbers count from one. -/
def Token.CountsFromOne : Token → Prop
  | .backref index => 1 ≤ index
  | _ => True

theorem Action.inShape_of_role {t : Token} {a : Action} (ht : t.CountsFromOne)
    (h : t.role = .action a) : a.InShape := by
  cases t with
  | classEscape k =>
    obtain rfl := Role.action.inj h
    exact ⟨trivial, .leaf rfl ⟨CharClass.normal_ofRanges false [] [k],
      by simp [CharClass.ofCategory, CharClass.ofRanges]⟩⟩
  | star | plus | question | bounds | openClass | openNegatedClass => simp [Token.role] at h
  | nonCapture | lookAhead | negLookAhead | lookBehind | negLookBehind | namedGroup | openGroup
  | closeGroup | pipe | namedBackref =>
    obtain rfl := Role.action.inj h
    trivial
  | backref =>
    obtain rfl := Role.action.inj h
    exact ht
  | closeClass | brace | caret | dollar | dot | dash | assertEscape | hex | control | escaped
  | literal =>
    obtain rfl := Role.action.inj h
    exact ⟨trivial, .leaf rfl trivial⟩

namespace ParseState

variable {st : ParseState}

theorem shaped_act (h : st.Shaped) {a : Action} (ha : a.InShape) {span : Span}
    {next : Option Lexeme} {position : Nat} {st' : ParseState}
    (hact : st.act a span next position = .ok st') : st'.Shaped := by
  cases a with
  | bar =>
    obtain rfl := Except.ok.inj hact
    exact h.level h.here.nextArm
  | close =>
    simp only [act] at hact
    split at hact
    · simp at hact
    · rename_i hopen
      obtain rfl := Except.ok.inj hact
      exact h.closeGroup hopen
  | openAs o =>
    obtain rfl := Except.ok.inj hact
    exact h.openGroup o span
  | openCapture =>
    simp only [act] at hact
    split at hact
    · simp at hact
    · obtain rfl := Except.ok.inj hact
      exact h.openCapture span
  | openNamed name =>
    simp only [act] at hact
    split at hact
    · simp at hact
    · rename_i hnew
      obtain rfl := Except.ok.inj hact
      exact h.openNamed hnew span
  | leaf n =>
    obtain rfl := Except.ok.inj hact
    exact h.push ha.1 ha.2
  | reference index =>
    obtain rfl := Except.ok.inj hact
    have hpush : (st.push (.backref index)).Shaped := h.push trivial (.leaf rfl ha)
    exact ⟨hpush.levels, hpush.names⟩
  | namedReference name =>
    simp only [act] at hact
    split at hact
    · rename_i index hindex
      obtain rfl := Except.ok.inj hact
      obtain ⟨e, he, rfl⟩ := Option.map_eq_some_iff.mp hindex
      have hone := (h.names.known e (List.mem_of_find?_eq_some he)).1
      exact h.push trivial (.leaf rfl hone)
    · simp at hact

/-- A quantifier wraps an item that can be repeated, under bounds that are in order. -/
theorem shaped_quantify (h : st.Shaped) {min : Nat} {max : Option Nat} {isLazy : Bool}
    {span : Span} {position : Nat} {st' : ParseState}
    (hquantify : st.quantify min max isLazy span position = .ok st') : st'.Shaped := by
  unfold quantify at hquantify
  split at hquantify
  · simp at hquantify
  · rename_i item items hitems
    have hhere := h.here
    obtain ⟨⟨hitem, hn⟩, hrest⟩ := List.forall_mem_cons.mp (hitems ▸ hhere.items)
    split at hquantify
    · simp at hquantify
    · rename_i hbounds
      split at hquantify
      · simp at hquantify
      · split at hquantify
        · simp at hquantify
        · rename_i hrepeatable
          obtain rfl := Except.ok.inj hquantify
          have hshaped : (Node.repetition item min max isLazy).Shaped := by
            refine ⟨Node.isQuantifiable_of_isItem hitem (by simpa using hrepeatable), ?_⟩
            rintro bound rfl
            simpa [boundsFault?] using hbounds
          exact h.level ⟨hhere.arms, List.forall_mem_cons.mpr
            ⟨⟨trivial, Node.Everywhere.repetition_iff.mpr ⟨hshaped, hn⟩⟩, hrest⟩⟩

end ParseState

/-! ## Class bodies -/

namespace ClassBody

theorem kept_shaped : CharClass.Kept fun cls => Normal cls.ranges ∧ cls.categories.Nodup where
  range cls a b h := ⟨cls.normal_pushRange a b, h.2⟩
  category cls k h := by
    refine ⟨CharClass.normal_pushCategory h.1 k, ?_⟩
    unfold CharClass.pushCategory
    split
    · exact h.2
    · rename_i hnew
      exact List.nodup_append.mpr ⟨h.2, by simp, by grind⟩

/-- What comes after a class is the end of what came before. -/
theorem read_suffix {opener : Span} {position : Nat} {atStart : Bool} {cls cls' : CharClass}
    {lexemes rest : List Lexeme} {position' : Nat}
    (h : read opener position atStart cls lexemes = .ok (cls', position', rest)) :
    rest <:+ lexemes := by
  fun_induction read opener position atStart cls lexemes with
  | case1 => simp at h
  | case2 =>
    simp only [Except.ok.injEq, Prod.mk.injEq] at h
    obtain ⟨-, -, rfl⟩ := h
    exact List.suffix_cons _ _
  | case3 => simp at h
  | case4 _ _ _ lx rest' _ _ taken _ ih =>
    exact ((ih h).trans (List.drop_suffix taken rest')).trans (List.suffix_cons lx rest')

end ClassBody

/-! ## References in a text -/

/-- No rule makes a reference to a group before the first. -/
theorem TokenRule.countsFromOne {text : List Char} {found : Option Token}
    (h : TokenRule text found) : ∀ t ∈ found, t.CountsFromOne := by
  intro t ht
  cases h with
  | sign h =>
    obtain rfl := Option.some.inj ht
    fin_cases h <;> trivial
  | backref hone =>
    simp only [Option.mem_def, Option.ite_none_right_eq_some, Option.some.injEq] at ht
    obtain ⟨-, rfl⟩ := ht
    exact Text.one_le_ofDigits hone _
  | exactly | atLeast | between =>
    simp only [Option.mem_def, Option.ite_none_right_eq_some, Option.some.injEq] at ht
    obtain ⟨-, rfl⟩ := ht
    trivial
  | hex =>
    obtain ⟨c, -, rfl⟩ := Option.map_eq_some_iff.mp ht
    trivial
  | _ =>
    obtain rfl := Option.some.inj ht
    trivial

namespace Scan

/-- A token that is found counts groups from one. -/
def CountsFromOne : Scan → Prop
  | .token t _ => t.CountsFromOne
  | .fault _ => True

theorem countsFromOne_scan (c : Char) (cs : List Char) : (scan c cs).CountsFromOne := by
  cases h : scan c cs with
  | token t extra => exact (rule_of_scan h).2.countsFromOne t rfl
  | fault extra => trivial

end Scan

theorem countsFromOne_of_lexFrom {position : Nat} {source : List Char} {lexemes : List Lexeme}
    (h : lexFrom position source = .ok lexemes) : ∀ lx ∈ lexemes, lx.token.CountsFromOne := by
  fun_induction lexFrom position source generalizing lexemes with
  | case1 =>
    obtain rfl := Except.ok.inj h
    simp
  | case2 => simp at h
  | case3 => simp at h
  | case4 =>
    rename_i c cs _ _ hscan _ _ _ hrest ih
    obtain rfl := Except.ok.inj h
    have ht := Scan.countsFromOne_scan c cs
    rw [hscan] at ht
    exact List.forall_mem_cons.mpr ⟨ht, ih hrest⟩

/-! ## Whole patterns -/

theorem shaped_readLexemes {position : Nat} {st st' : ParseState} {lexemes : List Lexeme}
    (hst : st.Shaped) (hlexemes : ∀ lx ∈ lexemes, lx.token.CountsFromOne)
    (h : readLexemes position st lexemes = .ok st') : st'.Shaped := by
  fun_induction readLexemes position st lexemes with
  | case1 => exact Except.ok.inj h ▸ hst
  | case2 => simp at h
  | case3 => simp at h
  | case4 _ _ _ rest _ _ _ _ hquantify ih =>
    exact ih (ParseState.shaped_quantify hst hquantify)
      (fun lx hlx => hlexemes lx (List.mem_cons_of_mem _ (List.mem_of_mem_drop hlx))) h
  | case5 => simp at h
  | case6 _ st _ rest negated _ cls _ _ hread _ ih =>
    have hcls := ClassBody.kept_read ClassBody.kept_shaped ⟨CharRange.normal_nil, List.nodup_nil⟩
      hread
    have hnegated : Shaped (.charClass (if negated then cls.negate else cls)) := by
      cases negated <;> exact hcls
    simp only [dite_eq_ite] at ih
    have hrest := (ClassBody.read_suffix hread).subset
    exact ih (hst.push trivial (.leaf rfl hnegated))
      (fun lx hlx => hlexemes lx (List.mem_cons_of_mem _ (hrest hlx))) h
  | case7 => simp at h
  | case8 _ _ lx rest _ hrole _ hact ih =>
    have hlx := List.forall_mem_cons.mp hlexemes
    exact ih (ParseState.shaped_act hst (Action.inShape_of_role hlx.1 hrole) hact) hlx.2 h

/-- The tree is in shape, its capture groups are numbered from one in the order in which they open,
and its references go to them. -/
structure Node.WellFormed (n : Node) (groups : Nat) : Prop where
  shaped : n.Everywhere Shaped
  captures : n.captureIndices = List.range' 1 groups
  references : ∀ index, .backref index ∈ n.subnodes → 1 ≤ index ∧ index ≤ groups

/-- The tree is well formed; each name is given once, the numbers of the named groups go up, and
each is that of a capture group in the tree. -/
structure Pattern.WellFormed (p : Pattern) : Prop where
  root : p.root.WellFormed p.captureCount
  names : NamesOrdered p.names p.captureCount
  named : ∀ e ∈ p.names, ∃ body, .capture e.2 body ∈ p.root.subnodes

theorem Node.exists_capture_of_mem {n : Node} {index : Nat} (h : index ∈ n.captureIndices) :
    ∃ body, .capture index body ∈ n.subnodes := by
  obtain ⟨m, hm, hindex⟩ := List.mem_filterMap.mp h
  cases m with
  | capture i body =>
    obtain rfl := Option.some.inj hindex
    exact ⟨body, hm⟩
  | _ => simp [captureIndex?] at hindex

theorem exists_readLexemes_of_parse {source : List Char} {p : Pattern}
    (h : parse source = .ok p) :
    ∃ lexemes st, lex source = .ok lexemes ∧ parseLexemes lexemes = .ok p ∧
      readLexemes 0 .start lexemes = .ok st ∧ p = ⟨st.level.node, st.captures, st.names⟩ := by
  unfold parse at h
  split at h
  · simp at h
  · rename_i lexemes hlex
    split at h
    · simp at h
    · rename_i hparse
      obtain rfl := Except.ok.inj h
      have hread := hparse
      unfold parseLexemes at hread
      split at hread
      · simp at hread
      · rename_i st hst
        split at hread
        · simp at hread
        · exact ⟨lexemes, st, hlex, hparse, hst, (Except.ok.inj hread).symm⟩

/-- Every pattern that is read from a text is well formed.  The groups are those that the text opens
outside classes, numbered in that order, and each has the name that its opener gives it. -/
theorem parse_wellFormed {source : List Char} {p : Pattern} (h : parse source = .ok p) :
    p.WellFormed ∧ ∃ lexemes, lex source = .ok lexemes ∧
      p.captureCount = (captureOpeners lexemes).length ∧
      p.names = namedOpeners 1 (captureOpeners lexemes) := by
  have hread := parse_wellRead h
  obtain ⟨lexemes, st, hlex, -, hst, rfl⟩ := exists_readLexemes_of_parse h
  have hshaped := shaped_readLexemes ParseState.shaped_start (countsFromOne_of_lexFrom hlex) hst
  have hnode := hshaped.here.node
  have hopens := opens_readLexemes hst
  refine ⟨⟨⟨hnode, hread.indices, fun index hindex => ⟨hnode _ hindex, hread.nodes _ hindex⟩⟩,
    hshaped.names, fun e he => Node.exists_capture_of_mem ?_⟩, lexemes, hlex, ?_, ?_⟩
  · rw [hread.indices, List.mem_range'_1]
    have hknown := hshaped.names.known e he
    simp only at hknown ⊢
    omega
  · simpa [ParseState.start] using hopens.captures
  · simpa [ParseState.start] using hopens.names

/-- A named group and one inside it, beside a class with a parenthesis, and a reference to each. -/
def Pattern.namedExample : Pattern where
  root := .concat [
    .capture 1 (.alternate [.char 'x', .concat [
      .charClass ⟨false, [⟨'(', '('⟩, ⟨'b', 'd'⟩], [.digit]⟩,
      .repetition (.capture 2 (.char 'y')) 1 none true]]),
    .backref 2, .backref 1]
  captureCount := 2
  names := [("a", 1)]

/-- The text that spells it. -/
def Pattern.namedSource : List Char := "(?<a>x|[b-d(\\d](y)+?)\\2\\k<a>".toList

theorem parse_wellFormed_namedExample :
    parse Pattern.namedSource = .ok Pattern.namedExample ∧ Pattern.namedExample.WellFormed ∧
      ∃ lexemes, lex Pattern.namedSource = .ok lexemes ∧
        Pattern.namedExample.captureCount = (captureOpeners lexemes).length ∧
        Pattern.namedExample.names = namedOpeners 1 (captureOpeners lexemes) := by
  have hparse : parse Pattern.namedSource = .ok Pattern.namedExample := by
    with_unfolding_all rfl
  exact ⟨hparse, parse_wellFormed hparse⟩

end PatternSampler
