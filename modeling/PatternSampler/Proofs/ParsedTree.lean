import PatternSampler.Pattern.Parser
import PatternSampler.Proofs.Classes
import PatternSampler.Proofs.Subnodes
/-!
# Trees that come from a text

What holds of every tree that the parser returns: its classes have their ranges in normal form, its
bounds are in order, its capture groups are numbered in the order in which they open, and its
references stay within those numbers.  `ParseState.Consistent` is the invariant of the parse, and
`parse_wellRead` the result.
-/
set_option autoImplicit false

namespace PatternSampler

open CharRange (Normal)

/-! ## Nodes -/

namespace Node

/-- The number of a capture group. -/
def captureIndex? : Node → Option Nat
  | .capture index _ => some index
  | _ => none

/-- The numbers of a tree's capture groups, each before those inside it. -/
def captureIndices (n : Node) : List Nat := n.subnodes.filterMap captureIndex?

/-- A class has its ranges in normal form, an alternation at least two arms and a repetition its
bounds in order, and a reference goes to a known group. -/
def Admissible (known : Nat → Prop) : Node → Prop
  | .charClass cls => Normal cls.ranges
  | .alternate arms => 2 ≤ arms.length
  | .repetition _ min (some max) _ => min ≤ max
  | .backref index => known index
  | _ => True

theorem filterMap_subnodesOf (ns : List Node) :
    (subnodesOf ns).filterMap captureIndex? = ns.flatMap captureIndices := by
  induction ns with
  | nil => rfl
  | cons n ns ih => rw [subnodesOf, List.filterMap_append, ih, List.flatMap_cons, captureIndices]

@[simp] theorem captureIndices_concat (items : List Node) :
    (concat items).captureIndices = items.flatMap captureIndices := by
  rw [captureIndices, subnodes, List.filterMap_cons_none rfl, filterMap_subnodesOf]

@[simp] theorem captureIndices_alternate (arms : List Node) :
    (alternate arms).captureIndices = arms.flatMap captureIndices := by
  rw [captureIndices, subnodes, List.filterMap_cons_none rfl, filterMap_subnodesOf]

@[simp] theorem captureIndices_group (body : Node) :
    (group body).captureIndices = body.captureIndices := by
  rw [captureIndices, subnodes, List.filterMap_cons_none rfl, captureIndices]

@[simp] theorem captureIndices_capture (index : Nat) (body : Node) :
    (capture index body).captureIndices = index :: body.captureIndices := by
  have hindex : captureIndex? (capture index body) = some index := rfl
  rw [captureIndices, subnodes, List.filterMap_cons_some hindex, captureIndices]

@[simp] theorem captureIndices_repetition (body : Node) (min : Nat) (max : Option Nat)
    (isLazy : Bool) : (repetition body min max isLazy).captureIndices = body.captureIndices := by
  rw [captureIndices, subnodes, List.filterMap_cons_none rfl, captureIndices]

@[simp] theorem captureIndices_lookAround (body : Node) (negative behind : Bool) :
    (lookAround body negative behind).captureIndices = body.captureIndices := by
  rw [captureIndices, subnodes, List.filterMap_cons_none rfl, captureIndices]

theorem captureIndices_ofItems (items : List Node) :
    (ofItems items).captureIndices = items.flatMap captureIndices := by
  unfold ofItems
  split
  · rfl
  · simp
  · rw [captureIndices_concat]

theorem captureIndices_ofArms (arms : List Node) :
    (ofArms arms).captureIndices = arms.flatMap captureIndices := by
  unfold ofArms
  split
  · simp
  · rw [captureIndices_alternate]

variable {known : Nat → Prop}

theorem everywhere_ofItems {items : List Node}
    (h : ∀ item ∈ items, item.Everywhere (Admissible known)) :
    (ofItems items).Everywhere (Admissible known) := by
  unfold ofItems
  split
  · simp [Everywhere, subnodes, Admissible]
  · exact h _ (List.mem_singleton_self _)
  · exact Everywhere.concat_iff.mpr ⟨trivial, h⟩

theorem everywhere_ofArms {arms : List Node} (hne : arms ≠ [])
    (h : ∀ arm ∈ arms, arm.Everywhere (Admissible known)) :
    (ofArms arms).Everywhere (Admissible known) := by
  unfold ofArms
  split
  · exact h _ (List.mem_singleton_self _)
  · rename_i hsingle
    refine Everywhere.alternate_iff.mpr ⟨?_, h⟩
    match arms with
    | [] => exact absurd rfl hne
    | [arm] => exact absurd rfl (hsingle arm)
    | _ :: _ :: rest => exact Nat.le_add_left 2 rest.length

theorem Admissible.mono {known' : Nat → Prop} (hknown : ∀ index, known index → known' index)
    (n : Node) (h : n.Admissible known) : n.Admissible known' := by
  unfold Admissible at *
  split at h
  · exact h
  · exact h
  · exact h
  · exact hknown _ h
  · exact trivial

end Node

/-! ## Levels and openers -/

namespace Level

/-- The nodes that a level is made of, in order. -/
def nodes (l : Level) : List Node := l.arms.reverse ++ l.items.reverse

theorem captureIndices_node (l : Level) :
    l.node.captureIndices = l.nodes.flatMap Node.captureIndices := by
  rw [node, Node.captureIndices_ofArms, List.reverse_cons, List.flatMap_append,
    List.flatMap_singleton, arm, Node.captureIndices_ofItems, nodes, List.flatMap_append]

theorem nodes_push (l : Level) (n : Node) : (l.push n).nodes = l.nodes ++ [n] := by
  simp [nodes, push]

end Level

/-- The number that an opener gives a group. -/
def Opener.indices : Opener → List Nat
  | .capture index => [index]
  | _ => []

theorem Opener.captureIndices_wrap (o : Opener) (n : Node) :
    (o.wrap n).captureIndices = o.indices ++ n.captureIndices := by
  cases o <;> simp [wrap, indices]

theorem Opener.everywhere_wrap {known : Nat → Prop} (o : Opener) {n : Node}
    (h : n.Everywhere (Node.Admissible known)) :
    (o.wrap n).Everywhere (Node.Admissible known) := by
  cases o with
  | plain => exact Node.Everywhere.group_iff.mpr ⟨trivial, h⟩
  | capture => exact Node.Everywhere.capture_iff.mpr ⟨trivial, h⟩
  | look => exact Node.Everywhere.lookAround_iff.mpr ⟨trivial, h⟩

/-! ## The parse under way -/

namespace ParseState

/-- The levels of a parse, innermost first. -/
def levels (st : ParseState) : List Level := st.level :: st.openGroups.map (·.outer)

/-- The numbers of the capture groups that have been opened, in order. -/
def captureIndices (st : ParseState) : List Nat :=
  (st.openGroups.reverse.flatMap fun g =>
    g.outer.nodes.flatMap Node.captureIndices ++ g.opener.indices)
    ++ st.level.nodes.flatMap Node.captureIndices

/-- The groups that may be referred to: those opened, and those that a reference by number has yet
to be checked for. -/
def Known (st : ParseState) (index : Nat) : Prop :=
  index ≤ st.captures ∨ ∃ r ∈ st.backrefs, r.1 = index

/-- What holds of a parse under way. -/
structure Consistent (st : ParseState) : Prop where
  nodes : ∀ l ∈ st.levels, ∀ n ∈ l.nodes, n.Everywhere (Node.Admissible st.Known)
  indices : st.captureIndices = List.range' 1 st.captures
  names : ∀ e ∈ st.names, e.2 ≤ st.captures

theorem consistent_start : Consistent .start :=
  ⟨by simp [levels, start, Level.start, Level.nodes], rfl, by simp [start]⟩

variable {st : ParseState}

/-- What a level holds may be wrapped as the node of a group. -/
theorem everywhere_node {known : Nat → Prop} {l : Level}
    (h : ∀ n ∈ l.nodes, n.Everywhere (Node.Admissible known)) :
    l.node.Everywhere (Node.Admissible known) := by
  have hitems : ∀ item ∈ l.items.reverse, item.Everywhere (Node.Admissible known) :=
    fun item hitem => h item (List.mem_append_right _ hitem)
  refine Node.everywhere_ofArms (by simp) fun arm harm => ?_
  rcases List.mem_append.mp (List.reverse_cons ▸ harm) with harm | harm
  · exact h arm (List.mem_append_left _ harm)
  · rw [List.mem_singleton.mp harm]
    exact Node.everywhere_ofItems hitems

theorem Consistent.push (hst : st.Consistent) {n : Node}
    (hn : n.Everywhere (Node.Admissible st.Known)) (hindices : n.captureIndices = []) :
    (st.push n).Consistent := by
  obtain ⟨hnodes, hcaptures, hnames⟩ := hst
  simp only [levels, List.forall_mem_cons] at hnodes
  refine ⟨List.forall_mem_cons.mpr ⟨?_, hnodes.2⟩, ?_, hnames⟩
  · rw [ParseState.push, Level.nodes_push, List.forall_mem_append, List.forall_mem_singleton]
    exact ⟨hnodes.1, hn⟩
  · rw [captureIndices] at hcaptures ⊢
    simp only [ParseState.push, Level.nodes_push, List.flatMap_append, List.flatMap_singleton,
      hindices, List.append_nil]
    exact hcaptures

theorem Consistent.nextArm (hst : st.Consistent) :
    Consistent { st with level := st.level.nextArm } := by
  obtain ⟨hnodes, hcaptures, hnames⟩ := hst
  simp only [levels, List.forall_mem_cons] at hnodes
  have hlevel : st.level.nextArm.nodes = st.level.arms.reverse ++ [st.level.arm] := by
    simp [Level.nextArm, Level.nodes]
  refine ⟨List.forall_mem_cons.mpr ⟨?_, hnodes.2⟩, ?_, hnames⟩
  · rw [hlevel, List.forall_mem_append, List.forall_mem_singleton]
    exact ⟨fun n hn => hnodes.1 n (List.mem_append_left _ hn),
      Node.everywhere_ofItems fun n hn => hnodes.1 n (List.mem_append_right _ hn)⟩
  · rw [captureIndices] at hcaptures ⊢
    simp only [hlevel, List.flatMap_append, List.flatMap_singleton, Level.arm,
      Node.captureIndices_ofItems]
    rwa [Level.nodes, List.flatMap_append] at hcaptures

theorem captureIndices_openGroup (st : ParseState) (o : Opener) (span : Span) :
    (st.openGroup o span).captureIndices = st.captureIndices ++ o.indices := by
  simp [captureIndices, openGroup, Level.start, Level.nodes]

theorem Consistent.openGroup (hst : st.Consistent) {o : Opener} (ho : o.indices = [])
    (span : Span) : (st.openGroup o span).Consistent := by
  obtain ⟨hnodes, hcaptures, hnames⟩ := hst
  refine ⟨List.forall_mem_cons.mpr ⟨by simp [ParseState.openGroup, Level.start, Level.nodes],
    hnodes⟩, ?_, hnames⟩
  rw [captureIndices_openGroup, ho, List.append_nil]
  exact hcaptures

theorem known_openCapture {index : Nat} {span : Span} (h : st.Known index) :
    (st.openCapture span).Known index :=
  h.imp_left (Nat.le_trans · (Nat.le_succ st.captures))

theorem Consistent.openCapture (hst : st.Consistent) (span : Span) :
    (st.openCapture span).Consistent := by
  obtain ⟨hnodes, hcaptures, hnames⟩ := hst
  refine ⟨List.forall_mem_cons.mpr ⟨by simp [ParseState.openCapture, ParseState.openGroup,
    Level.start, Level.nodes], fun l hl n hn => (hnodes l hl n hn).mono
      (Node.Admissible.mono fun _ => known_openCapture)⟩, ?_,
    fun e he => Nat.le_trans (hnames e he) (Nat.le_succ st.captures)⟩
  have hindices : (st.openCapture span).captureIndices =
      st.captureIndices ++ [st.captures + 1] :=
    captureIndices_openGroup st _ span
  rw [hindices, hcaptures, ParseState.openCapture, List.range'_1_concat, Nat.add_comm 1]

theorem Consistent.openNamed (hst : st.Consistent) (name : String) (span : Span) :
    (st.openNamed name span).Consistent := by
  obtain ⟨hnodes, hcaptures, hnames⟩ := hst.openCapture span
  refine ⟨hnodes, hcaptures, ?_⟩
  rw [ParseState.openNamed, List.forall_mem_append, List.forall_mem_singleton]
  exact ⟨hnames, Nat.le_refl _⟩

theorem Consistent.closeGroup (hst : st.Consistent) {g : OpenGroup} {outer : List OpenGroup}
    (hopen : st.openGroups = g :: outer) :
    Consistent { st with
      openGroups := outer
      level := g.outer.push (g.opener.wrap st.level.node) } := by
  obtain ⟨hnodes, hcaptures, hnames⟩ := hst
  simp only [levels, hopen, List.map_cons, List.forall_mem_cons] at hnodes
  refine ⟨List.forall_mem_cons.mpr ⟨?_, hnodes.2.2⟩, ?_, hnames⟩
  · rw [Level.nodes_push, List.forall_mem_append, List.forall_mem_singleton]
    exact ⟨hnodes.2.1, g.opener.everywhere_wrap (everywhere_node hnodes.1)⟩
  · rw [captureIndices] at hcaptures ⊢
    simp only [Level.nodes_push, List.flatMap_append, List.flatMap_singleton,
      Opener.captureIndices_wrap, Level.captureIndices_node]
    simpa only [hopen, List.reverse_cons, List.flatMap_append, List.flatMap_singleton,
      List.append_assoc] using hcaptures

/-- A reference by number may go to any group, as long as it is on record to be checked. -/
theorem Consistent.refer (hst : st.Consistent) (index : Nat) (span : Span) :
    Consistent { st with backrefs := (index, span) :: st.backrefs } := by
  obtain ⟨hnodes, hcaptures, hnames⟩ := hst
  refine ⟨fun l hl n hn => (hnodes l hl n hn).mono (Node.Admissible.mono fun i hi => ?_),
    hcaptures, hnames⟩
  exact hi.imp_right fun ⟨r, hr, heq⟩ => ⟨r, List.mem_cons_of_mem _ hr, heq⟩

theorem le_captures_of_lookup? (hst : st.Consistent) {name : String} {index : Nat}
    (h : st.lookup? name = some index) : index ≤ st.captures := by
  obtain ⟨e, he, rfl⟩ := Option.map_eq_some_iff.mp h
  exact hst.names e (List.mem_of_find?_eq_some he)

end ParseState

/-! ## What a token does -/

/-- What a token may ask for: a leaf holds no groups, and only capture groups are numbered. -/
def Action.Proper : Action → Prop
  | .leaf n => n.captureIndices = [] ∧ ∀ known, n.Everywhere (Node.Admissible known)
  | .openAs o => o.indices = []
  | _ => True

theorem Action.proper_of_role {t : Token} {a : Action} (h : t.role = .action a) : a.Proper := by
  cases t with
  | classEscape k =>
    obtain rfl := Role.action.inj h
    exact ⟨rfl, fun _ => .leaf rfl (CharClass.normal_ofRanges false [] [k])⟩
  | star | plus | question | bounds | openClass | openNegatedClass => simp [Token.role] at h
  | nonCapture | lookAhead | negLookAhead | lookBehind | negLookBehind =>
    obtain rfl := Role.action.inj h
    exact rfl
  | namedGroup | openGroup | closeGroup | pipe | backref | namedBackref =>
    obtain rfl := Role.action.inj h
    trivial
  | closeClass | brace | caret | dollar | dot | dash | assertEscape | hex | control | escaped
  | literal =>
    obtain rfl := Role.action.inj h
    exact ⟨rfl, fun _ => .leaf rfl trivial⟩

namespace ParseState

variable {st : ParseState}

theorem consistent_act (hst : st.Consistent) {a : Action} (ha : a.Proper) {span : Span}
    {next : Option Lexeme} {position : Nat} {st' : ParseState}
    (h : st.act a span next position = .ok st') : st'.Consistent := by
  cases a with
  | bar =>
    obtain rfl := Except.ok.inj h
    exact hst.nextArm
  | close =>
    simp only [act] at h
    split at h
    · simp at h
    · rename_i hopen
      obtain rfl := Except.ok.inj h
      exact hst.closeGroup hopen
  | openAs o =>
    obtain rfl := Except.ok.inj h
    exact hst.openGroup ha span
  | openCapture =>
    simp only [act] at h
    split at h
    · simp at h
    · obtain rfl := Except.ok.inj h
      exact hst.openCapture span
  | openNamed name =>
    simp only [act] at h
    split at h
    · simp at h
    · obtain rfl := Except.ok.inj h
      exact hst.openNamed name span
  | leaf n =>
    obtain rfl := Except.ok.inj h
    exact hst.push (ha.2 _) ha.1
  | reference index =>
    obtain rfl := Except.ok.inj h
    exact (hst.refer index span).push (.leaf rfl (.inr ⟨_, List.mem_cons_self, rfl⟩)) rfl
  | namedReference name =>
    simp only [act] at h
    split at h
    · rename_i index hindex
      obtain rfl := Except.ok.inj h
      exact hst.push (.leaf rfl (.inl (le_captures_of_lookup? hst hindex))) rfl
    · simp at h

theorem admissible_of_boundsFault? {min : Nat} {max : Option Nat}
    (h : boundsFault? min max = none) (body : Node) (isLazy : Bool) (known : Nat → Prop) :
    (Node.repetition body min max isLazy).Admissible known := by
  cases max with
  | none => trivial
  | some max =>
    simp only [boundsFault?, ite_eq_right_iff, reduceCtorEq, imp_false, Nat.not_lt] at h
    exact h

theorem Consistent.quantified (hst : st.Consistent) {item : Node} {items : List Node}
    (hitems : st.level.items = item :: items) {min : Nat} {max : Option Nat} {isLazy : Bool}
    (hbounds : (Node.repetition item min max isLazy).Admissible st.Known) :
    Consistent { st with
      level := { st.level with items := .repetition item min max isLazy :: items } } := by
  obtain ⟨hnodes, hcaptures, hnames⟩ := hst
  simp only [levels, List.forall_mem_cons] at hnodes
  have hlevel : st.level.nodes = (Level.nodes ⟨st.level.arms, items⟩) ++ [item] := by
    simp [Level.nodes, hitems]
  have hlevel' : Level.nodes ⟨st.level.arms, .repetition item min max isLazy :: items⟩ =
      (Level.nodes ⟨st.level.arms, items⟩) ++ [.repetition item min max isLazy] := by
    simp [Level.nodes]
  rw [hlevel, List.forall_mem_append, List.forall_mem_singleton] at hnodes
  refine ⟨List.forall_mem_cons.mpr ⟨?_, hnodes.2⟩, ?_, hnames⟩
  · rw [hlevel', List.forall_mem_append, List.forall_mem_singleton]
    exact ⟨hnodes.1.1, Node.Everywhere.repetition_iff.mpr ⟨hbounds, hnodes.1.2⟩⟩
  · rw [captureIndices, hlevel] at hcaptures
    rw [captureIndices]
    simpa only [hlevel', List.flatMap_append, List.flatMap_singleton,
      Node.captureIndices_repetition] using hcaptures

/-- A quantifier wraps the item at hand, under bounds that are in order. -/
theorem consistent_quantify (hst : st.Consistent) {min : Nat} {max : Option Nat} {isLazy : Bool}
    {span : Span} {position : Nat} {st' : ParseState}
    (h : st.quantify min max isLazy span position = .ok st') : st'.Consistent := by
  unfold quantify at h
  split at h
  · simp at h
  · rename_i item items hitems
    split at h
    · simp at h
    · rename_i hbounds
      split at h
      · simp at h
      · split at h
        · simp at h
        · obtain rfl := Except.ok.inj h
          exact hst.quantified hitems (admissible_of_boundsFault? hbounds item isLazy _)

end ParseState

/-! ## Class bodies -/

/-- A property of classes that every addition keeps. -/
structure CharClass.Kept (P : CharClass → Prop) : Prop where
  range : ∀ cls a b, P cls → P (cls.pushRange a b)
  category : ∀ cls k, P cls → P (cls.pushCategory k)

namespace ClassBody

open CharClass (Kept)

variable {P : CharClass → Prop} {cls cls' : CharClass}

theorem kept_pushAll (hP : Kept P) (hcls : P cls) (cs : List Char) : P (pushAll cls cs) := by
  induction cs generalizing cls with
  | nil => exact hcls
  | cons c cs ih => exact ih (hP.range cls c c hcls)

theorem kept_readRange (hP : Kept P) (hcls : P cls) {item dash last : Lexeme} {first : Char}
    {position : Nat} (h : readRange cls item dash last first position = .ok cls') : P cls' := by
  simp only [readRange] at h
  split at h
  · simp at h
  · split at h
    · simp at h
    · split at h
      · obtain rfl := Except.ok.inj h
        exact hP.range cls _ _ hcls
      · simp at h
    · simp at h

theorem kept_readFrom (hP : Kept P) (hcls : P cls) {item : Lexeme} {first : Char}
    {rest : List Lexeme} {position taken : Nat}
    (h : readFrom cls item first rest position = .ok (cls', taken)) : P cls' := by
  have hsingle : ∀ {taken : Nat},
      (.ok (cls.pushRange first first, 0) : Except ParseError (CharClass × Nat)) =
        .ok (cls', taken) → P cls' := fun h => by
    obtain ⟨rfl, -⟩ := Prod.mk.inj (Except.ok.inj h)
    exact hP.range cls first first hcls
  unfold readFrom at h
  split at h
  · split at h
    · split at h
      · simp at h
      · split at h
        · simp at h
        · split at h
          · simp at h
          · rename_i hrange
            obtain ⟨rfl, -⟩ := Prod.mk.inj (Except.ok.inj h)
            exact kept_readRange hP hcls hrange
    · exact hsingle h
  · exact hsingle h

theorem kept_readItem (hP : Kept P) (hcls : P cls) {item : Lexeme} {rest : List Lexeme}
    {position taken : Nat} (h : readItem cls item rest position = .ok (cls', taken)) : P cls' := by
  unfold readItem at h
  split at h
  · simp at h
  · split at h
    · rename_i k _
      obtain ⟨rfl, -⟩ := Prod.mk.inj (Except.ok.inj h)
      exact hP.category cls k hcls
    · split at h
      · simp at h
      · split at h
        · obtain ⟨rfl, -⟩ := Prod.mk.inj (Except.ok.inj h)
          exact hcls
        · exact kept_readFrom hP (kept_pushAll hP hcls _) h

/-- What every addition keeps holds of the class that is read. -/
theorem kept_read (hP : Kept P) (hcls : P cls) {opener : Span} {position : Nat} {atStart : Bool}
    {lexemes rest : List Lexeme} {position' : Nat}
    (h : read opener position atStart cls lexemes = .ok (cls', position', rest)) : P cls' := by
  fun_induction read opener position atStart cls lexemes with
  | case1 => simp at h
  | case2 =>
    obtain ⟨rfl, -⟩ := Prod.mk.inj (Except.ok.inj h)
    exact hcls
  | case3 => simp at h
  | case4 _ _ _ _ _ _ _ _ hitem ih => exact ih (kept_readItem hP hcls hitem) h

theorem kept_normal : Kept fun cls => Normal cls.ranges :=
  ⟨fun cls a b _ => cls.normal_pushRange a b, fun _ k h => CharClass.normal_pushCategory h k⟩

end ClassBody

/-! ## Whole patterns -/

theorem consistent_readLexemes {position : Nat} {st st' : ParseState} {lexemes : List Lexeme}
    (hst : st.Consistent) (h : readLexemes position st lexemes = .ok st') :
    st'.Consistent ∧ st'.openGroups = [] := by
  fun_induction readLexemes position st lexemes with
  | case1 position st hopen =>
    obtain rfl := Except.ok.inj h
    exact ⟨hst, hopen⟩
  | case2 => simp at h
  | case3 => simp at h
  | case4 _ _ _ _ _ _ _ _ hquantify ih => exact ih (ParseState.consistent_quantify hst hquantify) h
  | case5 => simp at h
  | case6 _ _ _ _ negated _ cls _ _ hread _ ih =>
    have hread := ClassBody.kept_read ClassBody.kept_normal CharRange.normal_nil hread
    have hcls : Normal (if negated then cls.negate else cls).ranges := by
      split <;> exact hread
    simp only [dite_eq_ite] at ih
    exact ih (hst.push (.leaf rfl hcls) rfl) h
  | case7 => simp at h
  | case8 _ _ _ _ _ hrole _ hact ih =>
    exact ih (ParseState.consistent_act hst (Action.proper_of_role hrole) hact) h

/-- What the parser makes sure of. -/
structure Pattern.WellRead (p : Pattern) : Prop where
  nodes : p.root.Everywhere (Node.Admissible (· ≤ p.captureCount))
  indices : p.root.captureIndices = List.range' 1 p.captureCount

theorem parseLexemes_wellRead {lexemes : List Lexeme} {p : Pattern}
    (h : parseLexemes lexemes = .ok p) : p.WellRead := by
  unfold parseLexemes at h
  split at h
  · simp at h
  · rename_i st hread
    obtain ⟨⟨hnodes, hindices, -⟩, hopen⟩ :=
      consistent_readLexemes ParseState.consistent_start hread
    split at h
    · simp at h
    · rename_i hunknown
      obtain rfl := Except.ok.inj h
      simp only [ParseState.captureIndices, hopen, List.reverse_nil, List.flatMap_nil,
        List.nil_append] at hindices
      refine ⟨?_, by rw [Level.captureIndices_node, hindices]⟩
      refine (ParseState.everywhere_node (hnodes _ List.mem_cons_self)).mono
        (Node.Admissible.mono ?_)
      -- every reference on record was found to be within the groups
      rintro index (hle | ⟨r, hr, rfl⟩)
      · exact hle
      · have hle := List.find?_eq_none.mp hunknown r (List.mem_reverse.mpr hr)
        simpa using hle

/-- Every pattern that is read from a text is well read. -/
theorem parse_wellRead {source : List Char} {p : Pattern} (h : parse source = .ok p) :
    p.WellRead := by
  unfold parse at h
  split at h
  · simp at h
  · split at h
    · simp at h
    · rename_i hlexemes
      obtain rfl := Except.ok.inj h
      exact parseLexemes_wellRead hlexemes

end PatternSampler
