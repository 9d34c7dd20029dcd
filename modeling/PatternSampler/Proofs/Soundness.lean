import Mathlib
import PatternSampler.Proofs.ParsedTree
import PatternSampler.Proofs.Simulation
/-!
# What is generated is in the language

A tree that neither asserts nor looks around writes words of its own meaning only: the copies of a
repetition are within its bounds, a reference copies what its group captured last, and a class
offers its members.  Together with what the parser makes sure of, every text that a pattern's
program generates is in the language of the pattern's tree.
-/
set_option autoImplicit false

namespace PatternSampler

/-! ## Captured texts -/

namespace Captures

variable {captures : Captures} {groups : Groups}

/-- The captured texts are those that groups hold, for the groups whose number an operand can
tell. -/
def Agrees (captures : Captures) (groups : Groups) : Prop :=
  ∀ index < 2 ^ 31, (captures.get? (Tables.indexWord index)).map String.toList = groups index

theorem agrees_nil : Agrees [] fun _ => none := fun _ _ => rfl

theorem Agrees.put (h : captures.Agrees groups) {index : Nat} (hindex : index < 2 ^ 31)
    (text : String) :
    (captures.put (Tables.indexWord index) text).Agrees
      (Function.update groups index (some text.toList)) := by
  intro other hother
  by_cases heq : other = index
  · rw [heq, get?_put_self, Function.update_self]
    rfl
  · have hne : Tables.indexWord other ≠ Tables.indexWord index := fun hword => by
      have hint := congrArg Int32.toInt hword
      rw [Tables.indexWord, Tables.indexWord, Int32.toInt_ofNat_of_lt hother,
        Int32.toInt_ofNat_of_lt hindex] at hint
      omega
    rw [get?_put_of_ne captures hne, Function.update_of_ne heq]
    exact h other hother

end Captures

/-! ## Sequences of words -/

namespace Meaning

variable {A B C : Meaning} {r : Reading}

theorem of_nothing_andThen (h : nothing.andThen A r) : A r := by
  obtain ⟨before, word, after, start, finish⟩ := r
  obtain ⟨u, v, held, hword, ⟨hu, hheld⟩, hv⟩ := h
  simp only at hword hu hheld hv
  subst hu hheld hword
  simpa using hv

theorem andThen_assoc (h : (A.andThen B).andThen C r) : A.andThen (B.andThen C) r := by
  obtain ⟨before, word, after, start, finish⟩ := r
  obtain ⟨u, w, held', hword, ⟨u', v, held, hu, ha, hb⟩, hc⟩ := h
  simp only at hword hu ha hb hc
  subst hu hword
  refine ⟨u', v ++ w, held, List.append_assoc .., ?_, v, w, held', rfl, ?_, ?_⟩
  · simpa only [List.append_assoc] using ha
  · exact hb
  · simpa only [List.append_assoc] using hc

theorem times_add {n k : Nat} (h : (A.times n).andThen (A.times k) r) : A.times (n + k) r := by
  induction n generalizing r with
  | zero =>
    rw [Nat.zero_add]
    exact of_nothing_andThen h
  | succ n ih =>
    rw [Nat.add_right_comm]
    obtain ⟨u, v, held, hword, hu, hv⟩ := andThen_assoc h
    exact ⟨u, v, held, hword, hu, ih hv⟩

end Meaning

/-! ## Writers -/

namespace Writer

/-- The writer writes words of the meaning only, wherever they stand, and the groups then hold what
it has captured. -/
def Obeys (f : Writer) (A : Meaning) : Prop :=
  ∀ (mem : Memory) (w : Written) (groups : Groups), f mem = .ok w → mem.captures.Agrees groups →
    ∃ held, w.memory.captures.Agrees held ∧
      ∀ before after, A ⟨before, w.text.toList, after, groups, held⟩

variable {f g : Writer} {A B : Meaning} {P : Char → Prop}

theorem obeys_nothing : nothing.Obeys .nothing := by
  intro mem w groups h hagrees
  obtain rfl := Except.ok.inj h
  exact ⟨groups, hagrees, fun _ _ => ⟨rfl, rfl⟩⟩

theorem obeys_char {c : Char} (hc : P c) : (text (String.singleton c)).Obeys (.one P) := by
  intro mem w groups h hagrees
  obtain rfl := Except.ok.inj h
  exact ⟨groups, hagrees, fun _ _ => ⟨c, String.toList_singleton c, hc, rfl⟩⟩

theorem obeys_pick {choices : List Char} (hP : ∀ c ∈ choices, P c) (e : GenerationError) :
    (pick choices e).Obeys (.one P) := by
  intro mem w groups h hagrees
  cases hpick : mem.rng.pick choices with
  | mk drawn rng =>
    cases drawn with
    | none => simp [pick_of_none hpick] at h
    | some c =>
      rw [pick_of_some hpick] at h
      obtain rfl := Except.ok.inj h
      exact ⟨groups, hagrees, fun _ _ =>
        ⟨c, String.toList_singleton c, hP c (Rng.pick_mem hpick), rfl⟩⟩

theorem obeys_member {cls : CharClass} {T : Membership} (hnormal : CharRange.Normal cls.ranges)
    (cfg : Config) (e : GenerationError) : (member cfg cls e).Obeys (.one (cls.Denotes T)) := by
  unfold member
  split
  · intro mem w groups h
    simp at h
  · exact obeys_pick (CharClass.denotes_of_choices? hnormal ‹_›) e

theorem Obeys.mono (h : f.Obeys A) (hAB : ∀ r, A r → B r) : f.Obeys B := by
  intro mem w groups hok hagrees
  obtain ⟨held, hheld, hreads⟩ := h mem w groups hok hagrees
  exact ⟨held, hheld, fun before after => hAB _ (hreads before after)⟩

theorem Obeys.andThen (hf : f.Obeys A) (hg : g.Obeys B) : (f.andThen g).Obeys (A.andThen B) := by
  intro mem w groups h hagrees
  cases hfirst : f mem with
  | error e => simp [andThen_of_error hfirst] at h
  | ok first =>
    rw [andThen_of_ok hfirst] at h
    split at h
    · simp at h
    · rename_i second hsecond
      obtain rfl := Except.ok.inj h
      obtain ⟨held, hheld, hA⟩ := hf _ _ _ hfirst hagrees
      obtain ⟨held', hheld', hB⟩ := hg _ _ _ hsecond hheld
      exact ⟨held', hheld', fun before after =>
        ⟨_, _, held, String.toList_append, hA before _, hB _ after⟩⟩

theorem Obeys.times (hf : f.Obeys A) (n : Nat) : (f.times n).Obeys (A.times n) := by
  induction n with
  | zero => exact obeys_nothing
  | succ n ih => exact hf.andThen ih

/-- Copies that are within the bounds together are a repetition. -/
theorem Obeys.repeated (hf : f.Obeys A) (hg : g.Obeys A) {n k min : Nat} {max : Option Nat}
    (hmin : min ≤ n + k) (hmax : ∀ m ∈ max, n + k ≤ m) :
    ((f.times n).andThen (g.times k)).Obeys (A.repeated min max) := by
  intro mem w groups h hagrees
  obtain ⟨held, hheld, hreads⟩ := ((hf.times n).andThen (hg.times k)) _ _ _ h hagrees
  exact ⟨held, hheld, fun before after =>
    ⟨n + k, hmin, hmax, Meaning.times_add (hreads before after)⟩⟩

theorem Obeys.captured (hf : f.Obeys A) {index : Nat} (hindex : index < 2 ^ 31) :
    (f.captured (Tables.indexWord index)).Obeys (A.captured index) := by
  intro mem w groups h hagrees
  unfold Writer.captured at h
  split at h
  · simp at h
  · rename_i body hbody
    obtain rfl := Except.ok.inj h
    obtain ⟨held, hheld, hreads⟩ := hf _ _ _ hbody hagrees
    exact ⟨_, hheld.put hindex body.text, fun before after => ⟨held, hreads before after, rfl⟩⟩

theorem obeys_reference {index : Nat} (hindex : index < 2 ^ 31) (e : GenerationError) :
    (reference (Tables.indexWord index) e).Obeys (.reference index) := by
  intro mem w groups h hagrees
  unfold reference at h
  split at h
  · simp at h
  · rename_i s hs
    obtain rfl := Except.ok.inj h
    have hheld := hagrees index hindex
    rw [hs] at hheld
    exact ⟨groups, hagrees, fun _ _ => ⟨hheld.symm, rfl⟩⟩

end Writer

/-! ## Trees -/

namespace Node

/-- What a node has to keep to for its texts to be words of its meaning: counts and numbers that
operands can tell, classes that offer members only, and no condition on what stands around it. -/
def Regular : Node → Prop
  | .charClass cls => CharRange.Normal cls.ranges
  | .alternate arms => arms ≠ []
  | .repetition _ min max _ => min ≤ 2147483647 ∧ ∀ m ∈ max, min ≤ m
  | .capture index _ | .backref index => index < 2 ^ 31
  | .assert _ | .lookAround .. => False
  | _ => True

variable {options : PatternOptions} {cfg : Config} {T : Membership}

theorem le_copies {min : Nat} (hmin : min ≤ 2147483647) (max : Option Nat) (isLazy : Bool) :
    min ≤ mandatoryCopies min + optionalCopies cfg min max isLazy := by
  have hmandatory : mandatoryCopies min = min := Nat.min_eq_left hmin
  omega

theorem copies_le {min max : Nat} (hmax : min ≤ max) (isLazy : Bool) :
    mandatoryCopies min + optionalCopies cfg min (some max) isLazy ≤ max := by
  have hmandatory : mandatoryCopies min ≤ min := Nat.min_le_left ..
  have hoptional : optionalCopies cfg min (some max) isLazy ≤ max - min := by
    simp only [optionalCopies]
    split
    · exact Nat.zero_le _
    · exact Nat.min_le_left ..
  omega

theorem obeys_sampleItems {items : List Node}
    (h : ∀ item ∈ items, ∀ place, (item.sample options cfg place).Obeys (item.meaning T options))
    (a : Nat) (inRun : Bool) :
    (sampleItems options cfg a inRun items).Obeys (meaningOfItems T options items) := by
  induction items generalizing a inRun with
  | nil => exact Writer.obeys_nothing
  | cons item rest ih =>
    obtain ⟨hitem, hrest⟩ := List.forall_mem_cons.mp h
    exact (hitem (.at_ a)).andThen (ih hrest _ _)

theorem obeys_sampleFirst {arms : List Node} (hne : arms ≠ [])
    (h : ∀ arm ∈ arms, ∀ place, (arm.sample options cfg place).Obeys (arm.meaning T options))
    (a : Nat) : (sampleFirst options cfg a arms).Obeys (meaningOfArms T options arms) := by
  match arms with
  | [] => exact absurd rfl hne
  | [arm] => exact (h arm List.mem_cons_self _).mono fun _ => .inl
  | arm :: _ :: _ => exact (h arm List.mem_cons_self _).mono fun _ => .inl

/-- A regular tree writes words of its meaning only. -/
theorem obeys_sample {n : Node} (h : n.Everywhere Regular) (place : Place) :
    (n.sample options cfg place).Obeys (n.meaning T options) := by
  induction n using inductionOn generalizing place with
  | empty => exact Writer.obeys_nothing
  | char c => exact Writer.obeys_char rfl
  | any =>
    rw [sample, meaning]
    split
    · rename_i hdot
      have hany := @Writer.obeys_member .any T (CharClass.normal_ofRanges _ _ _) cfg
        (place.noChoice .set)
      apply hany.mono
      rintro r ⟨c, hword, -, hfinish⟩
      exact ⟨c, hword, .inl hdot, hfinish⟩
    · have hother := @Writer.obeys_member (.notChar '\n') T (CharClass.normal_ofRanges _ _ _) cfg
        (place.noChoice .notOne)
      apply hother.mono
      rintro r ⟨c, hword, hc, hfinish⟩
      exact ⟨c, hword, .inr (CharClass.denotes_notChar.mp hc), hfinish⟩
  | charClass cls => exact Writer.obeys_member h.self cfg _
  | concat items ih =>
    have hitems := (Everywhere.concat_iff.mp h).2
    exact obeys_sampleItems (fun item hitem place => ih item hitem (hitems item hitem) place) _ _
  | alternate arms ih =>
    obtain ⟨hne, harms⟩ := Everywhere.alternate_iff.mp h
    exact obeys_sampleFirst hne (fun arm harm place => ih arm harm (harms arm harm) place) _
  | group body ih => exact ih (Everywhere.group_iff.mp h).2 place
  | capture index body ih =>
    obtain ⟨hindex, hbody⟩ := Everywhere.capture_iff.mp h
    exact (ih hbody _).captured hindex
  | repetition body min max isLazy ih =>
    obtain ⟨⟨hmin, hmax⟩, hbody⟩ := Everywhere.repetition_iff.mp h
    refine (ih hbody _).repeated (ih hbody _) (le_copies hmin max isLazy) ?_
    rintro m rfl
    exact copies_le (hmax m rfl) isLazy
  | backref index => exact Writer.obeys_reference h.self _
  | assert anchor => exact h.self.elim
  | lookAround body negative behind => exact h.self.elim

/-! ## Anchors at the ends -/

/-- The node is neither an assertion nor a lookaround. -/
def IsText : Node → Prop
  | .assert _ | .lookAround .. => False
  | _ => True

instance : DecidablePred IsText := fun n =>
  match n with
  | .assert _ | .lookAround .. => .isFalse id
  | .empty | .char _ | .any | .charClass _ | .concat _ | .alternate _ | .group _ | .capture _ _
  | .repetition .. | .backref _ => .isTrue trivial

/-- The anchors that a sequence at the top may begin with. -/
def openings : List (List Anchor) := [[], [.lineStart], [.textStart]]

/-- The anchors that a sequence at the top may end with. -/
def closings : List (List Anchor) := [[], [.lineEnd], [.textEnd], [.textEndNewline]]

/-- A sequence with anchors around it. -/
def anchored (opening : List Anchor) (items : List Node) (closing : List Anchor) : List Node :=
  opening.map assert ++ items ++ closing.map assert

/-- A tree without assertions and lookarounds, except that a sequence at the top may begin with an
anchor for the start and end with one for the end. -/
inductive TextBetweenAnchors : Node → Prop where
  | text {n : Node} : n.Everywhere IsText → TextBetweenAnchors n
  | anchored {opening closing : List Anchor} {items : List Node} :
    opening ∈ openings → closing ∈ closings → (∀ item ∈ items, item.Everywhere IsText) →
    TextBetweenAnchors (.concat (anchored opening items closing))

/-- Assertions other than those about words write nothing. -/
theorem sample_assert {anchor : Anchor} (hb : anchor ≠ .wordBoundary)
    (hn : anchor ≠ .notWordBoundary) (place : Place) :
    (Node.assert anchor).sample options cfg place = .nothing := by
  cases anchor <;> first | rfl | contradiction

/-- A sequence may start with an assertion that holds there. -/
theorem meaningOfItems_assert {anchor : Anchor} {items : List Node} {r : Reading}
    (h : meaningOfItems T options items r)
    (hholds : anchor.Holds T options r.before (r.word ++ r.after)) :
    meaningOfItems T options (.assert anchor :: items) r := by
  refine ⟨[], r.word, r.start, rfl, ⟨rfl, rfl, hholds⟩, ?_⟩
  simpa using h

/-- A sequence may end with an assertion that holds there. -/
theorem meaningOfItems_append_assert {anchor : Anchor} {items : List Node} {r : Reading}
    (h : meaningOfItems T options items r)
    (hholds : anchor.Holds T options (r.before ++ r.word) r.after) :
    meaningOfItems T options (items ++ [.assert anchor]) r := by
  induction items generalizing r with
  | nil =>
    obtain ⟨before, word, after, start, finish⟩ := r
    obtain ⟨hword, hfinish⟩ := h
    simp only at hword hfinish hholds
    subst hword hfinish
    rw [List.append_nil] at hholds
    exact ⟨[], [], _, rfl, ⟨rfl, rfl, hholds⟩, by simp [meaningOfItems, Meaning.nothing]⟩
  | cons item rest ih =>
    obtain ⟨u, v, held, hword, hitem, hrest⟩ := h
    refine ⟨u, v, held, hword, hitem, ih hrest ?_⟩
    rwa [List.append_assoc, ← hword]

theorem sampleItems_assert {anchor : Anchor} (hb : anchor ≠ .wordBoundary)
    (hn : anchor ≠ .notWordBoundary) (items : List Node) (a : Nat) (inRun : Bool) :
    sampleItems options cfg a inRun (.assert anchor :: items) =
      sampleItems options cfg (a + 1) false items := by
  rw [sampleItems, sample_assert hb hn, Writer.nothing_andThen]
  simp [Layout.isChar, Layout.width]

theorem sampleItems_append_assert {anchor : Anchor} (hb : anchor ≠ .wordBoundary)
    (hn : anchor ≠ .notWordBoundary) (items : List Node) (a : Nat) (inRun : Bool) :
    sampleItems options cfg a inRun (items ++ [.assert anchor]) =
      sampleItems options cfg a inRun items := by
  induction items generalizing a inRun with
  | nil => rw [List.nil_append, sampleItems_assert hb hn, sampleItems, sampleItems]
  | cons item rest ih => rw [List.cons_append, sampleItems, ih, sampleItems]

/-- The text of a tree is a word of whatever meaning its writer obeys. -/
theorem exists_held_of_sampled {n : Node} {A : Meaning} {out : String}
    (hA : (n.sample options cfg (.at_ 3)).Obeys A) (h : n.sampled options cfg = .ok out) :
    ∃ held, A ⟨[], out.toList, [], fun _ => none, held⟩ := by
  unfold sampled at h
  split at h
  · simp at h
  · rename_i w hw
    obtain rfl := Except.ok.inj h
    obtain ⟨held, -, hreads⟩ := hA _ w _ hw Captures.agrees_nil
    exact ⟨held, hreads [] []⟩

variable {opening closing : List Anchor} {items : List Node}

/-- Anchors at the ends of a sequence write nothing. -/
theorem exists_sampleItems_anchored (hopening : opening ∈ openings) (hclosing : closing ∈ closings)
    (a : Nat) (inRun : Bool) : ∃ a' inRun',
      sampleItems options cfg a inRun (anchored opening items closing) =
        sampleItems options cfg a' inRun' items := by
  have hclosed : ∀ a inRun, sampleItems options cfg a inRun (items ++ closing.map assert) =
      sampleItems options cfg a inRun items := by
    intro a inRun
    simp only [closings, List.mem_cons, List.not_mem_nil, or_false] at hclosing
    rcases hclosing with rfl | rfl | rfl | rfl
    · rw [List.map_nil, List.append_nil]
    all_goals exact sampleItems_append_assert (by simp) (by simp) items a inRun
  rw [anchored, List.append_assoc]
  simp only [openings, List.mem_cons, List.not_mem_nil, or_false] at hopening
  rcases hopening with rfl | rfl | rfl
  · exact ⟨a, inRun, hclosed a inRun⟩
  all_goals exact ⟨a + 1, false, (sampleItems_assert (by simp) (by simp) _ a inRun).trans
    (hclosed _ _)⟩

/-- Anchors at the ends of a sequence hold around the whole text. -/
theorem meaningOfItems_anchored (hopening : opening ∈ openings) (hclosing : closing ∈ closings)
    {word : List Char} {start finish : Groups}
    (h : meaningOfItems T options items ⟨[], word, [], start, finish⟩) :
    meaningOfItems T options (anchored opening items closing) ⟨[], word, [], start, finish⟩ := by
  have hclosed : meaningOfItems T options (items ++ closing.map assert)
      ⟨[], word, [], start, finish⟩ := by
    simp only [closings, List.mem_cons, List.not_mem_nil, or_false] at hclosing
    rcases hclosing with rfl | rfl | rfl | rfl
    · rwa [List.map_nil, List.append_nil]
    all_goals exact meaningOfItems_append_assert h (by simp [Anchor.Holds])
  rw [anchored, List.append_assoc]
  simp only [openings, List.mem_cons, List.not_mem_nil, or_false] at hopening
  rcases hopening with rfl | rfl | rfl
  · exact hclosed
  all_goals exact meaningOfItems_assert hclosed (by simp [Anchor.Holds])

theorem language_of_regular {n : Node} (hn : n.Everywhere Regular) {out : String}
    (h : n.sampled options cfg = .ok out) : n.Language T options out.toList :=
  exists_held_of_sampled (obeys_sample hn _) h

theorem language_of_anchored (hopening : opening ∈ openings) (hclosing : closing ∈ closings)
    (hitems : ∀ item ∈ items, item.Everywhere Regular) {out : String}
    (h : (concat (anchored opening items closing)).sampled options cfg = .ok out) :
    (concat (anchored opening items closing)).Language T options out.toList := by
  have hobeys : ((concat (anchored opening items closing)).sample options cfg (.at_ 3)).Obeys
      (meaningOfItems T options items) := by
    obtain ⟨a, inRun, heq⟩ :=
      @exists_sampleItems_anchored options cfg _ _ items hopening hclosing 3 false
    rw [sample, Place.at_, heq]
    exact obeys_sampleItems (fun item hitem => obeys_sample (hitems item hitem)) a inRun
  obtain ⟨held, hreads⟩ := exists_held_of_sampled hobeys h
  refine ⟨held, ?_⟩
  rw [meaning]
  exact meaningOfItems_anchored hopening hclosing hreads

/-! ## Numbers of groups -/

theorem captureIndices_of_single {n : Node} {s : Layout.Single}
    (h : Layout.single? options n = some s) : n.captureIndices = [] := by
  induction n using inductionOn with
  | char | any | charClass => rfl
  | group body ih => rw [captureIndices_group, ih h]
  | _ => simp [Layout.single?] at h

theorem captures_le_itemsWidth {items : List Node}
    (h : ∀ item ∈ items, 4 * item.captureIndices.length ≤ Layout.width options item)
    (inRun : Bool) :
    4 * (items.flatMap captureIndices).length ≤ Layout.itemsWidth options inRun items := by
  induction items generalizing inRun with
  | nil => exact Nat.zero_le _
  | cons item rest ih =>
    obtain ⟨hitem, hrest⟩ := List.forall_mem_cons.mp h
    have hrest := ih hrest (Layout.isChar item)
    rw [List.flatMap_cons, List.length_append, Layout.itemsWidth]
    split
    · rename_i hchar
      obtain ⟨c, rfl⟩ := Layout.exists_char_of_isChar (Bool.and_eq_true_iff.mp hchar).2
      rw [show (char c).captureIndices = [] from rfl, List.length_nil]
      omega
    · omega

theorem captures_le_choiceWidth {arms : List Node}
    (h : ∀ arm ∈ arms, 4 * arm.captureIndices.length ≤ Layout.width options arm) :
    4 * (arms.flatMap captureIndices).length ≤ Layout.choiceWidth options arms := by
  induction arms with
  | nil => exact Nat.zero_le _
  | cons arm rest ih =>
    obtain ⟨harm, hrest⟩ := List.forall_mem_cons.mp h
    have hrest := ih hrest
    rw [List.flatMap_cons, List.length_append]
    cases rest with
    | nil => simpa [Layout.choiceWidth] using harm
    | cons next rest =>
      rw [Layout.choiceWidth]
      omega

/-- Every capture group takes four words of its own. -/
theorem captures_le_width (n : Node) :
    4 * n.captureIndices.length ≤ Layout.width options n := by
  induction n using inductionOn with
  | concat items ih =>
    rw [captureIndices_concat, Layout.width]
    exact captures_le_itemsWidth ih false
  | alternate arms ih =>
    rw [captureIndices_alternate, Layout.width]
    exact captures_le_choiceWidth ih
  | group body ih => rwa [captureIndices_group, Layout.width]
  | capture index body ih =>
    rw [captureIndices_capture, Layout.width, List.length_cons]
    omega
  | repetition body min max isLazy ih =>
    rw [captureIndices_repetition, Layout.width]
    split
    · rename_i hsingle
      obtain ⟨s, hs⟩ := Option.isSome_iff_exists.mp hsingle
      rw [captureIndices_of_single hs]
      exact Nat.zero_le _
    · omega
  | lookAround body negative behind ih =>
    rw [captureIndices_lookAround, Layout.width]
    omega
  | _ => exact Nat.zero_le _

/-- The repetition asks for no more copies than an operand can tell. -/
def MinimumFits : Node → Prop
  | .repetition _ min _ _ => min ≤ 2147483647
  | _ => True

instance : DecidablePred MinimumFits := fun n =>
  match n with
  | .repetition _ min _ _ => inferInstanceAs (Decidable (min ≤ 2147483647))
  | .empty | .char _ | .any | .charClass _ | .concat _ | .alternate _ | .group _ | .capture _ _
  | .backref _ | .assert _ | .lookAround .. => .isTrue trivial

end Node

/-- A tree that comes from a text is regular wherever it neither asserts nor looks around. -/
theorem Pattern.WellRead.regular {p : Pattern} (h : p.WellRead) {options : PatternOptions}
    (hfits : (Layout.layoutRoot options p.root).Fits) (hmin : p.root.Everywhere Node.MinimumFits) :
    ∀ m ∈ p.root.subnodes, m.IsText → m.Regular := by
  have hcount : p.captureCount < 2 ^ 31 := by
    have hle := @Node.captures_le_width options p.root
    have hsize := hfits.words
    rw [h.indices, List.length_range'] at hle
    rw [Layout.size_layoutRoot] at hsize
    omega
  intro m hm htext
  have hadmissible := h.nodes m hm
  have hminimum := hmin m hm
  cases m with
  | charClass cls => exact hadmissible
  | alternate arms =>
    rintro rfl
    simp [Node.Admissible] at hadmissible
  | repetition body min max isLazy =>
    refine ⟨hminimum, ?_⟩
    rintro max rfl
    exact hadmissible
  | capture index body =>
    have hindex : index ∈ p.root.captureIndices := List.mem_filterMap.mpr ⟨_, hm, rfl⟩
    rw [h.indices, List.mem_range'_1] at hindex
    exact Nat.lt_of_le_of_lt (by omega) hcount
  | backref index => exact Nat.lt_of_le_of_lt hadmissible hcount
  | assert | lookAround => exact htext
  | _ => trivial

/-! ## Programs -/

/-- Every text that a pattern's program generates is in the language of the pattern's tree,
whatever the options, the configuration and the sets that the categories stand for. -/
theorem Program.generate_mem_language (T : Membership) (options : PatternOptions) (cfg : Config)
    {source : List Char} {pattern : Pattern} {p : Program} {fuel : Nat} {out : String}
    (hparse : parse source = .ok pattern) (hshape : pattern.root.TextBetweenAnchors)
    (hmin : pattern.root.Everywhere Node.MinimumFits)
    (hfits : (Layout.layoutRoot options pattern.root).Fits)
    (hp : Program.ofSource options source = .ok p) (h : p.generate cfg fuel = some (.ok out)) :
    pattern.root.Language T options out.toList := by
  have hregular := (parse_wellRead hparse).regular hfits hmin
  have hsampled : pattern.root.sampled options cfg = .ok out := by
    obtain ⟨q, hq, hcode⟩ := Program.exists_ofNode hfits
    obtain rfl := Except.ok.inj (hp.symm.trans (Program.ofSource_eq_ofNode hparse hq))
    exact (Program.eq_sampled_of_generate hcode hfits h).symm
  obtain ⟨root, captureCount, names⟩ := pattern
  simp only at hshape hregular hsampled ⊢
  cases hshape with
  | text htext => exact Node.language_of_regular (fun m hm => hregular m hm (htext m hm)) hsampled
  | @anchored opening closing items hopening hclosing hitems =>
    refine Node.language_of_anchored hopening hclosing (fun item hitem m hm => ?_) hsampled
    refine hregular m ?_ (hitems item hitem m hm)
    rw [Node.subnodes, List.mem_cons, Node.mem_subnodesOf]
    exact .inr ⟨item, List.mem_append_left _ (List.mem_append_right _ hitem), hm⟩

/-- A loop that captures a group anew with each copy, a repetition with an optional copy and a
reference, between two anchors. -/
def Node.dashedTree : Node :=
  .concat [.assert .lineStart,
    .repetition (.group (.concat [.capture 1 (.charClass (.ofCategory .notDigit)), .char '-'])) 2
      (some 2) false,
    .repetition .any 0 (some 1) false, .backref 1, .assert .lineEnd]

/-- The pattern that spells it. -/
def Node.dashedSource : List Char := "^(?:(\\D)-)\x7b2\x7d.?\\1$".toList

theorem Program.generate_mem_language_dashedTree :
    parse Node.dashedSource = .ok ⟨Node.dashedTree, 1, []⟩ ∧
      ∃ p fuel, Program.ofSource .default Node.dashedSource = .ok p ∧
        p.generate .default fuel = some (.ok "H-a-6a") ∧
        Node.dashedTree.Language .least .default "H-a-6a".toList := by
  have hparse : parse Node.dashedSource = .ok ⟨Node.dashedTree, 1, []⟩ := by cbv
  have hshape : Node.dashedTree.TextBetweenAnchors :=
    @Node.TextBetweenAnchors.anchored [.lineStart] [.lineEnd] [_, _, _] (by simp [Node.openings])
      (by simp [Node.closings]) (by decide)
  have hfits : (Layout.layoutRoot .default Node.dashedTree).Fits :=
    ⟨by decide, by decide, by decide⟩
  have hsampled : Node.dashedTree.sampled .default .default = .ok "H-a-6a" := by cbv
  obtain ⟨p, hp, hcode⟩ := Program.exists_ofNode hfits
  have hsource := Program.ofSource_eq_ofNode hparse hp
  obtain ⟨steps, hsteps⟩ := @Program.generate_of_layoutRoot _ .default _ _ hcode hfits
  have hgenerate := hsteps steps (Nat.le_refl steps)
  rw [hsampled] at hgenerate
  exact ⟨hparse, p, steps, hsource, hgenerate, Program.generate_mem_language .least .default
    .default hparse hshape (by decide) hfits hsource hgenerate⟩

end PatternSampler
