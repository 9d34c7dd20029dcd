import PatternSampler.Generation.Marks
/-!
# Marks as places in one text

Marks keep the text in pieces, one for each open group, and move a piece whenever a group is
opened or closed.  A `Transcript` says the same with one text that only grows and the places in it
where groups were opened and closed.  Main statement: `marks_eq_transcript`, after any operations
the marks hold the text, the open groups and the captured pieces of the transcript.
-/
set_option autoImplicit false

namespace PatternSampler

/-! ## Operations -/

/-- What can be done to marks. -/
inductive MarkOp where
  | writeChar (c : Char)
  | write (text : String)
  | push
  | pop (group : Option Int32)
  deriving DecidableEq, Repr

namespace MarkOp

/-- The text that an operation adds. -/
def written : MarkOp → List Char
  | writeChar c => [c]
  | write text => text.toList
  | push | pop _ => []

/-- The marks after an operation; `none` if it fails. -/
def perform? (m : Marks) : MarkOp → Option Marks
  | writeChar c => some (m.writeChar c)
  | write text => some (m.write text)
  | push => some m.push
  | pop group => m.pop? group

/-- The marks after an operation, of which nothing remains if it fails. -/
def perform (m : Marks) (op : MarkOp) : Marks := (op.perform? m).getD m

end MarkOp

/-- The marks after some operations on new ones. -/
def Marks.after (ops : List MarkOp) : Marks := ops.foldl MarkOp.perform .empty

/-! ## Transcripts -/

/-- A group with a number that has been closed, and where its text lies. -/
structure Closing where
  group : Int32
  start : Nat
  stop : Nat
  deriving DecidableEq, Repr

/-- A text that only grows, and places in it. -/
structure Transcript where
  text : List Char
  /-- where the open groups start, innermost first -/
  openings : List Nat
  /-- the groups closed under a number, latest first -/
  closings : List Closing
  deriving DecidableEq, Repr

namespace Transcript

/-- No text and no group. -/
def empty : Transcript := ⟨[], [], []⟩

/-- Takes an operation down.  To close a group where none is open leaves no trace. -/
def record (t : Transcript) (op : MarkOp) : Transcript :=
  match op with
  | .writeChar _ | .write _ => { t with text := t.text ++ op.written }
  | .push => { t with openings := t.text.length :: t.openings }
  | .pop group =>
    match t.openings with
    | [] => t
    | start :: openings =>
      { t with
        openings
        closings := match group with
          | some g => ⟨g, start, t.text.length⟩ :: t.closings
          | none => t.closings }

/-- The transcript of some operations. -/
def of (ops : List MarkOp) : Transcript := ops.foldl record empty

/-- The piece of the text that lies between two places. -/
def between (t : Transcript) (start stop : Nat) : List Char := (t.text.take stop).drop start

/-- The piece of the text that belongs to the group closed last under a number. -/
def piece? (t : Transcript) (group : Int32) : Option (List Char) :=
  (t.closings.find? (·.group == group)).map fun c => t.between c.start c.stop

/-- The text is all that was written, in order. -/
theorem text_record (t : Transcript) (op : MarkOp) :
    (t.record op).text = t.text ++ op.written := by
  cases op with
  | writeChar | write => rfl
  | push => exact (List.append_nil t.text).symm
  | pop group =>
    rw [MarkOp.written, List.append_nil]
    simp only [record]
    split <;> rfl

theorem text_foldl (t : Transcript) (ops : List MarkOp) :
    (ops.foldl record t).text = t.text ++ ops.flatMap MarkOp.written := by
  induction ops generalizing t with
  | nil => exact (List.append_nil t.text).symm
  | cons op ops ih => rw [List.foldl_cons, ih, text_record, List.flatMap_cons, List.append_assoc]

/-! ## Marks that follow a transcript -/

/-- The outer segments stand one after the other in the text before the current one, and each open
group starts where the next segment does. -/
inductive Nested : List String → List Nat → List Char → Prop where
  | nil : Nested [] [] []
  | cons {parent : String} {outer : List String} {openings : List Nat} {before : List Char}
      (h : Nested outer openings before) :
      Nested (parent :: outer) ((before ++ parent.toList).length :: openings)
        (before ++ parent.toList)

/-- The marks hold what the transcript says. -/
structure Follows (m : Marks) (t : Transcript) : Prop where
  segments : ∃ before, Nested m.outer t.openings before ∧ t.text = before ++ m.current.toList
  captures : ∀ group, (m.capture? group).map String.toList = t.piece? group
  /-- no group was closed beyond the text, so that more text leaves its piece alone -/
  closed : ∀ c ∈ t.closings, c.stop ≤ t.text.length

theorem follows_empty : Follows .empty empty where
  segments := ⟨[], .nil, rfl⟩
  captures _ := rfl
  closed := by simp [empty]

variable {m : Marks} {t : Transcript}

theorem Nested.outer_eq_nil_iff {outer : List String} {openings : List Nat} {before : List Char}
    (h : Nested outer openings before) : outer = [] ↔ openings = [] := by
  cases h <;> simp

theorem Follows.outer_eq_nil_iff (h : Follows m t) : m.outer = [] ↔ t.openings = [] := by
  obtain ⟨before, hnested, -⟩ := h.segments
  exact hnested.outer_eq_nil_iff

/-- A piece stays what it is when text is added. -/
theorem piece?_append (h : ∀ c ∈ t.closings, c.stop ≤ t.text.length) (more : List Char)
    (group : Int32) : { t with text := t.text ++ more }.piece? group = t.piece? group := by
  refine Option.map_congr fun c hc => ?_
  rw [between, between, List.take_append_of_le_length (h c (List.mem_of_find?_eq_some hc))]

theorem Follows.write (h : Follows m t) {m' : Marks} {more : List Char}
    (hcurrent : m'.current.toList = m.current.toList ++ more) (houter : m'.outer = m.outer)
    (hcaptures : m'.captures = m.captures) : Follows m' { t with text := t.text ++ more } where
  segments := by
    obtain ⟨before, hnested, htext⟩ := h.segments
    exact ⟨before, houter ▸ hnested, by rw [hcurrent, htext, List.append_assoc]⟩
  captures group := by
    rw [piece?_append h.closed, ← h.captures group, Marks.capture?, Marks.capture?, hcaptures]
  closed c hc := by
    rw [List.length_append]
    exact Nat.le_add_right_of_le (h.closed c hc)

theorem Follows.push (h : Follows m t) :
    Follows m.push { t with openings := t.text.length :: t.openings } where
  segments := by
    obtain ⟨before, hnested, htext⟩ := h.segments
    refine ⟨t.text, ?_, by simp [Marks.push]⟩
    rw [htext]
    exact hnested.cons
  captures := h.captures
  closed := h.closed

/-- The current segment is the piece from where the innermost group starts to the end. -/
theorem between_length {before : List Char} {current : String}
    (htext : t.text = before ++ current.toList) :
    t.between before.length t.text.length = current.toList := by
  rw [between, List.take_length, htext, List.drop_left]

/-- A group that closes under no number leaves the pieces alone. -/
theorem Follows.pop (h : Follows m t) {parent : String} {outer : List String} {start : Nat}
    {openings : List Nat} (houter : m.outer = parent :: outer)
    (hopenings : t.openings = start :: openings) :
    Follows ⟨parent ++ m.current, outer, m.captures⟩ { t with openings } ∧
      t.between start t.text.length = m.current.toList := by
  obtain ⟨before, hnested, htext⟩ := h.segments
  rw [houter, hopenings] at hnested
  cases hnested with
  | cons hnested =>
    refine ⟨⟨⟨_, hnested, ?_⟩, h.captures, h.closed⟩, between_length htext⟩
    rw [htext, String.toList_append, List.append_assoc]

/-- A group that closes under a number leaves its piece under it, and the other pieces alone. -/
theorem Follows.capture (h : Follows m t) {start : Nat} {segment : String} {group : Int32}
    (hpiece : t.between start t.text.length = segment.toList) :
    Follows { m with captures := m.captures.put group segment }
      { t with closings := ⟨group, start, t.text.length⟩ :: t.closings } where
  segments := h.segments
  captures g := by
    by_cases hg : g = group
    · subst hg
      rw [Marks.capture?, Captures.get?_put_self, piece?, List.find?_cons_of_pos (by simp)]
      exact congrArg some hpiece.symm
    · rw [Marks.capture?, Captures.get?_put_of_ne _ hg, piece?,
        List.find?_cons_of_neg (by simpa using Ne.symm hg)]
      exact h.captures g
  closed := List.forall_mem_cons.mpr ⟨Nat.le_refl _, h.closed⟩

/-- Marks that follow a transcript do so after one more operation. -/
theorem Follows.record (h : Follows m t) (op : MarkOp) : Follows (op.perform m) (t.record op) := by
  cases op with
  | writeChar c => exact h.write (String.toList_push c) rfl rfl
  | write text => exact h.write String.toList_append rfl rfl
  | push => exact h.push
  | pop group =>
    have hiff := h.outer_eq_nil_iff
    simp only [MarkOp.perform, MarkOp.perform?, Marks.pop?, Transcript.record]
    cases houter : m.outer with
    | nil =>
      rw [hiff.mp houter]
      exact h
    | cons parent outer =>
      obtain ⟨start, openings, hopenings⟩ :=
        List.exists_cons_of_ne_nil fun hnil => List.cons_ne_nil _ _ (houter ▸ hiff.mpr hnil)
      -- to remember the piece is a second step, after the segments are joined
      obtain ⟨hpop, hpiece⟩ := h.pop houter hopenings
      rw [hopenings]
      cases group with
      | none => exact hpop
      | some g => exact hpop.capture hpiece

theorem Follows.foldl (h : Follows m t) (ops : List MarkOp) :
    Follows (ops.foldl MarkOp.perform m) (ops.foldl Transcript.record t) := by
  induction ops generalizing m t with
  | nil => exact h
  | cons op ops ih => exact ih (h.record op)

/-! ## What the marks hold -/

theorem Nested.toList_finish {outer : List String} {openings : List Nat} {before : List Char}
    (h : Nested outer openings before) (current : String) :
    (outer.foldl (fun inner parent => parent ++ inner) current).toList =
      before ++ current.toList := by
  induction h generalizing current with
  | nil => rfl
  | cons _ ih => rw [List.foldl_cons, ih, String.toList_append, List.append_assoc]

theorem Follows.toList_finish (h : Follows m t) : m.finish.toList = t.text := by
  obtain ⟨before, hnested, htext⟩ := h.segments
  rw [htext]
  exact hnested.toList_finish m.current

theorem follows_of (ops : List MarkOp) : Follows (.after ops) (of ops) :=
  follows_empty.foldl ops

end Transcript

namespace Marks

theorem pop?_eq_none_iff (m : Marks) (group : Option Int32) : m.pop? group = none ↔ m.outer = [] := by
  unfold pop?
  split <;> simp_all

/-- Only an operation that closes a group under a number changes what the number captures. -/
theorem capture?_perform (m : Marks) {op : MarkOp} {group : Int32} (h : op ≠ .pop (some group)) :
    (op.perform m).capture? group = m.capture? group := by
  cases op with
  | writeChar | write | push => rfl
  | pop closed =>
    cases hpop : m.pop? closed with
    | none => simp only [MarkOp.perform, MarkOp.perform?, hpop, Option.getD_none]
    | some m' =>
      simp only [MarkOp.perform, MarkOp.perform?, hpop, Option.getD_some]
      unfold pop? at hpop
      split at hpop
      · simp at hpop
      · obtain rfl := Option.some.inj hpop
        cases closed with
        | none => rfl
        | some g =>
          have hne : group ≠ g := by
            rintro rfl
            exact h rfl
          exact Captures.get?_put_of_ne _ hne _

theorem capture?_foldl (m : Marks) {group : Int32} {ops : List MarkOp}
    (h : ∀ op ∈ ops, op ≠ .pop (some group)) :
    (ops.foldl MarkOp.perform m).capture? group = m.capture? group := by
  induction ops generalizing m with
  | nil => rfl
  | cons op ops ih =>
    obtain ⟨hop, hops⟩ := List.forall_mem_cons.mp h
    rw [List.foldl_cons, ih _ hops, capture?_perform m hop]

/-- After any operations on new marks a group can be closed unless none is open, and to try it then
changes nothing.  The text is all that was written, in order.  What a number captures is the piece
of that text from where the group closed last under it was opened to where it was closed, if there
was such a group, and no operation but a closing under the same number changes it. -/
theorem marks_eq_transcript (ops : List MarkOp) :
    (∀ group, (after ops).pop? group = none ↔ (Transcript.of ops).openings = []) ∧
    (∀ group, (after ops).pop? group = none → after (ops ++ [.pop group]) = after ops) ∧
    (after ops).finish.toList = ops.flatMap MarkOp.written ∧
    (Transcript.of ops).text = ops.flatMap MarkOp.written ∧
    (∀ group, ((after ops).capture? group).map String.toList =
      (Transcript.of ops).piece? group) ∧
    ∀ group later, (∀ op ∈ later, op ≠ .pop (some group)) →
      (after (ops ++ later)).capture? group = (after ops).capture? group := by
  have hfollows := Transcript.follows_of ops
  have htext : (Transcript.of ops).text = ops.flatMap MarkOp.written := Transcript.text_foldl _ ops
  refine ⟨fun group => ?_, fun group hnone => ?_, ?_, htext, hfollows.captures,
    fun group later hlater => ?_⟩
  · rw [pop?_eq_none_iff, hfollows.outer_eq_nil_iff]
  · have hperform : (MarkOp.pop group).perform (after ops) = after ops := by
      rw [MarkOp.perform, MarkOp.perform?, hnone, Option.getD_none]
    rw [after, List.foldl_append]
    exact hperform
  · rw [hfollows.toList_finish, htext]
  · rw [after, List.foldl_append]
    exact capture?_foldl _ hlater

/-- A group is closed twice under the same number, within another one, and then there is one closing
too many. -/
def nestedOps : List MarkOp :=
  [.write "x", .push, .push, .writeChar 'a', .pop (some 1), .push, .write "bc", .pop (some 1),
    .pop (some 2), .pop none, .write "d"]

/-- The number captures the piece between the latest opening and closing, and still does when
another group is opened and closed. -/
theorem marks_eq_transcript_nestedOps :
    (after nestedOps).pop? none = none ∧
    after (nestedOps ++ [.pop none]) = after nestedOps ∧
    (after nestedOps).finish.toList = "xabcd".toList ∧
    ((after nestedOps).capture? 1).map String.toList = some "bc".toList ∧
    ((after nestedOps).capture? 2).map String.toList = some "abc".toList ∧
    (after (nestedOps ++ [.push, .write "e", .pop (some 2)])).capture? 1 =
      (after nestedOps).capture? 1 := by
  obtain ⟨hopen, hfailed, hfinish, -, hcapture, hlater⟩ := marks_eq_transcript nestedOps
  have hnone : (after nestedOps).pop? none = none := (hopen none).mpr (by decide)
  exact ⟨hnone, hfailed none hnone, hfinish, hcapture 1, hcapture 2,
    hlater 1 [.push, .write "e", .pop (some 2)] (by decide)⟩

end Marks

end PatternSampler
