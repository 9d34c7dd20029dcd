import PatternSampler.Proofs.Interning
import PatternSampler.Proofs.Subnodes
/-!
# Where the nodes of a tree are laid out

`Layout.width` is the number of words that a node takes, whatever the tables.  `Layout.Laid` says
which instructions a node is laid out as, from an offset on, in a code whose tables are complete:
each jump goes to where the rule for its node says, and each class or string operand refers to the
class or the run of characters of the node itself.  `Layout.laid_layoutNode` is the main result: a
code that holds the words of a node has the node laid out.
-/
set_option autoImplicit false

namespace PatternSampler.Layout

/-! ## Widths -/

/-- How many words a single character takes that is repeated from `min` to `max` times. -/
def singleWidth (min : Nat) (max : Option Nat) : Nat :=
  if min = 1 ∧ max = some 1 then 2
  else (if 0 < min then 3 else 0) + (if max = some min then 0 else 3)

/-- How many words the instruction takes that starts a repetition. -/
def openWidth (min : Nat) (max : Option Nat) : Nat := if isCounted min max then 2 else 1

/-- How many words stand before the body of a repetition: a repetition that may be left out has a
jump there too. -/
def headWidth (min : Nat) (max : Option Nat) : Nat := openWidth min max + if min = 0 then 2 else 0

/-- How many words stand after the body of a repetition. -/
def tailWidth (min : Nat) (max : Option Nat) : Nat := if isCounted min max then 3 else 2

/-- Whether the node is a literal character. -/
def isChar : Node → Bool
  | .char _ => true
  | _ => false

theorem exists_char_of_isChar {n : Node} (h : isChar n = true) : ∃ c, n = .char c := by
  cases n with
  | char c => exact ⟨c, rfl⟩
  | _ => simp [isChar] at h

mutual

/-- How many words a node takes. -/
def width (options : PatternOptions) : Node → Nat
  | .empty => 0
  | .char _ => 2
  | .any => 2
  | .charClass _ => 2
  | .concat items => itemsWidth options false items
  | .alternate arms => choiceWidth options arms
  | .group body => width options body
  | .capture _ body => width options body + 4
  | .repetition body min max _ =>
    if (single? options body).isSome then singleWidth min max
    else headWidth min max + width options body + tailWidth min max
  | .backref _ => 2
  | .assert _ => 1
  | .lookAround body negative _ => width options body + if negative then 5 else 4

/-- How many words the items of a sequence take.  Those of a run of literal characters count with
its first one; `inRun` tells whether the item before was a literal character. -/
def itemsWidth (options : PatternOptions) (inRun : Bool) : List Node → Nat
  | [] => 0
  | item :: rest =>
    (if inRun && isChar item then 0 else width options item)
      + itemsWidth options (isChar item) rest

/-- How many words the arms of an alternation take. -/
def choiceWidth (options : PatternOptions) : List Node → Nat
  | [] => 0
  | [last] => width options last
  | arm :: next :: rest => width options arm + 4 + choiceWidth options (next :: rest)

end

/-! ## Instructions of single characters and runs -/

/-- The matter and the operand of what is read; a class operand refers to an entry of the code. -/
def Single.Denotes (code : Code) : Single → Matter → Int32 → Prop
  | .one c, matter, operand => matter = .one ∧ operand = Int32.ofNat c.toNat
  | .notOne c, matter, operand => matter = .notOne ∧ operand = Int32.ofNat c.toNat
  | .member cls, matter, operand => matter = .set ∧ code.class? operand = some cls

variable (code : Code) (options : PatternOptions)

/-- The instructions of a single character that is repeated from `min` to `max` times. -/
def singleInstructions (rtl : Bool) (a : Nat) (matter : Matter) (operand : Int32) (min : Nat)
    (max : Option Nat) (isLazy : Bool) : List Instruction :=
  let optional : Opcode := .chars matter (if isLazy then .lazyLoop else .loop)
  let b := a + if 0 < min then 3 else 0
  if min = 1 ∧ max = some 1 then [instruction options rtl a (.chars matter .single) [operand]]
  else
    (if 0 < min then [instruction options rtl a (.chars matter .exact) [operand, countWord min]]
      else [])
      ++ match max with
        | some max =>
          if max = min then []
          else [instruction options rtl b optional [operand, countWord (max - min)]]
        | none => [instruction options rtl b optional [operand, unbounded]]

/-- The instructions of a single character in a code. -/
def LaidSingle (rtl : Bool) (a : Nat) (s : Single) (min : Nat) (max : Option Nat) (isLazy : Bool)
    (is : List Instruction) : Prop :=
  ∃ matter operand, s.Denotes code matter operand ∧
    is = singleInstructions options rtl a matter operand min max isLazy

/-- The instructions of a run of literal characters: none, a character, or a string of the code. -/
def LaidRun (rtl : Bool) (a : Nat) : List Char → List Instruction → Prop
  | [], is => is = []
  | [c], is => is = [instruction options rtl a (.chars .one .single) [Int32.ofNat c.toNat]]
  | cs, is => ∃ operand, code.string? operand = some (String.ofList cs) ∧
      is = [instruction options rtl a .multi [operand]]

/-- How many words a run of literal characters takes. -/
def runWidth (run : List Char) : Nat := if run = [] then 0 else 2

/-! ## Instructions of repetitions -/

/-- The instruction that starts a repetition. -/
def headInstruction (rtl : Bool) (a min : Nat) (max : Option Nat) : Instruction :=
  if isCounted min max then
    if min = 0 then instruction options rtl a .nullcount [0]
    else instruction options rtl a .setcount [1 - countWord min]
  else if min = 0 then instruction options rtl a .nullmark []
  else instruction options rtl a .setmark []

/-- The jump at `a` over the body of a repetition that may be left out, to the branch after it. -/
def skipInstructions (rtl : Bool) (a branch min : Nat) : List Instruction :=
  if min = 0 then [instruction options rtl a .goto [offsetWord branch]] else []

/-- The branch of a repetition, which stands at `branch` and goes back to `body`. -/
def tailInstruction (rtl : Bool) (body branch min : Nat) (max : Option Nat) (isLazy : Bool) :
    Instruction :=
  if isCounted min max then
    instruction options rtl branch (if isLazy then .lazybranchcount else .branchcount)
      [offsetWord body, match max with
        | some max => countWord (max - min)
        | none => unbounded]
  else
    instruction options rtl branch (if isLazy then .lazybranchmark else .branchmark)
      [offsetWord body]

/-! ## Nodes -/

mutual

/-- The instructions that a node is laid out as from the offset `a` on. -/
def Laid (rtl : Bool) (a : Nat) : Node → List Instruction → Prop
  | .empty, is => is = []
  | .char c, is => LaidSingle code options rtl a (.one c) 1 (some 1) false is
  | .any, is =>
    LaidSingle code options rtl a
      (if options.dotMatchesNewLine then .member .any else .notOne '\n') 1 (some 1) false is
  | .charClass cls, is => LaidSingle code options rtl a (.member cls) 1 (some 1) false is
  | .concat items, is => LaidItems rtl a [] items is
  | .alternate arms, is => LaidArms rtl (a + choiceWidth options arms) a arms is
  | .group body, is => Laid rtl a body is
  | .capture index body, is =>
    ∃ js, Laid rtl (a + 1) body js ∧
      is = instruction options rtl a .setmark [] :: js ++
        [instruction options rtl (a + 1 + width options body) .capturemark
          [Tables.indexWord index, -1]]
  | .repetition body min max isLazy, is =>
    match single? options body with
    | some s => LaidSingle code options rtl a s min max isLazy is
    | none =>
      let start := a + headWidth min max
      let branch := start + width options body
      ∃ js, Laid rtl start body js ∧
        is = headInstruction options rtl a min max ::
          skipInstructions options rtl (a + openWidth min max) branch min ++ js ++
          [tailInstruction options rtl start branch min max isLazy]
  | .backref group, is => is = [instruction options rtl a .ref [Tables.indexWord group]]
  | .assert anchor, is => is = [instruction options rtl a (anchorOpcode options anchor) []]
  | .lookAround body true behind, is =>
    let back := a + 3 + width options body
    ∃ js, Laid behind (a + 3) body js ∧
      is = instruction options false a .setjump [] ::
        instruction options false (a + 1) .lazybranch [offsetWord (back + 1)] :: js ++
        [instruction options false back .backjump [],
          instruction options false (back + 1) .forejump []]
  | .lookAround body false behind, is =>
    let close := a + 2 + width options body
    ∃ js, Laid behind (a + 2) body js ∧
      is = instruction options false a .setjump [] ::
        instruction options false (a + 1) .setmark [] :: js ++
        [instruction options false close .getmark [],
          instruction options false (close + 1) .forejump []]

/-- The instructions of the items of a sequence, after a run of literal characters, latest first,
that has been met but has no instructions yet. -/
def LaidItems (rtl : Bool) (a : Nat) (run : List Char) : List Node → List Instruction → Prop
  | [], is => LaidRun code options rtl a run.reverse is
  | .char c :: rest, is => LaidItems rtl a (c :: run) rest is
  | item :: rest, is =>
    let start := a + runWidth run
    ∃ before js after, LaidRun code options rtl a run.reverse before ∧ Laid rtl start item js ∧
      LaidItems rtl (start + width options item) [] rest after ∧ is = before ++ js ++ after

/-- The instructions of the arms of an alternation that ends at the offset `exit`. -/
def LaidArms (rtl : Bool) (exit a : Nat) : List Node → List Instruction → Prop
  | [], is => is = []
  | [last], is => Laid rtl a last is
  | arm :: next :: rest, is =>
    let stop := a + 2 + width options arm
    ∃ js after, Laid rtl (a + 2) arm js ∧
      LaidArms rtl exit (stop + 2) (next :: rest) after ∧
      is = instruction options rtl a .lazybranch [offsetWord (stop + 2)] :: js ++
        instruction options rtl stop .goto [offsetWord exit] :: after

end

/-! ## The words of a node are as many as its width -/

section
variable {options}

theorem length_layoutSingle (rtl : Bool) (t : Tables) (s : Single) (min : Nat) (max : Option Nat)
    (isLazy : Bool) :
    (layoutSingle options rtl t s min max isLazy).1.length = singleWidth min max := by
  unfold layoutSingle singleWidth
  cases max with
  | none =>
    simp only [reduceCtorEq, and_false, if_false]
    split <;> simp
  | some max =>
    simp only [Option.some.injEq]
    split
    · simp
    · split <;> split <;> simp

theorem length_layoutRun (rtl : Bool) (t : Tables) (run : List Char) :
    (layoutRun options rtl t run.reverse).1.length = runWidth run := by
  cases run with
  | nil => rfl
  | cons c run =>
    have hne : (c :: run).reverse ≠ [] := by simp
    generalize (c :: run).reverse = cs at hne
    match cs, hne with
    | [_], _ => rfl
    | _ :: _ :: _, _ => rfl

theorem length_loopHead (rtl : Bool) (min : Nat) (max : Option Nat) :
    (loopHead options rtl min max).length = openWidth min max := by
  unfold loopHead openWidth
  split <;> split <;> rfl

theorem length_loopTail (rtl : Bool) (body min : Nat) (max : Option Nat) (isLazy : Bool) :
    (loopTail options rtl body min max isLazy).length = tailWidth min max := by
  unfold loopTail tailWidth
  split <;> rfl

theorem length_joinArms (rtl : Bool) (exit base : Nat) (codes : List (List Int32)) :
    (joinArms options rtl exit base codes).length = armsWidth codes := by
  fun_induction joinArms options rtl exit base codes with
  | case1 => rfl
  | case2 => rfl
  | case3 base arm rest hrest ih =>
    simp only [List.length_append, length_emit, ih, List.length_cons, List.length_nil, armsWidth]
    omega

/-- The code of an item that is no literal character follows that of the run before it. -/
theorem layoutItems_cons {item : Node} (h : isChar item = false) (rtl : Bool) (a : Nat)
    (t : Tables) (run : List Char) (rest : List Node) :
    layoutItems options rtl a t run (item :: rest) =
      let before := layoutRun options rtl t run.reverse
      let node := layoutNode options rtl (a + before.1.length) before.2 item
      let after :=
        layoutItems options rtl (a + before.1.length + node.1.length) node.2 [] rest
      (before.1 ++ node.1 ++ after.1, after.2) := by
  rw [layoutItems.eq_3 _ _ _ _ _ _ _ (by rintro c rfl; simp [isChar] at h)]

/-- The codes of the arms are those of the first arm and of the others after it. -/
theorem layoutArms_cons (rtl : Bool) (a : Nat) (t : Tables) (arm next : Node) (rest : List Node) :
    layoutArms options rtl a t (arm :: next :: rest) =
      let first := layoutNode options rtl (a + 2) t arm
      let others := layoutArms options rtl (a + first.1.length + 4) first.2 (next :: rest)
      (first.1 :: others.1, others.2) := by
  rw [layoutArms]

theorem layoutArms_cons_ne_nil (rtl : Bool) (a : Nat) (t : Tables) (arm : Node)
    (rest : List Node) : (layoutArms options rtl a t (arm :: rest)).1 ≠ [] := by
  cases rest <;> simp [layoutArms]

/-- Each item takes as many words as its width, so a sequence does too. -/
theorem length_layoutItems {items : List Node}
    (ih : ∀ item ∈ items, ∀ rtl a t, (layoutNode options rtl a t item).1.length = width options item)
    (rtl : Bool) (a : Nat) (t : Tables) (run : List Char) :
    (layoutItems options rtl a t run items).1.length =
      runWidth run + itemsWidth options (!run.isEmpty) items := by
  induction items generalizing a t run with
  | nil => simp [layoutItems, length_layoutRun, itemsWidth]
  | cons item rest ihRest =>
    have ihTail := ihRest fun n hn => ih n (List.mem_cons_of_mem item hn)
    cases hchar : isChar item with
    | true =>
      obtain ⟨c, rfl⟩ := exists_char_of_isChar hchar
      simp only [layoutItems, ihTail, itemsWidth, isChar, runWidth, width]
      cases run <;> simp
    | false =>
      rw [layoutItems_cons hchar]
      simp only [List.length_append, length_layoutRun, ih item List.mem_cons_self, ihTail,
        itemsWidth, hchar, Bool.and_false, Bool.false_eq_true, if_false, runWidth,
        List.isEmpty_nil, Bool.not_true, if_true]
      omega

/-- Each arm takes as many words as its width, so an alternation does too. -/
theorem armsWidth_layoutArms {arms : List Node}
    (ih : ∀ arm ∈ arms, ∀ rtl a t, (layoutNode options rtl a t arm).1.length = width options arm)
    (rtl : Bool) (a : Nat) (t : Tables) :
    armsWidth (layoutArms options rtl a t arms).1 = choiceWidth options arms := by
  induction arms generalizing a t with
  | nil => rfl
  | cons arm rest ihRest =>
    cases rest with
    | nil =>
      rw [layoutArms]
      simp only [armsWidth, choiceWidth, ih arm List.mem_cons_self]
    | cons next rest =>
      have ihTail := ihRest fun n hn => ih n (List.mem_cons_of_mem arm hn)
      rw [layoutArms_cons]
      simp only [choiceWidth]
      rw [armsWidth.eq_3 _ _ (layoutArms_cons_ne_nil rtl _ _ next rest), ihTail, ih arm List.mem_cons_self]

theorem length_layoutNode (n : Node) (rtl : Bool) (a : Nat) (t : Tables) :
    (layoutNode options rtl a t n).1.length = width options n := by
  induction n using Node.inductionOn generalizing rtl a t with
  | empty => rfl
  | char | any | charClass =>
    simp only [layoutNode, length_layoutSingle, width]
    rfl
  | concat items ih =>
    simp only [layoutNode, length_layoutItems ih, width, runWidth, if_true, List.isEmpty_nil,
      Bool.not_true, Nat.zero_add]
  | alternate arms ih =>
    simp only [layoutNode, length_joinArms, armsWidth_layoutArms ih, width]
  | group body ih => simp only [layoutNode, ih, width]
  | capture index body ih =>
    simp only [layoutNode, width, List.length_append, length_emit, ih, List.length_cons,
      List.length_nil]
    omega
  | repetition body min max isLazy ih =>
    simp only [layoutNode, width]
    cases single? options body with
    | some s => simp only [length_layoutSingle, Option.isSome_some, if_true]
    | none =>
      simp only [Option.isSome_none, Bool.false_eq_true, if_false, List.length_append,
        length_loopHead, length_loopTail, ih, headWidth]
      by_cases hmin : min = 0
      · simp only [if_pos hmin, length_emit, List.length_cons, List.length_nil]
      · simp only [if_neg hmin, List.length_nil, Nat.add_zero]
  | backref | assert => rfl
  | lookAround body negative behind ih =>
    cases negative <;>
      simp only [layoutNode, width, List.length_append, length_emit, ih, List.length_cons,
        List.length_nil, if_true, Bool.false_eq_true, if_false] <;>
      omega

/-! ## Tables grow -/

theorem grows_operand (t : Tables) (s : Single) : t.Grows (s.operand t).2 := by
  cases s with
  | one | notOne => exact .refl t
  | member cls => exact t.grows_internClass cls

theorem layoutSingle_tables (rtl : Bool) (t : Tables) (s : Single) (min : Nat) (max : Option Nat)
    (isLazy : Bool) : (layoutSingle options rtl t s min max isLazy).2 = (s.operand t).2 := by
  unfold layoutSingle
  cases max with
  | none => simp
  | some max =>
    simp only
    split
    · rfl
    · split <;> rfl

theorem grows_layoutRun (rtl : Bool) (t : Tables) (run : List Char) :
    t.Grows (layoutRun options rtl t run).2 := by
  match run with
  | [] => exact .refl t
  | [_] => exact .refl t
  | c :: d :: cs => exact t.grows_internString (String.ofList (c :: d :: cs))

theorem grows_layoutItems {items : List Node}
    (ih : ∀ item ∈ items, ∀ rtl a (t : Tables), t.Grows (layoutNode options rtl a t item).2)
    (rtl : Bool) (a : Nat) (t : Tables) (run : List Char) :
    t.Grows (layoutItems options rtl a t run items).2 := by
  induction items generalizing a t run with
  | nil => exact grows_layoutRun rtl t run.reverse
  | cons item rest ihRest =>
    have ihTail := ihRest fun n hn => ih n (List.mem_cons_of_mem item hn)
    cases item with
    | char c =>
      rw [layoutItems]
      exact ihTail a t (c :: run)
    | _ =>
      rw [layoutItems_cons rfl]
      exact ((grows_layoutRun rtl t run.reverse).trans (ih _ List.mem_cons_self _ _ _)).trans
        (ihTail _ _ [])

theorem grows_layoutArms {arms : List Node}
    (ih : ∀ arm ∈ arms, ∀ rtl a (t : Tables), t.Grows (layoutNode options rtl a t arm).2)
    (rtl : Bool) (a : Nat) (t : Tables) : t.Grows (layoutArms options rtl a t arms).2 := by
  induction arms generalizing a t with
  | nil => exact .refl t
  | cons arm rest ihRest =>
    cases rest with
    | nil => exact ih arm List.mem_cons_self rtl a t
    | cons next rest =>
      rw [layoutArms_cons]
      exact (ih arm List.mem_cons_self _ _ _).trans
        (ihRest (fun n hn => ih n (List.mem_cons_of_mem arm hn)) _ _)

/-- Laying a node out only adds entries to the tables, and no duplicates. -/
theorem grows_layoutNode (n : Node) (rtl : Bool) (a : Nat) (t : Tables) :
    t.Grows (layoutNode options rtl a t n).2 := by
  induction n using Node.inductionOn generalizing rtl a t with
  | empty | backref | assert => exact .refl t
  | char | any | charClass =>
    rw [layoutNode, layoutSingle_tables]
    exact grows_operand t _
  | concat items ih =>
    rw [layoutNode]
    exact grows_layoutItems ih rtl a t []
  | alternate arms ih =>
    rw [layoutNode]
    exact grows_layoutArms ih rtl a t
  | group body ih | capture index body ih =>
    rw [layoutNode]
    exact ih _ _ t
  | repetition body min max isLazy ih =>
    rw [layoutNode]
    cases single? options body with
    | some s =>
      simp only [layoutSingle_tables]
      exact grows_operand t s
    | none => exact ih _ _ t
  | lookAround body negative behind ih =>
    cases negative <;>
    · rw [layoutNode]
      exact ih _ _ t

end

section
variable {code options}

/-! ## The instructions of a node take up its width -/

theorem LaidSingle.sum_width {rtl : Bool} {a : Nat} {s : Single} {min : Nat} {max : Option Nat}
    {isLazy : Bool} {is : List Instruction}
    (h : LaidSingle code options rtl a s min max isLazy is) :
    (is.map Instruction.width).sum = singleWidth min max := by
  obtain ⟨matter, operand, -, rfl⟩ := h
  unfold singleInstructions singleWidth
  by_cases honce : min = 1 ∧ max = some 1
  · simp [honce, Opcode.width, Opcode.operandCount]
  · simp only [honce, if_false, List.map_append, List.sum_append]
    congr 1
    · split <;> rfl
    · cases max with
      | none => cases isLazy <;> rfl
      | some max =>
        simp only [Option.some.injEq]
        by_cases hmax : max = min
        · simp [hmax]
        · cases isLazy <;> simp [hmax, Opcode.width, Opcode.operandCount]

theorem LaidRun.sum_width {rtl : Bool} {a : Nat} {run : List Char} {is : List Instruction}
    (h : LaidRun code options rtl a run.reverse is) :
    (is.map Instruction.width).sum = runWidth run := by
  cases run with
  | nil =>
    rw [show is = [] from h]
    rfl
  | cons c run =>
    have hne : (c :: run).reverse ≠ [] := by simp
    have hwidth : runWidth (c :: run) = 2 := rfl
    rw [hwidth]
    generalize (c :: run).reverse = cs at *
    match cs, hne, h with
    | [_], _, h =>
      rw [show is = _ from h]
      rfl
    | _ :: _ :: _, _, ⟨_, _, h⟩ =>
      rw [h]
      rfl

theorem width_headInstruction (rtl : Bool) (a min : Nat) (max : Option Nat) :
    (headInstruction options rtl a min max).width = openWidth min max := by
  unfold headInstruction openWidth
  split <;> split <;> rfl

theorem width_skipInstructions (rtl : Bool) (a branch min : Nat) :
    ((skipInstructions options rtl a branch min).map Instruction.width).sum =
      if min = 0 then 2 else 0 := by
  unfold skipInstructions
  split <;> rfl

theorem width_tailInstruction (rtl : Bool) (body b min : Nat) (max : Option Nat) (isLazy : Bool) :
    (tailInstruction options rtl body b min max isLazy).width = tailWidth min max := by
  unfold tailInstruction tailWidth
  split <;> cases isLazy <;> rfl

/-- The instructions of an item that is no literal character follow those of the run before it. -/
theorem laidItems_cons {item : Node} (h : isChar item = false) {rtl : Bool} {a : Nat}
    {run : List Char} {rest : List Node} {is : List Instruction} :
    LaidItems code options rtl a run (item :: rest) is ↔
      ∃ before js after, LaidRun code options rtl a run.reverse before ∧
        Laid code options rtl (a + runWidth run) item js ∧
        LaidItems code options rtl (a + runWidth run + width options item) [] rest after ∧
        is = before ++ js ++ after := by
  rw [LaidItems.eq_3 _ _ _ _ _ _ _ _ (by rintro c rfl; simp [isChar] at h)]

/-- A repetition of more than a single character has its body between its head and its branch. -/
theorem laid_repetition {body : Node} (hsingle : single? options body = none) {rtl : Bool}
    {a min : Nat} {max : Option Nat} {isLazy : Bool} {is : List Instruction} :
    Laid code options rtl a (.repetition body min max isLazy) is ↔
      ∃ js, Laid code options rtl (a + headWidth min max) body js ∧
        is = headInstruction options rtl a min max ::
          skipInstructions options rtl (a + openWidth min max)
            (a + headWidth min max + width options body) min ++ js ++
          [tailInstruction options rtl (a + headWidth min max)
            (a + headWidth min max + width options body) min max isLazy] := by
  simp only [Laid, hsingle]

theorem LaidItems.sum_width {rtl : Bool} {items : List Node}
    (ih : ∀ item ∈ items, ∀ {a is}, Laid code options rtl a item is →
      (is.map Instruction.width).sum = width options item)
    {a : Nat} {run : List Char} {is : List Instruction}
    (h : LaidItems code options rtl a run items is) :
    (is.map Instruction.width).sum =
      runWidth run + itemsWidth options (!run.isEmpty) items := by
  induction items generalizing a run is with
  | nil => simpa [itemsWidth] using LaidRun.sum_width h
  | cons item rest ihRest =>
    have ihTail := @ihRest fun n hn => ih n (List.mem_cons_of_mem item hn)
    cases hchar : isChar item with
    | true =>
      obtain ⟨c, rfl⟩ := exists_char_of_isChar hchar
      rw [ihTail h]
      cases run <;> simp [runWidth, itemsWidth, isChar, width]
    | false =>
      obtain ⟨before, js, after, hbefore, hjs, hafter, rfl⟩ := (laidItems_cons hchar).mp h
      simp only [List.map_append, List.sum_append, hbefore.sum_width,
        ih item List.mem_cons_self hjs, ihTail hafter, itemsWidth, hchar, Bool.and_false,
        Bool.false_eq_true, if_false, runWidth, if_true, List.isEmpty_nil, Bool.not_true]
      omega

theorem LaidArms.sum_width {rtl : Bool} {arms : List Node} {exit : Nat}
    (ih : ∀ arm ∈ arms, ∀ {a is}, Laid code options rtl a arm is →
      (is.map Instruction.width).sum = width options arm)
    {a : Nat} {is : List Instruction} (h : LaidArms code options rtl exit a arms is) :
    (is.map Instruction.width).sum = choiceWidth options arms := by
  induction arms generalizing a is with
  | nil =>
    rw [show is = [] from h]
    rfl
  | cons arm rest ihRest =>
    cases rest with
    | nil => exact ih arm List.mem_cons_self h
    | cons next rest =>
      obtain ⟨js, after, hjs, hafter, rfl⟩ := h
      simp only [List.map_cons, List.map_append, List.cons_append, List.sum_cons,
        List.sum_append, instruction_width, ih arm List.mem_cons_self hjs,
        ihRest (fun n hn => ih n (List.mem_cons_of_mem arm hn)) hafter, choiceWidth, Opcode.width,
        Opcode.operandCount]
      omega

theorem Laid.sum_width {n : Node} {rtl : Bool} {a : Nat} {is : List Instruction}
    (h : Laid code options rtl a n is) : (is.map Instruction.width).sum = width options n := by
  induction n using Node.inductionOn generalizing rtl a is with
  | empty =>
    rw [show is = [] from h]
    rfl
  | char | any | charClass => exact LaidSingle.sum_width h
  | concat items ih =>
    simpa [width, runWidth] using LaidItems.sum_width (fun n hn {_ _} => ih n hn) h
  | alternate arms ih => exact LaidArms.sum_width (fun n hn {_ _} => ih n hn) h
  | group body ih => exact ih h
  | capture index body ih =>
    obtain ⟨js, hjs, rfl⟩ := h
    simp [ih hjs, width, Opcode.width, Opcode.operandCount]
    omega
  | repetition body min max isLazy ih =>
    simp only [width]
    cases hsingle : single? options body with
    | some s =>
      simp only [Laid, hsingle] at h
      exact h.sum_width
    | none =>
      obtain ⟨js, hjs, rfl⟩ := (laid_repetition hsingle).mp h
      simp only [List.map_cons, List.map_append, List.cons_append, List.sum_cons, List.sum_append,
        ih hjs, width_headInstruction, width_skipInstructions, width_tailInstruction, headWidth,
        List.map_nil, List.sum_nil, Option.isSome_none, Bool.false_eq_true, if_false]
      omega
  | backref group =>
    rw [show is = _ from h]
    rfl
  | assert anchor =>
    rw [show is = _ from h]
    cases anchor <;> simp only [anchorOpcode] <;> (try split) <;> rfl
  | lookAround body negative behind ih =>
    cases negative <;>
    · obtain ⟨js, hjs, rfl⟩ := h
      simp [ih hjs, width, Opcode.width, Opcode.operandCount]
      omega

/-- The code of a node ends where its width says. -/
theorem Laid.stop_eq {n : Node} {rtl : Bool} {a b : Nat} {is : List Instruction}
    (h : Laid code options rtl a n is) (hr : code.Reads a is b) : b = a + width options n := by
  rw [hr.stop_eq, h.sum_width]

/-- Wherever the code of a node is read to, it is read to where its width says. -/
theorem Laid.reads_width {n : Node} {rtl : Bool} {a b : Nat} {is : List Instruction}
    (h : Laid code options rtl a n is) (hr : code.Reads a is b) :
    code.Reads a is (a + width options n) :=
  h.stop_eq hr ▸ hr

/-! ## A code that holds a node's words has it laid out -/

theorem reads_emit {rtl : Bool} {a : Nat} {op : Opcode} {operands : List Int32}
    (h : code.HasAt a (emit options rtl op operands)) (hcount : operands.length = op.operandCount) :
    code.Reads a [instruction options rtl a op operands] (a + op.width) :=
  .single (Code.instructionAt_of_hasAt h hcount)

theorem denotes_operand {t : Tables} {s : Single} (hfits : code.Fits)
    (h : (s.operand t).2.Within code) :
    s.Denotes code (s.operand t).1.1 (s.operand t).1.2 := by
  cases s with
  | one | notOne => exact ⟨rfl, rfl⟩
  | member cls => exact ⟨rfl, Tables.class?_internClass h hfits⟩

theorem reads_mandatory {rtl : Bool} {a : Nat} {matter : Matter} {operand : Int32} {min : Nat}
    {words : List Int32}
    (h : code.HasAt a ((if 0 < min then
      emit options rtl (.chars matter .exact) [operand, countWord min] else []) ++ words)) :
    code.Reads a (if 0 < min then
      [instruction options rtl a (.chars matter .exact) [operand, countWord min]] else [])
      (a + if 0 < min then 3 else 0) ∧ code.HasAt (a + if 0 < min then 3 else 0) words := by
  by_cases hmin : 0 < min
  · simp only [hmin, if_true] at h ⊢
    obtain ⟨hfirst, hrest⟩ := Code.hasAt_append.mp h
    exact ⟨reads_emit hfirst rfl, hrest⟩
  · simp only [hmin, if_false] at h ⊢
    exact ⟨rfl, h⟩

theorem reads_optional {rtl isLazy : Bool} {b : Nat} {matter : Matter} {operand count : Int32}
    (h : code.HasAt b (emit options rtl (.chars matter (if isLazy then .lazyLoop else .loop))
      [operand, count])) :
    code.Reads b [instruction options rtl b
      (.chars matter (if isLazy then .lazyLoop else .loop)) [operand, count]] (b + 3) := by
  cases isLazy <;> exact reads_emit h rfl

theorem laid_layoutSingle (hfits : code.Fits) {rtl : Bool} {a : Nat} {t : Tables} {s : Single}
    {min : Nat} {max : Option Nat} {isLazy : Bool}
    (hat : code.HasAt a (layoutSingle options rtl t s min max isLazy).1)
    (hin : (layoutSingle options rtl t s min max isLazy).2.Within code) :
    ∃ is, LaidSingle code options rtl a s min max isLazy is ∧
      code.Reads a is (a + singleWidth min max) := by
  rw [layoutSingle_tables] at hin
  refine ⟨_, ⟨_, _, denotes_operand hfits hin, rfl⟩, ?_⟩
  unfold layoutSingle at hat
  unfold singleInstructions singleWidth
  obtain ⟨⟨⟨matter, operand⟩, t'⟩, hs⟩ : ∃ p, s.operand t = p := ⟨_, rfl⟩
  simp only [hs] at hat ⊢
  by_cases honce : min = 1 ∧ max = some 1
  · simp only [honce, and_self, if_true] at hat ⊢
    exact reads_emit hat rfl
  -- the mandatory copies, if any, then the optional ones, if any
  simp only [honce, if_false] at hat ⊢
  rw [← Nat.add_assoc]
  cases max with
  | none =>
    obtain ⟨hfirst, hrest⟩ := reads_mandatory hat
    exact hfirst.append (reads_optional hrest)
  | some max =>
    simp only [Option.some.injEq]
    by_cases hmax : max = min
    · simp only [hmax, if_true, List.append_nil] at hat ⊢
      have hnil : ∀ ws : List Int32, code.HasAt a ws → code.HasAt a (ws ++ []) := fun ws h => by
        rwa [List.append_nil]
      exact (reads_mandatory (hnil _ hat)).1
    · simp only [hmax, if_false] at hat ⊢
      obtain ⟨hfirst, hrest⟩ := reads_mandatory hat
      exact hfirst.append (reads_optional hrest)

theorem laid_layoutRun (hfits : code.Fits) {rtl : Bool} {a : Nat} {t : Tables} {run : List Char}
    (hat : code.HasAt a (layoutRun options rtl t run.reverse).1)
    (hin : (layoutRun options rtl t run.reverse).2.Within code) :
    ∃ is, LaidRun code options rtl a run.reverse is ∧ code.Reads a is (a + runWidth run) := by
  cases run with
  | nil => exact ⟨[], rfl, rfl⟩
  | cons c run =>
    have hne : (c :: run).reverse ≠ [] := by simp
    have hwidth : runWidth (c :: run) = 2 := rfl
    rw [hwidth]
    generalize (c :: run).reverse = cs at *
    match cs, hne with
    | [d], _ => exact ⟨_, rfl, reads_emit hat rfl⟩
    | d :: e :: ds, _ =>
      exact ⟨_, ⟨_, Tables.string?_internString hin hfits, rfl⟩, reads_emit hat rfl⟩

theorem reads_loopHead {rtl : Bool} {a min : Nat} {max : Option Nat}
    (h : code.HasAt a (loopHead options rtl min max)) :
    code.Reads a [headInstruction options rtl a min max]
      (a + openWidth min max) := by
  unfold loopHead at h
  unfold headInstruction openWidth
  cases hcounted : isCounted min max <;>
    simp only [hcounted, if_true, if_false, Bool.false_eq_true] at h ⊢ <;>
    by_cases hmin : min = 0 <;> simp only [hmin, if_true, if_false] at h ⊢ <;>
    exact reads_emit h rfl

theorem reads_skip {rtl : Bool} {a branch min : Nat}
    (h : code.HasAt a
      (if min = 0 then emit options rtl .goto [offsetWord branch] else [])) :
    code.Reads a (skipInstructions options rtl a branch min) (a + if min = 0 then 2 else 0) := by
  unfold skipInstructions
  by_cases hmin : min = 0 <;> simp only [hmin, if_true, if_false] at h ⊢
  · exact reads_emit h rfl
  · exact .nil a

theorem reads_loopTail {rtl : Bool} {body b min : Nat} {max : Option Nat} {isLazy : Bool}
    (h : code.HasAt b (loopTail options rtl body min max isLazy)) :
    code.Reads b [tailInstruction options rtl body b min max isLazy] (b + tailWidth min max) := by
  unfold loopTail at h
  unfold tailInstruction tailWidth
  cases hcounted : isCounted min max <;>
    simp only [hcounted, if_true, if_false, Bool.false_eq_true] at h ⊢ <;>
    cases isLazy <;> exact reads_emit h rfl

/-- What the nodes of a list promise, the items of a sequence promise together. -/
theorem laid_layoutItems (hfits : code.Fits) {rtl : Bool} {items : List Node}
    (ih : ∀ item ∈ items, ∀ a t, code.HasAt a (layoutNode options rtl a t item).1 →
      (layoutNode options rtl a t item).2.Within code →
      ∃ is, Laid code options rtl a item is ∧ code.Reads a is (a + width options item))
    {a : Nat} {t : Tables} {run : List Char}
    (hat : code.HasAt a (layoutItems options rtl a t run items).1)
    (hin : (layoutItems options rtl a t run items).2.Within code) :
    ∃ is, LaidItems code options rtl a run items is ∧
      code.Reads a is (a + (runWidth run + itemsWidth options (!run.isEmpty) items)) := by
  induction items generalizing a t run with
  | nil =>
    simp only [LaidItems, itemsWidth, Nat.add_zero]
    exact laid_layoutRun hfits hat hin
  | cons item rest ihRest =>
    have ihTail := @ihRest fun n hn => ih n (List.mem_cons_of_mem item hn)
    cases hchar : isChar item with
    | true =>
      obtain ⟨c, rfl⟩ := exists_char_of_isChar hchar
      rw [layoutItems] at hat hin
      obtain ⟨is, hlaid, hreads⟩ := ihTail hat hin
      have hrun : runWidth (c :: run) + itemsWidth options (!(c :: run).isEmpty) rest =
          runWidth run + itemsWidth options (!run.isEmpty) (.char c :: rest) := by
        cases run <;> simp [runWidth, itemsWidth, isChar, width]
      rw [← hrun]
      exact ⟨is, hlaid, hreads⟩
    | false =>
      rw [layoutItems_cons hchar] at hat hin
      simp only [Code.hasAt_append, List.length_append, length_layoutRun,
        length_layoutNode] at hat hin
      obtain ⟨⟨hatRun, hatItem⟩, hatRest⟩ := hat
      rw [← Nat.add_assoc] at hatRest
      have hinItem := (grows_layoutItems (fun n _ => grows_layoutNode n) _ _ _ _).within hin
      have hinRun := (grows_layoutNode item _ _ _).within hinItem
      obtain ⟨before, hlaidRun, hreadsRun⟩ := laid_layoutRun hfits hatRun hinRun
      obtain ⟨js, hlaidItem, hreadsItem⟩ := ih item List.mem_cons_self _ _ hatItem hinItem
      obtain ⟨after, hlaidRest, hreadsRest⟩ := ihTail hatRest hin
      refine ⟨before ++ js ++ after,
        (laidItems_cons hchar).mpr ⟨before, js, after, hlaidRun, hlaidItem, hlaidRest, rfl⟩, ?_⟩
      have hwidth : a + (runWidth run + itemsWidth options (!run.isEmpty) (item :: rest)) =
          a + runWidth run + width options item + (runWidth [] + itemsWidth options false rest) := by
        simp only [itemsWidth, hchar, Bool.and_false, Bool.false_eq_true, if_false, runWidth,
          if_true]
        omega
      rw [hwidth]
      exact (hreadsRun.append hreadsItem).append hreadsRest

/-- What the nodes of a list promise, the arms of an alternation promise together. -/
theorem laid_layoutArms {rtl : Bool} {arms : List Node} {exit : Nat}
    (ih : ∀ arm ∈ arms, ∀ a t, code.HasAt a (layoutNode options rtl a t arm).1 →
      (layoutNode options rtl a t arm).2.Within code →
      ∃ is, Laid code options rtl a arm is ∧ code.Reads a is (a + width options arm))
    {a : Nat} {t : Tables}
    (hat : code.HasAt a (joinArms options rtl exit a (layoutArms options rtl a t arms).1))
    (hin : (layoutArms options rtl a t arms).2.Within code) :
    ∃ is, LaidArms code options rtl exit a arms is ∧
      code.Reads a is (a + choiceWidth options arms) := by
  induction arms generalizing a t with
  | nil => exact ⟨[], rfl, rfl⟩
  | cons arm rest ihRest =>
    cases rest with
    | nil => exact ih arm List.mem_cons_self a t hat hin
    | cons next rest =>
      rw [layoutArms_cons] at hat hin
      simp only at hat hin
      rw [joinArms.eq_3 _ _ _ _ _ _ (layoutArms_cons_ne_nil rtl _ _ next rest)] at hat
      simp only [Code.hasAt_append, List.length_append, length_emit, length_layoutNode,
        List.length_cons, List.length_nil] at hat hin
      obtain ⟨⟨⟨hatBranch, hatArm⟩, hatGoto⟩, hatRest⟩ := hat
      have hstop : a + width options arm + 4 = a + 2 + width options arm + 2 := by omega
      have hexit : a + (0 + 1 + 1 + width options arm) = a + 2 + width options arm := by omega
      have hnext : a + (0 + 1 + 1 + width options arm + (0 + 1 + 1)) =
          a + 2 + width options arm + 2 := by omega
      rw [hstop] at hatBranch hatRest hin
      rw [hexit] at hatGoto
      rw [hnext] at hatRest
      have hinArm := (grows_layoutArms (fun n _ => grows_layoutNode n) _ _ _).within hin
      obtain ⟨js, hlaidArm, hreadsArm⟩ := ih arm List.mem_cons_self _ _ hatArm hinArm
      obtain ⟨after, hlaidRest, hreadsRest⟩ :=
        ihRest (fun n hn => ih n (List.mem_cons_of_mem arm hn)) hatRest hin
      refine ⟨_, ⟨js, after, hlaidArm, hlaidRest, rfl⟩, ?_⟩
      have hwidth : a + choiceWidth options (arm :: next :: rest) =
          a + 2 + width options arm + 2 + choiceWidth options (next :: rest) := by
        simp only [choiceWidth]
        omega
      rw [hwidth]
      exact ((reads_emit hatBranch rfl).append hreadsArm).append
        ((reads_emit hatGoto rfl).append hreadsRest)

/-- A code that holds the words of a node, and the entries they refer to, has the node laid out. -/
theorem laid_layoutNode (hfits : code.Fits) (n : Node) (rtl : Bool) (a : Nat) (t : Tables)
    (hat : code.HasAt a (layoutNode options rtl a t n).1)
    (hin : (layoutNode options rtl a t n).2.Within code) :
    ∃ is, Laid code options rtl a n is ∧ code.Reads a is (a + width options n) := by
  induction n using Node.inductionOn generalizing rtl a t with
  | empty => exact ⟨[], rfl, rfl⟩
  | char | any | charClass =>
    rw [layoutNode] at hat hin
    exact laid_layoutSingle hfits hat hin
  | concat items ih =>
    rw [layoutNode] at hat hin
    obtain ⟨is, hlaid, hreads⟩ := laid_layoutItems hfits (fun n hn => ih n hn rtl) hat hin
    exact ⟨is, hlaid, Laid.reads_width (n := .concat items) hlaid hreads⟩
  | alternate arms ih =>
    rw [layoutNode] at hat hin
    simp only [armsWidth_layoutArms fun n _ => length_layoutNode n] at hat
    exact laid_layoutArms (fun n hn => ih n hn rtl) hat hin
  | group body ih =>
    rw [layoutNode] at hat hin
    exact ih rtl a t hat hin
  | capture index body ih =>
    rw [layoutNode] at hat hin
    simp only [Code.hasAt_append, List.length_append, length_emit, length_layoutNode,
      List.length_nil, Nat.reduceAdd, ← Nat.add_assoc] at hat hin
    obtain ⟨⟨hatMark, hatBody⟩, hatClose⟩ := hat
    obtain ⟨js, hbody, hreads⟩ := ih rtl (a + 1) t hatBody hin
    have hlaid : Laid code options rtl a (.capture index body) _ := ⟨js, hbody, rfl⟩
    exact ⟨_, hlaid, hlaid.reads_width
      (((reads_emit hatMark rfl).append hreads).append (reads_emit hatClose rfl))⟩
  | repetition body min max isLazy ih =>
    rw [layoutNode] at hat hin
    cases hsingle : single? options body with
    | some s =>
      simp only [Laid, width, hsingle] at hat hin ⊢
      exact laid_layoutSingle hfits hat hin
    | none =>
      simp only [hsingle] at hat hin
      have hskip (branch : Nat) :
          (if min = 0 then emit options rtl .goto [offsetWord branch] else []).length =
            if min = 0 then 2 else 0 := by split <;> rfl
      have hstart : a + openWidth min max + (if min = 0 then 2 else 0) = a + headWidth min max :=
        Nat.add_assoc ..
      simp only [Code.hasAt_append, List.length_append, length_loopHead, length_layoutNode,
        hskip, ← Nat.add_assoc, hstart] at hat hin
      obtain ⟨⟨⟨hatHead, hatSkip⟩, hatBody⟩, hatTail⟩ := hat
      obtain ⟨js, hbody, hreads⟩ := ih rtl _ t hatBody hin
      have hreadsSkip := reads_skip hatSkip
      rw [hstart] at hreadsSkip
      have hlaid : Laid code options rtl a (.repetition body min max isLazy) _ :=
        (laid_repetition hsingle).mpr ⟨js, hbody, rfl⟩
      exact ⟨_, hlaid, hlaid.reads_width ((((reads_loopHead hatHead).append hreadsSkip).append
        hreads).append (reads_loopTail hatTail))⟩
  | backref group =>
    rw [layoutNode] at hat
    exact ⟨_, rfl, reads_emit hat rfl⟩
  | assert anchor =>
    rw [layoutNode] at hat
    have hlaid : Laid code options rtl a (.assert anchor) _ := rfl
    refine ⟨_, hlaid, hlaid.reads_width (reads_emit hat ?_)⟩
    cases anchor <;> simp only [anchorOpcode] <;> (try split) <;> rfl
  | lookAround body negative behind ih =>
    cases negative with
    | true =>
      rw [layoutNode] at hat hin
      simp only [if_true, Code.hasAt_append, List.length_append, length_emit, length_layoutNode,
        List.length_cons, List.length_nil, Nat.reduceAdd, ← Nat.add_assoc] at hat hin
      obtain ⟨⟨⟨⟨hatOpen, hatBranch⟩, hatBody⟩, hatBack⟩, hatFore⟩ := hat
      obtain ⟨js, hbody, hreads⟩ := ih behind (a + 3) t hatBody hin
      have hlaid : Laid code options rtl a (.lookAround body true behind) _ := ⟨js, hbody, rfl⟩
      exact ⟨_, hlaid, hlaid.reads_width
        ((((reads_emit hatOpen rfl).append (reads_emit hatBranch rfl)).append hreads).append
          ((reads_emit hatBack rfl).append (reads_emit hatFore rfl)))⟩
    | false =>
      rw [layoutNode] at hat hin
      simp only [Bool.false_eq_true, if_false, Code.hasAt_append, List.length_append, length_emit,
        length_layoutNode, List.length_nil, Nat.reduceAdd, ← Nat.add_assoc] at hat hin
      obtain ⟨⟨⟨⟨hatOpen, hatMark⟩, hatBody⟩, hatClose⟩, hatFore⟩ := hat
      obtain ⟨js, hbody, hreads⟩ := ih behind (a + 2) t hatBody hin
      have hlaid : Laid code options rtl a (.lookAround body false behind) _ := ⟨js, hbody, rfl⟩
      exact ⟨_, hlaid, hlaid.reads_width
        ((((reads_emit hatOpen rfl).append (reads_emit hatMark rfl)).append hreads).append
          ((reads_emit hatClose rfl).append (reads_emit hatFore rfl)))⟩

/-! ## What frames the parts of a node -/

/-- An item other than a character stands between the run before it and the items after it. -/
theorem LaidItems.split {item : Node} (hchar : isChar item = false) {rtl : Bool} {a b : Nat}
    {run : List Char} {rest : List Node} {is : List Instruction}
    (h : LaidItems code options rtl a run (item :: rest) is) (hr : code.Reads a is b) :
    ∃ before js after, is = before ++ (js ++ after) ∧
      (LaidRun code options rtl a run.reverse before ∧ code.Reads a before (a + runWidth run)) ∧
      (Laid code options rtl (a + runWidth run) item js ∧
        code.Reads (a + runWidth run) js (a + runWidth run + width options item)) ∧
      LaidItems code options rtl (a + runWidth run + width options item) [] rest after ∧
        code.Reads (a + runWidth run + width options item) after b := by
  obtain ⟨before, js, after, hbefore, hjs, hafter, rfl⟩ := (laidItems_cons hchar).mp h
  rw [List.append_assoc] at hr
  obtain ⟨m, hrBefore, hr'⟩ := Code.Reads.append_iff.mp hr
  obtain ⟨m', hrItem, hrAfter⟩ := Code.Reads.append_iff.mp hr'
  obtain rfl : m = a + runWidth run := by rw [hrBefore.stop_eq, hbefore.sum_width]
  obtain rfl := hjs.stop_eq hrItem
  exact ⟨before, js, after, List.append_assoc .., ⟨hbefore, hrBefore⟩, ⟨hjs, hrItem⟩, hafter,
    hrAfter⟩

/-- An arm that is not the last stands between a branch to the next and a jump over the others. -/
theorem LaidArms.split {arm next : Node} {rest : List Node} {rtl : Bool} {exit a b : Nat}
    {is : List Instruction} (h : LaidArms code options rtl exit a (arm :: next :: rest) is)
    (hr : code.Reads a is b) :
    ∃ stop js after, stop = a + 2 + width options arm ∧
      is = instruction options rtl a .lazybranch [offsetWord (stop + 2)] ::
        (js ++ instruction options rtl stop .goto [offsetWord exit] :: after) ∧
      code.instructionAt a =
        .ok (instruction options rtl a .lazybranch [offsetWord (stop + 2)]) ∧
      (Laid code options rtl (a + 2) arm js ∧ code.Reads (a + 2) js stop) ∧
      code.instructionAt stop = .ok (instruction options rtl stop .goto [offsetWord exit]) ∧
      LaidArms code options rtl exit (stop + 2) (next :: rest) after ∧
        code.Reads (stop + 2) after b := by
  obtain ⟨js, after, hjs, hafter, rfl⟩ := h
  rw [List.cons_append] at hr ⊢
  obtain ⟨hrBranch, hr'⟩ := hr
  obtain ⟨m, hrArm, hrGoto, hrAfter⟩ := Code.Reads.append_iff.mp hr'
  obtain rfl : m = a + 2 + width options arm := hjs.stop_eq hrArm
  exact ⟨_, js, after, rfl, rfl, hrBranch, ⟨hjs, hrArm⟩, hrGoto, hafter, hrAfter⟩

/-- The body of a capture stands between the mark of where it starts and what remembers its text. -/
theorem Laid.split_capture {index : Nat} {body : Node} {rtl : Bool} {a b : Nat}
    {is : List Instruction} (h : Laid code options rtl a (.capture index body) is)
    (hr : code.Reads a is b) :
    ∃ close js,
      is = instruction options rtl a .setmark [] ::
        (js ++ [instruction options rtl close .capturemark [Tables.indexWord index, -1]]) ∧
      code.instructionAt a = .ok (instruction options rtl a .setmark []) ∧
      (Laid code options rtl (a + 1) body js ∧ code.Reads (a + 1) js close) ∧
      code.Reads close
        [instruction options rtl close .capturemark [Tables.indexWord index, -1]] b := by
  obtain ⟨js, hjs, rfl⟩ := h
  rw [List.cons_append] at hr ⊢
  obtain ⟨hrOpen, hr'⟩ := hr
  obtain ⟨m, hrBody, hrClose⟩ := Code.Reads.append_iff.mp hr'
  obtain rfl : m = a + 1 + width options body := hjs.stop_eq hrBody
  exact ⟨_, js, rfl, hrOpen, ⟨hjs, hrBody⟩, hrClose⟩

/-- The body of a negative lookaround stands between a branch that leaves the lookaround behind
and the mark of negation. -/
theorem Laid.split_negative {body : Node} {behind rtl : Bool} {a b : Nat} {is : List Instruction}
    (h : Laid code options rtl a (.lookAround body true behind) is) (hr : code.Reads a is b) :
    ∃ back js,
      is = instruction options false a .setjump [] ::
        instruction options false (a + 1) .lazybranch [offsetWord (back + 1)] ::
          (js ++ [instruction options false back .backjump [],
            instruction options false (back + 1) .forejump []]) ∧
      code.instructionAt a = .ok (instruction options false a .setjump []) ∧
      code.instructionAt (a + 1) =
        .ok (instruction options false (a + 1) .lazybranch [offsetWord (back + 1)]) ∧
      (Laid code options behind (a + 3) body js ∧ code.Reads (a + 3) js back) ∧
      code.Reads back [instruction options false back .backjump [],
        instruction options false (back + 1) .forejump []] b := by
  obtain ⟨js, hjs, rfl⟩ := h
  rw [List.cons_append, List.cons_append] at hr ⊢
  obtain ⟨hrOpen, hrBranch, hr'⟩ := hr
  obtain ⟨m, hrBody, hrClose⟩ := Code.Reads.append_iff.mp hr'
  obtain rfl : m = a + 3 + width options body := hjs.stop_eq hrBody
  exact ⟨_, js, rfl, hrOpen, hrBranch, ⟨hjs, hrBody⟩, hrClose⟩

/-- The body of a positive lookaround stands between a mark of the position and the way back. -/
theorem Laid.split_positive {body : Node} {behind rtl : Bool} {a b : Nat} {is : List Instruction}
    (h : Laid code options rtl a (.lookAround body false behind) is) (hr : code.Reads a is b) :
    ∃ close js,
      is = instruction options false a .setjump [] ::
        instruction options false (a + 1) .setmark [] ::
          (js ++ [instruction options false close .getmark [],
            instruction options false (close + 1) .forejump []]) ∧
      code.instructionAt a = .ok (instruction options false a .setjump []) ∧
      code.instructionAt (a + 1) = .ok (instruction options false (a + 1) .setmark []) ∧
      (Laid code options behind (a + 2) body js ∧ code.Reads (a + 2) js close) ∧
      code.Reads close [instruction options false close .getmark [],
        instruction options false (close + 1) .forejump []] b := by
  obtain ⟨js, hjs, rfl⟩ := h
  rw [List.cons_append, List.cons_append] at hr ⊢
  obtain ⟨hrOpen, hrMark, hr'⟩ := hr
  obtain ⟨m, hrBody, hrClose⟩ := Code.Reads.append_iff.mp hr'
  obtain rfl : m = a + 2 + width options body := hjs.stop_eq hrBody
  exact ⟨_, js, rfl, hrOpen, hrMark, ⟨hjs, hrBody⟩, hrClose⟩

/-- The body of a repetition of more than a single character stands between what starts the
repetition and the branch that goes back. -/
theorem Laid.split_repetition {body : Node} (hsingle : single? options body = none) {rtl : Bool}
    {a b min : Nat} {max : Option Nat} {isLazy : Bool} {is : List Instruction}
    (h : Laid code options rtl a (.repetition body min max isLazy) is) (hr : code.Reads a is b) :
    ∃ start branch js, start = a + headWidth min max ∧
      is = headInstruction options rtl a min max ::
        (skipInstructions options rtl (a + openWidth min max) branch min ++
          (js ++ [tailInstruction options rtl start branch min max isLazy])) ∧
      code.Reads a (headInstruction options rtl a min max ::
        skipInstructions options rtl (a + openWidth min max) branch min) start ∧
      (Laid code options rtl start body js ∧ code.Reads start js branch) ∧
      code.Reads branch [tailInstruction options rtl start branch min max isLazy] b := by
  obtain ⟨js, hjs, rfl⟩ := (laid_repetition hsingle).mp h
  rw [List.append_assoc] at hr
  obtain ⟨m, hrHead, hr'⟩ := Code.Reads.append_iff.mp hr
  obtain ⟨m', hrBody, hrTail⟩ := Code.Reads.append_iff.mp hr'
  obtain rfl : m = a + headWidth min max := by
    rw [hrHead.stop_eq, List.map_cons, List.sum_cons, width_headInstruction,
      width_skipInstructions, headWidth]
  obtain rfl : m' = a + headWidth min max + width options body := hjs.stop_eq hrBody
  exact ⟨_, _, js, rfl, by rw [List.append_assoc, List.cons_append], hrHead, ⟨hjs, hrBody⟩, hrTail⟩

end

end PatternSampler.Layout
