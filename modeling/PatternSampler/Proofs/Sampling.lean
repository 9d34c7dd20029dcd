import PatternSampler.Proofs.Draws
import PatternSampler.Proofs.Placement
import PatternSampler.Generation.Machine
/-!
# What a tree writes

The text of a tree by recursion over the tree, without any code: `Node.sampled` carries the captured
texts and the random words along and puts the texts of the parts one after the other.  The only
trace of a code is in the errors, which name the instruction that they come from; a `Place` says
which one that is.
-/
set_option autoImplicit false

namespace PatternSampler

/-! ## Writers -/

/-- What is carried along: the texts that groups have captured, and the random words to come. -/
structure Memory where
  captures : Captures
  rng : Rng

/-- A text, and what is carried on from there. -/
structure Written where
  text : String
  memory : Memory

/-- Writes a text or fails. -/
abbrev Writer : Type := Memory → Except GenerationError Written

namespace Writer

/-- Writes a fixed text. -/
def text (s : String) : Writer := fun mem => .ok ⟨s, mem⟩

/-- Writes nothing. -/
def nothing : Writer := text ""

/-- Writes one text, then another. -/
def andThen (f g : Writer) : Writer := fun mem =>
  match f mem with
  | .error e => .error e
  | .ok first =>
    match g first.memory with
    | .error e => .error e
    | .ok second => .ok ⟨first.text ++ second.text, second.memory⟩

/-- Writes `n` texts in a row. -/
def times (f : Writer) : Nat → Writer
  | 0 => nothing
  | n + 1 => f.andThen (times f n)

/-- Writes one of the given characters, drawn at random. -/
def pick (choices : List Char) (e : GenerationError) : Writer := fun mem =>
  match mem.rng.pick choices with
  | (none, _) => .error e
  | (some c, rng) => .ok ⟨String.singleton c, { mem with rng }⟩

/-- Writes a member of a class, drawn at random from those that the alphabet offers. -/
def member (cfg : Config) (cls : CharClass) (e : GenerationError) : Writer :=
  match cls.choices? cfg.alphabet with
  | none => fun _ => .error e
  | some choices => pick choices e

/-- Copies the text captured by a group. -/
def reference (group : Int32) (e : GenerationError) : Writer := fun mem =>
  match mem.captures.get? group with
  | none => .error e
  | some s => .ok ⟨s, mem⟩

/-- Remembers the text that is written under the number of a group. -/
def captured (f : Writer) (group : Int32) : Writer := fun mem =>
  match f mem with
  | .error e => .error e
  | .ok w => .ok { w with memory.captures := w.memory.captures.put group w.text }

theorem andThen_of_error {f : Writer} {mem : Memory} {e : GenerationError} (h : f mem = .error e)
    (g : Writer) : f.andThen g mem = .error e := by
  simp only [andThen, h]

theorem andThen_of_ok {f : Writer} {mem : Memory} {first : Written} (h : f mem = .ok first)
    (g : Writer) :
    f.andThen g mem =
      match g first.memory with
      | .error e => .error e
      | .ok second => .ok ⟨first.text ++ second.text, second.memory⟩ := by
  simp only [andThen, h]

theorem pick_of_some {choices : List Char} {mem : Memory} {c : Char} {r : Rng}
    (h : mem.rng.pick choices = (some c, r)) (e : GenerationError) :
    pick choices e mem = .ok ⟨String.singleton c, { mem with rng := r }⟩ := by
  simp only [pick, h]

theorem pick_of_none {choices : List Char} {mem : Memory} {r : Rng}
    (h : mem.rng.pick choices = (none, r)) (e : GenerationError) :
    pick choices e mem = .error e := by
  simp only [pick, h]

@[simp] theorem nothing_andThen (f : Writer) : nothing.andThen f = f := by
  funext mem
  simp only [andThen, nothing, text]
  cases f mem with
  | error e => rfl
  | ok w => simp

@[simp] theorem andThen_nothing (f : Writer) : f.andThen nothing = f := by
  funext mem
  simp only [andThen, nothing, text]
  cases f mem with
  | error e => rfl
  | ok w => simp

theorem andThen_assoc (f g h : Writer) : (f.andThen g).andThen h = f.andThen (g.andThen h) := by
  funext mem
  simp only [andThen]
  cases f mem with
  | error e => rfl
  | ok first =>
    simp only
    cases g first.memory with
    | error e => rfl
    | ok second =>
      simp only
      cases h second.memory with
      | error e => rfl
      | ok third => simp [String.append_assoc]

@[simp] theorem times_zero (f : Writer) : f.times 0 = nothing := rfl

theorem times_succ (f : Writer) (n : Nat) : f.times (n + 1) = f.andThen (f.times n) := rfl

@[simp] theorem times_one (f : Writer) : f.times 1 = f := by
  rw [times_succ, times_zero, andThen_nothing]

theorem times_add (f : Writer) (n k : Nat) : f.times (n + k) = (f.times n).andThen (f.times k) := by
  induction n with
  | zero => rw [Nat.zero_add, times_zero, nothing_andThen]
  | succ n ih => rw [Nat.add_right_comm, times_succ, times_succ, ih, andThen_assoc]

end Writer

/-! ## Trees -/

/-- The instruction that errors of a node are reported for. -/
structure Place where
  offset : Nat
  repetition : Repetition

/-- The place of a node on its own. -/
def Place.at_ (offset : Nat) : Place := ⟨offset, .single⟩

/-- The error of a place that finds nothing to write from. -/
def Place.noChoice (place : Place) (matter : Matter) : GenerationError :=
  .noChoice place.offset (.chars matter place.repetition)

/-- How many copies a repetition has to write, as far as an operand can say. -/
def mandatoryCopies (min : Nat) : Nat := Nat.min min 2147483647

/-- How many copies a repetition writes beyond those it has to. -/
def optionalCopies (cfg : Config) (min : Nat) (max : Option Nat) (isLazy : Bool) : Nat :=
  match max with
  | none => 0
  | some max =>
    if isLazy ∨ 2147483647 ≤ max - min then 0 else Nat.min (max - min) cfg.repetitionCap.toNat

/-- Where the mandatory copies of a repetition are written that starts at `a`. -/
def mandatoryPlace (options : PatternOptions) (a : Nat) (body : Node) (min : Nat)
    (max : Option Nat) : Place :=
  if (Layout.single? options body).isNone then .at_ (a + Layout.headWidth min max)
  else if min = 1 ∧ max = some 1 then .at_ a
  else ⟨a, .exact⟩

/-- Where the optional copies are written. -/
def optionalPlace (options : PatternOptions) (a : Nat) (body : Node) (min : Nat)
    (max : Option Nat) : Place :=
  if (Layout.single? options body).isNone then .at_ (a + Layout.headWidth min max)
  else ⟨a + if 0 < min then 3 else 0, .loop⟩

namespace Node

mutual

/-- What a node writes that is laid out from a place on. -/
def sample (options : PatternOptions) (cfg : Config) (place : Place) : Node → Writer
  | .empty => .nothing
  | .char c => .text (String.singleton c)
  | .any =>
    if options.dotMatchesNewLine then .member cfg .any (place.noChoice .set)
    else .member cfg (.notChar '\n') (place.noChoice .notOne)
  | .charClass cls => .member cfg cls (place.noChoice .set)
  | .concat items => sampleItems options cfg place.offset false items
  | .alternate arms => sampleFirst options cfg place.offset arms
  | .group body => sample options cfg place body
  | .capture index body =>
    (sample options cfg (.at_ (place.offset + 1)) body).captured (Tables.indexWord index)
  | .repetition body min max isLazy =>
    ((sample options cfg (mandatoryPlace options place.offset body min max) body).times
      (mandatoryCopies min)).andThen
    ((sample options cfg (optionalPlace options place.offset body min max) body).times
      (optionalCopies cfg min max isLazy))
  | .backref index =>
    .reference (Tables.indexWord index)
      (.unresolvedReference place.offset (Tables.indexWord index))
  | .assert .wordBoundary => .text (String.singleton cfg.boundary)
  | .assert .notWordBoundary => .pick cfg.alphabet (.noChoice place.offset .nonboundary)
  | .assert _ => .nothing
  | .lookAround body negative _ =>
    if negative then .nothing else sample options cfg (.at_ (place.offset + 2)) body

/-- What the items of a sequence write; `inRun` tells whether the item before was a character. -/
def sampleItems (options : PatternOptions) (cfg : Config) (a : Nat) (inRun : Bool) :
    List Node → Writer
  | [] => .nothing
  | item :: rest =>
    (sample options cfg (.at_ a) item).andThen
      (sampleItems options cfg
        (a + if inRun && Layout.isChar item then 0 else Layout.width options item)
        (Layout.isChar item) rest)

/-- What an alternation writes: its first arm, which has a branch before it if there are others. -/
def sampleFirst (options : PatternOptions) (cfg : Config) (a : Nat) : List Node → Writer
  | [] => .nothing
  | [arm] => sample options cfg (.at_ a) arm
  | arm :: _ :: _ => sample options cfg (.at_ (a + 2)) arm

end

/-- The text of a whole tree, which comes after three words of its program. -/
def sampled (options : PatternOptions) (cfg : Config) (root : Node) :
    Except GenerationError String :=
  match root.sample options cfg (.at_ 3) ⟨[], ⟨cfg.seed⟩⟩ with
  | .error e => .error e
  | .ok w => .ok w.text

end Node

end PatternSampler
