import PatternSampler.CharClass.Choices
import PatternSampler.Generation.Config
import PatternSampler.Generation.Marks
import PatternSampler.Generation.Random
import PatternSampler.Program.Basic
/-!
# The machine

Runs a program forward: where a matcher would read text, the machine writes it.  Every choice is
made on the spot.  An alternation takes its first arm, an optional part is written as often as the
settings allow, an unbounded or lazy part contributes its minimum, and a negative lookaround is
skipped.  `step` executes one instruction and `run` repeats it; a program can run for ever, so
`run` takes the number of steps it may make and says when they are spent.
-/
set_option autoImplicit false

namespace PatternSampler

/-! ## Faults -/

/-- Why a run fails. -/
inductive GenerationError where
  /-- no character may be written -/
  | noChoice (offset : Nat) (opcode : Opcode)
  /-- a reference to a group that has captured nothing -/
  | unresolvedReference (offset : Nat) (group : Int32)
  /-- a loop branch without a loop count -/
  | noLoopCount (offset : Nat) (opcode : Opcode)
  /-- a group is closed that was never opened -/
  | noMark (offset : Nat) (opcode : Opcode)
  /-- a lookaround that is never closed -/
  | openLookaround (offset : Nat)
  | program (e : ProgramError)
  deriving DecidableEq, Repr

/-- The wording of a fault. -/
def GenerationError.message : GenerationError → String
  | noChoice offset opcode =>
    "no admissible character for " ++ opcode.name ++ " at offset " ++ Text.decimal offset
  | unresolvedReference offset group =>
    "backreference to group " ++ Text.signed group.toInt ++ " at offset " ++ Text.decimal offset
      ++ " has nothing captured"
  | noLoopCount offset opcode =>
    opcode.name ++ " at offset " ++ Text.decimal offset ++ " has no open loop count"
  | noMark offset opcode =>
    opcode.name ++ " at offset " ++ Text.decimal offset
      ++ " closes a group that was never opened"
  | openLookaround offset =>
    "lookaround opened at offset " ++ Text.decimal offset ++ " has no closing Forejump"
  | program e => e.message

/-! ## State -/

/-- The state of a run. -/
structure Machine where
  /-- the offset of the next instruction -/
  ip : Nat
  marks : Marks
  /-- the loop counts, innermost first -/
  counts : List Int
  rng : Rng
  deriving DecidableEq, Repr

namespace Machine

/-- The state before the first instruction. -/
def start (cfg : Config) : Machine := ⟨0, .empty, [], ⟨cfg.seed⟩⟩

end Machine

/-! ## Lookarounds -/

/-- Where a lookaround ends, and whether it is negative. -/
structure Extent where
  stop : Nat
  negative : Bool
  deriving DecidableEq, Repr

/-- Scans on from inside the lookaround opened at `opener`, at the offset `at_`, with `depth` inner
lookarounds open and `negative` telling whether a mark of negation has been met. -/
def Code.scanLookaround (code : Code) (opener : Nat) (at_ depth : Nat) (negative : Bool) :
    Except GenerationError Extent :=
  if at_ < code.words.size then
    match code.instructionAt at_ with
    | .error e => .error (.program e)
    | .ok i =>
      match i.opcode, depth with
      | .setjump, _ => scanLookaround code opener (at_ + i.width) (depth + 1) negative
      | .backjump, 0 => scanLookaround code opener (at_ + i.width) 0 true
      | .forejump, 0 => .ok ⟨at_ + i.width, negative⟩
      | .forejump, inner + 1 => scanLookaround code opener (at_ + i.width) inner negative
      | _, _ => scanLookaround code opener (at_ + i.width) depth negative
  else .error (.openLookaround opener)
  termination_by code.words.size - at_
  decreasing_by
    all_goals
      have := Code.width_pos i
      omega

/-- The extent of the lookaround opened at an offset. -/
def Code.lookaround (code : Code) (offset : Nat) : Except GenerationError Extent :=
  code.scanLookaround offset (offset + Opcode.setjump.width) 0 false

/-! ## One step -/

/-- How many characters a character instruction writes under a repetition cap. -/
def Instruction.copies (i : Instruction) (cap : UInt64) : Nat :=
  match i.opcode with
  | .chars _ .single => 1
  | .chars _ .exact => (i.operand 1).toInt.toNat
  | .chars _ .loop =>
    if i.operand 1 = unbounded then 0 else min (i.operand 1).toInt.toNat cap.toNat
  | _ => 0

/-- The last value of the innermost loop count at which the loop is left. -/
def Instruction.loopLimit (i : Instruction) (cap : UInt64) : Int :=
  match i.opcode with
  | .lazybranchcount => 0
  | _ => if i.operand 1 = unbounded then 0 else min (i.operand 1).toInt (min cap.toNat 2147483647)

namespace Machine

/-- Goes on with the instruction after `i`. -/
def next (m : Machine) (i : Instruction) : Machine := { m with ip := m.ip + i.width }

/-- Goes on at the target of a jump. -/
def jump (m : Machine) (i : Instruction) : Except GenerationError Machine :=
  let target := (i.operand 0).toInt
  if target < 0 then .error (.program (.jumpTarget i.offset i.opcode (i.operand 0)))
  else .ok { m with ip := target.toNat }

/-- Writes a text. -/
def write (m : Machine) (text : String) : Machine := { m with marks := m.marks.write text }

/-- Writes as many members of a class as the instruction asks for. -/
def draw (cfg : Config) (m : Machine) (i : Instruction) (cls : CharClass) :
    Except GenerationError Machine :=
  match i.copies cfg.repetitionCap with
  | 0 => .ok m
  | count + 1 =>
    match cls.choices? cfg.alphabet with
    | none => .error (.noChoice i.offset i.opcode)
    | some choices =>
      match m.rng.fill m.marks.current choices (count + 1) with
      | (none, _) => .error (.noChoice i.offset i.opcode)
      | (some text, rng) => .ok { m with marks := { m.marks with current := text }, rng }

/-- Closes the innermost group. -/
def close (m : Machine) (i : Instruction) (group : Option Int32) :
    Except GenerationError Machine :=
  match m.marks.pop? group with
  | none => .error (.noMark i.offset i.opcode)
  | some marks => .ok { m with marks }

/-- Goes on after a step that does not jump. -/
def andNext (i : Instruction) : Except GenerationError Machine → Except GenerationError Machine
  | .error e => .error e
  | .ok m => .ok (m.next i)

/-- Executes a loop branch: leaves the loop once its count has reached the limit, and goes back to
the body otherwise. -/
def branch (cfg : Config) (m : Machine) (i : Instruction) : Except GenerationError Machine :=
  match m.counts with
  | [] => .error (.noLoopCount i.offset i.opcode)
  | count :: outer =>
    if i.loopLimit cfg.repetitionCap ≤ count then .ok ({ m with counts := outer }.next i)
    else { m with counts := (count + 1) :: outer }.jump i

/-- Executes an instruction. -/
def exec (code : Code) (cfg : Config) (m : Machine) (i : Instruction) :
    Except GenerationError Machine :=
  match i.opcode with
  | .chars _ .lazyLoop => .ok (m.next i)
  | .chars .one _ =>
    match i.char? with
    | none => .error (.program (.character i.offset i.opcode (i.operand 0)))
    | some c =>
      .ok ((m.write (String.ofList (List.replicate (i.copies cfg.repetitionCap) c))).next i)
  | .chars .notOne _ =>
    match i.char? with
    | none => .error (.program (.character i.offset i.opcode (i.operand 0)))
    | some c => andNext i (m.draw cfg i (.notChar c))
  | .chars .set _ =>
    match code.class? (i.operand 0) with
    | none =>
      .error (.program (.classIndex i.offset i.opcode (i.operand 0) code.classes.size))
    | some cls => andNext i (m.draw cfg i cls)
  | .multi =>
    match code.string? (i.operand 0) with
    | none =>
      .error (.program (.stringIndex i.offset i.opcode (i.operand 0) code.strings.size))
    | some text => .ok ((m.write text).next i)
  | .ref =>
    match m.marks.capture? (i.operand 0) with
    | none => .error (.unresolvedReference i.offset (i.operand 0))
    | some text => .ok ((m.write text).next i)
  | .boundary | .ecmaBoundary =>
    .ok ((m.write (String.singleton cfg.boundary)).next i)
  | .nonboundary | .nonEcmaBoundary =>
    match m.rng.pick cfg.alphabet with
    | (none, _) => .error (.noChoice i.offset i.opcode)
    | (some c, rng) => .ok (({ m with rng }.write (String.singleton c)).next i)
  | .bol | .eol | .beginning | .start | .endZ | .endText => .ok (m.next i)
  | .nothing | .testref | .prune | .stop | .forejump | .backjump => .ok (m.next i)
  | .lazybranch => .ok (m.next i)
  | .setmark | .nullmark => .ok ({ m with marks := m.marks.push }.next i)
  | .capturemark => andNext i (m.close i (some (i.operand 0)))
  | .getmark | .branchmark | .lazybranchmark => andNext i (m.close i none)
  | .nullcount | .setcount =>
    .ok ({ m with counts := (i.operand 0).toInt :: m.counts }.next i)
  | .branchcount | .lazybranchcount => m.branch cfg i
  | .goto => m.jump i
  | .setjump =>
    match code.lookaround i.offset with
    | .error e => .error e
    | .ok extent => if extent.negative then .ok { m with ip := extent.stop } else .ok (m.next i)

/-- Executes the instruction at hand. -/
def step (code : Code) (cfg : Config) (m : Machine) : Except GenerationError Machine :=
  match code.instructionAt m.ip with
  | .error e => .error (.program e)
  | .ok i => m.exec code cfg i

/-! ## Runs -/

/-- Runs to the end of the code or to an error, in at most `fuel` steps; `none` if they are
spent before. -/
def run (code : Code) (cfg : Config) : Nat → Machine → Option (Except GenerationError Machine)
  | 0, _ => none
  | fuel + 1, m =>
    if m.ip < code.words.size then
      match m.step code cfg with
      | .error e => some (.error e)
      | .ok m => run code cfg fuel m
    else some (.ok m)

end Machine

/-- The text that a program writes, or the error it ends with; `none` if it has not ended after
`fuel` steps. -/
def Program.generate (p : Program) (cfg : Config) (fuel : Nat) :
    Option (Except GenerationError String) :=
  match Machine.run p.code cfg fuel (.start cfg) with
  | none => none
  | some (.error e) => some (.error e)
  | some (.ok m) => some (.ok m.marks.finish)

end PatternSampler
