import PatternSampler.CharClass.Basic
import PatternSampler.Program.Opcode
import PatternSampler.Text.Numeral
/-!
# Programs

A `Code` is a stream of words with the tables that its operands refer to.  A `Program` is a code
that has been checked: it splits into whole instructions with known opcodes, and each instruction
meets the rule for its operands.  `Code.check` reports the first fault, and faults of the split
come before faults of operands.
-/
set_option autoImplicit false

namespace PatternSampler

/-! ## Instructions -/

/-- The repetition count that stands for "no upper bound". -/
def unbounded : Int32 := 2147483647

/-- An instruction and the offset of its code word. -/
structure Instruction where
  offset : Nat
  opcode : Opcode
  modifiers : Modifiers
  operands : List Int32
  deriving DecidableEq, Repr

namespace Instruction

/-- How many words the instruction takes. -/
def width (i : Instruction) : Nat := i.opcode.width

/-- The operand at a position, or zero where there is none. -/
def operand (i : Instruction) (k : Nat) : Int32 := i.operands.getD k 0

/-- The character that the first operand stands for. -/
def char? (i : Instruction) : Option Char :=
  let value := (i.operand 0).toInt
  if value < 0 then none else Text.scalar? value.toNat

end Instruction

/-! ## Faults -/

/-- Why a code is no program. -/
inductive ProgramError where
  | unknownOpcode (offset : Nat) (word : Int32)
  | truncated (offset : Nat) (opcode : Opcode)
  | classIndex (offset : Nat) (opcode : Opcode) (index : Int32) (size : Nat)
  | stringIndex (offset : Nat) (opcode : Opcode) (index : Int32) (size : Nat)
  | character (offset : Nat) (opcode : Opcode) (value : Int32)
  | negativeCount (offset : Nat) (opcode : Opcode) (count : Int32)
  | jumpTarget (offset : Nat) (opcode : Opcode) (target : Int32)
  deriving DecidableEq, Repr

/-- The wording of a fault. -/
def ProgramError.message : ProgramError → String
  | unknownOpcode offset word =>
    "unknown opcode " ++ Text.signed word.toInt ++ " at offset " ++ Text.decimal offset
  | truncated offset opcode =>
    opcode.name ++ " at offset " ++ Text.decimal offset ++ " is missing operands"
  | classIndex offset opcode index size =>
    opcode.name ++ " at offset " ++ Text.decimal offset ++ " refers to class "
      ++ Text.signed index.toInt ++ ", but the program has " ++ Text.decimal size
  | stringIndex offset opcode index size =>
    opcode.name ++ " at offset " ++ Text.decimal offset ++ " refers to string "
      ++ Text.signed index.toInt ++ ", but the program has " ++ Text.decimal size
  | character offset opcode value =>
    opcode.name ++ " at offset " ++ Text.decimal offset ++ " carries " ++ Text.signed value.toInt
      ++ ", which is not a character"
  | negativeCount offset opcode count =>
    opcode.name ++ " at offset " ++ Text.decimal offset ++ " has negative repeat count "
      ++ Text.signed count.toInt
  | jumpTarget offset opcode target =>
    opcode.name ++ " at offset " ++ Text.decimal offset ++ " cannot jump to "
      ++ Text.signed target.toInt

/-! ## Codes -/

/-- A stream of code words and the tables that operands refer to. -/
structure Code where
  words : Array Int32
  classes : Array CharClass
  strings : Array String
  deriving DecidableEq, Repr

namespace Code

/-- The class that an operand refers to. -/
def class? (code : Code) (index : Int32) : Option CharClass :=
  if index.toInt < 0 then none else code.classes[index.toInt.toNat]?

/-- The string that an operand refers to. -/
def string? (code : Code) (index : Int32) : Option String :=
  if index.toInt < 0 then none else code.strings[index.toInt.toNat]?

/-- The instruction at an offset.  Beyond the stream there is no word, which reads as -1. -/
def instructionAt (code : Code) (offset : Nat) : Except ProgramError Instruction :=
  let word := code.words[offset]?.getD (-1)
  match Opcode.ofWord? word with
  | none => .error (.unknownOpcode offset word)
  | some opcode =>
    if offset + opcode.width ≤ code.words.size then
      .ok ⟨offset, opcode, .ofWord word,
        (code.words.extract (offset + 1) (offset + opcode.width)).toList⟩
    else .error (.truncated offset opcode)

theorem width_pos (i : Instruction) : 0 < i.width := by
  simp only [Instruction.width, Opcode.width]
  omega

/-- The instructions from an offset to the end of the stream. -/
def instructionsFrom (code : Code) (offset : Nat) : Except ProgramError (List Instruction) :=
  if offset < code.words.size then
    match code.instructionAt offset with
    | .error e => .error e
    | .ok i =>
      match instructionsFrom code (offset + i.width) with
      | .error e => .error e
      | .ok rest => .ok (i :: rest)
  else .ok []
  termination_by code.words.size - offset
  decreasing_by
    have := width_pos i
    omega

/-! ## Operand rules -/

/-- The fault of an instruction whose table index or character is wrong. -/
def operandFault? (code : Code) (i : Instruction) : Option ProgramError :=
  match i.opcode with
  | .chars .set _ =>
    match code.class? (i.operand 0) with
    | some _ => none
    | none => some (.classIndex i.offset i.opcode (i.operand 0) code.classes.size)
  | .chars _ _ =>
    match i.char? with
    | some _ => none
    | none => some (.character i.offset i.opcode (i.operand 0))
  | .multi =>
    match code.string? (i.operand 0) with
    | some _ => none
    | none => some (.stringIndex i.offset i.opcode (i.operand 0) code.strings.size)
  | _ => none

/-- The fault of an instruction with a negative repetition count. -/
def countFault? (i : Instruction) : Option ProgramError :=
  match i.opcode with
  | .chars _ .single => none
  | .chars _ _ =>
    if (i.operand 1).toInt < 0 then some (.negativeCount i.offset i.opcode (i.operand 1)) else none
  | _ => none

/-- Whether a jump may go to its target: the start of an instruction, and a later one unless the
jump closes a loop. -/
def jumpAllowed (instructions : List Instruction) (i : Instruction) : Bool :=
  let target := (i.operand 0).toInt
  decide (0 ≤ target)
    && instructions.any (fun j => decide (j.offset = target.toNat))
    && (i.opcode.jumpsBack || decide (i.offset < target.toNat))

/-- The fault of a jump that may not go to its target. -/
def jumpFault? (instructions : List Instruction) (i : Instruction) : Option ProgramError :=
  if i.opcode.isJump && !jumpAllowed instructions i then
    some (.jumpTarget i.offset i.opcode (i.operand 0))
  else none

/-- The first fault of an instruction among the given ones. -/
def fault? (code : Code) (instructions : List Instruction) (i : Instruction) :
    Option ProgramError :=
  match code.operandFault? i with
  | some e => some e
  | none =>
    match countFault? i with
    | some e => some e
    | none => jumpFault? instructions i

/-- The instructions of a code, or its first fault. -/
def check (code : Code) : Except ProgramError (List Instruction) :=
  match code.instructionsFrom 0 with
  | .error e => .error e
  | .ok instructions =>
    match instructions.findSome? (code.fault? instructions) with
    | some e => .error e
    | none => .ok instructions

end Code

/-! ## Programs -/

/-- A code that has been checked, with the instructions it splits into. -/
structure Program where
  code : Code
  instructions : List Instruction
  checked : code.check = .ok instructions

namespace Program

/-- The program of a code, or the code's first fault. -/
def ofCode (code : Code) : Except ProgramError Program :=
  match h : code.check with
  | .error e => .error e
  | .ok instructions => .ok ⟨code, instructions, h⟩

/-- How many words the code has. -/
def size (p : Program) : Nat := p.code.words.size

end Program

end PatternSampler
