import PatternSampler.CharClass.Display
import PatternSampler.Program.Basic
import PatternSampler.Text.Lines
import PatternSampler.Text.Quoted
/-!
# Listings

A program written out for a reader, one instruction a line: its offset, its modifiers, its opcode
and what its operands mean.
-/
set_option autoImplicit false

namespace PatternSampler

/-- A repetition count as listings show it. -/
def countText (n : Int32) : String := if n = unbounded then "inf" else Text.signed n.toInt

namespace Code

/-- What the operands of a character instruction mean, given the text of what it writes. -/
def charsDetail (label what : String) (i : Instruction) : Repetition → String
  | .single => label ++ " = " ++ what
  | _ => label ++ " = " ++ what ++ ", Rep = " ++ countText (i.operand 1)

/-- What the operands of an instruction mean; empty where there are none to explain. -/
def detail (code : Code) (i : Instruction) : String :=
  match i.opcode with
  | .chars .set r =>
    charsDetail "Set" (((code.class? (i.operand 0)).map (·.display)).getD "?") i r
  | .chars _ r => charsDetail "Ch" ((i.char?.map Text.quoteChar).getD "?") i r
  | .multi => "String = " ++ Text.quote ((code.string? (i.operand 0)).getD "?")
  | .ref | .testref => "Index = " ++ Text.signed (i.operand 0).toInt
  | .capturemark =>
    "Index = " ++ Text.signed (i.operand 0).toInt ++ ", Unindex = "
      ++ Text.signed (i.operand 1).toInt
  | .nullcount | .setcount => "Value = " ++ Text.signed (i.operand 0).toInt
  | .branchcount | .lazybranchcount =>
    "Addr = " ++ Text.signed (i.operand 0).toInt ++ ", Limit = " ++ countText (i.operand 1)
  | .lazybranch | .branchmark | .lazybranchmark | .goto =>
    "Addr = " ++ Text.signed (i.operand 0).toInt
  | _ => ""

/-- One instruction on one line. -/
def describe (code : Code) (i : Instruction) : String :=
  let line := Text.padded 10 4 i.offset ++ " "
    ++ (if i.modifiers.rtl then "<" else " ")
    ++ (if i.modifiers.ci then "ci " else "   ")
    ++ Text.leftAligned 16 i.opcode.name
    ++ code.detail i
  String.ofList (Text.trimEnd Unicode.isBlank line.toList)

end Code

/-- A program's instructions, each on a line. -/
def Program.listing (p : Program) : String :=
  String.join (p.instructions.map fun i => p.code.describe i ++ "\n")

end PatternSampler
