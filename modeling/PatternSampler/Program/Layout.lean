import PatternSampler.Pattern.Options
import PatternSampler.Pattern.Parser
import PatternSampler.Program.Basic
/-!
# Laying a pattern out as code

A pattern tree becomes a flat stream of words in the layout of a backtracking matcher.  The code of
a node depends on the offset it starts at, since jumps are absolute, and on the tables collected by
then, in which a class or a string that is there already is not entered again.  Layout goes from
left to right and puts the parts of a node together once their lengths are known.
-/
set_option autoImplicit false

namespace PatternSampler

/-! ## Tables -/

/-- The classes and strings that a code refers to. -/
structure Tables where
  classes : List CharClass
  strings : List String
  deriving DecidableEq, Repr

namespace Tables

/-- Tables without entries. -/
def empty : Tables := ⟨[], []⟩

/-- A number as an operand: wrapped to 32 bits. -/
def indexWord (n : Nat) : Int32 := Int32.ofNat n

/-- The index of an entry of a list, which is added at the end if it is not there. -/
def intern {α : Type} [DecidableEq α] (entries : List α) (entry : α) : Nat × List α :=
  match entries.findIdx? (· = entry) with
  | some index => (index, entries)
  | none => (entries.length, entries ++ [entry])

/-- The index of a class. -/
def internClass (t : Tables) (cls : CharClass) : Nat × Tables :=
  let (index, classes) := intern t.classes cls
  (index, { t with classes })

/-- The index of a string. -/
def internString (t : Tables) (s : String) : Nat × Tables :=
  let (index, strings) := intern t.strings s
  (index, { t with strings })

end Tables

namespace Layout

/-! ## Instructions -/

/-- Whether the opcode compares characters, so that ignoring case concerns it. -/
def comparesText : Opcode → Bool
  | .chars .. | .multi | .ref => true
  | _ => false

/-- The words of an instruction. -/
def emit (options : PatternOptions) (rtl : Bool) (op : Opcode) (operands : List Int32) :
    List Int32 :=
  op.word rtl (options.caseInsensitive && comparesText op) :: operands

/-- A repetition count as an operand; counts that do not fit become the unbounded one. -/
def countWord (n : Nat) : Int32 := if n ≤ 2147483647 then Int32.ofNat n else unbounded

/-- An offset as an operand. -/
def offsetWord (n : Nat) : Int32 := Int32.ofNat n

/-! ## Single characters -/

/-- What a node that reads a single character reads. -/
inductive Single where
  | one (c : Char)
  | notOne (c : Char)
  | member (cls : CharClass)
  deriving DecidableEq, Repr

/-- What the node reads, if it reads a single character. -/
def single? (options : PatternOptions) : Node → Option Single
  | .char c => some (.one c)
  | .any => some (if options.dotMatchesNewLine then .member .any else .notOne '\n')
  | .charClass cls => some (.member cls)
  | .group body => single? options body
  | _ => none

/-- The opcode matter and the operand of what is read; a class enters the tables. -/
def Single.operand (t : Tables) : Single → (Matter × Int32) × Tables
  | .one c => ((.one, Int32.ofNat c.toNat), t)
  | .notOne c => ((.notOne, Int32.ofNat c.toNat), t)
  | .member cls =>
    let (index, t) := t.internClass cls
    ((.set, Tables.indexWord index), t)

/-- A single character from `min` to `max` times: the mandatory copies, then the optional ones. -/
def layoutSingle (options : PatternOptions) (rtl : Bool) (t : Tables) (s : Single) (min : Nat)
    (max : Option Nat) (isLazy : Bool) : List Int32 × Tables :=
  let ((matter, operand), t) := s.operand t
  let optional : Opcode := .chars matter (if isLazy then .lazyLoop else .loop)
  if min = 1 ∧ max = some 1 then
    (emit options rtl (.chars matter .single) [operand], t)
  else
    let mandatory :=
      if 0 < min then emit options rtl (.chars matter .exact) [operand, countWord min] else []
    match max with
    | some max =>
      if max = min then (mandatory, t)
      else (mandatory ++ emit options rtl optional [operand, countWord (max - min)], t)
    | none => (mandatory ++ emit options rtl optional [operand, unbounded], t)

/-! ## Strings, assertions, frames -/

/-- A run of literal characters: nothing, a character or a string of the table. -/
def layoutRun (options : PatternOptions) (rtl : Bool) (t : Tables) : List Char → List Int32 × Tables
  | [] => ([], t)
  | [c] => (emit options rtl (.chars .one .single) [Int32.ofNat c.toNat], t)
  | cs =>
    let (index, t) := t.internString (String.ofList cs)
    (emit options rtl .multi [Tables.indexWord index], t)

/-- The opcode of an assertion. -/
def anchorOpcode (options : PatternOptions) : Anchor → Opcode
  | .lineStart => if options.multiLine then .bol else .beginning
  | .lineEnd => if options.multiLine then .eol else .endZ
  | .textStart => .beginning
  | .textEnd => .endText
  | .textEndNewline => .endZ
  | .searchStart => .start
  | .wordBoundary => .boundary
  | .notWordBoundary => .nonboundary

/-- Whether a repetition of more than a character keeps a loop count. -/
def isCounted (min : Nat) (max : Option Nat) : Bool := max.isSome || decide (1 < min)

/-- The instruction before the body of a repetition, without the jump over it. -/
def loopHead (options : PatternOptions) (rtl : Bool) (min : Nat) (max : Option Nat) : List Int32 :=
  if isCounted min max then
    if min = 0 then emit options rtl .nullcount [0]
    else emit options rtl .setcount [1 - countWord min]
  else if min = 0 then emit options rtl .nullmark []
  else emit options rtl .setmark []

/-- The instruction after the body of a repetition, which starts at `body`. -/
def loopTail (options : PatternOptions) (rtl : Bool) (body min : Nat) (max : Option Nat)
    (isLazy : Bool) : List Int32 :=
  if isCounted min max then
    let limit := match max with
      | some max => countWord (max - min)
      | none => unbounded
    emit options rtl (if isLazy then .lazybranchcount else .branchcount) [offsetWord body, limit]
  else emit options rtl (if isLazy then .lazybranchmark else .branchmark) [offsetWord body]

/-- How many words the arms of an alternation take: all but the last have a branch before them and
a jump after them. -/
def armsWidth : List (List Int32) → Nat
  | [] => 0
  | [last] => last.length
  | arm :: rest => arm.length + 4 + armsWidth rest

/-- Puts the arms of an alternation together, from the offset `base`, with the offset `exit` after
all of them. -/
def joinArms (options : PatternOptions) (rtl : Bool) (exit : Nat) :
    Nat → List (List Int32) → List Int32
  | _, [] => []
  | _, [last] => last
  | base, arm :: rest =>
    emit options rtl .lazybranch [offsetWord (base + arm.length + 4)]
      ++ arm
      ++ emit options rtl .goto [offsetWord exit]
      ++ joinArms options rtl exit (base + arm.length + 4) rest

/-! ## Nodes -/

mutual

/-- The code of a node that starts at the offset `base`. -/
def layoutNode (options : PatternOptions) (rtl : Bool) (base : Nat) (t : Tables) :
    Node → List Int32 × Tables
  | .empty => ([], t)
  | .char c => layoutSingle options rtl t (.one c) 1 (some 1) false
  | .any =>
    layoutSingle options rtl t
      (if options.dotMatchesNewLine then .member .any else .notOne '\n') 1 (some 1) false
  | .charClass cls => layoutSingle options rtl t (.member cls) 1 (some 1) false
  | .concat items => layoutItems options rtl base t [] items
  | .alternate arms =>
    let (codes, t) := layoutArms options rtl base t arms
    (joinArms options rtl (base + armsWidth codes) base codes, t)
  | .group body => layoutNode options rtl base t body
  | .capture index body =>
    let (code, t) := layoutNode options rtl (base + 1) t body
    (emit options rtl .setmark [] ++ code
      ++ emit options rtl .capturemark [Tables.indexWord index, -1], t)
  | .repetition body min max isLazy =>
    match single? options body with
    | some s => layoutSingle options rtl t s min max isLazy
    | none =>
      let head := loopHead options rtl min max
      let start := base + head.length + (if min = 0 then 2 else 0)
      let (code, t) := layoutNode options rtl start t body
      let skip :=
        if min = 0 then emit options rtl .goto [offsetWord (start + code.length)] else []
      (head ++ skip ++ code ++ loopTail options rtl start min max isLazy, t)
  | .backref group => (emit options rtl .ref [Tables.indexWord group], t)
  | .assert anchor => (emit options rtl (anchorOpcode options anchor) [], t)
  | .lookAround body negative behind =>
    if negative then
      let (code, t) := layoutNode options behind (base + 3) t body
      (emit options false .setjump []
        ++ emit options false .lazybranch [offsetWord (base + 3 + code.length + 1)]
        ++ code
        ++ emit options false .backjump []
        ++ emit options false .forejump [], t)
    else
      let (code, t) := layoutNode options behind (base + 2) t body
      (emit options false .setjump []
        ++ emit options false .setmark []
        ++ code
        ++ emit options false .getmark []
        ++ emit options false .forejump [], t)

/-- The code of the items of a sequence, after a run of literal characters, latest first, that has
been read but not laid out. -/
def layoutItems (options : PatternOptions) (rtl : Bool) (base : Nat) (t : Tables)
    (run : List Char) : List Node → List Int32 × Tables
  | [] => layoutRun options rtl t run.reverse
  | .char c :: rest => layoutItems options rtl base t (c :: run) rest
  | item :: rest =>
    let (before, t) := layoutRun options rtl t run.reverse
    let (code, t) := layoutNode options rtl (base + before.length) t item
    let (after, t) := layoutItems options rtl (base + before.length + code.length) t [] rest
    (before ++ code ++ after, t)

/-- The codes of the arms of an alternation, each at the offset that `joinArms` puts it at. -/
def layoutArms (options : PatternOptions) (rtl : Bool) (base : Nat) (t : Tables) :
    List Node → List (List Int32) × Tables
  | [] => ([], t)
  | [last] =>
    let (code, t) := layoutNode options rtl base t last
    ([code], t)
  | arm :: next :: rest =>
    let (code, t) := layoutNode options rtl (base + 2) t arm
    let (codes, t) := layoutArms options rtl (base + code.length + 4) t (next :: rest)
    (code :: codes, t)

end

/-! ## Patterns -/

/-- The code of a whole tree: group 0 around it, and a branch to the end before it. -/
def layoutRoot (options : PatternOptions) (root : Node) : Code :=
  let (code, t) := layoutNode options false 3 .empty root
  let words :=
    emit options false .lazybranch [offsetWord (3 + code.length + 3)]
      ++ emit options false .setmark []
      ++ code
      ++ emit options false .capturemark [0, -1]
      ++ emit options false .stop []
  ⟨words.toArray, t.classes.toArray, t.strings.toArray⟩

end Layout

/-- The program of a tree. -/
def Program.ofNode (options : PatternOptions) (root : Node) : Except ProgramError Program :=
  ofCode (Layout.layoutRoot options root)

/-- Why a pattern has no program. -/
inductive CompileError where
  | pattern (e : PatternError)
  | program (e : ProgramError)
  deriving DecidableEq, Repr

/-- The wording of a compile error. -/
def CompileError.message : CompileError → String
  | .pattern e => e.message
  | .program e => e.message

/-- The program of a pattern given as text. -/
def Program.ofSource (options : PatternOptions) (source : List Char) :
    Except CompileError Program :=
  match parse source with
  | .error e => .error (.pattern e)
  | .ok p =>
    match ofNode options p.root with
    | .error e => .error (.program e)
    | .ok program => .ok program

end PatternSampler
