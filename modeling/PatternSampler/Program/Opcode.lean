/-!
# Opcodes

The operations of a program, their numbers and the shape of their instructions.  A code word holds
an opcode's number in its low six bits and modifier flags above them.
-/
set_option autoImplicit false

namespace PatternSampler

/-- What a character instruction writes. -/
inductive Matter where
  /-- a given character -/
  | one
  /-- any character but a given one -/
  | notOne
  /-- a member of a class -/
  | set
  deriving DecidableEq, Repr

/-- How often a character instruction writes. -/
inductive Repetition where
  /-- exactly as often as it says -/
  | exact
  /-- at most as often as it says -/
  | loop
  /-- as a loop, but preferring none -/
  | lazyLoop
  /-- once -/
  | single
  deriving DecidableEq, Repr

/-- An operation. -/
inductive Opcode where
  | chars (matter : Matter) (repetition : Repetition)
  /-- writes a string of the table -/
  | multi
  /-- writes what a group captured -/
  | ref
  | bol
  | eol
  | boundary
  | nonboundary
  | beginning
  | start
  | endZ
  | endText
  | nothing
  /-- tries what follows, then the target -/
  | lazybranch
  /-- repeats from the target while a mark moves on -/
  | branchmark
  | lazybranchmark
  /-- starts a loop count whose body comes later -/
  | nullcount
  /-- starts a loop count before its body -/
  | setcount
  /-- repeats from the target while the loop count is below the limit -/
  | branchcount
  | lazybranchcount
  | nullmark
  /-- opens a segment of text -/
  | setmark
  /-- closes a segment and remembers it under a group number -/
  | capturemark
  | getmark
  /-- opens a lookaround -/
  | setjump
  /-- marks a lookaround as negative -/
  | backjump
  /-- closes a lookaround -/
  | forejump
  | testref
  | goto
  | prune
  | stop
  | ecmaBoundary
  | nonEcmaBoundary
  deriving DecidableEq, Repr

namespace Opcode

/-- All opcodes in the order of their numbers. -/
def all : List Opcode := [
  chars .one .exact, chars .notOne .exact, chars .set .exact,
  chars .one .loop, chars .notOne .loop, chars .set .loop,
  chars .one .lazyLoop, chars .notOne .lazyLoop, chars .set .lazyLoop,
  chars .one .single, chars .notOne .single, chars .set .single,
  multi, ref, bol, eol, boundary, nonboundary, beginning, start, endZ, endText, nothing,
  lazybranch, branchmark, lazybranchmark, nullcount, setcount, branchcount, lazybranchcount,
  nullmark, setmark, capturemark, getmark, setjump, backjump, forejump, testref, goto, prune,
  stop, ecmaBoundary, nonEcmaBoundary]

/-- The opcode with a given number. -/
def ofNumber? (n : Nat) : Option Opcode := all[n]?

/-- The number of an opcode. -/
def number : Opcode → Nat
  | chars .one .exact => 0
  | chars .notOne .exact => 1
  | chars .set .exact => 2
  | chars .one .loop => 3
  | chars .notOne .loop => 4
  | chars .set .loop => 5
  | chars .one .lazyLoop => 6
  | chars .notOne .lazyLoop => 7
  | chars .set .lazyLoop => 8
  | chars .one .single => 9
  | chars .notOne .single => 10
  | chars .set .single => 11
  | multi => 12
  | ref => 13
  | bol => 14
  | eol => 15
  | boundary => 16
  | nonboundary => 17
  | beginning => 18
  | start => 19
  | endZ => 20
  | endText => 21
  | nothing => 22
  | lazybranch => 23
  | branchmark => 24
  | lazybranchmark => 25
  | nullcount => 26
  | setcount => 27
  | branchcount => 28
  | lazybranchcount => 29
  | nullmark => 30
  | setmark => 31
  | capturemark => 32
  | getmark => 33
  | setjump => 34
  | backjump => 35
  | forejump => 36
  | testref => 37
  | goto => 38
  | prune => 39
  | stop => 40
  | ecmaBoundary => 41
  | nonEcmaBoundary => 42

theorem ofNumber?_number (op : Opcode) : ofNumber? op.number = some op := by
  cases op with
  | chars m r => cases m <;> cases r <;> rfl
  | _ => rfl

theorem number_of_ofNumber? {n : Nat} {op : Opcode} (h : ofNumber? n = some op) :
    op.number = n := by
  have hn : n < all.length := by
    simp only [ofNumber?, List.getElem?_eq_some_iff] at h
    exact h.1
  have hall : ∀ k, k < all.length → ∀ o, ofNumber? k = some o → o.number = k := by decide
  exact hall n hn op h

/-- How often the opcode writes characters, if it is a character instruction. -/
def repetition? : Opcode → Option Repetition
  | chars _ r => some r
  | _ => none

/-- How many operands follow the code word. -/
def operandCount : Opcode → Nat
  | chars _ .single => 1
  | chars _ _ => 2
  | multi | ref | testref | goto | nullcount | setcount | lazybranch | branchmark
  | lazybranchmark | prune => 1
  | capturemark | branchcount | lazybranchcount => 2
  | _ => 0

/-- How many words an instruction takes. -/
def width (op : Opcode) : Nat := 1 + op.operandCount

/-- Whether the first operand is the offset of an instruction to go on with. -/
def isJump : Opcode → Bool
  | lazybranch | branchmark | lazybranchmark | branchcount | lazybranchcount | goto => true
  | _ => false

/-- Whether the opcode may jump back: the branches of loops may. -/
def jumpsBack : Opcode → Bool
  | branchmark | lazybranchmark | branchcount | lazybranchcount => true
  | _ => false

/-- The opcode's name. -/
def name : Opcode → String
  | chars .one .exact => "Onerep"
  | chars .notOne .exact => "Notonerep"
  | chars .set .exact => "Setrep"
  | chars .one .loop => "Oneloop"
  | chars .notOne .loop => "Notoneloop"
  | chars .set .loop => "Setloop"
  | chars .one .lazyLoop => "Onelazy"
  | chars .notOne .lazyLoop => "Notonelazy"
  | chars .set .lazyLoop => "Setlazy"
  | chars .one .single => "One"
  | chars .notOne .single => "Notone"
  | chars .set .single => "Set"
  | multi => "Multi"
  | ref => "Ref"
  | bol => "Bol"
  | eol => "Eol"
  | boundary => "Boundary"
  | nonboundary => "Nonboundary"
  | beginning => "Beginning"
  | start => "Start"
  | endZ => "EndZ"
  | endText => "End"
  | nothing => "Nothing"
  | lazybranch => "Lazybranch"
  | branchmark => "Branchmark"
  | lazybranchmark => "Lazybranchmark"
  | nullcount => "Nullcount"
  | setcount => "Setcount"
  | branchcount => "Branchcount"
  | lazybranchcount => "Lazybranchcount"
  | nullmark => "Nullmark"
  | setmark => "Setmark"
  | capturemark => "Capturemark"
  | getmark => "Getmark"
  | setjump => "Setjump"
  | backjump => "Backjump"
  | forejump => "Forejump"
  | testref => "Testref"
  | goto => "Goto"
  | prune => "Prune"
  | stop => "Stop"
  | ecmaBoundary => "ECMABoundary"
  | nonEcmaBoundary => "NonECMABoundary"

end Opcode

/-! ## Code words -/

/-- The flags of a code word: the word without its opcode number. -/
structure Modifiers where
  bits : Int32
  deriving DecidableEq, Repr

namespace Modifiers

/-- The flag of instructions that read the text from right to left. -/
def rtlFlag : Int32 := 64

/-- The flag of instructions that ignore case. -/
def ciFlag : Int32 := 512

/-- The flags of a code word. -/
def ofWord (word : Int32) : Modifiers := ⟨word &&& ~~~63⟩

/-- Whether the instruction reads from right to left. -/
def rtl (m : Modifiers) : Bool := m.bits &&& rtlFlag != 0

/-- Whether the instruction ignores case. -/
def ci (m : Modifiers) : Bool := m.bits &&& ciFlag != 0

end Modifiers

/-- The opcode that a code word holds in its low six bits. -/
def Opcode.ofWord? (word : Int32) : Option Opcode := ofNumber? (word.toUInt32.toNat % 64)

/-- The code word of an opcode, with the given flags set. -/
def Opcode.word (op : Opcode) (rtl ci : Bool) : Int32 :=
  Int32.ofNat op.number ||| (if rtl then Modifiers.rtlFlag else 0)
    ||| (if ci then Modifiers.ciFlag else 0)

end PatternSampler
