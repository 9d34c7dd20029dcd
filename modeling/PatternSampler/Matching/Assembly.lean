import PatternSampler.Matching.Instruction
import PatternSampler.Matching.Shape
import PatternSampler.Matching.Spelling
import PatternSampler.Plain.Reader
import PatternSampler.Plain.Size
/-!
# Code of an expression

Lays out the code of an expression.  Whatever can be left to an automaton is; what comes before a
part that needs the machine is left to it only if its length is fixed, because its choices are not
taken back.
-/
set_option autoImplicit false

namespace PatternSampler.Matching

/-- Code that is still to be placed: by the address of its first instruction and the first free
slot, its instructions and the first slot free after it; `none` if it is refused. -/
abbrev Fragment : Type := Nat → Nat → Option (List Instruction × Nat)

namespace Fragment

/-! ## Combining code -/

/-- Code that does not depend on its place. -/
def ofList (code : List Instruction) : Fragment := fun _ slot => some (code, slot)

/-- Code that is refused. -/
def refused : Fragment := fun _ _ => none

/-- One piece of code after the other. -/
def andThen (f g : Fragment) : Fragment := fun start slot =>
  match f start slot with
  | none => none
  | some (first, slot) =>
    match g (start + first.length) slot with
    | none => none
    | some (second, slot) => some (first ++ second, slot)

/-- Pieces of code, one after the other. -/
def sequence (fs : List Fragment) : Fragment := fs.foldr andThen (ofList [])

/-- Code between an instruction before it and instructions after it.  Both may depend on where the
code starts, where everything ends, and on `slots` slots of their own, of which they get the
first. -/
def between (slots : Nat) (before : Nat → Nat → Nat → List Instruction)
    (after : Nat → Nat → Nat → List Instruction) (f : Fragment) : Fragment := fun start slot =>
  let lead := (before 0 0 0).length
  match f (start + lead) (slot + slots) with
  | none => none
  | some (code, free) =>
    let tail := (after 0 0 0).length
    let stop := start + lead + code.length + tail
    some (before (start + lead) stop slot ++ code ++ after (start + lead) stop slot, free)

/-- A choice between going on inside and going on outside. -/
def branch (isLazy : Bool) (inside outside : Nat) : Instruction :=
  if isLazy then .split outside inside else .split inside outside

/-- At most one copy. -/
def optional (isLazy : Bool) : Fragment → Fragment :=
  between 0 (fun start stop _ => [branch isLazy start stop]) fun _ _ _ => []

/-- Any number of copies. -/
def star (isLazy : Bool) : Fragment → Fragment :=
  between 0 (fun start stop _ => [branch isLazy start stop]) fun start _ _ => [.jump (start - 1)]

/-- At least one copy. -/
def plus (isLazy : Bool) : Fragment → Fragment :=
  between 0 (fun _ _ _ => []) fun start stop _ => [branch isLazy start stop]

/-- Copies that are counted. -/
def counted (min : Nat) (max : Option Nat) (isLazy : Bool) : Fragment → Fragment :=
  between 1 (fun _ stop slot => [.clear slot, .count min max isLazy stop slot])
    fun start _ _ => [.jump (start - 1)]

/-- Copies that are counted and have to take text. -/
def countedMoves (min : Nat) (isLazy : Bool) : Fragment → Fragment :=
  between 2 (fun _ stop slot => [.clear slot, .countMoves min isLazy stop slot (slot + 1)])
    fun start _ _ => [.jump (start - 1)]

/-- A repetition of code; `needsText` tells whether each copy takes text. -/
def repeated (needsText : Bool) (min : Nat) (max : Option Nat) (isLazy : Bool) :
    Fragment → Fragment :=
  match min, max with
  | 0, some 1 => optional isLazy
  | 0, none => if needsText then star isLazy else countedMoves 0 isLazy
  | 1, none => if needsText then plus isLazy else countedMoves 1 isLazy
  | min, none => if needsText then counted min none isLazy else countedMoves min isLazy
  | min, max => counted min max isLazy

/-- A choice between pieces of code. -/
def choice : List Fragment → Fragment
  | [] => ofList []
  | [f] => f
  | f :: fs => fun start slot =>
    match f (start + 1) slot with
    | none => none
    | some (first, slot) =>
      let next := start + first.length + 2
      match choice fs next slot with
      | none => none
      | some (others, slot) =>
        some (.split (start + 1) next :: first ++ .jump (next + others.length) :: others, slot)

/-- Code of a group. -/
def group (index : Nat) : Fragment → Fragment :=
  between 0 (fun _ _ _ => [.save (2 * index)]) fun _ _ _ => [.save (2 * index + 1)]

/-- Code that looks whether something matches, and goes back to where it started. -/
def require : Fragment → Fragment :=
  between 1 (fun _ _ slot => [.save slot]) fun _ _ slot => [.restore slot]

/-- Code that looks whether nothing matches. -/
def forbid : Fragment → Fragment :=
  between 0 (fun start stop _ => [.split start stop]) fun _ _ _ => [.refuse]

/-- Code that looks around. -/
def look (negative : Bool) : Fragment → Fragment := if negative then forbid else require

/-- Code that is laid out and then never passed. -/
def blocked (f : Fragment) : Fragment := andThen (ofList [.never]) f

end Fragment

/-! ## What an automaton runs -/

namespace Expression

mutual

/-- The characters of an expression that stands for nothing else. -/
def literal? : Expression → Option (List Char)
  | .literal c false => some [c]
  | .concat items => literals? items
  | _ => none

/-- The characters of a sequence that stands for nothing else. -/
def literals? : List Expression → Option (List Char)
  | [] => some []
  | e :: es =>
    match e.literal?, literals? es with
    | some cs, some ds => some (cs ++ ds)
    | _, _ => none

end

/-- The plain expression of a sequence. -/
def plain? (items : List Expression) : Option Plain :=
  Plain.ofText .default (items.flatMap (·.spelling .arm))

/-- Code that leaves a sequence to an automaton. -/
def plainCode : List Expression → Fragment
  | [] => .ofList []
  | items =>
    match literals? items with
    | some cs => .ofList [.literal cs]
    | none =>
      match plain? items with
      | some e => if e.fits then .ofList [.plain e e.automaton] else .refused
      | none => .refused

/-! ## Looking behind -/

/-- Code for an expression that has to end here, given its code.  If its length is fixed, that is so
many characters back; else an automaton has to search. -/
def behindCode (references : List Nat) (e : Expression) (code : Fragment) : Fragment :=
  if e.isFixed then (Fragment.ofList [.goBack e.least]).andThen code
  else if e.isHard references then .refused
  else
    match plain? [e] with
    | some p => if p.fitsBackward then .ofList [.plainBehind p] else .refused
    | none => .refused

/-- Code that looks behind, given the code of an expression and, for a choice, that of its arms. The
arms of a choice are looked for one by one, unless they are of one length. -/
def lookBehindCode (references : List Nat) (negative : Bool) (code : Fragment)
    (armCodes : List Fragment) (e : Expression) : Fragment :=
  match e, e.isFixed with
  | .alternate arms, false =>
    let looks := (arms.zip armCodes).map fun (arm, code) =>
      Fragment.look negative (behindCode references arm code)
    if negative then .sequence looks else .choice looks
  | e, _ => .look negative (behindCode references e code)

/-! ## Expressions -/

/-- How many items of a sequence come before the first that an automaton cannot run with its choices
settled. -/
def frontLength (references : List Nat) (items : List Expression) : Nat :=
  (items.takeWhile fun e => e.isFixed && !e.isHard references).length

/-- How many items of a sequence come after the last that an automaton cannot run; where choices may
be taken back, with their choices settled. -/
def backLength (references : List Nat) (mayReturn : Bool) (items : List Expression) : Nat :=
  (items.reverse.takeWhile fun e =>
    !e.isHard references && (!mayReturn || e.isFixed)).length

mutual

/-- The code of an expression.  `mayReturn` tells that its choices may have to be taken back, and
`before` how many characters at least come before it in the innermost group. -/
def code (references : List Nat) (mayReturn : Bool) (before : Nat) (e : Expression) : Fragment :=
  if !mayReturn && !e.isHard references then plainCode [e]
  else
    match e with
    | .empty => .ofList []
    | .any newLines => .ofList [.any newLines]
    | .literal c folds => plainCode [.literal c folds]
    | .text source folds => plainCode [.text source folds]
    | .assert a => .ofList [.assert a]
    | .concat items =>
      let front := frontLength references items
      let back := backLength references mayReturn (items.drop front)
      let middle := items.length - front - back
      .sequence [plainCode (items.take front),
        .sequence (((itemCodes references before items).drop front).take middle),
        plainCode (items.drop (front + middle))]
    | .alternate arms => .choice (armCodes references mayReturn before arms)
    | .group index body => .group index (body.code references mayReturn 0)
    | .repetition body min max isLazy =>
      .repeated (decide (0 < body.least)) min max isLazy
        (body.code references (mayReturn || body.isHard references) before)
    | .backref number folds => .ofList [.copy (2 * number) folds]
    | .lookAround body negative behind =>
      let inner := body.code references false before
      if behind then
        lookBehindCode references negative inner (innerCodes references before body) body
      else .look negative inner
    | .searchStart => .ofList [.searchStart (before == 0)]
    | .matchStart => .ofList [.never]
    | .hasMatched _ => .ofList [.never]
    | .atomic body => .blocked (body.code references false before)
    | .conditional condition yes no =>
      .blocked (.sequence [condition.code references false before,
        yes.code references false before, no.code references false before])

/-- The codes of the items of a sequence, which the machine runs. -/
def itemCodes (references : List Nat) (before : Nat) : List Expression → List Fragment
  | [] => []
  | e :: es => e.code references true before :: itemCodes references (before + e.least) es

/-- The codes of the arms of a choice. -/
def armCodes (references : List Nat) (mayReturn : Bool) (before : Nat) :
    List Expression → List Fragment
  | [] => []
  | e :: es => e.code references mayReturn before :: armCodes references mayReturn before es

/-- The codes of the arms of an expression, if it is a choice. -/
def innerCodes (references : List Nat) (before : Nat) : Expression → List Fragment
  | .alternate arms => armCodes references false before arms
  | _ => []

end

/-- The code of a search. Unless the expression matches only at the start of a text, the search goes
on one character later after a failure. -/
def searchCode (references : List Nat) (e : Expression) : Fragment :=
  let search : Fragment :=
    if e.isAnchored then .ofList []
    else fun start slot => some ([.split (start + 3) (start + 1), .any true, .jump start], slot)
  .sequence [search, e.code references false 0, .ofList [.accept]]

end Expression

end PatternSampler.Matching
