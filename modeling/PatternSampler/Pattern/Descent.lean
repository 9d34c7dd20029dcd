import PatternSampler.Pattern.Parser
/-!
# Reading a pattern by descent

A second reader of patterns.  It calls itself for the body of a group where `readLexemes` keeps the
open groups on a stack, and it is given the source and the spans of the tokens, not their texts.  It
may therefore fail in ways that the first reader cannot: a bar or a closing parenthesis may stand
where an item has to start, and a span may not fit the source.  The two readers agree on the lexemes
of every text, so that none of this happens.

The readers return how many tokens they have taken.
-/
set_option autoImplicit false

namespace PatternSampler

/-- A token where it stands. -/
structure Placed where
  token : Token
  span : Span
  deriving DecidableEq, Repr

/-- A lexeme without its text. -/
def Lexeme.placed (lx : Lexeme) : Placed := ⟨lx.token, lx.span⟩

@[simp] theorem Lexeme.placed_token (lx : Lexeme) : lx.placed.token = lx.token := rfl

@[simp] theorem Lexeme.placed_span (lx : Lexeme) : lx.placed.span = lx.span := rfl

namespace Descent

/-- Why nothing is read. -/
inductive Fault where
  /-- the tokens are no pattern -/
  | error (e : ParseError)
  /-- a bar or a closing parenthesis where an item has to start -/
  | unexpected (t : Token) (position : Nat) (span : Span)
  /-- no piece of the source lies between the two bytes -/
  | badSlice (start stop : Nat)
  deriving DecidableEq, Repr

/-- What has been noted of groups and references. -/
structure Notes where
  /-- how many capture groups have been opened -/
  captures : Nat
  /-- the named groups, in order -/
  names : List (String × Nat)
  /-- the references by number, latest first -/
  backrefs : List (Nat × Span)
  deriving Repr

/-- The next capture group is opened. -/
def Notes.addCapture (notes : Notes) : Notes := { notes with captures := notes.captures + 1 }

/-- The next capture group is opened, with a name. -/
def Notes.addNamed (notes : Notes) (name : String) : Notes :=
  { notes.addCapture with names := notes.names ++ [(name, notes.captures + 1)] }

/-- The error of a cause. -/
def fail {α : Type} (cause : ParseCause) (position : Nat) (span : Span) : Except Fault α :=
  .error (.error ⟨cause, position, span⟩)

/-- The piece of the source between two bytes. -/
def slice (source : List Char) (start stop : Nat) : Except Fault (List Char) :=
  match Text.slice? start stop source with
  | some piece => .ok piece
  | none => .error (.badSlice start stop)

/-! ## Classes -/

section Classes

variable (source : List Char)

/-- Where a POSIX class name ends that starts with the token; `text` is the source from there on. -/
def posixStop (tk : Placed) (text : List Char) : Nat :=
  match ClassBody.upToPosixEnd? text with
  | some name => tk.span.start + Text.byteLength name
  | none => tk.span.stop

/-- Refuses an opening bracket inside a class: a POSIX class name, or a class of its own.  `text` is
the source from the bracket on. -/
def refuseBracket (position : Nat) (tk : Placed) (text : List Char) : Except Fault Unit :=
  match text with
  | '[' :: ':' :: _ => do
    let name ← slice source tk.span.start (posixStop tk text)
    fail (.posixClass name) position ⟨tk.span.start, posixStop tk text⟩
  | _ => fail .nestedClass position tk.span

/-- Refuses a token if the next one is the same: the two are a set operator. -/
def refuseDouble (position : Nat) (tk : Placed) : List Placed → Except Fault Unit
  | next :: _ =>
    if next.token = tk.token then do
      let span := tk.span.merge next.span
      let text ← slice source span.start span.stop
      fail (.setOperator text) position span
    else pure ()
  | [] => pure ()

/-- Refuses the token at hand if it is class syntax that is not supported. -/
def refuse (position : Nat) : List Placed → Except Fault Unit
  | [] => pure ()
  | tk :: rest => do
    let text ← slice source tk.span.start (Text.byteLength source)
    match tk.token with
    | .openClass | .openNegatedClass => refuseBracket source position tk text
    | .dash | .literal '&' | .literal '~' => refuseDouble source position tk rest
    | _ => pure ()

/-- The characters that a token stands for inside a class. -/
def characters (position : Nat) (tk : Placed) : Except Fault (List Char) :=
  match tk.token with
  | .literal c | .escaped c | .hex c | .control c => pure [c]
  | .assertEscape 'b' => pure ['\x08']
  | .assertEscape _ | .backref _ | .namedBackref _ | .classEscape _ => do
    let text ← slice source tk.span.start tk.span.stop
    fail (.escapeInClass text) position tk.span
  | _ => slice source tk.span.start tk.span.stop

/-- Whether a dash is next, and something other than the closing bracket after it. -/
def rangeFollows : List Placed → Bool
  | dash :: next :: _ => dash.token == .dash && next.token != .closeClass
  | _ => false

/-- The character that ends a range, if the token gives one. -/
def rangeEnd? (position : Nat) (last : Placed) : Except Fault (Option Char) :=
  match last.token with
  | .classEscape _ => pure none
  | _ => do
    let cs ← characters source position last
    pure cs.head?

/-- Adds the range from `first`, the last character of `item`, up to the token after the dash. -/
def readRange (opener : Span) (cls : CharClass) (item : Placed) (first : Char) (position : Nat)
    (tokens : List Placed) : Except Fault CharClass := do
  refuse source position tokens
  refuse source (position + 1) tokens.tail
  match tokens.tail with
  | [] => fail .unclosedClass (position + 1) opener
  | last :: _ => do
    let stop? ← rangeEnd? source (position + 2) last
    match stop?.filter fun stop => decide (first ≤ stop) with
    | some stop => pure (cls.pushRange first stop)
    | none => do
      let text ← slice source item.span.start last.span.stop
      fail (.invalidRange text) (position + 2) (item.span.merge last.span)

/-- Adds `first`, the last character of `item`, on its own or as the start of a range; returns how
many of the tokens after the item the range has. -/
def readFrom (opener : Span) (cls : CharClass) (item : Placed) (first : Char) (rest : List Placed)
    (position : Nat) : Except Fault (CharClass × Nat) :=
  if rangeFollows rest then do
    let cls ← readRange source opener cls item first position rest
    pure (cls, 2)
  else pure (cls.pushRange first first, 0)

/-- Reads one item of a class, which starts with `item`; returns how many of the tokens after that
belong to it. -/
def readItem (opener : Span) (cls : CharClass) (item : Placed) (rest : List Placed)
    (position : Nat) : Except Fault (CharClass × Nat) := do
  refuse source position (item :: rest)
  match item.token with
  | .classEscape k => pure (cls.pushCategory k, 0)
  | _ =>
    let cs ← characters source position item
    match cs.getLast? with
    | none => pure (cls, 0)
    | some first =>
      readFrom source opener (ClassBody.pushAll cls cs.dropLast) item first rest position

/-- Reads the body of a class and its closing bracket. -/
def readClass (opener : Span) (position : Nat) (atStart : Bool) (cls : CharClass) :
    List Placed → Except Fault (CharClass × Nat)
  | [] => fail .unclosedClass position opener
  | tk :: rest =>
    if tk.token = .closeClass ∧ atStart = false then pure (cls, 1)
    else
      match readItem source opener cls tk rest (position + 1) with
      | .error f => .error f
      | .ok (cls, taken) => do
        let (cls, more) ← readClass opener (position + 1 + taken) false cls (rest.drop taken)
        pure (cls, 1 + taken + more)
  termination_by tokens => tokens.length
  decreasing_by simp only [List.length_drop, List.length_cons]; omega

end Classes

/-! ## Patterns -/

/-- A node under a quantifier, or why it takes none. -/
def quantify (node : Node) (min : Nat) (max : Option Nat) (isLazy : Bool) :
    Except ParseCause Node :=
  match ParseState.boundsFault? min max with
  | some cause => .error cause
  | none =>
    if node.isRepetition then .error .nestedQuantifier
    else if !node.isRepeatable then .error .nothingToRepeat
    else .ok (.repetition node min max isLazy)

/-- Puts the quantifiers that come next over a node. -/
def readQuantifiers (position : Nat) (node : Node) :
    List Placed → Except Fault (Node × Nat)
  | [] => pure (node, 0)
  | tk :: rest =>
    match tk.token.role with
    | .quantifier min max =>
      let lazyMark := if rest.head?.map (·.token) = some .question then 1 else 0
      match quantify node min max (lazyMark == 1) with
      | .error cause => fail cause position tk.span
      | .ok node => do
        let (node, more) ← readQuantifiers (position + 1 + lazyMark) node (rest.drop lazyMark)
        pure (node, 1 + lazyMark + more)
    | _ => pure (node, 0)
  termination_by tokens => tokens.length
  decreasing_by simp only [List.length_drop, List.length_cons]; omega

section Patterns

variable (source : List Char)

mutual

/-- Reads the arms of a choice from the next one on; `arms` are those before it, latest first. -/
def readArms (position : Nat) (notes : Notes) (arms : List Node) (tokens : List Placed) :
    Except Fault (Node × Notes × Nat) :=
  match readItems position notes [] tokens with
  | .error f => .error f
  | .ok (arm, notes, taken) =>
    match _h : tokens.drop taken with
    | ⟨.pipe, _⟩ :: rest => do
      let (node, notes, more) ← readArms (position + taken + 1) notes (arm :: arms) rest
      pure (node, notes, taken + 1 + more)
    | _ => pure (.ofArms (arm :: arms).reverse, notes, taken)
  termination_by (tokens.length, 3)
  decreasing_by
    · decreasing_tactic
    · have hlength := congrArg List.length _h
      rw [List.length_drop, List.length_cons] at hlength
      exact Prod.Lex.left _ _ (by omega)

/-- Reads the items of an arm up to a bar, a closing parenthesis or the end; `items` are those read
so far, latest first. -/
def readItems (position : Nat) (notes : Notes) (items : List Node) (tokens : List Placed) :
    Except Fault (Node × Notes × Nat) :=
  match tokens with
  | [] => pure (.ofItems items.reverse, notes, 0)
  | tk :: rest =>
    if tk.token = .pipe ∨ tk.token = .closeGroup then pure (.ofItems items.reverse, notes, 0)
    else
      match readQuantified position notes (tk :: rest) with
      | .error f => .error f
      | .ok (item, notes, extra) => do
        let (node, notes, more) ←
          readItems (position + 1 + extra) notes (item :: items) (rest.drop extra)
        pure (node, notes, 1 + extra + more)
  termination_by (tokens.length, 2)
  decreasing_by
    · decreasing_tactic
    · exact Prod.Lex.left _ _ (by simp only [List.length_drop, List.length_cons]; omega)

/-- Reads an atom and the quantifiers over it; returns how many tokens it has beside the first. -/
def readQuantified (position : Nat) (notes : Notes) (tokens : List Placed) :
    Except Fault (Node × Notes × Nat) := do
  let (atom, notes, extra) ← readAtom position notes tokens
  let (node, more) ← readQuantifiers (position + 1 + extra) atom (tokens.drop (1 + extra))
  pure (node, notes, extra + more)
  termination_by (tokens.length, 1)

/-- Reads an atom; returns how many tokens it has beside the first. -/
def readAtom (position : Nat) (notes : Notes) (tokens : List Placed) :
    Except Fault (Node × Notes × Nat) :=
  match tokens with
  | [] =>
    fail .endOfPattern position ⟨Text.byteLength source, Text.byteLength source⟩
  | tk :: rest =>
    match tk.token.role with
    | .quantifier _ _ => fail .nothingToRepeat (position + 1) tk.span
    | .classOpener negated => do
      let (cls, taken) ← readClass source tk.span (position + 1) true .empty rest
      pure (.charClass (if negated then cls.negate else cls), notes, taken)
    | .action .bar | .action .close => .error (.unexpected tk.token (position + 1) tk.span)
    | .action (.openAs opener) => do
      let (body, notes, taken) ← readBody (position + 1) notes tk.span rest
      pure (opener.wrap body, notes, taken)
    | .action .openCapture =>
      match rest.head? with
      | some ⟨.question, span⟩ => fail .unsupportedGroup (position + 1) (tk.span.merge span)
      | _ => do
        let index := notes.captures + 1
        let (body, notes, taken) ← readBody (position + 1) notes.addCapture tk.span rest
        pure (.capture index body, notes, taken)
    | .action (.openNamed name) =>
      if notes.names.any (·.1 == name) then fail (.duplicateName name) (position + 1) tk.span
      else do
        let index := notes.captures + 1
        let (body, notes, taken) ← readBody (position + 1) (notes.addNamed name) tk.span rest
        pure (.capture index body, notes, taken)
    | .action (.leaf node) => pure (node, notes, 0)
    | .action (.reference group) =>
      pure (.backref group, { notes with backrefs := (group, tk.span) :: notes.backrefs }, 0)
    | .action (.namedReference name) =>
      match notes.names.find? (·.1 == name) with
      | some (_, index) => pure (.backref index, notes, 0)
      | none => fail (.unknownName name) (position + 1) tk.span
  termination_by (tokens.length, 0)

/-- Reads the body of a group and its closing parenthesis. -/
def readBody (position : Nat) (notes : Notes) (opener : Span) (tokens : List Placed) :
    Except Fault (Node × Notes × Nat) := do
  let (node, notes, taken) ← readArms position notes [] tokens
  match tokens.drop taken with
  | ⟨.closeGroup, _⟩ :: _ => pure (node, notes, taken + 1)
  | [] => fail .unclosedGroup (position + taken) opener
  | _ => fail .unclosedGroup (position + taken + 1) opener
  termination_by (tokens.length, 4)

end

/-- Reads a pattern from its tokens. -/
def parse (tokens : List Placed) : Except Fault Pattern := do
  let (root, notes, taken) ← readArms source 0 ⟨0, [], []⟩ [] tokens
  match tokens.drop taken with
  | tk :: _ => fail .unmatchedClose taken tk.span
  | [] =>
    match notes.backrefs.reverse.find? fun r => decide (notes.captures < r.1) with
    | some (index, span) => fail (.unknownGroup index notes.captures) taken span
    | none => pure ⟨root, notes.captures, notes.names⟩

end Patterns

end Descent

end PatternSampler
