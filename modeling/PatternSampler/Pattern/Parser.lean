import PatternSampler.Pattern.ClassBody
import PatternSampler.Pattern.Lexer
import PatternSampler.Pattern.Node
/-!
# Reading a pattern's tree

Reads lexemes from left to right with the open groups on a stack.  A `Level` holds what has been
read of the alternation at hand; an opener saves it on the stack, and the closing parenthesis
completes the node and puts it back as one item of the level below.
-/
set_option autoImplicit false

namespace PatternSampler

/-! ## State -/

/-- An alternation under construction, both lists latest first: its finished arms, and the items
of the arm at hand. -/
structure Level where
  arms : List Node
  items : List Node
  deriving Repr

namespace Level

/-- An alternation of which nothing has been read. -/
def start : Level := ⟨[], []⟩

/-- The arm at hand as a node. -/
def arm (l : Level) : Node := Node.ofItems l.items.reverse

/-- The alternation as a node, its last arm being the one at hand. -/
def node (l : Level) : Node := Node.ofArms (l.arm :: l.arms).reverse

/-- The alternation after a bar: the arm at hand is finished. -/
def nextArm (l : Level) : Level := ⟨l.arm :: l.arms, []⟩

/-- The alternation with one more item. -/
def push (l : Level) (n : Node) : Level := { l with items := n :: l.items }

end Level

/-- What a group was opened as. -/
inductive Opener where
  | plain
  | capture (index : Nat)
  | look (negative behind : Bool)
  deriving DecidableEq, Repr

/-- The node of a group with a given opener. -/
def Opener.wrap : Opener → Node → Node
  | .plain, body => .group body
  | .capture index, body => .capture index body
  | .look negative behind, body => .lookAround body negative behind

/-- An open group: how and where it was opened, and the alternation around it. -/
structure OpenGroup where
  opener : Opener
  span : Span
  outer : Level
  deriving Repr

/-- A parse under way. -/
structure ParseState where
  /-- the open groups, innermost first -/
  openGroups : List OpenGroup
  /-- the alternation at hand -/
  level : Level
  /-- how many capture groups have been opened -/
  captures : Nat
  /-- the named groups, in order -/
  names : List (String × Nat)
  /-- the references by number, latest first -/
  backrefs : List (Nat × Span)
  deriving Repr

namespace ParseState

/-- The parse before the first lexeme. -/
def start : ParseState := ⟨[], .start, 0, [], []⟩

/-- One more item for the alternation at hand. -/
def push (st : ParseState) (n : Node) : ParseState := { st with level := st.level.push n }

/-- A group is opened. -/
def openGroup (st : ParseState) (opener : Opener) (span : Span) : ParseState :=
  { st with openGroups := ⟨opener, span, st.level⟩ :: st.openGroups, level := .start }

/-- The next capture group is opened. -/
def openCapture (st : ParseState) (span : Span) : ParseState :=
  { st.openGroup (.capture (st.captures + 1)) span with captures := st.captures + 1 }

/-- The next capture group is opened, with a name. -/
def openNamed (st : ParseState) (name : String) (span : Span) : ParseState :=
  { st.openCapture span with names := st.names ++ [(name, st.captures + 1)] }

/-- The number of a group name, if it is defined by now. -/
def lookup? (st : ParseState) (name : String) : Option Nat :=
  (st.names.find? (·.1 == name)).map (·.2)

end ParseState

/-! ## What a token does -/

/-- The assertion that a letter stands for after a backslash. -/
def Anchor.ofLetter (c : Char) : Anchor :=
  if c = 'b' then .wordBoundary
  else if c = 'B' then .notWordBoundary
  else if c = 'A' then .textStart
  else if c = 'z' then .textEnd
  else if c = 'Z' then .textEndNewline
  else .searchStart

/-- What a token does that takes no further ones. -/
inductive Action where
  /-- ends an arm -/
  | bar
  /-- closes the innermost group -/
  | close
  /-- opens a group without a number -/
  | openAs (opener : Opener)
  /-- opens the next capture group -/
  | openCapture
  | openNamed (name : String)
  /-- adds an item -/
  | leaf (node : Node)
  | reference (group : Nat)
  | namedReference (name : String)
  deriving Repr

/-- The part that a token has outside classes. -/
inductive Role where
  | quantifier (min : Nat) (max : Option Nat)
  | classOpener (negated : Bool)
  | action (a : Action)
  deriving Repr

/-- The part that a token has outside classes. -/
def Token.role : Token → Role
  | .star => .quantifier 0 none
  | .plus => .quantifier 1 none
  | .question => .quantifier 0 (some 1)
  | .bounds min max => .quantifier min max
  | .openClass => .classOpener false
  | .openNegatedClass => .classOpener true
  | .pipe => .action .bar
  | .closeGroup => .action .close
  | .nonCapture => .action (.openAs .plain)
  | .lookAhead => .action (.openAs (.look false false))
  | .negLookAhead => .action (.openAs (.look true false))
  | .lookBehind => .action (.openAs (.look false true))
  | .negLookBehind => .action (.openAs (.look true true))
  | .openGroup => .action .openCapture
  | .namedGroup name => .action (.openNamed name)
  | .literal c | .escaped c | .hex c | .control c => .action (.leaf (.char c))
  | .dash => .action (.leaf (.char '-'))
  | .brace => .action (.leaf (.char '{'))
  | .closeClass => .action (.leaf (.char ']'))
  | .dot => .action (.leaf .any)
  | .caret => .action (.leaf (.assert .lineStart))
  | .dollar => .action (.leaf (.assert .lineEnd))
  | .classEscape k => .action (.leaf (.charClass (.ofCategory k)))
  | .assertEscape c => .action (.leaf (.assert (.ofLetter c)))
  | .backref group => .action (.reference group)
  | .namedBackref name => .action (.namedReference name)

namespace ParseState

/-- Does what a token does.  `span` is the token's own, `next` the lexeme after it, and `position`
counts the tokens taken before it. -/
def act (st : ParseState) (a : Action) (span : Span) (next : Option Lexeme) (position : Nat) :
    Except ParseError ParseState :=
  match a with
  | .bar => .ok { st with level := st.level.nextArm }
  | .close =>
    match st.openGroups with
    | [] => .error ⟨.unmatchedClose, position, span⟩
    | g :: outer =>
      .ok { st with
        openGroups := outer
        level := g.outer.push (g.opener.wrap st.level.node) }
  | .openAs opener => .ok (st.openGroup opener span)
  | .openCapture =>
    match next with
    | some ⟨.question, nextSpan, _⟩ =>
      .error ⟨.unsupportedGroup, position + 1, span.merge nextSpan⟩
    | _ => .ok (st.openCapture span)
  | .openNamed name =>
    match st.lookup? name with
    | some _ => .error ⟨.duplicateName name, position + 1, span⟩
    | none => .ok (st.openNamed name span)
  | .leaf node => .ok (st.push node)
  | .reference group =>
    .ok { st.push (.backref group) with backrefs := (group, span) :: st.backrefs }
  | .namedReference name =>
    match st.lookup? name with
    | some index => .ok (st.push (.backref index))
    | none => .error ⟨.unknownName name, position + 1, span⟩

/-- The fault of bounds whose minimum exceeds their maximum. -/
def boundsFault? (min : Nat) : Option Nat → Option ParseCause
  | some max => if max < min then some (.boundsOutOfOrder min max) else none
  | none => none

/-- Puts the item at hand under a quantifier.  `span` is the quantifier's, and `position` counts
the tokens taken before it. -/
def quantify (st : ParseState) (min : Nat) (max : Option Nat) (isLazy : Bool) (span : Span)
    (position : Nat) : Except ParseError ParseState :=
  match st.level.items with
  | [] => .error ⟨.nothingToRepeat, position + 1, span⟩
  | item :: items =>
    match boundsFault? min max with
    | some cause => .error ⟨cause, position, span⟩
    | none =>
      if item.isRepetition then .error ⟨.nestedQuantifier, position, span⟩
      else if !item.isRepeatable then .error ⟨.nothingToRepeat, position, span⟩
      else
        .ok { st with
          level := { st.level with items := .repetition item min max isLazy :: items } }

end ParseState

/-! ## Whole patterns -/

/-- How many lexemes, of those after a quantifier, mark it as lazy: a question mark does. -/
def lazyMark : List Lexeme → Nat
  | ⟨.question, _, _⟩ :: _ => 1
  | _ => 0

/-- Reads the remaining lexemes; `position` counts those taken so far. -/
def readLexemes (position : Nat) (st : ParseState) :
    List Lexeme → Except ParseError ParseState
  | [] =>
    match st.openGroups with
    | [] => .ok st
    | g :: _ => .error ⟨.unclosedGroup, position, g.span⟩
  | lx :: rest =>
    match lx.token.role with
    | .quantifier min max =>
      match st.quantify min max (lazyMark rest == 1) lx.span position with
      | .error e => .error e
      | .ok st => readLexemes (position + 1 + lazyMark rest) st (rest.drop (lazyMark rest))
    | .classOpener negated =>
      match h : ClassBody.read lx.span (position + 1) true CharClass.empty rest with
      | .error e => .error e
      | .ok (cls, position', rest') =>
        have : rest'.length < rest.length := ClassBody.read_length_lt h
        readLexemes position' (st.push (.charClass (if negated then cls.negate else cls))) rest'
    | .action a =>
      match st.act a lx.span rest.head? position with
      | .error e => .error e
      | .ok st => readLexemes (position + 1) st rest
  termination_by lexemes => lexemes.length
  decreasing_by
    all_goals simp only [List.length_drop, List.length_cons] at *
    all_goals omega

/-- The first reference, in order, to a group number that the pattern does not reach. -/
def unknownGroup? (st : ParseState) : Option (Nat × Span) :=
  st.backrefs.reverse.find? fun r => decide (st.captures < r.1)

/-- Reads a pattern from its lexemes. -/
def parseLexemes (lexemes : List Lexeme) : Except ParseError Pattern :=
  match readLexemes 0 .start lexemes with
  | .error e => .error e
  | .ok st =>
    match unknownGroup? st with
    | some (index, span) => .error ⟨.unknownGroup index st.captures, lexemes.length, span⟩
    | none => .ok ⟨st.level.node, st.captures, st.names⟩

/-- What is wrong with the text of a pattern. -/
inductive PatternError where
  | lex (e : LexError)
  | parse (e : ParseError)
  deriving DecidableEq, Repr

/-- The wording of what is wrong. -/
def PatternError.message : PatternError → String
  | .lex e => e.message
  | .parse e => e.message

/-- Reads a pattern from its text. -/
def parse (source : List Char) : Except PatternError Pattern :=
  match lex source with
  | .error e => .error (.lex e)
  | .ok lexemes =>
    match parseLexemes lexemes with
    | .error e => .error (.parse e)
    | .ok p => .ok p

end PatternSampler
