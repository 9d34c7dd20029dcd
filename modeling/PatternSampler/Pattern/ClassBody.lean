import PatternSampler.Pattern.ParseError
import PatternSampler.Text.Bytes
/-!
# The body of a character class

Reads the lexemes between the brackets of a class.  Operators and group openers are plain
characters there, one for each character of their text; nested classes, POSIX class names and the
set operators are refused wherever they could be read.
-/
set_option autoImplicit false

namespace PatternSampler.ClassBody

/-- The text up to and including the first `:]`, if there is one. -/
def upToPosixEnd? : List Char → Option (List Char)
  | ':' :: ']' :: _ => some [':', ']']
  | c :: cs => (upToPosixEnd? cs).map (c :: ·)
  | [] => none

/-- Why a lexeme, with those that follow it, is class syntax that is not supported, if it is; and
the span at fault. -/
def unsupported? (lx : Lexeme) (rest : List Lexeme) : Option (ParseCause × Span) :=
  match lx.token with
  | .openClass | .openNegatedClass =>
    let text := lx.text ++ rest.flatMap (·.text)
    match text with
    | '[' :: ':' :: _ =>
      let name := (upToPosixEnd? text).getD lx.text
      some (.posixClass name, ⟨lx.span.start, lx.span.start + Text.byteLength name⟩)
    | _ => some (.nestedClass, lx.span)
  | .dash | .literal '&' | .literal '~' =>
    match rest with
    | next :: _ =>
      if next.token = lx.token then
        some (.setOperator (lx.text ++ next.text), lx.span.merge next.span)
      else none
    | [] => none
  | _ => none

/-- The characters that a lexeme stands for inside a class; an error for an escape that stands for
none. -/
def characters (lx : Lexeme) : Except ParseCause (List Char) :=
  match lx.token with
  | .literal c | .escaped c | .hex c | .control c => .ok [c]
  | .assertEscape 'b' => .ok ['\x08']
  | .assertEscape _ | .backref _ | .namedBackref _ | .classEscape _ =>
    .error (.escapeInClass lx.text)
  | _ => .ok lx.text

/-- Adds single characters to a class, one after the other. -/
def pushAll (cls : CharClass) (cs : List Char) : CharClass :=
  cs.foldl (fun k c => k.pushRange c c) cls

/-- Whether a dash after an item makes it the start of a range: something other than the closing
bracket has to follow the dash. -/
def rangeFollows : List Lexeme → Bool
  | dash :: next :: _ => dash.token == .dash && next.token != .closeClass
  | _ => false

/-- Adds the range from `first`, the last character of `item`, to the character that `last` stands
for.  `position` counts the tokens taken, the end of the range included. -/
def readRange (cls : CharClass) (item dash last : Lexeme) (first : Char) (position : Nat) :
    Except ParseError CharClass :=
  let invalid : ParseError :=
    ⟨.invalidRange (item.text ++ dash.text ++ last.text), position, item.span.merge last.span⟩
  match last.token with
  | .classEscape _ => .error invalid
  | _ =>
    match characters last with
    | .error cause => .error ⟨cause, position, last.span⟩
    | .ok (stop :: _) => if first ≤ stop then .ok (cls.pushRange first stop) else .error invalid
    | .ok [] => .error invalid

/-- Adds `first`, the last character of `item`, to a class: on its own, or as the start of a range
if one follows.  Returns how many lexemes of `rest` the range took. -/
def readFrom (cls : CharClass) (item : Lexeme) (first : Char) (rest : List Lexeme)
    (position : Nat) : Except ParseError (CharClass × Nat) :=
  if rangeFollows rest then
    match rest with
    | dash :: last :: after =>
      match unsupported? dash (last :: after) with
      | some (cause, span) => .error ⟨cause, position, span⟩
      | none =>
        match unsupported? last after with
        | some (cause, span) => .error ⟨cause, position + 1, span⟩
        | none =>
          match readRange cls item dash last first (position + 2) with
          | .error e => .error e
          | .ok cls => .ok (cls, 2)
    | _ => .ok (cls.pushRange first first, 0)
  else .ok (cls.pushRange first first, 0)

/-- Reads one item of a class, which starts with the lexeme `item`.  `position` counts the tokens
taken, `item` included.  Returns how many lexemes of `rest` belong to the item. -/
def readItem (cls : CharClass) (item : Lexeme) (rest : List Lexeme) (position : Nat) :
    Except ParseError (CharClass × Nat) :=
  match unsupported? item rest with
  | some (cause, span) => .error ⟨cause, position, span⟩
  | none =>
    match item.token with
    | .classEscape k => .ok (cls.pushCategory k, 0)
    | _ =>
      match characters item with
      | .error cause => .error ⟨cause, position, item.span⟩
      | .ok cs =>
        match cs.getLast? with
        | none => .ok (cls, 0)
        | some first => readFrom (pushAll cls cs.dropLast) item first rest position

/-- Reads the body of a class up to its closing bracket.  `opener` is the span of the opening
bracket, `position` counts the tokens taken so far, and `atStart` holds before the first item,
where a closing bracket is a plain character.  Returns the class, the tokens taken by then and the
lexemes after the class. -/
def read (opener : Span) (position : Nat) (atStart : Bool) (cls : CharClass) :
    List Lexeme → Except ParseError (CharClass × Nat × List Lexeme)
  | [] => .error ⟨.unclosedClass, position, opener⟩
  | lx :: rest =>
    if lx.token = .closeClass ∧ atStart = false then .ok (cls, position + 1, rest)
    else
      match readItem cls lx rest (position + 1) with
      | .error e => .error e
      | .ok (cls, taken) => read opener (position + 1 + taken) false cls (rest.drop taken)
  termination_by lexemes => lexemes.length
  decreasing_by simp only [List.length_drop, List.length_cons]; omega

/-- The lexemes after a class are fewer than those from its first item on. -/
theorem read_length_lt {opener : Span} {position : Nat} {atStart : Bool} {cls cls' : CharClass}
    {lexemes rest : List Lexeme} {position' : Nat}
    (h : read opener position atStart cls lexemes = .ok (cls', position', rest)) :
    rest.length < lexemes.length := by
  fun_induction read opener position atStart cls lexemes with
  | case1 => simp at h
  | case2 =>
    simp only [Except.ok.injEq, Prod.mk.injEq] at h
    obtain ⟨-, -, rfl⟩ := h
    simp
  | case3 => simp at h
  | case4 position atStart cls lx rest' _ cls₁ taken _ ih =>
    have := ih h
    simp only [List.length_drop, List.length_cons] at *
    omega

end PatternSampler.ClassBody
