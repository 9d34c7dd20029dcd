/-!
# Blanks and comments

Between the items of an expression there may be comments in parentheses, and if blanks are skipped,
blanks and comments up to the end of the line.
-/
set_option autoImplicit false

namespace PatternSampler.Matching

/-- What is being skipped. -/
inductive Skipping where
  | blanks
  /-- a comment in parentheses -/
  | comment
  /-- a comment up to the end of the line -/
  | line
  deriving DecidableEq, Repr

/-- The text after what is being skipped; `none` if a comment in parentheses does not end. -/
def skipFrom (isSpaced : Bool) : Skipping → List Char → Option (List Char)
  | .comment, '\\' :: _ :: cs => skipFrom isSpaced .comment cs
  | .comment, ')' :: cs => skipFrom isSpaced .blanks cs
  | .comment, _ :: cs => skipFrom isSpaced .comment cs
  | .comment, [] => none
  | .line, '\n' :: cs => skipFrom isSpaced .blanks cs
  | .line, _ :: cs => skipFrom isSpaced .line cs
  | .line, [] => some []
  | .blanks, '(' :: '?' :: '#' :: cs => skipFrom isSpaced .comment cs
  | .blanks, c :: cs =>
    if isSpaced && c == '#' then skipFrom isSpaced .line cs
    else if isSpaced && (c == ' ' || c == '\r' || c == '\n' || c == '\t') then
      skipFrom isSpaced .blanks cs
    else some (c :: cs)
  | .blanks, [] => some []

/-- The text after blanks and comments. -/
def skipFiller (isSpaced : Bool) (cs : List Char) : Option (List Char) :=
  skipFrom isSpaced .blanks cs

end PatternSampler.Matching
