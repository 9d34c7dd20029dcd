/-!
# The catalogue of error codes

Every stable error code with a one line title, an explanation and, where one helps, a hint.  Codes
starting with L and P concern patterns, C programs, G runs, and V the check of what a run wrote.
-/
set_option autoImplicit false

namespace PatternSampler

/-- What the catalogue says about a code. -/
structure CatalogueEntry where
  code : String
  title : String
  explanation : String
  hint : Option String
  deriving DecidableEq, Repr

namespace Catalogue

/-- Lines of text, each with its line feed. -/
def lines (ls : List String) : String := String.join (ls.map (· ++ "\n"))

/-- All entries, in the order in which they are listed. -/
def entries : List CatalogueEntry := [
  {
    code := "RGX-L001"
    title := "unrecognized escape or character"
    explanation := lines [
      "## RGX-L001: unrecognized escape or character",
      "",
      "The pattern contains a sequence no token accepts, usually an escape",
      "the generator does not know.",
      "",
      "**Example:**",
      "",
      "    \\p\x7bL\x7d+",
      "",
      "Unicode property classes are not supported. Spell the range out:",
      "",
      "    [a-zA-Z]+"]
    hint := none },
  {
    code := "RGX-P001"
    title := "unexpected end of pattern"
    explanation := lines [
      "## RGX-P001: unexpected end of pattern",
      "",
      "The pattern stopped where an atom was expected."]
    hint := none },
  {
    code := "RGX-P002"
    title := "unmatched ')'"
    explanation := lines [
      "## RGX-P002: unmatched ')'",
      "",
      "A closing parenthesis has no opening partner.",
      "",
      "**Example:**",
      "",
      "    ab)c",
      "",
      "Escape it to match a literal parenthesis: `ab\\)c`."]
    hint := some "escape it as \\) to match a literal parenthesis" },
  {
    code := "RGX-P003"
    title := "unclosed group"
    explanation := lines [
      "## RGX-P003: unclosed group",
      "",
      "A group was opened but the pattern ended before its `)`.",
      "",
      "**Example:**",
      "",
      "    (ab|cd"]
    hint := some "add the missing ')'" },
  {
    code := "RGX-P004"
    title := "nested quantifier"
    explanation := lines [
      "## RGX-P004: nested quantifier",
      "",
      "A quantifier follows another quantifier.",
      "",
      "**Example:**",
      "",
      "    a**",
      "",
      "Only a single `?` may follow a quantifier, making it lazy (`a*?`).",
      "Wrap the repeat in a group to repeat it again: `(?:a*)*`."]
    hint := some "wrap the repeated part in (?:...) before quantifying it again" },
  {
    code := "RGX-P005"
    title := "quantifier has nothing to repeat"
    explanation := lines [
      "## RGX-P005: quantifier has nothing to repeat",
      "",
      "A quantifier appears at the start of a pattern, group or alternative,",
      "or directly after an assertion such as `^` or `\\b`.",
      "",
      "**Example:**",
      "",
      "    *abc"]
    hint := some "escape the quantifier to match it literally, e.g. \\*" },
  {
    code := "RGX-P006"
    title := "quantifier range out of order"
    explanation := lines [
      "## RGX-P006: quantifier range out of order",
      "",
      "In `\x7bm,n\x7d` the minimum must not exceed the maximum.",
      "",
      "**Example:**",
      "",
      "    a\x7b5,2\x7d"]
    hint := some "swap the bounds" },
  {
    code := "RGX-P007"
    title := "reference to undefined group"
    explanation := lines [
      "## RGX-P007: reference to undefined group",
      "",
      "A backreference names a group number larger than the number of groups",
      "in the pattern, or a group name that has not been defined yet.",
      "",
      "**Example:**",
      "",
      "    (a)\\2"]
    hint := none },
  {
    code := "RGX-P008"
    title := "duplicate group name"
    explanation := lines [
      "## RGX-P008: duplicate group name",
      "",
      "Two named groups share a name.",
      "",
      "**Example:**",
      "",
      "    (?<x>a)(?<x>b)"]
    hint := none },
  {
    code := "RGX-P009"
    title := "unsupported group syntax"
    explanation := lines [
      "## RGX-P009: unsupported group syntax",
      "",
      "`(?` starts a construct other than `(?:`, `(?=`, `(?!`, `(?<=`, `(?<!`",
      "or a named group. Inline flags such as `(?i)` are not supported; pass",
      "them as options instead (`-i`, `-m`, `--dot-all`)."]
    hint := some "use the -i, -m or --dot-all flags instead of inline flags" },
  {
    code := "RGX-P010"
    title := "unclosed character class"
    explanation := lines [
      "## RGX-P010: unclosed character class",
      "",
      "A `[` has no closing `]`.",
      "",
      "**Example:**",
      "",
      "    [a-z"]
    hint := some "add the missing ']'" },
  {
    code := "RGX-P011"
    title := "escape not allowed in a character class"
    explanation := lines [
      "## RGX-P011: escape not allowed in a character class",
      "",
      "Backreferences and assertions other than `\\b` (backspace) have no",
      "meaning inside `[...]`."]
    hint := none },
  {
    code := "RGX-P012"
    title := "invalid class range"
    explanation := lines [
      "## RGX-P012: invalid class range",
      "",
      "A range inside a class ends before it starts, or uses a shorthand",
      "class such as `\\d` as an endpoint.",
      "",
      "**Example:**",
      "",
      "    [z-a]"]
    hint := some "put a literal '-' first or last in the class" },
  {
    code := "RGX-P013"
    title := "unsupported class syntax"
    explanation := lines [
      "## RGX-P013: unsupported class syntax",
      "",
      "A character class holds a nested class, a POSIX class such as",
      "`[:alpha:]`, or a set operator (`&&`, `--`, `~~`). The matcher gives",
      "these a meaning the generator does not share.",
      "",
      "**Example:**",
      "",
      "    [[:alpha:]]",
      "",
      "Spell the members out (`[a-zA-Z]`), or escape the characters to",
      "match them literally: `[a\\&\\&b]`."]
    hint := some "spell the class out as ranges, or escape '[', '&', '-' and '~'" },
  {
    code := "RGX-C001"
    title := "unknown opcode"
    explanation := lines [
      "## RGX-C001: unknown opcode",
      "",
      "A code word's low six bits do not name any of the 43 opcodes.",
      "Only seen with hand-written or corrupted `--program` input."]
    hint := none },
  {
    code := "RGX-C002"
    title := "truncated instruction"
    explanation := lines [
      "## RGX-C002: truncated instruction",
      "",
      "The code stream ends in the middle of an instruction's operands."]
    hint := none },
  {
    code := "RGX-C003"
    title := "table index out of range"
    explanation := lines [
      "## RGX-C003: table index out of range",
      "",
      "A `Set*` or `Multi` instruction refers to a class or string the",
      "program's tables do not contain."]
    hint := none },
  {
    code := "RGX-C004"
    title := "operand is not a character"
    explanation := lines [
      "## RGX-C004: operand is not a character",
      "",
      "A `One*` or `Notone*` operand is negative, a surrogate, or above U+10FFFF."]
    hint := none },
  {
    code := "RGX-C005"
    title := "negative repeat count"
    explanation := lines [
      "## RGX-C005: negative repeat count",
      "",
      "A `*rep`, `*loop` or `*lazy` instruction carries a negative count."]
    hint := none },
  {
    code := "RGX-C006"
    title := "invalid jump target"
    explanation := lines [
      "## RGX-C006: invalid jump target",
      "",
      "A jump lands outside the program or in the middle of an instruction,",
      "or a `Goto` or `Lazybranch` does not move forward. Only loop branches",
      "(`Branchcount`, `Branchmark` and their lazy forms) may jump back."]
    hint := none },
  {
    code := "RGX-G001"
    title := "no admissible character"
    explanation := lines [
      "## RGX-G001: no admissible character",
      "",
      "A character instruction needs at least one character, but no alphabet",
      "character belongs to its class and the class has no fallback member",
      "of its own. Classes built from `\\d`, `\\w` or `\\s` have no fallback.",
      "",
      "**Example:**",
      "",
      "    regexgen --alphabet abc '\\d'",
      "",
      "Widen the alphabet so it overlaps the class."]
    hint := none },
  {
    code := "RGX-G002"
    title := "unresolved backreference"
    explanation := lines [
      "## RGX-G002: unresolved backreference",
      "",
      "A backreference was reached before its group closed, so there is no",
      "captured text to copy.",
      "",
      "**Example:**",
      "",
      "    (a\\1)"]
    hint := none },
  {
    code := "RGX-G003"
    title := "empty loop count stack"
    explanation := lines [
      "## RGX-G003: empty loop count stack",
      "",
      "A `Branchcount` or `Lazybranchcount` ran with no loop count pushed by",
      "a matching `Nullcount` or `Setcount`. The program is malformed."]
    hint := none },
  {
    code := "RGX-G004"
    title := "empty mark stack"
    explanation := lines [
      "## RGX-G004: empty mark stack",
      "",
      "A `Capturemark`, `Getmark` or `*branchmark` closed a group that was",
      "never opened. The program is malformed."]
    hint := none },
  {
    code := "RGX-G005"
    title := "unterminated lookaround"
    explanation := lines [
      "## RGX-G005: unterminated lookaround",
      "",
      "A `Setjump` has no matching `Forejump`. The program is malformed."]
    hint := none },
  {
    code := "RGX-V001"
    title := "pattern rejected by the matcher"
    explanation := lines [
      "## RGX-V001: pattern rejected by the matcher",
      "",
      "The verifying matcher could not compile the pattern, so nothing was",
      "generated."]
    hint := none },
  {
    code := "RGX-V002"
    title := "generated string does not match"
    explanation := lines [
      "## RGX-V002: generated string does not match",
      "",
      "Every choice is made once, without backtracking: the first alternative,",
      "the minimum of unbounded repeats, the text of positive lookaround. Some",
      "patterns cannot be satisfied that way.",
      "",
      "**Example:**",
      "",
      "    ^a(?=b)c",
      "",
      "Another seed may help when the failure comes from a random draw; try",
      "`--attempts`."]
    hint := none },
  {
    code := "RGX-V003"
    title := "matcher runtime failure"
    explanation := lines [
      "## RGX-V003: matcher runtime failure",
      "",
      "The verifying matcher gave up while matching, usually on its",
      "backtracking limit."]
    hint := none }]

/-- The entry of a code. -/
def lookup? (code : String) : Option CatalogueEntry := entries.find? (·.code == code)

end Catalogue

end PatternSampler
