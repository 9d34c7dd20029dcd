/-!
# Spans

A span is a range of bytes of a pattern's text, from `start` up to but not including `stop`.
-/
set_option autoImplicit false

namespace PatternSampler

/-- A range of bytes of a text. -/
structure Span where
  start : Nat
  stop : Nat
  deriving DecidableEq, Repr, Inhabited

namespace Span

/-- The least span over both. -/
def merge (a b : Span) : Span := ⟨min a.start b.start, max a.stop b.stop⟩

end Span

end PatternSampler
