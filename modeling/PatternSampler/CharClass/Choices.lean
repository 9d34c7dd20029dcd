import PatternSampler.CharClass.Basic
/-!
# The characters a class offers

Which characters a free choice may draw from, given the alphabet: the alphabet's members of the
class, or else the class's own witness.
-/
set_option autoImplicit false

namespace PatternSampler.CharClass

/-- The alphabet's members in alphabet order; failing those, the witness alone. -/
def choices? (cls : CharClass) (alphabet : List Char) : Option (List Char) :=
  match alphabet.filter cls.contains with
  | [] => cls.witness?.map fun c => [c]
  | c :: cs => some (c :: cs)

end PatternSampler.CharClass
