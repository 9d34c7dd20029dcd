import PatternSampler.Generation.Config
/-!
# Series of runs

A series asks for a number of items, each of them a few tries of the same run under consecutive
seeds until one is good.  Every call of the run uses up a seed, so the series as a whole goes
through the seeds without a gap.
-/
set_option autoImplicit false

namespace PatternSampler.CommandLine

variable {ρ : Type}

/-- The settings with the seed `n` steps on. -/
def advance (cfg : Config) (n : Nat) : Config := cfg.withSeed (cfg.seed + UInt64.ofNat n)

/-- The results of at most `tries` calls under consecutive seeds, of which only the last is good,
if any. -/
def attempts (run : Config → ρ) (isGood : ρ → Bool) : Nat → Config → List ρ
  | 0, _ => []
  | tries + 1, cfg =>
    let result := run cfg
    if isGood result then [result]
    else result :: attempts run isGood tries (advance cfg 1)

/-- The results of all calls for `count` items, item by item. -/
def series (run : Config → ρ) (isGood : ρ → Bool) (tries : Nat) : Nat → Config → List (List ρ)
  | 0, _ => []
  | count + 1, cfg =>
    let results := attempts run isGood tries cfg
    results :: series run isGood tries count (advance cfg results.length)

end PatternSampler.CommandLine
