import PatternSampler.Json.Record
/-!
# Settings of a generation

The settings that one generation runs under.  The alphabet travels as a text; reading one keeps the
first occurrence of each character and drops the others, as `withAlphabet` does.
-/
set_option autoImplicit false

namespace PatternSampler

/-- The characters of a text without repetitions, first occurrences in order. -/
def distinct (cs : List Char) : List Char :=
  cs.foldl (fun seen c => if c ∈ seen then seen else seen ++ [c]) []

/-- The settings of one generation. -/
structure Config where
  /-- the characters that free choices draw from, in order -/
  alphabet : List Char
  seed : UInt64
  /-- how many optional copies a bounded repetition writes at most -/
  repetitionCap : UInt64
  /-- what a word boundary writes -/
  boundary : Char
  /-- whether each executed instruction is traced -/
  debug : Bool
  deriving DecidableEq, Repr

namespace Config

/-- The alphabet when none is given. -/
def defaultAlphabet : String :=
  "0123456789abcdefghijklmnopqrstuvwxyzABCDEFGHIJKLMNOPQRSTUVWXYZ-_ \\"

/-- The settings when none are given. -/
def default : Config := ⟨defaultAlphabet.toList, 0, 8, ' ', false⟩

/-- The default settings with a seed. -/
def ofSeed (seed : UInt64) : Config := { default with seed }

/-- The settings with another alphabet. -/
def withAlphabet (cfg : Config) (cs : List Char) : Config := { cfg with alphabet := distinct cs }

/-- The settings with another seed. -/
def withSeed (cfg : Config) (seed : UInt64) : Config := { cfg with seed }

/-- The settings with another repetition cap. -/
def withRepetitionCap (cfg : Config) (cap : UInt64) : Config := { cfg with repetitionCap := cap }

/-- The settings with another boundary character. -/
def withBoundary (cfg : Config) (c : Char) : Config := { cfg with boundary := c }

/-- The settings with tracing on or off. -/
def withDebug (cfg : Config) (debug : Bool) : Config := { cfg with debug }

/-- The settings as JSON. -/
def toJson (cfg : Config) : Json :=
  .obj [
    ("alphabet", .text (String.ofList cfg.alphabet)),
    ("seed", .int cfg.seed.toNat),
    ("repetition_cap", .int cfg.repetitionCap.toNat),
    ("boundary_char", .text (String.singleton cfg.boundary)),
    ("debug", .bool cfg.debug)]

/-- An alphabet from JSON. -/
def alphabetOfJson? (v : Json) : Option (List Char) := v.toText?.map fun s => distinct s.toList

/-- Settings from JSON; a missing field has its default. -/
def ofJson? (v : Json) : Option Config :=
  match v.fields? ["alphabet", "seed", "repetition_cap", "boundary_char", "debug"] with
  | some [alphabet, seed, cap, boundary, debug] =>
    match Json.optional alphabetOfJson? default.alphabet alphabet,
      Json.optional Json.toUInt64? default.seed seed,
      Json.optional Json.toUInt64? default.repetitionCap cap,
      Json.optional Json.toChar? default.boundary boundary,
      Json.optional Json.toBool? default.debug debug with
    | some alphabet, some seed, some cap, some boundary, some debug =>
      some ⟨alphabet, seed, cap, boundary, debug⟩
    | _, _, _, _, _ => none
  | _ => none

/-- Settings from the text of their JSON. -/
def load (text : List Char) : Except Json.Fault Config :=
  Json.readAs id (fun v => match ofJson? v with
    | some cfg => .ok cfg
    | none => .error .malformed) text

end Config

end PatternSampler
