import PatternSampler.Generation.Machine
import PatternSampler.Program.Listing
/-!
# Traces

What a run shows of itself when its settings ask for it: the listing of the program, a line for
each instruction before it is executed, and at the end the text that was written.
-/
set_option autoImplicit false

namespace PatternSampler

namespace Machine

/-- The line that tells of a lookaround that is skipped, if the instruction opens one. -/
def skipLine (code : Code) (i : Instruction) : List String :=
  match i.opcode, code.lookaround i.offset with
  | .setjump, .ok extent =>
    if extent.negative then
      ["     skip negative lookaround " ++ Text.decimal i.offset ++ ".."
        ++ Text.decimal extent.stop]
    else []
  | _, _ => []

/-- The lines of a run of at most `fuel` steps. -/
def trace (code : Code) (cfg : Config) : Nat → Machine → List String
  | 0, _ => []
  | fuel + 1, m =>
    if m.ip < code.words.size then
      match code.instructionAt m.ip with
      | .error _ => []
      | .ok i =>
        code.describe i :: (skipLine code i
          ++ match m.exec code cfg i with
            | .error _ => []
            | .ok m => trace code cfg fuel m)
    else ["=> " ++ Text.quote m.marks.finish]

end Machine

/-- What a run of a program shows of itself; nothing unless the settings ask for it. -/
def Program.trace (p : Program) (cfg : Config) (fuel : Nat) : String :=
  if cfg.debug then
    p.listing ++ String.join ((Machine.trace p.code cfg fuel (.start cfg)).map (· ++ "\n"))
  else ""

end PatternSampler
