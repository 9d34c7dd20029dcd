import PatternSampler.CommandLine.Native
/-!
# The program

Reads the files that the arguments name, runs the session, and writes what it comes to.
-/
set_option autoImplicit false

namespace PatternSampler.CommandLine

/-- The steps that a run may take, more than there is time for. -/
def stepLimit : Nat := 4611686018427387904

/-- What is said of a file that cannot be read. -/
def readFault : IO.Error → String
  | .noFileOrDirectory _ code details | .permissionDenied _ code details
  | .inappropriateType _ code details => details ++ " (os error " ++ toString code ++ ")"
  | e => toString e

/-- The text of a file, or why it cannot be read. -/
def readText (name : String) : IO (Except String (List Char)) := do
  try
    let bytes ← IO.FS.readBinFile name
    match String.fromUTF8? bytes with
    | some text => return .ok text.toList
    | none => return .error "stream did not contain valid UTF-8"
  catch e => return .error (readFault e)

/-- The files that the arguments name, by name. -/
def readFiles (args : Arguments) : IO (List (String × Except String (List Char))) :=
  ([args.config, args.program, args.file].filterMap id).mapM fun name => do
    return (name, ← readText name)

/-- How the program is used. -/
def usage : String :=
  "usage: regexgen [options] [PATTERN]\n"

end PatternSampler.CommandLine

open PatternSampler.CommandLine

/-- Runs the program. -/
def main (arguments : List String) : IO UInt32 := do
  match Command.parse arguments with
  | none =>
    (← IO.getStderr).putStr usage
    return 2
  | some command =>
    let files ← match command with
      | .version => pure []
      | .session args => readFiles args
    let world := World.native
      (fun name => (files.lookup name).getD (.error "No such file or directory (os error 2)"))
      (← (← IO.getStderr).isTty)
    match command.outcome world stepLimit with
    | none => return 1
    | some outcome =>
      (← IO.getStdout).putStr outcome.out
      (← IO.getStderr).putStr outcome.err
      return UInt32.ofNat outcome.code
