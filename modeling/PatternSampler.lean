import PatternSampler.Text.Lines
import PatternSampler.Text.Quoted
import PatternSampler.Unicode.Numeric
import PatternSampler.Json.Record
import PatternSampler.CharClass.Display
import PatternSampler.CharClass.Choices
import PatternSampler.CharClass.Codec
import PatternSampler.Pattern.Parser
import PatternSampler.Pattern.Options
import PatternSampler.Program.Listing
import PatternSampler.Program.Codec
import PatternSampler.Program.Layout
import PatternSampler.Generation.Machine
import PatternSampler.Generation.Trace
import PatternSampler.Diagnostic.Terminal
import PatternSampler.Diagnostic.JsonLine
import PatternSampler.Main
import PatternSampler.Proofs.Emission
import PatternSampler.Proofs.Interning
import PatternSampler.Proofs.Subnodes
import PatternSampler.Proofs.Placement
import PatternSampler.Proofs.Provenance
import PatternSampler.Proofs.Acceptance
import PatternSampler.Proofs.Draws
import PatternSampler.Proofs.Sampling
import PatternSampler.Proofs.Stepping
import PatternSampler.Proofs.Scanning
import PatternSampler.Proofs.Execution
import PatternSampler.Proofs.Simulation
import PatternSampler.Proofs.Endless
import PatternSampler.Proofs.Classes
import PatternSampler.Proofs.ParsedTree
import PatternSampler.Proofs.Soundness
import PatternSampler.Proofs.Safety
import PatternSampler.Proofs.Lockstep
import PatternSampler.Proofs.WellFormed
import PatternSampler.Proofs.Spelling
import PatternSampler.Proofs.ReadBack
import PatternSampler.Proofs.Loading
import PatternSampler.Proofs.Quoting
import PatternSampler.Proofs.Indifference
import PatternSampler.Proofs.Origin
import PatternSampler.Proofs.NormalForm
import PatternSampler.Proofs.Witnesses
import PatternSampler.Proofs.TokenRules
import PatternSampler.Proofs.Scans
import PatternSampler.Proofs.ClassText
import PatternSampler.Proofs.PatternFiles
import PatternSampler.Proofs.Transcript
import PatternSampler.Proofs.LoadedDraws
import PatternSampler.Proofs.BoundedCopies
import PatternSampler.Proofs.Verdict
import PatternSampler.Pattern.Descent
import PatternSampler.Proofs.Tiling
import PatternSampler.Proofs.ClassBodies
import PatternSampler.Proofs.Descent
import PatternSampler.Proofs.ErrorSpans
import PatternSampler.Proofs.ClassSyntax
import PatternSampler.Proofs.Nesting
import PatternSampler.Proofs.Pieces
import PatternSampler.Proofs.Seeds
import PatternSampler.Proofs.Settings
import PatternSampler.Proofs.JsonLines
import PatternSampler.Proofs.Colour
import PatternSampler.Proofs.Displays
import PatternSampler.Proofs.Extents
import PatternSampler.Proofs.CountedLoops
import PatternSampler.Proofs.Lines
import PatternSampler.Proofs.Carets
import PatternSampler.Proofs.Places
import PatternSampler.Proofs.Reduction
import PatternSampler.Proofs.BulkDraws
