import ResumableForth.CommandLine.Arguments
import ResumableForth.CommandLine.Console
import ResumableForth.Config
import ResumableForth.Dictionary
import ResumableForth.Evaluator
import ResumableForth.Fault
import ResumableForth.Json
import ResumableForth.Machine.Action
import ResumableForth.Machine.Basic
import ResumableForth.Main
import ResumableForth.Number.Binary64
import ResumableForth.Number.Binary64.Text
import ResumableForth.Number.Decimal
import ResumableForth.Prelude
import ResumableForth.Primitive
import ResumableForth.Reflection
import ResumableForth.Snapshot
import ResumableForth.Text.Blank
import ResumableForth.Text.Cluster
import ResumableForth.Text.Combining
import ResumableForth.Text.Joining
import ResumableForth.Text.Quoted
import ResumableForth.Trace
import ResumableForth.Value
import ResumableForth.Proofs.Splitting
import ResumableForth.Proofs.Numeral
import ResumableForth.Proofs.Quantization
import ResumableForth.Proofs.JsonGrammar
import ResumableForth.Proofs.JsonScanning
import ResumableForth.Proofs.JsonText
import ResumableForth.Proofs.SnapshotText
import ResumableForth.Proofs.Lexicon
import ResumableForth.Proofs.RoundTrip
import ResumableForth.Proofs.Composition
import ResumableForth.Proofs.Invariance
import ResumableForth.Proofs.Resumption
import ResumableForth.Proofs.Draining
import ResumableForth.Proofs.Lockstep
import ResumableForth.Proofs.Callers
import ResumableForth.Proofs.Recursion
import ResumableForth.Proofs.Silence
import ResumableForth.Proofs.Structured
import ResumableForth.Proofs.Compilation
import ResumableForth.Proofs.Bootstrap
import ResumableForth.Proofs.ControlFlow
import ResumableForth.Proofs.Effects
import ResumableForth.Proofs.Forward
import ResumableForth.Proofs.Indexed
import ResumableForth.Proofs.Ledger
import ResumableForth.Proofs.Coherence
import ResumableForth.Proofs.OpenDefinition
import ResumableForth.Proofs.Naming
import ResumableForth.Proofs.DepthBound
import ResumableForth.Proofs.StackBase
import ResumableForth.Proofs.Failures
import ResumableForth.Proofs.CallTrace
import ResumableForth.Proofs.Placement
import ResumableForth.Proofs.Concatenation
import ResumableForth.Proofs.Halting
import ResumableForth.Proofs.Termination
import ResumableForth.Proofs.ClosedWords
import ResumableForth.Proofs.Layout
import ResumableForth.Proofs.Containment
import ResumableForth.Proofs.Decoding
import ResumableForth.Proofs.Rounding
import ResumableForth.Proofs.Subtraction
import ResumableForth.Proofs.OrderedMap
import ResumableForth.Proofs.ByteOrder
import ResumableForth.Proofs.Listing
import ResumableForth.Proofs.Literals
