import RegisterBridge.Bridge.Basic
import RegisterBridge.Event.Json
import RegisterBridge.Value.Json
import RegisterBridge.Proofs.Expr.Frames
import RegisterBridge.Proofs.Expr.DerivedRuns
import RegisterBridge.Proofs.Expr.OpenFrames
import RegisterBridge.Proofs.Expr.ParserGrammar
import RegisterBridge.Proofs.Binary64.Rounding
import RegisterBridge.Proofs.Decimal.ReadBack
import RegisterBridge.Proofs.Expr.Spelling
import RegisterBridge.Proofs.Expr.PrintedForm
import RegisterBridge.Proofs.Expr.Tiling
import RegisterBridge.Proofs.Device.Compilation
import RegisterBridge.Proofs.Device.Places
import RegisterBridge.Proofs.Word.Changes
import RegisterBridge.Proofs.Word.Patches
import RegisterBridge.Proofs.Word.Environment
import RegisterBridge.Proofs.Device.Batches
import RegisterBridge.Proofs.Device.Visits
import RegisterBridge.Proofs.Device.Stamps
import RegisterBridge.Proofs.Device.BatchOrder
import RegisterBridge.Proofs.Binary64.SignedZero
import RegisterBridge.Proofs.Device.Published
import RegisterBridge.Proofs.Device.Coherence
import RegisterBridge.Proofs.Word.Runs
import RegisterBridge.Proofs.Device.Writes
import RegisterBridge.Proofs.Bridge.Flush
import RegisterBridge.Proofs.Bridge.FailedPolls
import RegisterBridge.Proofs.Device.Duplicates
import RegisterBridge.Proofs.Device.Isolation
import RegisterBridge.Proofs.Device.Requests
import RegisterBridge.Proofs.Device.Mirror
import RegisterBridge.Proofs.Bridge.Refusals
import RegisterBridge.Proofs.Value.Integers
import RegisterBridge.Proofs.Device.Commands
import RegisterBridge.Proofs.Bridge.ClosedLoop
import RegisterBridge.Proofs.Event.Delivery
import RegisterBridge.Proofs.Event.Retention
import RegisterBridge.Proofs.Bridge.Blocked
import RegisterBridge.Proofs.Device.Exactness
import RegisterBridge.Proofs.Binary64.Nearest
import RegisterBridge.Proofs.Binary64.Operations
import RegisterBridge.Proofs.Device.BitWrites
import RegisterBridge.Proofs.Device.Lookup
import RegisterBridge.Proofs.Device.Resolution
import RegisterBridge.Proofs.Device.Percent
import RegisterBridge.Proofs.Expr.ViablePrefixes
import RegisterBridge.Proofs.Expr.Faults
import RegisterBridge.Proofs.Word.Draining
import RegisterBridge.Proofs.Device.Counters
import RegisterBridge.Proofs.Device.RawWords
import RegisterBridge.Proofs.Device.RawBits
import RegisterBridge.Proofs.Bridge.Inbound
import RegisterBridge.Proofs.Binary64.Remainder
import RegisterBridge.Proofs.Expr.BitOperators
import RegisterBridge.Proofs.Device.WordNames
import RegisterBridge.Proofs.Device.Replay
import RegisterBridge.Proofs.Device.CommandLookup
import RegisterBridge.Proofs.Model.RoundTrip
import RegisterBridge.Proofs.Message.RoundTrip
