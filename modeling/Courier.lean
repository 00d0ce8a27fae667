import Courier.Bus.Async
import Courier.Bus.DryRun
import Courier.Log.Setup
import Courier.Proofs.Bus.Sync
import Courier.Script.Document
import Courier.Settings.Loader
import Courier.Worker.Basic
import Courier.Proofs.Handler.Procedure
import Courier.Proofs.Handler.Program
import Courier.Proofs.Cohort.Line
import Courier.Proofs.Cohort.Stage
import Courier.Proofs.Cohort.Order
import Courier.Proofs.Cohort.Relay
import Courier.Proofs.Cohort.Settling
import Courier.Proofs.Handler.Footprint
import Courier.Proofs.Cohort.Sequence
import Courier.Proofs.Cohort.Orderless
import Courier.Proofs.Handler.Suspension
import Courier.Proofs.Bus.Async
import Courier.Proofs.Bus.Agreement
import Courier.Proofs.Bus.Course
import Courier.Proofs.Bus.Ending
import Courier.Proofs.Bus.Generations
import Courier.Proofs.Worker.FollowUp
import Courier.Proofs.Worker.Pass
import Courier.Proofs.Worker.Cascade
import Courier.Proofs.Audit.Writing
import Courier.Proofs.Audit.Logging
import Courier.Proofs.Audit.Sharing
import Courier.Proofs.Dictionary
import Courier.Proofs.Audit.Masking
import Courier.Proofs.Bus.Prompt
import Courier.Proofs.Bus.Kind
import Courier.Proofs.Audit.Secrecy
import Courier.Proofs.Bus.Release
import Courier.Proofs.Cohort.Omission
import Courier.Proofs.Bus.Omission
import Courier.Proofs.Matching
import Courier.Proofs.Bus.Stepwise
import Courier.Proofs.Audit.DefaultBuses
import Courier.Proofs.Settings.Ordered
import Courier.Proofs.Settings.Sources
import Courier.Proofs.Settings.Overlay
import Courier.Proofs.Settings.Decoding
import Courier.Proofs.Settings.Leafwise
import Courier.Proofs.Settings.Document
import Courier.Proofs.Settings.Verdict
import Courier.Proofs.Settings.Layering
import Courier.Proofs.Handler.Block
import Courier.Proofs.Handler.Diary
import Courier.Proofs.Handler.Shadow
import Courier.Proofs.Handler.Threads
import Courier.Proofs.Handler.Writing
import Courier.Proofs.Tracking
import Courier.Proofs.Bus.Recorded
import Courier.Proofs.Cohort.Shadow
import Courier.Proofs.Cohort.Blocks
import Courier.Proofs.Cohort.Crowd
import Courier.Proofs.Cohort.Queueing
import Courier.Proofs.Cohort.Chronicle
import Courier.Proofs.Bus.Discipline
import Courier.Proofs.Handler.Ends
import Courier.Proofs.Bus.Routing
import Courier.Proofs.Bus.Prediction
import Courier.Proofs.Codec.Normal
import Courier.Proofs.Codec.Return
import Courier.Proofs.Mirror
import Courier.Proofs.Audit.Twins
import Courier.Proofs.Bus.Repetition
import Courier.Proofs.Worker.Afresh
import Courier.Proofs.Worker.Isolation
import Courier.Proofs.Bus.Unlocked
import Courier.Proofs.Bus.Trail
import Courier.Proofs.Bus.Descent
import Courier.Proofs.Bus.Unrelated
import Courier.Proofs.Bus.Batch
import Courier.Proofs.Settings.Link
import Courier.Proofs.Context.History
import Courier.Proofs.Codec.Acceptance
import Courier.Proofs.Settings.Merging
import Courier.Proofs.Settings.Selection
import Courier.Proofs.Codec.Redaction
import Courier.Proofs.Bus.Upkeep
import Courier.Proofs.Cohort.Upkeep
import Courier.Proofs.Holdings.Use
import Courier.Proofs.Holdings.Session
import Courier.Proofs.Holdings.Cohort
import Courier.Proofs.Holdings.BetweenCalls
