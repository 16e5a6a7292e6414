import Rescale.Autoscaler
import Rescale.Ceiling.Basic
import Rescale.Ceiling.Cluster
import Rescale.Ceiling.Quota
import Rescale.Config.Basic
import Rescale.Config.Document
import Rescale.Config.Draft
import Rescale.Config.Error
import Rescale.Config.Resolve
import Rescale.Console.Arguments
import Rescale.Console.Command
import Rescale.Console.Error
import Rescale.Console.Listing
import Rescale.Console.Path
import Rescale.Console.Workspace
import Rescale.Decimal.Binary
import Rescale.Decimal.Numeral
import Rescale.Decimal.Places
import Rescale.Decimal.Reader
import Rescale.Decimal.Shortest
import Rescale.Decision.Decide
import Rescale.Decision.Error
import Rescale.Decision.Outcome
import Rescale.Decision.Persist
import Rescale.Decision.Propose
import Rescale.Decision.Session
import Rescale.Elastic.Stance
import Rescale.Elastic.Transition
import Rescale.Event.Basic
import Rescale.Event.Throttle
import Rescale.Job.Change
import Rescale.Job.Context
import Rescale.Job.Metric
import Rescale.Job.PendingScaleDowns
import Rescale.Job.RestartLog
import Rescale.Job.Snapshot
import Rescale.Job.Topology
import Rescale.Json.Basic
import Rescale.Json.Ordered
import Rescale.Json.Printer
import Rescale.Json.Reader
import Rescale.Lookup
import Rescale.Main
import Rescale.Memory.Size
import Rescale.Memory.SlotProfile
import Rescale.Placement.Capacity
import Rescale.Placement.Node
import Rescale.Placement.Score
import Rescale.Proofs.Ceiling.Cluster
import Rescale.Proofs.Ceiling.Growth
import Rescale.Proofs.Ceiling.Quota
import Rescale.Proofs.Ceiling.Slots
import Rescale.Proofs.Config.Check
import Rescale.Proofs.Config.Ranges
import Rescale.Proofs.Contract
import Rescale.Proofs.Cycle.Basic
import Rescale.Proofs.Cycle.Failure
import Rescale.Proofs.Cycle.Generations
import Rescale.Proofs.Cycle.Holds
import Rescale.Proofs.Cycle.Isolation
import Rescale.Proofs.Cycle.Lockstep
import Rescale.Proofs.Cycle.Overrides
import Rescale.Proofs.Cycle.Positive
import Rescale.Proofs.Cycle.Profiles
import Rescale.Proofs.Cycle.Progress
import Rescale.Proofs.Cycle.Quotas
import Rescale.Proofs.Cycle.Readable
import Rescale.Proofs.Cycle.Restarts
import Rescale.Proofs.Decimal.Reread
import Rescale.Proofs.Decimal.Spelling
import Rescale.Proofs.Decimal.Value
import Rescale.Proofs.Decision.Failure
import Rescale.Proofs.Decision.Gates
import Rescale.Proofs.Decision.Holds
import Rescale.Proofs.Decision.Independence
import Rescale.Proofs.Decision.Local
import Rescale.Proofs.Decision.Overrides
import Rescale.Proofs.Decision.Persist
import Rescale.Proofs.Decision.Positive
import Rescale.Proofs.Decision.Propose
import Rescale.Proofs.Decision.Records
import Rescale.Proofs.Decision.Sound
import Rescale.Proofs.Decision.Tuning
import Rescale.Proofs.Double.Finite
import Rescale.Proofs.Double.Level
import Rescale.Proofs.Double.Nearest
import Rescale.Proofs.Double.Product
import Rescale.Proofs.Double.Whole
import Rescale.Proofs.Elastic.Ladder
import Rescale.Proofs.Elastic.Move
import Rescale.Proofs.Elastic.OneLevel
import Rescale.Proofs.Elastic.Run
import Rescale.Proofs.Event.Throttle
import Rescale.Proofs.Job.History
import Rescale.Proofs.Job.PendingScaleDowns
import Rescale.Proofs.Job.RestartLog
import Rescale.Proofs.Json.Document
import Rescale.Proofs.Json.Leaf
import Rescale.Proofs.Json.Value
import Rescale.Proofs.Memory.Size
import Rescale.Proofs.Placement.Room
import Rescale.Proofs.Record
import Rescale.Proofs.SnapshotFolder
import Rescale.Proofs.Step
import Rescale.Proofs.Store.Agreement
import Rescale.Proofs.Store.Database
import Rescale.Proofs.Store.Faithful
import Rescale.Proofs.Store.Finite
import Rescale.Proofs.Store.Generations
import Rescale.Proofs.Store.Isolation
import Rescale.Proofs.Store.Keys
import Rescale.Proofs.Store.Reset
import Rescale.Proofs.Store.Writes
import Rescale.Proofs.Text.Bytes
import Rescale.Proofs.Text.Padded
import Rescale.Proofs.Text.Reader
import Rescale.Proofs.Text.Trim
import Rescale.Proofs.Time.Blackout
import Rescale.Proofs.Time.Calendar
import Rescale.Proofs.Time.Instant
import Rescale.Proofs.Time.Span
import Rescale.Proofs.Vertex.Alignment
import Rescale.Proofs.Vertex.Bounds
import Rescale.Proofs.Vertex.KeyGroups
import Rescale.Proofs.Vertex.OwnHold
import Rescale.Proofs.Vertex.Refusal
import Rescale.Proofs.Vertex.Window
import Rescale.Record.Job
import Rescale.Record.Node
import Rescale.Record.Readings
import Rescale.Record.Snapshot
import Rescale.Record.Store
import Rescale.SnapshotFolder
import Rescale.SortedMap.Basic
import Rescale.SortedMap.Lemmas
import Rescale.Store.Basic
import Rescale.Store.Database
import Rescale.Store.Error
import Rescale.Store.Ledger
import Rescale.Text.Blank
import Rescale.Text.Digits
import Rescale.Text.Printable
import Rescale.Text.Quoted
import Rescale.Text.Reader
import Rescale.Time.Blackout
import Rescale.Time.Calendar
import Rescale.Time.Instant
import Rescale.Time.Span
import Rescale.Toml.Basic
import Rescale.Toml.Document
import Rescale.Toml.Scalar
import Rescale.Tuning
import Rescale.Vertex.Demand
import Rescale.Vertex.KeyGroups
import Rescale.Vertex.Scaler
