import SliceScheduler.CommandLine.Arguments
import SliceScheduler.CommandLine.Run
import SliceScheduler.Config.Address
import SliceScheduler.Config.Basic
import SliceScheduler.Config.Decode
import SliceScheduler.Config.Report
import SliceScheduler.Engine.Alone
import SliceScheduler.Engine.Cluster
import SliceScheduler.Engine.Desk
import SliceScheduler.Engine.Drain
import SliceScheduler.Engine.Event
import SliceScheduler.Engine.Node
import SliceScheduler.Engine.Pointer
import SliceScheduler.Engine.Program
import SliceScheduler.Engine.Submit
import SliceScheduler.Engine.Task
import SliceScheduler.Engine.Tick
import SliceScheduler.Http.Answer
import SliceScheduler.Http.Endpoint
import SliceScheduler.Http.MediaType
import SliceScheduler.Job.Basic
import SliceScheduler.Job.Count
import SliceScheduler.Job.Failure
import SliceScheduler.Job.Id
import SliceScheduler.Job.Record
import SliceScheduler.Job.Retry
import SliceScheduler.Job.Trigger
import SliceScheduler.Json.Basic
import SliceScheduler.Json.Decode
import SliceScheduler.Json.Reader
import SliceScheduler.Json.Refusal
import SliceScheduler.Lock.Board
import SliceScheduler.Lock.Holder
import SliceScheduler.Main
import SliceScheduler.Maintenance.Block
import SliceScheduler.Maintenance.Executor
import SliceScheduler.Maintenance.Metric
import SliceScheduler.Maintenance.Submission
import SliceScheduler.Proofs.Acceptance
import SliceScheduler.Proofs.Accord
import SliceScheduler.Proofs.Accounts
import SliceScheduler.Proofs.Admission
import SliceScheduler.Proofs.Advancing
import SliceScheduler.Proofs.Announcement
import SliceScheduler.Proofs.Backends
import SliceScheduler.Proofs.Blocks
import SliceScheduler.Proofs.BoundedRetry
import SliceScheduler.Proofs.Clearing
import SliceScheduler.Proofs.Closing
import SliceScheduler.Proofs.Compression
import SliceScheduler.Proofs.Configured
import SliceScheduler.Proofs.Course
import SliceScheduler.Proofs.Coverage
import SliceScheduler.Proofs.DeletionNames
import SliceScheduler.Proofs.Dispatches
import SliceScheduler.Proofs.DurationGrammar
import SliceScheduler.Proofs.DurationText
import SliceScheduler.Proofs.Exclusion
import SliceScheduler.Proofs.Fencing
import SliceScheduler.Proofs.Fleet
import SliceScheduler.Proofs.Guard
import SliceScheduler.Proofs.Handling
import SliceScheduler.Proofs.Horizon
import SliceScheduler.Proofs.IdText
import SliceScheduler.Proofs.JobEntry
import SliceScheduler.Proofs.JobEvents
import SliceScheduler.Proofs.JobLife
import SliceScheduler.Proofs.JobOrder
import SliceScheduler.Proofs.JobOutcome
import SliceScheduler.Proofs.JobStory
import SliceScheduler.Proofs.JobText
import SliceScheduler.Proofs.JobView
import SliceScheduler.Proofs.JsonText
import SliceScheduler.Proofs.LockModes
import SliceScheduler.Proofs.Lone
import SliceScheduler.Proofs.MaintenanceRequests
import SliceScheduler.Proofs.Names
import SliceScheduler.Proofs.NextOccurrence
import SliceScheduler.Proofs.NextSlice
import SliceScheduler.Proofs.Numerals
import SliceScheduler.Proofs.Occurrence
import SliceScheduler.Proofs.Order
import SliceScheduler.Proofs.OrderedMaps
import SliceScheduler.Proofs.Ownership
import SliceScheduler.Proofs.Passing
import SliceScheduler.Proofs.Pause
import SliceScheduler.Proofs.PointerLaw
import SliceScheduler.Proofs.Recurrence
import SliceScheduler.Proofs.RepeatLimit
import SliceScheduler.Proofs.Requests
import SliceScheduler.Proofs.Rescheduling
import SliceScheduler.Proofs.RetryTime
import SliceScheduler.Proofs.Retrying
import SliceScheduler.Proofs.Rounding
import SliceScheduler.Proofs.RowText
import SliceScheduler.Proofs.Run
import SliceScheduler.Proofs.Running
import SliceScheduler.Proofs.Scenario
import SliceScheduler.Proofs.Settle
import SliceScheduler.Proofs.Shows
import SliceScheduler.Proofs.Shutdown
import SliceScheduler.Proofs.SingleStart
import SliceScheduler.Proofs.Staff
import SliceScheduler.Proofs.Stage
import SliceScheduler.Proofs.StoreEffect
import SliceScheduler.Proofs.StoreEntry
import SliceScheduler.Proofs.StoredRow
import SliceScheduler.Proofs.Submission
import SliceScheduler.Proofs.TableLocks
import SliceScheduler.Proofs.TableRows
import SliceScheduler.Proofs.TaskView
import SliceScheduler.Proofs.TickWindow
import SliceScheduler.Proofs.Tidy
import SliceScheduler.Proofs.TimeText
import SliceScheduler.Proofs.Trials
import SliceScheduler.Proofs.TrialsView
import SliceScheduler.Proofs.Trimming
import SliceScheduler.Proofs.Visits
import SliceScheduler.Proofs.Watched
import SliceScheduler.Proofs.WholeTimes
import SliceScheduler.Simulation.Control
import SliceScheduler.Simulation.Executor
import SliceScheduler.Simulation.Report
import SliceScheduler.Simulation.World
import SliceScheduler.Store.Backend
import SliceScheduler.Store.Fault
import SliceScheduler.Store.Memory
import SliceScheduler.Store.Operation
import SliceScheduler.Store.Snapshot
import SliceScheduler.Store.Table
import SliceScheduler.Text.Blank
import SliceScheduler.Text.Decimal
import SliceScheduler.Text.Radix
import SliceScheduler.Text.Reader
import SliceScheduler.Text.Real
import SliceScheduler.Text.Word
import SliceScheduler.Time.Calendar
import SliceScheduler.Time.Duration
import SliceScheduler.Time.Instant
import SliceScheduler.Time.Slice
import SliceScheduler.Time.Timestamp
import SliceScheduler.Yaml.Character
import SliceScheduler.Yaml.Cursor
import SliceScheduler.Yaml.Document
import SliceScheduler.Yaml.Lexer
import SliceScheduler.Yaml.Meaning
import SliceScheduler.Yaml.Property
import SliceScheduler.Yaml.Scalar
import SliceScheduler.Yaml.Token
import SliceScheduler.Yaml.Tree
import SliceScheduler.Proofs.LockRules
import SliceScheduler.Proofs.LockTenure
import SliceScheduler.Proofs.SliceLaws
import SliceScheduler.Proofs.HeldLocks
