import SliceScheduler.Engine.Event
import SliceScheduler.Job.Retry
import SliceScheduler.Lock.Holder
/-!
# What a node knows by itself

Apart from the shared store a node has a desk: its settings, the executors registered with it, how
far it has come with the slices that it works on, the locks that it has taken, and the events that
it has announced.

`SchedulerError` has the causes for which a request to a node is refused, and their wording.
-/
namespace SliceScheduler

/-- Why a request to a node is refused. -/
inductive SchedulerError where
  | invalidSubmission (error : SubmissionError)
  | jobNotFound (id : String)
  | storage (error : StoreError)
  | channel (reason : String)
  | stopped
deriving DecidableEq, Repr

def SchedulerError.message : SchedulerError → String
  | invalidSubmission error => "invalid submission: " ++ error.message
  | jobNotFound id => "job not found: " ++ id
  | storage error => "storage error: " ++ error.message
  | channel reason => "channel error: " ++ reason
  | stopped => "scheduler is stopped"

/-- The executor of a type of job: which one it is, what it asks of a job, and how its failures are
retried. -/
structure Registration where
  executor : Nat
  check : Job → Except JobError Unit
  policy : RetryPolicy

/-- The executors by type of job. -/
abbrev Registry := Std.ExtTreeMap String Registration

/-- How a node is set up. -/
structure NodeSettings where
  /-- The owner of the locks that the node takes. -/
  node : String
  width : Duration
  /-- The time between two ticks of its own. -/
  tickInterval : Option Duration
  /-- The node ticks only when it is asked to. -/
  manualTicks : Bool
  /-- How many executors may run at once. -/
  maxConcurrent : Nat
  /-- How many slices one tick may walk. -/
  maxCatchUp : Nat
  /-- How long a shutdown waits for the slices at work. -/
  shutdownTimeout : Duration
deriving DecidableEq, Repr

namespace NodeSettings

/-- The settings of a node unless told otherwise. -/
def standard (node : String) : NodeSettings where
  node
  width := Duration.ofSeconds 60
  tickInterval := none
  manualTicks := false
  maxConcurrent := 16
  maxCatchUp := 60
  shutdownTimeout := Duration.ofSeconds 30

/-- At least one executor may run. -/
def withMaxConcurrent (s : NodeSettings) (n : Nat) : NodeSettings :=
  { s with maxConcurrent := max n 1 }

/-- A tick walks at least one slice. -/
def withMaxCatchUp (s : NodeSettings) (n : Nat) : NodeSettings :=
  { s with maxCatchUp := max n 1 }

/-- The time between the ticks of a node that ticks by itself. -/
def ownInterval? (s : NodeSettings) : Option Duration :=
  if s.manualTicks then none else some (s.tickInterval.getD s.width)

end NodeSettings

/-- How far a node has come with a slice whose lock it has. -/
inductive Progress where
  /-- Its jobs are at work. -/
  | draining
  /-- All of them have come to an end; the slice waits for the pointer. -/
  | drained
deriving DecidableEq, Repr

/-- What a node is up to. -/
inductive Mode where
  | running
  | paused
  | stopped
deriving DecidableEq, Repr

def Mode.name : Mode → String
  | running => "running"
  | paused => "paused"
  | stopped => "stopped"

/-- What a node knows by itself. -/
structure Desk where
  settings : NodeSettings
  registry : Registry
  mode : Mode
  progress : Std.ExtTreeMap Slice Progress
  held : Holder
  /-- A shutdown has waited long enough: the node moves the pointer no more. -/
  stopped : Bool
  log : Array Event

namespace Desk

/-- The desk of a node that starts. -/
def ofSettings (settings : NodeSettings) (registry : Registry) : Desk where
  settings
  registry
  mode := .running
  progress := ∅
  held := .empty
  stopped := false
  log := #[]

def width (d : Desk) : Duration := d.settings.width

/-- Notes how far a slice has come. -/
def setProgress (d : Desk) (slice : Slice) (p : Progress) : Desk :=
  { d with progress := d.progress.insert slice p }

/-- Forgets a slice. -/
def forget (d : Desk) (slice : Slice) : Desk :=
  { d with progress := d.progress.erase slice }

/-- Announces an event. -/
def announce (d : Desk) (e : Event) : Desk := { d with log := d.log.push e }

/-- The drained slices before the pointer, in order. -/
def staleSlices (d : Desk) (pointer : Slice) : List Slice :=
  d.progress.toList.filterMap fun (slice, p) =>
    if slice < pointer ∧ p = .drained then some slice else none

/-- The lock that the node takes to work on a slice. -/
def advanceLock (d : Desk) (slice : Slice) : HeldLock :=
  ⟨slice.advanceLock, d.settings.node, .exclusive⟩

end Desk

end SliceScheduler
