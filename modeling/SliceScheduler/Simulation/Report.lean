import SliceScheduler.Http.Answer
import SliceScheduler.Job.Retry
import SliceScheduler.Json.Refusal
import SliceScheduler.Simulation.World
/-!
# Reports

The JSON forms in which the results of a simulation are shown.

1. the `report` of each type of error shows a refusal by its kind and its wording;
2. `Json.ofEvents?` groups the events of a node: the slices that are over, those that were deferred,
   and what happened to each job;
3. `Labels` puts short names in the place of ids that a world gave out, and `Json.inOrder` sorts what
   has no order of its own.
-/
namespace SliceScheduler

open Json

/-! ## Refusals -/

def TriggerError.kind : TriggerError → String
  | misaligned _ => "Misaligned"
  | invalidInterval _ => "InvalidInterval"
  | invalidRepeatLimit => "InvalidRepeatLimit"
  | invalidDuration _ => "InvalidDuration"

def JobError.kind : JobError → String
  | executionFailed _ => "ExecutionFailed"
  | invalidParameter _ _ => "InvalidParameter"
  | timeout _ => "Timeout"
  | transient _ => "Transient"
  | panicked _ => "Panicked"
  | other _ => "Other"

def SubmissionError.kind : SubmissionError → String
  | missingField _ => "MissingField"
  | unknownJobType _ => "UnknownJobType"
  | invalidParameter _ _ => "InvalidParameter"
  | invalidTrigger _ => "InvalidTrigger"
  | sliceAlreadyProcessed _ _ => "SliceAlreadyProcessed"
  | duplicateJobName _ _ _ => "DuplicateJobName"
  | rejected _ => "Rejected"

def StoreError.kind : StoreError → String
  | notFound _ => "NotFound"
  | duplicateKey _ => "DuplicateKey"
  | poisoned => "LockPoisoned"
  | undecodable _ => "SerializationError"
  | other _ => "Other"

def SchedulerError.kind : SchedulerError → String
  | invalidSubmission e => "InvalidSubmission." ++ e.kind
  | jobNotFound _ => "JobNotFound"
  | storage _ => "Storage"
  | channel _ => "ChannelError"
  | stopped => "Stopped"

def TriggerError.report (e : TriggerError) : Json := refusal e.kind e.message

def JobError.report (e : JobError) : Json := refusal e.kind e.message

def SubmissionError.report (e : SubmissionError) : Json := refusal e.kind e.message

def SchedulerError.report (e : SchedulerError) : Json := refusal e.kind e.message

/-- The wording is shown if it is that of this library: of a slice that is no slice, of a pointer
that is not there, of a call that was made to fail. -/
def StoreError.report (e : StoreError) : Json :=
  let shown := match e with
    | undecodable reason => reason.startsWith "invalid time slice"
    | other reason => reason.startsWith "injected" || reason.startsWith "active queue"
    | _ => true
  if shown then refusal e.kind e.message else refusalOf e.kind

/-! ## Values -/

/-- A length of time: its seconds and the nanoseconds past them. -/
def Duration.report (d : Duration) : Json := arr [nat d.seconds, nat d.subsecNanos]

def Slice.reportAll (slices : List Slice) : Json := arr (slices.map Slice.toJson)

def RetryDecision.report : RetryDecision → Json
  | terminal => str "terminal"
  | retryAfter d => obj [("retry_after", d.report)]

/-- The sets of a slice. -/
def SliceSets.report (sets : SliceSets) (slice : Slice) : Json :=
  obj [("time_slice", slice.toJson), ("scheduled", idsToJson sets.scheduled.toList),
    ("active", idsToJson sets.active.toList), ("finished", idsToJson sets.finished.toList)]

/-- A lock under its name. -/
def LockView.report (name : String) (v : LockView) : Json :=
  obj [("name", str name), ("exclusive_owner", orNull (v.owner.map str)),
    ("shared_owners", obj (v.shared.toList.map fun (owner, t) => (owner, str t.timestamp)))]

/-- Sorts lists, the first item first. -/
def sortRows {α : Type} [Ord α] (rows : List (List α)) : List (List α) :=
  rows.mergeSort fun a b => (compare a b).isLE

/-- The requests that were met, by kind and sorted. -/
def WorkLog.report (log : WorkLog) : Json :=
  let tenants := sortRows (log.tenants.map fun tenant => [tenant])
  let metrics := sortRows (log.metrics.map fun (tenant, type, name) => [tenant, type.code, name])
  let blocks := sortRows (log.blocks.map fun (start, stop) => [start, stop])
  obj [("tenants", arr (tenants.flatten.map str)),
    ("metrics", arr (metrics.map fun row => arr (row.map str))),
    ("blocks", arr (blocks.map fun row => arr (row.map fun t => str t.timestamp)))]

def LockOutcome.report : LockOutcome → Json
  | acquired => str "acquired"
  | contended => str "contended"
  | failed e => e.report

def TickReport.report (r : TickReport) : Json :=
  obj [("active_queue", r.pointer.toJson), ("dispatched", Slice.reportAll r.dispatched),
    ("deferred", Slice.reportAll r.deferred), ("advanced", Slice.reportAll r.advanced)]

def Reply.report : Reply → Json
  | ticked result => ofResult SchedulerError.report TickReport.report result
  | submitted result => ofResult SchedulerError.report Job.toJson result
  | done => well
  | refused e => e.report

/-- What an executor noted. -/
def Executor.report : Executor → Json
  | blocking started finished _ => obj [("started", nat started), ("finished", nat finished)]
  | e =>
    let run (job : Job) : Json :=
      obj [("id", str job.id.text), ("at", str job.trigger.time.timestamp),
        ("retry", nat job.retries.val)]
    obj [("ran", arr (e.ran.map run))]

/-! ## Events -/

/-- The slice that an event says is over. -/
def Event.finished? : Event → Option Slice
  | sliceFinished s => some s
  | _ => none

/-- The slice that an event says is deferred. -/
def Event.deferred? : Event → Option Slice
  | tickDeferred s => some s
  | _ => none

/-- What an event says of a job. -/
def Event.ofJob? : Event → Option (JobId × Json)
  | jobStarted id type slice => some (id, arr [str "started", str type, slice.toJson])
  | jobCompleted id type slice => some (id, arr [str "completed", str type, slice.toJson])
  | jobFailed id type slice error retryAt =>
    some (id, arr [str "failed", str type, slice.toJson, str error,
      orNull (retryAt.map fun t => str t.timestamp)])
  | jobRescheduled id source target retries =>
    some (id, arr [str "rescheduled", source.toJson, target.toJson, nat retries.val])
  | jobDeadLettered id type slice => some (id, arr [str "dead_lettered", str type, slice.toJson])
  | _ => none

/-- Events by kind and job, if there are any. -/
def Json.ofEvents? (events : List Event) : Option Json :=
  let slices := events.filterMap Event.finished?
  let deferred := events.filterMap Event.deferred?
  let jobs := events.filterMap Event.ofJob?
  let ofJob (id : JobId) : Json := arr ((jobs.filter (·.1 == id)).map (·.2))
  let members :=
    (if slices.isEmpty then [] else [("slices", Slice.reportAll slices)]) ++
    (if deferred.isEmpty then [] else [("deferred", Slice.reportAll deferred)]) ++
    (if jobs.isEmpty then []
      else [("jobs", obj ((jobs.map (·.1)).eraseDups.map fun id => (id.text, ofJob id)))])
  if members.isEmpty then none else some (obj members)

/-! ## Labels and order -/

/-- Short names of ids. -/
abbrev Labels := List (JobId × String)

namespace Labels

/-- The name of the id of a number, of three digits or more. -/
def nameOf (n : Nat) : String := String.ofList ('#' :: Text.padded 3 n)

/-- Names the ids that a world gave out, of the jobs in its store that have no name yet. -/
def sight (labels : Labels) (w : World) : Labels :=
  let isNew (job : Job) : Bool := w.gave job.id && !labels.any (·.1 == job.id)
  let order (a b : Job) : Ordering :=
    (compare a.trigger.time b.trigger.time).then
      ((compare a.type b.type).then (compare a.name b.name))
  let fresh := (w.cluster.store.jobs.values.filter isNew).mergeSort fun a b => (order a b).isLE
  labels ++ fresh.zipIdx.map fun (job, i) => (job.id, nameOf (labels.length + i + 1))

/-- Puts names in the place of ids in a text. -/
def label (labels : Labels) (text : String) : String :=
  labels.foldl (fun text (id, name) => text.replace id.text name) text

/-- Puts ids in the place of names in a text. -/
def unlabel (labels : Labels) (text : String) : String :=
  labels.foldl (fun text (id, name) => text.replace name id.text) text

end Labels

namespace Json

/-- A text, or nothing. -/
def textOr : Json → String
  | str s => s
  | _ => ""

/-- A text inside of objects, or nothing. -/
def textAt : List String → Json → String
  | [], v => v.textOr
  | name :: names, v => textAt names ((v.get? name).getD null)

/-- Sorts values by texts in them. -/
def sortOn (key : Json → List String) (items : List Json) : List Json :=
  items.mergeSort fun a b => (compare (key a) (key b)).isLE

/-- Puts the items of a member in order: sets of ids, runs of jobs, and lists of jobs of which one
has a name in the place of its id. -/
def orderItems (name : String) (items : List Json) : List Json :=
  if ["scheduled", "active", "finished", "pending"].contains name then
    sortOn (fun v => [v.textOr]) items
  else if name = "ran" then sortOn (fun v => [textAt ["id"] v]) items
  else if name = "jobs" ∧ items.any fun v => (textAt ["job_id"] v).startsWith "#" then
    sortOn (fun v => [textAt ["trigger", "trigger_time"] v, textAt ["job_id"] v]) items
  else items

mutual

/-- Changes every text of a value, and puts its members in order. -/
def inOrder (f : String → String) (name : String) : Json → Json
  | str s => str (f s)
  | arr items => arr (orderItems name (allInOrder f items))
  | obj members => obj (membersInOrder f members)
  | v => v

/-- Changes every text of the items of an array. -/
def allInOrder (f : String → String) : List Json → List Json
  | [] => []
  | v :: vs => v.inOrder f "" :: allInOrder f vs

/-- Changes every text of the members of an object, their names too. -/
def membersInOrder (f : String → String) : List (String × Json) → List (String × Json)
  | [] => []
  | (k, v) :: rest => (f k, v.inOrder f k) :: membersInOrder f rest

end

end Json

end SliceScheduler
