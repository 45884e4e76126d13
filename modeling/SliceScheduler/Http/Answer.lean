import SliceScheduler.Engine.Desk
import SliceScheduler.Engine.Task
import SliceScheduler.Job.Record
/-!
# Answers of the management interface

The management interface answers with a status and, mostly, a JSON value.

1. `HttpFault` are the refusals, `HttpFault.ofScheduler` and `ofStore` where they come from;
2. the functions that follow write the values: jobs, slices, the pointer and its lag, the state.
-/
namespace SliceScheduler

open Json

/-- A status, with a JSON value if the body is one. -/
structure HttpAnswer where
  status : Nat
  body : Option Json

namespace HttpAnswer

/-- A value that was asked for. -/
def ok (body : Json) : HttpAnswer := ⟨200, some body⟩

/-- A value that was made. -/
def created (body : Json) : HttpAnswer := ⟨201, some body⟩

/-- A status without a value. -/
def bare (status : Nat) : HttpAnswer := ⟨status, none⟩

/-- An answer of which only the status counts. -/
def withoutBody (a : HttpAnswer) : HttpAnswer := { a with body := none }

end HttpAnswer

/-! ## Refusals -/

/-- Why the interface refuses a request. -/
inductive HttpFault where
  | badRequest (reason : String)
  | notFound (reason : String)
  | unavailable (reason : String)
  | internal (reason : String)
deriving DecidableEq, Repr

namespace HttpFault

/-- The refusal for a failing call to the store. -/
def ofStore : StoreError → HttpFault
  | .notFound what => notFound what
  | e => internal e.message

/-- The refusal for a refusal of the node. -/
def ofScheduler : SchedulerError → HttpFault
  | .invalidSubmission e => badRequest e.message
  | .jobNotFound id => notFound ("job not found: " ++ id)
  | .storage e => ofStore e
  | .channel reason => unavailable reason
  | .stopped => unavailable "scheduler is stopped"

/-- The status, the code and the reason of a refusal. -/
def parts : HttpFault → Nat × String × String
  | badRequest reason => (400, "BAD_REQUEST", reason)
  | notFound reason => (404, "NOT_FOUND", reason)
  | unavailable reason => (503, "SERVICE_UNAVAILABLE", reason)
  | internal reason => (500, "INTERNAL_ERROR", reason)

def answer (f : HttpFault) : HttpAnswer :=
  let (status, code, reason) := f.parts
  ⟨status, some (obj [("error", str reason), ("code", str code)])⟩

end HttpFault

/-! ## Values -/

/-- A time slice. -/
def Slice.toJson (s : Slice) : Json := str s.start.timestamp

/-- Ids as text. -/
def idsToJson (ids : List JobId) : Json := arr (ids.map fun id => str id.text)

/-- The version that the interface shows. -/
def version : String := "0.1.0"

/-- The interface is there. -/
def healthToJson : Json := obj [("status", str "ok"), ("version", str version)]

/-- What a node is up to. -/
def modeToJson (mode : Mode) (node : String) : Json :=
  obj [("state", str mode.name), ("is_running", bool (mode = .running)),
    ("is_paused", bool (mode = .paused)), ("node_id", str node)]

/-- How many slices the pointer is behind the current slice. -/
def lag (pointer : Option Slice) (current : Slice) (width : Duration) : Int :=
  match pointer with
  | some pointer => max ((current.millis - pointer.millis).tdiv width.sliceMillis) 0
  | none => 0

/-- The pointer and its lag. -/
def pointerToJson (pointer : Option Slice) (current : Slice) (width : Duration) : Json :=
  obj [("active_queue", orNull (pointer.map Slice.toJson)),
    ("active_queue_ms", orNull (pointer.map fun p => int p.millis)),
    ("current_slice", current.toJson), ("lag", int (lag pointer current width))]

/-- The index of a slice, and how many of its jobs are pending. -/
def SliceSets.toJson (sets : SliceSets) (slice : Slice) : Json :=
  obj [("time_slice", slice.toJson), ("time_slice_ms", int slice.millis),
    ("scheduled", idsToJson sets.scheduled.toList), ("active", idsToJson sets.active.toList),
    ("finished", idsToJson sets.finished.toList), ("pending", nat sets.pending.length)]

/-- A job with the slice that it is due in. -/
def Job.describe (job : Job) (width : Duration) : Json :=
  obj [("job_id", str job.id.text), ("job_type", str job.type), ("job_name", str job.name),
    ("parameters", parametersToJson job.parameters), ("trigger", job.trigger.toJson),
    ("time_slice", (job.slice width).toJson), ("retry_count", nat job.retries.val)]

/-- Jobs and their number. -/
def jobsToJson (jobs : List Job) (width : Duration) : Json :=
  obj [("jobs", arr (jobs.map (·.describe width))), ("count", nat jobs.length)]

/-- A message. -/
def messageToJson (text : String) : Json := obj [("message", str text)]

end SliceScheduler
