import SliceScheduler.Engine.Program
/-!
# Submitting a job

`submit` checks a job and stores it: first everything that needs no store, then that the slice of
its trigger is not before the pointer and has no job of the same type and name. The job is written
before it enters the index of its slice. `placeJob`, `fileJob`, `nameJob`, `storeJob` and `enterJob`
are what is left of a submission at each of its calls.
-/
namespace SliceScheduler.Program

/-- A request to a node that may be refused. -/
abbrev Submission := ExceptT SchedulerError Program

/-- A call to the store, whose failure is the refusal. -/
def callStore (op : Operation) : Submission op.Answer :=
  ExceptT.mk do return (← call op).mapError .storage

/-- Refuses a submission. -/
def refuse {α : Type} (e : SubmissionError) : Submission α := throw (.invalidSubmission e)

/-- Goes on unless a check fails. -/
def insist {ε : Type} (wrap : ε → SubmissionError) : Except ε Unit → Submission Unit
  | .ok () => return
  | .error e => refuse (wrap e)

/-- None of the jobs has the type and the name of a job. Jobs that are gone do not count. -/
def checkName (job : Job) (slice : Slice) : List JobId → Submission Unit
  | [] => return
  | id :: rest => do
    match ← (call (.getJob id) : Program _) with
    | .error (.notFound _) => pure ()
    | .error e => throw (.storage e)
    | .ok existing =>
      if existing.type = job.type ∧ existing.name = job.name then
        refuse (.duplicateJobName job.type job.name slice)
    checkName job slice rest

/-- Enters a stored job into the index of its slice. -/
def enterJob (job : Job) (slice : Slice) : Submission Job := do
  callStore (.addScheduled slice job.id)
  return job

/-- Stores a job. -/
def storeJob (job : Job) (slice : Slice) : Submission Job := do
  callStore (.insertJob job)
  enterJob job slice

/-- Stores a job whose name is free in its slice. -/
def nameJob (job : Job) (slice : Slice) (others : List JobId) : Submission Job := do
  checkName job slice others
  storeJob job slice

/-- Stores a job whose slice is not before the pointer, if its name is free. -/
def fileJob (job : Job) (slice : Slice) : Submission Job := do
  let sets ← callStore (.sliceSets slice)
  nameJob job slice sets.scheduled.toList

/-- Stores a job unless its slice is before the pointer, or before the current slice as long as
there is no pointer. -/
def placeJob (job : Job) (slice : Slice) : Submission Job := do
  let active ← match ← callStore .getPointer with
    | some pointer => pure pointer
    | none => (currentSlice : Program _)
  if slice < active then refuse (.sliceAlreadyProcessed slice active)
  fileJob job slice

/-- Checks a job and stores it. -/
def submit (job : Job) : Submission Job := do
  let desk ← (look : Program _)
  if desk.stopped then throw .stopped
  insist id (job.check desk.width)
  let some registration := desk.registry[job.type]? | refuse (.unknownJobType job.type)
  insist .ofJobError (registration.check job)
  placeJob job (job.slice desk.width)

/-- Submits a job to a node unless it is shutting down. -/
def schedule (job : Job) : Submission Job := do
  if (← (look : Program _)).mode = .stopped then throw .stopped
  submit job

end SliceScheduler.Program

namespace SliceScheduler

/-- The refusal of a look-up of a job. -/
def SchedulerError.ofLookup (id : JobId) : StoreError → SchedulerError
  | .notFound _ => .jobNotFound id.text
  | e => .storage e

end SliceScheduler
