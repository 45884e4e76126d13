import SliceScheduler.Engine.Pointer
/-!
# Draining a slice

1. `drain` sets off every pending job of a slice, waits for all of them, and then moves the pointer;
2. `runJob` runs one job and records in the store what came of it: `execute` runs its executor, and
   `conclude` puts it on its next occurrence or a retry, or retires it.

Records are written in an order in which a failing call leaves the job pending, in the slice it left
or in the slice it goes to, until its outcome is recorded.
-/
namespace SliceScheduler.Program

/-- Marks a job finished in a slice. -/
def markFinished (slice : Slice) (id : JobId) : Program Bool := do
  return (← call (.addFinished slice id)).toBool

/-- Deletes a job that is over. -/
def deleteJob (id : JobId) : Program Unit := do
  discard (call (.deleteJob id))

/-- Marks a job finished in a slice and deletes it. -/
def retire (slice : Slice) (id : JobId) : Program Unit := do
  if ← markFinished slice id then
    deleteJob id

/-- A program whose first failing call is its last. -/
abbrev Writing := ExceptT StoreError Program

/-- A write to the store. -/
def write (op : Operation) : Writing op.Answer := ExceptT.mk (call op)

/-- Takes a job out of a slice that it was moved from. -/
def leaveSlice (source : Slice) (id : JobId) : Writing Unit := write (.removeScheduled source id)

/-- Marks a job finished in a slice that it was moved from, and takes it out. -/
def finishSource (source : Slice) (id : JobId) : Writing Unit := do
  write (.addFinished source id)
  leaveSlice source id

/-- Enters a job into the slice of its new trigger, and takes it out of the slice it comes from. -/
def indexTarget (source target : Slice) (id : JobId) : Writing Unit := do
  write (.addScheduled target id)
  finishSource source id

/-- Moves a job from a slice to the slice of its new trigger, in four writes of which the first that
fails is the last. -/
def moveJob (source target : Slice) (job : Job) : Writing Unit := do
  write (.updateJob job)
  indexTarget source target job.id

/-- Announces that a job was moved, if it was. -/
def announceMove (source target : Slice) (job : Job) (result : Except StoreError Unit) :
    Program Unit :=
  match result with
  | .ok () => announce (.jobRescheduled job.id source target job.retries)
  | .error _ => return

/-- Moves a job to the slice of its new trigger and announces it. -/
def reschedule (slice : Slice) (job : Job) : Program Unit := do
  let target := job.slice (← look).width
  announceMove slice target job (← (moveJob slice target job).run)

/-- Puts a job on its next occurrence, or retires it when it has none. -/
def complete (slice : Slice) (job : Job) : Program Unit := do
  let width := (← look).width
  match job.trigger.next? (← now) width with
  | some next => reschedule slice (job.rescheduled next Count.zero)
  | none => retire slice job.id

/-- The trigger of a retry: after the delay, and not before the slice after the current one. -/
def retryTrigger (now : Instant) (delay width : Duration) : Trigger :=
  let earliest := (Slice.containing now width).next width
  let trigger := Trigger.singleAfter now delay width
  if trigger.slice width < earliest then .single earliest.start else trigger

/-- Announces the failure of a job and puts the job on a retry, if the policy asks for one. Without
a retry a job that comes back still does. -/
def fail (slice : Slice) (job : Job) (error : JobError) (policy : RetryPolicy) : Program Unit := do
  match policy.decide job error with
  | .retryAfter delay =>
    let width := (← look).width
    let trigger := retryTrigger (← now) delay width
    announce (.jobFailed job.id job.type slice error.message (some trigger.time))
    reschedule slice (job.rescheduled trigger job.retries.succ)
  | .terminal =>
    announce (.jobFailed job.id job.type slice error.message none)
    complete slice job

/-- Goes on after the run of an executor. -/
def conclude (slice : Slice) (id : JobId) (job : Job) (policy : RetryPolicy) (outcome : Outcome) :
    Program Unit := do
  match outcome.error? with
  | none =>
    announce (.jobCompleted id job.type slice)
    complete slice job
  | some error => fail slice job error policy

/-- Waits for the executor of a job. -/
def awaitOutcome (slice : Slice) (id : JobId) (job : Job) (registration : Registration) :
    Program Unit := do
  conclude slice id job registration.policy (← request (.execute registration job))

/-- Marks a job active and runs its executor. -/
def execute (slice : Slice) (id : JobId) (job : Job) (registration : Registration) :
    Program Unit := do
  let .ok () ← call (.addActive slice id) | return
  announce (.jobStarted id job.type slice)
  awaitOutcome slice id job registration

/-- Marks a job finished that is gone or belongs to another slice. -/
def passOver (slice : Slice) (id : JobId) : Program Unit := do
  discard (markFinished slice id)

/-- Marks a job finished that no executor is registered for, and announces it. -/
def deadLetter (slice : Slice) (id : JobId) (type : String) : Program Unit := do
  discard (markFinished slice id)
  announce (.jobDeadLettered id type slice)

/-- Runs a job that was loaded. A job that belongs to another slice has been moved on already. -/
def runLoaded (slice : Slice) (id : JobId) (job : Job) : Program Unit := do
  let desk ← look
  if job.slice desk.width ≠ slice then passOver slice id
  else
    match desk.registry[job.type]? with
    | none => deadLetter slice id job.type
    | some registration => execute slice id job registration

/-- Runs a job and records what came of it. A job that cannot be loaded or marked active stays
pending. -/
def runJob (slice : Slice) (id : JobId) : Program Unit := do
  match ← call (.getJob id) with
  | .error (.notFound _) => passOver slice id
  | .error _ => return
  | .ok job => runLoaded slice id job

/-- Sets off jobs of a slice, each under a permit. -/
def startJobs (slice : Slice) : List JobId → Program Unit
  | [] => return
  | id :: rest => do
    request .takePermit
    request (.startJob slice id)
    startJobs slice rest

/-- Notes that the jobs of a slice have come to an end, and moves the pointer. -/
def closeDrain (slice : Slice) : Program Unit := do
  change (·.setProgress slice .drained)
  discard (request (.advance false))

/-- Waits for the jobs of a slice that have been set off. -/
def awaitDrain (slice : Slice) : Program Unit := do
  request .awaitJobs
  closeDrain slice

/-- Drains a slice: sets off its pending jobs, waits for them, and moves the pointer. -/
def drain (slice : Slice) : Program Unit := do
  match ← call (.sliceSets slice) with
  | .ok sets =>
    startJobs slice sets.pending
    awaitDrain slice
  | .error _ => closeDrain slice

end SliceScheduler.Program
