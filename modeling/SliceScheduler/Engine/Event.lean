import SliceScheduler.Job.Basic
/-!
# Events

What a node announces, in the order in which it happens.
-/
namespace SliceScheduler

/-- Something that happened on a node. -/
inductive Event where
  | jobStarted (id : JobId) (type : String) (slice : Slice)
  | jobCompleted (id : JobId) (type : String) (slice : Slice)
  /-- `retryAt` is the time of the retry, if there is one. -/
  | jobFailed (id : JobId) (type : String) (slice : Slice) (error : String)
      (retryAt : Option Instant)
  | jobRescheduled (id : JobId) (source target : Slice) (retries : Count)
  /-- No executor for the type of the job. -/
  | jobDeadLettered (id : JobId) (type : String) (slice : Slice)
  /-- Another node has the slice. -/
  | tickDeferred (slice : Slice)
  /-- The pointer moved past the slice. -/
  | sliceFinished (slice : Slice)
deriving DecidableEq, Repr

end SliceScheduler
