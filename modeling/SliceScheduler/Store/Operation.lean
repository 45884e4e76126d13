import Std.Data.ExtTreeSet
import SliceScheduler.Job.Basic
/-!
# What a store is asked

The nodes of a cluster meet in a store. It keeps jobs by id, the index of every slice, the pointer
to the earliest slice that is not over, and named locks. Each call to the store is an `Operation`,
which happens as a whole or fails without effect.

1. `Operation` lists the calls and `Operation.Answer` what each of them returns;
2. `StoreError` has the causes for which a call fails, and their wording;
3. `SliceSets` is the index of a slice: the jobs scheduled, active and finished in it;
4. `LockView` is a lock as it is shown.

Two stores answer these calls, one held in memory and one in tables of texts and numbers.
-/
namespace SliceScheduler

/-- Why a call to a store failed. -/
inductive StoreError where
  | notFound (what : String)
  | duplicateKey (what : String)
  | poisoned
  | undecodable (reason : String)
  | other (reason : String)
deriving DecidableEq, Repr

def StoreError.message : StoreError → String
  | notFound what => "not found: " ++ what
  | duplicateKey what => "duplicate key: " ++ what
  | poisoned => "storage lock poisoned"
  | undecodable reason => "serialization error: " ++ reason
  | other reason => "storage error: " ++ reason

/-- How many replicas a call asks for. Both stores have one, so that the level is only carried. -/
inductive Consistency where
  | one
  | quorum
  | serial
deriving DecidableEq, Repr

def Consistency.name : Consistency → String
  | one => "one"
  | quorum => "quorum"
  | serial => "serial"

/-- The level of a name. -/
def Consistency.ofName? (name : String) : Option Consistency :=
  [one, quorum, serial].find? (·.name == name)

/-- The error about a job that is not there. -/
def StoreError.noJob (id : JobId) : StoreError := notFound ("job: " ++ id.text)

/-- The error about a job that is there already. -/
def StoreError.jobExists (id : JobId) : StoreError := duplicateKey ("job: " ++ id.text)

/-- A set of jobs. -/
abbrev JobIds := Std.ExtTreeSet JobId

/-- The index of a slice. -/
structure SliceSets where
  scheduled : JobIds
  active : JobIds
  finished : JobIds
deriving DecidableEq

namespace SliceSets

/-- No job at all. -/
def none : SliceSets := ⟨∅, ∅, ∅⟩

instance : Inhabited SliceSets := ⟨none⟩

/-- The jobs that are scheduled and not finished, in the order of their ids. -/
def pending (s : SliceSets) : List JobId :=
  s.scheduled.toList.filter fun id => !s.finished.contains id

/-- Every scheduled job is finished. -/
def isDrained (s : SliceSets) : Bool :=
  s.scheduled.toList.all s.finished.contains

end SliceSets

/-- A lock with its exclusive owner and its shared owners, each until an instant. -/
structure LockView where
  owner : Option String
  shared : Std.ExtTreeMap String Instant
deriving DecidableEq

/-- Nobody owns the lock. -/
def LockView.isFree (l : LockView) : Bool :=
  l.owner.isNone && l.shared.isEmpty

/-- A call to a store. -/
inductive Operation where
  | insertJob (job : Job)
  | getJob (id : JobId)
  | updateJob (job : Job)
  | deleteJob (id : JobId)
  | listJobs
  | addScheduled (slice : Slice) (id : JobId)
  | removeScheduled (slice : Slice) (id : JobId)
  | addActive (slice : Slice) (id : JobId)
  | addFinished (slice : Slice) (id : JobId)
  | sliceSets (slice : Slice)
  | deleteSlice (slice : Slice)
  | listSlices
  | getPointer
  /-- Sets the pointer if there is none. -/
  | initPointer (slice : Slice)
  /-- Moves the pointer if it is where it is expected. -/
  | movePointer (expected next : Slice)
  | lockExclusive (name owner : String)
  | lockShared (name owner : String) (ttl : Duration)
  | unlockShared (name owner : String)
  | unlockExclusive (name owner : String)
  | getLock (name : String)
deriving DecidableEq

namespace Operation

/-- What a call returns when it does not fail. -/
abbrev Answer : Operation → Type
  | insertJob _ | updateJob _ | deleteJob _ => Unit
  | getJob _ => Job
  | listJobs => List Job
  | addScheduled _ _ | removeScheduled _ _ | addActive _ _ | addFinished _ _ => Unit
  | sliceSets _ => SliceSets
  | deleteSlice _ => Unit
  | listSlices => List Slice
  | getPointer => Option Slice
  | initPointer _ | movePointer _ _ => Bool
  | lockExclusive _ _ | lockShared _ _ _ | unlockShared _ _ | unlockExclusive _ _ => Bool
  | getLock _ => Option LockView

/-- What a call returns. -/
abbrev Result (op : Operation) : Type := Except StoreError op.Answer

/-- The name of a call. -/
def call : Operation → String
  | insertJob _ => "insert_job"
  | getJob _ => "get_job"
  | updateJob _ => "update_job"
  | deleteJob _ => "delete_job"
  | listJobs => "list_jobs"
  | addScheduled _ _ => "add_scheduled"
  | removeScheduled _ _ => "remove_scheduled"
  | addActive _ _ => "add_active"
  | addFinished _ _ => "add_finished"
  | sliceSets _ => "get_slice_status"
  | deleteSlice _ => "delete_slice"
  | listSlices => "list_slices"
  | getPointer => "get_active_queue"
  | initPointer _ => "init_active_queue"
  | movePointer _ _ => "advance_active_queue"
  | lockExclusive _ _ => "try_lock_exclusive"
  | lockShared _ _ _ => "try_lock_shared"
  | unlockShared _ _ => "unlock_shared"
  | unlockExclusive _ _ => "unlock_exclusive"
  | getLock _ => "get_lock"

end Operation

end SliceScheduler
