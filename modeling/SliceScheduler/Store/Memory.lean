import SliceScheduler.Store.Operation
/-!
# The store in memory

Jobs, indexes and locks are kept as values, in maps by id, slice and name.

1. `MemoryStore.perform` answers a call at an instant; only shared ownership depends on the instant;
2. every call that fails leaves the store as it was.

A lock is kept from the first attempt to take it until it is released and free. Shared owners whose
time is up are dropped by the next call that takes or releases the lock.
-/
namespace SliceScheduler

/-- A lock as it is kept. -/
structure LockEntry where
  owner : Option String
  shared : Std.ExtTreeMap String Instant
deriving DecidableEq

namespace LockEntry

/-- A lock that nobody owns. -/
def free : LockEntry := ⟨none, ∅⟩

instance : Inhabited LockEntry := ⟨free⟩

def isFree (e : LockEntry) : Bool := e.owner.isNone && e.shared.isEmpty

/-- Without the shared owners whose time is up. -/
def expire (e : LockEntry) (now : Instant) : LockEntry :=
  { e with shared := e.shared.filter fun _ expiry => now < expiry }

end LockEntry

/-- The contents of the store. -/
structure MemoryStore where
  jobs : Std.ExtTreeMap JobId Job
  index : Std.ExtTreeMap Slice SliceSets
  pointer : Option Slice
  locks : Std.ExtTreeMap String LockEntry
deriving DecidableEq

namespace MemoryStore

/-- The store without contents. -/
def empty : MemoryStore := ⟨∅, ∅, none, ∅⟩

instance : Inhabited MemoryStore := ⟨empty⟩

/-- Jobs by the time they are due, then by id. -/
def jobOrder (a b : Job) : Ordering :=
  (compare a.trigger.time b.trigger.time).then (compare a.id b.id)

/-- The jobs in the order they are listed. -/
def listJobs (s : MemoryStore) : List Job :=
  s.jobs.values.mergeSort fun a b => (jobOrder a b).isLE

/-- The index of a slice. -/
def sets (s : MemoryStore) (slice : Slice) : SliceSets := s.index.getD slice .none

/-- Changes the index of a slice. -/
def modifySets (s : MemoryStore) (slice : Slice) (f : SliceSets → SliceSets) : MemoryStore :=
  { s with index := s.index.insert slice (f (s.sets slice)) }

/-- The lock of a name, without the owners whose time is up. -/
def lockAt (s : MemoryStore) (now : Instant) (name : String) : LockEntry :=
  (s.locks.getD name .free).expire now

/-- Keeps a lock. -/
def putLock (s : MemoryStore) (name : String) (e : LockEntry) : MemoryStore :=
  { s with locks := s.locks.insert name e }

/-- Keeps a lock unless it is free. -/
def settleLock (s : MemoryStore) (name : String) (e : LockEntry) : MemoryStore :=
  if e.isFree then { s with locks := s.locks.erase name } else s.putLock name e

/-- A lock as it is shown at an instant. -/
def viewLock (s : MemoryStore) (now : Instant) (name : String) : Option LockView :=
  let e := s.lockAt now name
  let view : LockView := ⟨e.owner, e.shared⟩
  if view.isFree then none else some view

/-- Takes a lock for one owner, who may hold it already. -/
def lockExclusive (s : MemoryStore) (now : Instant) (name owner : String) : Bool × MemoryStore :=
  let e := s.lockAt now name
  if !e.shared.isEmpty then (false, s.putLock name e)
  else
    match e.owner with
    | none => (true, s.putLock name { e with owner := some owner })
    | some current => (current == owner, s.putLock name e)

/-- Takes or renews a share of a lock. -/
def lockShared (s : MemoryStore) (now : Instant) (name owner : String) (ttl : Duration) :
    Bool × MemoryStore :=
  let e := s.lockAt now name
  if e.owner.isSome then (false, s.putLock name e)
  else (true, s.putLock name { e with shared := e.shared.insert owner (now.later ttl) })

/-- Gives up a share of a lock. -/
def unlockShared (s : MemoryStore) (now : Instant) (name owner : String) : Bool × MemoryStore :=
  if s.locks.contains name then
    let e := s.lockAt now name
    if e.owner.isNone && e.shared.contains owner then
      (true, s.settleLock name { e with shared := e.shared.erase owner })
    else (false, s.settleLock name e)
  else (false, s)

/-- Gives up a lock. -/
def unlockExclusive (s : MemoryStore) (now : Instant) (name owner : String) :
    Bool × MemoryStore :=
  if s.locks.contains name then
    let e := s.lockAt now name
    if e.owner = some owner then (true, s.settleLock name { e with owner := none })
    else (false, s.settleLock name e)
  else (false, s)

/-- The answer to a call and the store after it. -/
def perform (s : MemoryStore) (now : Instant) : (op : Operation) → op.Result × MemoryStore
  | .insertJob job =>
    if s.jobs.contains job.id then (.error (.jobExists job.id), s)
    else (.ok (), { s with jobs := s.jobs.insert job.id job })
  | .getJob id =>
    match s.jobs[id]? with
    | some job => (.ok job, s)
    | none => (.error (.noJob id), s)
  | .updateJob job =>
    if s.jobs.contains job.id then (.ok (), { s with jobs := s.jobs.insert job.id job })
    else (.error (.noJob job.id), s)
  | .deleteJob id =>
    if s.jobs.contains id then (.ok (), { s with jobs := s.jobs.erase id })
    else (.error (.noJob id), s)
  | .listJobs => (.ok s.listJobs, s)
  | .addScheduled slice id =>
    (.ok (), s.modifySets slice fun e => { e with scheduled := e.scheduled.insert id })
  | .removeScheduled slice id =>
    if s.index.contains slice then
      (.ok (), s.modifySets slice fun e => { e with scheduled := e.scheduled.erase id })
    else (.ok (), s)
  | .addActive slice id =>
    (.ok (), s.modifySets slice fun e => { e with active := e.active.insert id })
  | .addFinished slice id =>
    (.ok (), s.modifySets slice fun e => { e with finished := e.finished.insert id })
  | .sliceSets slice => (.ok (s.sets slice), s)
  | .deleteSlice slice => (.ok (), { s with index := s.index.erase slice })
  | .listSlices => (.ok s.index.keys, s)
  | .getPointer => (.ok s.pointer, s)
  | .initPointer slice =>
    if s.pointer.isSome then (.ok false, s) else (.ok true, { s with pointer := some slice })
  | .movePointer expected next =>
    if s.pointer = some expected then (.ok true, { s with pointer := some next })
    else (.ok false, s)
  | .lockExclusive name owner =>
    let (taken, s) := s.lockExclusive now name owner
    (.ok taken, s)
  | .lockShared name owner ttl =>
    let (taken, s) := s.lockShared now name owner ttl
    (.ok taken, s)
  | .unlockShared name owner =>
    let (released, s) := s.unlockShared now name owner
    (.ok released, s)
  | .unlockExclusive name owner =>
    let (released, s) := s.unlockExclusive now name owner
    (.ok released, s)
  | .getLock name => (.ok (s.viewLock now name), s)

end MemoryStore

end SliceScheduler
