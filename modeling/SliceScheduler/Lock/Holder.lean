import SliceScheduler.Store.Operation
/-!
# Lock holders

A holder takes and releases named locks of a store for one or more owners and remembers what it has
taken, to release all of it in the end.

1. `Holder.acquireExclusive`, `releaseExclusive` and the like make one call to the store each and note its answer;
2. `Holder.giveUpAll` gives up every lock of a record, in the order of the record, and counts the
   ownerships that were still live.

What is noted is what the store answered when the lock was taken. A share whose time is up stays in
the record. A failing call to release leaves the record as it is.
-/
namespace SliceScheduler

/-- A lock is held by one owner, or shared for a length of time. -/
inductive LockMode where
  | exclusive
  | shared
deriving DecidableEq, Repr

/-- A lock that has been taken. -/
structure HeldLock where
  name : String
  owner : String
  mode : LockMode
deriving DecidableEq, Repr

/-- What came of an attempt to take a lock. -/
inductive LockOutcome where
  | acquired
  | contended
  | failed (error : StoreError)
deriving DecidableEq, Repr

/-- The record of the locks that have been taken, each once. -/
structure Holder where
  held : List HeldLock
deriving DecidableEq, Repr

namespace Holder

/-- Nothing taken. -/
def empty : Holder := ⟨[]⟩

instance : Inhabited Holder := ⟨empty⟩

/-- The number of locks in the record. -/
def count (h : Holder) : Nat := h.held.length

/-- Notes a lock that has been taken. -/
def track (h : Holder) (lock : HeldLock) : Holder :=
  if lock ∈ h.held then h else ⟨h.held ++ [lock]⟩

/-- Strikes a lock from the record. -/
def untrack (h : Holder) (lock : HeldLock) : Holder :=
  ⟨h.held.filter (· ≠ lock)⟩

/-- The record and the outcome after the answer to an attempt to take a lock. -/
def afterAcquire (h : Holder) (lock : HeldLock) : Except StoreError Bool → LockOutcome × Holder
  | .ok true => (.acquired, h.track lock)
  | .ok false => (.contended, h)
  | .error e => (.failed e, h)

/-- The record after the answer to a release. -/
def afterRelease (h : Holder) (lock : HeldLock) : Except StoreError Bool → Holder
  | .ok _ => h.untrack lock
  | .error _ => h

section

variable {m : Type → Type} [Monad m] (call : (op : Operation) → m op.Result)

/-- Takes a lock for one owner. -/
def acquireExclusive (h : Holder) (name owner : String) : m (LockOutcome × Holder) := do
  return h.afterAcquire ⟨name, owner, .exclusive⟩ (← call (.lockExclusive name owner))

/-- Takes or renews a share of a lock. -/
def acquireShared (h : Holder) (name owner : String) (ttl : Duration) :
    m (LockOutcome × Holder) := do
  return h.afterAcquire ⟨name, owner, .shared⟩ (← call (.lockShared name owner ttl))

/-- Gives up a lock. -/
def releaseExclusive (h : Holder) (name owner : String) : m (Except StoreError Bool × Holder) := do
  let answer ← call (.unlockExclusive name owner)
  return (answer, h.afterRelease ⟨name, owner, .exclusive⟩ answer)

/-- Gives up a share of a lock. -/
def releaseShared (h : Holder) (name owner : String) : m (Except StoreError Bool × Holder) := do
  let answer ← call (.unlockShared name owner)
  return (answer, h.afterRelease ⟨name, owner, .shared⟩ answer)

/-- Gives up a lock of the record, whatever its mode. -/
def giveUp (lock : HeldLock) : m (Except StoreError Bool) :=
  match lock.mode with
  | .exclusive => call (.unlockExclusive lock.name lock.owner)
  | .shared => call (.unlockShared lock.name lock.owner)

/-- Gives up locks one after the other, after so many that were live, and counts those that were
live. A failing call does not stop the others. -/
def giveUpFrom (live : Nat) : List HeldLock → m Nat
  | [] => return live
  | lock :: rest => do
    match ← giveUp call lock with
    | .ok true => giveUpFrom (live + 1) rest
    | _ => giveUpFrom live rest

/-- Gives up locks one after the other and counts those that were live. -/
def giveUpAll (locks : List HeldLock) : m Nat := giveUpFrom call 0 locks

end

end Holder

end SliceScheduler
