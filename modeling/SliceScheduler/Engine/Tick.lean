import SliceScheduler.Engine.Drain
/-!
# Ticks and shutdown

1. `tick` moves the pointer, gives back stale slices, and walks the slices from the pointer to the
   current one, taking the lock of each that the node does not have;
2. `stop` waits for the slices at work and then gives up every lock.
-/
namespace SliceScheduler

/-- What a tick did. -/
structure TickReport where
  pointer : Slice
  dispatched : List Slice
  deferred : List Slice
  advanced : List Slice
deriving DecidableEq, Repr

namespace Program

/-- What a tick makes of a slice. -/
inductive Visit where
  /-- The node has the slice already. -/
  | atWork
  | dispatched
  | deferred
deriving DecidableEq, Repr

/-- Takes the lock of a slice, and sets off its draining. -/
def takeSlice (lock : HeldLock) (slice : Slice) : Program Visit := do
  let answer ← call (.lockExclusive lock.name lock.owner)
  change fun desk => { desk with held := (desk.held.afterAcquire lock answer).2 }
  match answer with
  | .ok true =>
    drainSlice slice
    return .dispatched
  | .ok false =>
    announce (.tickDeferred slice)
    return .deferred
  | .error _ => return .deferred

/-- Takes a slice that the node does not have yet. -/
def visit (slice : Slice) : Program Visit := do
  let desk ← look
  if desk.progress.contains slice then return .atWork
  takeSlice (desk.advanceLock slice) slice

/-- Visits the slices from one on to the current one, and at most so many of them, after those that
have been visited before. -/
def walk (current : Slice) :
    Nat → Slice → List (Slice × Visit) → Program (List (Slice × Visit))
  | 0, _, before => return before
  | limit + 1, slice, before => do
    if current < slice then return before
    let outcome ← visit slice
    walk current limit (slice.next (← look).width) (before ++ [(slice, outcome)])

/-- The slices that came to an outcome. -/
def visited (walked : List (Slice × Visit)) (outcome : Visit) : List Slice :=
  walked.filterMap fun (slice, v) => if v = outcome then some slice else none

/-- The pointer that was ensured, or the refusal of a tick without one. -/
def ensuredPointer : Option Slice → Except SchedulerError Slice
  | some pointer => .ok pointer
  | none => .error (.storage (.other "active queue is not initialised"))

/-- The pointer that a tick starts from. -/
def tickPointer : Program (Except SchedulerError Slice) := do
  match ← call .getPointer with
  | .error e => return .error (.storage e)
  | .ok (some pointer) => return .ok pointer
  | .ok none => return ensuredPointer (← ensurePointer)

/-- What came of a tick, and the refusal of a tick that has no pointer to start from. -/
abbrev TickResult := Except SchedulerError TickReport

/-- The report of a walk. -/
def reportWalk (advanced : List Slice) (pointer : Slice) (walked : List (Slice × Visit)) :
    TickResult :=
  .ok ⟨pointer, visited walked .dispatched, visited walked .deferred, advanced⟩

/-- Walks the slices from the pointer on, if the tick dispatches at all. -/
def walkFrom (dispatch : Bool) (advanced : List Slice) (pointer : Slice) : Program TickResult := do
  if dispatch then
    let current ← currentSlice
    let walked ← walk current (← look).settings.maxCatchUp pointer []
    return reportWalk advanced pointer walked
  else return reportWalk advanced pointer []

/-- Gives back stale slices and walks. -/
def tickFrom (dispatch : Bool) (advanced : List Slice) :
    Except SchedulerError Slice → Program TickResult
  | .error e => return .error e
  | .ok pointer => do
    releaseStale pointer
    walkFrom dispatch advanced pointer

/-- What a tick does after it has moved the pointer. -/
def tickOn (dispatch : Bool) (advanced : List Slice) : Program TickResult := do
  tickFrom dispatch advanced (← tickPointer)

/-- One tick. Without `dispatch` no slice is taken. -/
def tick (dispatch : Bool) : Program TickResult := do
  tickOn dispatch (← request (.advance true))

/-- The time between two looks at the slices at work during a shutdown, in milliseconds. -/
def pollMillis : Nat := 20

/-- How often a shutdown looks before its time is up. -/
def polls (timeout : Duration) : Nat :=
  (timeout.nanos + pollMillis * nanosPerMilli - 1) / (pollMillis * nanosPerMilli)

/-- Waits until no slice is at work, for so many looks at most. -/
def awaitDrains : Nat → Program Unit
  | 0 => return
  | n + 1 => do
    if (← request .openDrains) = 0 then return
    request (.pause (Duration.ofMillis pollMillis))
    awaitDrains n

/-- The longest timeout that can be added to a point in time. -/
def maxTimeoutSeconds : Nat := Word.size63 - 1

/-- Gives up every lock, under the guard of the pointer. -/
def giveUpLocks : Program Bool := do
  request .holdPointer
  let held := (← look).held.held
  change fun desk => { desk with held := .empty }
  discard (Holder.giveUpAll call held)
  request .leavePointer
  return true

/-- Stops moving the pointer and gives up every lock. -/
def halt : Program Bool := do
  change fun desk => { desk with stopped := true }
  giveUpLocks

/-- Waits for the slices at work, then stops moving the pointer and gives up every lock. A timeout
whose end is out of range breaks the wait off before anything is given up. -/
def stop : Program Bool := do
  let timeout := (← look).settings.shutdownTimeout
  if (← request .openDrains) ≠ 0 then
    if maxTimeoutSeconds ≤ timeout.seconds then return false
    awaitDrains (polls timeout)
  halt

end Program

end SliceScheduler
