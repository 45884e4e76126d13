import SliceScheduler.Engine.Program
/-!
# Moving the pointer

The pointer of a cluster is the earliest slice that is not over. It only moves past a slice whose
lock the node has, whose jobs have all come to an end, and in whose index no job is pending.

1. `ensurePointer` sets the pointer to the current slice if there is none;
2. `advanceTurn` moves the pointer past one slice, or finds that it has to stay: `seekDrained`,
   `recheck`, `clear` and `movePast` are what is left of it at each of its calls;
3. `releaseStale` gives back the slices that another node moved the pointer past.
-/
namespace SliceScheduler.Program

/-- Sets the pointer to a slice unless another node was faster. -/
def initPointer (current : Slice) : Program (Option Slice) := do
  match ← call (.initPointer current) with
  | .ok true => return some current
  | .ok false => return (← call .getPointer).toOption.join
  | .error _ => return none

/-- The pointer, set to the current slice if there is none. None when the store fails. -/
def ensurePointer : Program (Option Slice) := do
  match ← call .getPointer with
  | .error _ => return none
  | .ok (some pointer) => return some pointer
  | .ok none => initPointer (← currentSlice)

/-- Gives back a lock that was taken to work on a slice and forgets the slice, even if giving back
fails. -/
def returnLock (lock : HeldLock) (slice : Slice) : Program Unit := do
  let answer ← call (.unlockExclusive lock.name lock.owner)
  change fun desk => { desk with held := desk.held.afterRelease lock answer }.forget slice

/-- Gives back the lock of a slice. -/
def giveBack (slice : Slice) : Program Unit := do
  returnLock ((← look).advanceLock slice) slice

/-- Sets off the draining of a slice. -/
def drainSlice (slice : Slice) : Program Unit := do
  change (·.setProgress slice .draining)
  request (.startDrain slice)

/-- What came of a turn of moving the pointer. -/
inductive Turn where
  | stay
  /-- The slice is cleared; it is announced by the node that moved the pointer. -/
  | moved (announced : Option Slice)
deriving DecidableEq, Repr

/-- The end of a turn in which a slice was cleared. -/
def concludeTurn (pointer : Slice) (moved : Bool) : Program Turn := do
  if moved then
    announce (.sliceFinished pointer)
    return .moved (some pointer)
  else return .moved none

/-- Moves the pointer past a slice that is cleared. -/
def movePast (pointer next : Slice) : Program Turn := do
  let .ok moved ← call (.movePointer pointer next) | return .stay
  giveBack pointer
  concludeTurn pointer moved

/-- Clears the index of a slice and moves the pointer past it. -/
def clear (pointer : Slice) : Program Turn := do
  let .ok () ← call (.deleteSlice pointer) | return .stay
  movePast pointer (pointer.next (← look).width)

/-- Looks once more for pending jobs of a drained slice before it is cleared. If there are any, the
slice is drained once more, provided that the turn belongs to a tick. -/
def recheck (fromTick : Bool) (pointer : Slice) : Program Turn := do
  let .ok sets ← call (.sliceSets pointer) | return .stay
  if sets.pending ≠ [] then
    if fromTick then drainSlice pointer
    return .stay
  clear pointer

/-- Goes on if the node has drained the slice of the pointer. -/
def seekDrained (fromTick : Bool) : Program Turn := do
  let .ok (some pointer) ← call .getPointer | return .stay
  if (← look).progress[pointer]? ≠ some .drained then return .stay
  recheck fromTick pointer

/-- One turn of moving the pointer. -/
def advanceTurn (fromTick : Bool) : Program Turn := do
  if (← look).stopped then return .stay
  seekDrained fromTick

/-- Gives back slices one after the other. -/
def giveBackAll : List Slice → Program Unit
  | [] => return
  | slice :: rest => do
    giveBack slice
    giveBackAll rest

/-- Gives back the drained slices before the pointer. -/
def releaseStale (pointer : Slice) : Program Unit := do
  giveBackAll ((← look).staleSlices pointer)

end SliceScheduler.Program
