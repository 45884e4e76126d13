import SliceScheduler.Job.Record
import SliceScheduler.Store.Operation
/-!
# The store in tables

The same calls answered from five tables of texts and numbers, as a database keeps them: jobs by the
text of their id, with parameters and trigger in JSON; a row of three flags for each slice and job;
locks; shares of locks; and the pointer. Times are whole milliseconds.

1. `JobRow.ofJob` and `JobRow.toJob` encode and decode a row; the count of retries is held in a
   wider number and clipped when it is read;
2. `TableStore.perform` answers a call at an instant. A row that cannot be decoded makes the call
   that reads it fail;
3. a store that is closed answers no call.
-/
namespace SliceScheduler

/-- A row of the table of jobs, which is kept by the text of the id. -/
structure JobRow where
  type : String
  name : String
  parameters : String
  trigger : String
  triggerTime : Int
  retryCount : Int
deriving DecidableEq, Repr

/-- A row of the index of a slice. A flag that is not zero is set. -/
structure FlagRow where
  scheduled : Int
  active : Int
  finished : Int
deriving DecidableEq, Repr

/-- No flag set. -/
def FlagRow.clear : FlagRow := ⟨0, 0, 0⟩

/-- The contents of the tables. -/
structure TableStore where
  jobs : Std.ExtTreeMap String JobRow
  /-- Flags by slice and text of the id. -/
  statuses : Std.ExtTreeMap Int (Std.ExtTreeMap String FlagRow)
  pointer : Option Int
  /-- Exclusive owners by lock; the row of a lock stays when its owner goes. -/
  locks : Std.ExtTreeMap String (Option String)
  /-- Expiries by lock and shared owner. -/
  shares : Std.ExtTreeMap String (Std.ExtTreeMap String Int)
  closed : Bool

namespace JobRow

/-- The row of a job. -/
def ofJob (job : Job) : JobRow where
  type := job.type
  name := job.name
  parameters := (parametersToJson job.parameters).render
  trigger := job.trigger.toJson.render
  triggerTime := job.trigger.time.millis
  retryCount := job.retries.val

/-- The number of retries in a row. A number out of range counts as the greatest. -/
def retries (row : JobRow) : Count :=
  if row.retryCount < 0 then Count.full else (Count.ofNat? row.retryCount.toNat).getD Count.full

/-- The id that a text of a row stands for. -/
def decodeId (text : String) : Except StoreError JobId :=
  match JobId.ofText? text with
  | some id => .ok id
  | none => .error (.undecodable "invalid job id")

/-- The job of a row. -/
def toJob (id : String) (row : JobRow) : Except StoreError Job := do
  let some parameters := parametersOfText? row.parameters
    | .error (.undecodable "invalid parameters")
  let some trigger := Trigger.ofText? row.trigger
    | .error (.undecodable "invalid trigger")
  return {
    id := ← decodeId id
    type := row.type
    name := row.name
    parameters
    trigger
    retries := row.retries }

end JobRow

namespace TableStore

/-- The tables without rows. -/
def empty : TableStore := ⟨∅, ∅, none, ∅, ∅, false⟩

instance : Inhabited TableStore := ⟨empty⟩

/-- The slice that a number of a row stands for. -/
def decodeSlice (ms : Int) : Except StoreError Slice :=
  match Slice.ofStartMillis? ms with
  | some s => .ok s
  | none => .error (.undecodable ("invalid time slice: " ++ Text.integerText ms))

/-- The instant that an expiry stands for. -/
def decodeExpiry (ms : Int) : Instant := (Instant.ofMillis? ms).getD Instant.latest

/-- Rows of jobs by the time they are due, then by the text of their id. -/
def rowOrder (a b : String × JobRow) : Ordering :=
  (compare a.2.triggerTime b.2.triggerTime).then (compare a.1 b.1)

/-- The jobs in the order they are listed. -/
def listJobs (s : TableStore) : Except StoreError (List Job) :=
  (s.jobs.toList.mergeSort fun a b => (rowOrder a b).isLE).mapM fun (id, row) => row.toJob id

/-- The rows of the index of a slice. -/
def flags (s : TableStore) (ms : Int) : Std.ExtTreeMap String FlagRow := s.statuses.getD ms ∅

/-- Sets flags of a job in a slice, in a new row if there is none. -/
def setFlags (s : TableStore) (slice : Slice) (id : JobId) (f : FlagRow → FlagRow) : TableStore :=
  let rows := s.flags slice.millis
  let row := rows.getD id.text .clear
  { s with statuses := s.statuses.insert slice.millis (rows.insert id.text (f row)) }

/-- The sets that the rows of a slice stand for. -/
def decodeSets (rows : Std.ExtTreeMap String FlagRow) : Except StoreError SliceSets :=
  rows.toList.foldlM (fun sets (text, row) => do
      let id ← JobRow.decodeId text
      let put (flag : Int) (ids : JobIds) : JobIds := if flag = 0 then ids else ids.insert id
      return ⟨put row.scheduled sets.scheduled, put row.active sets.active,
        put row.finished sets.finished⟩)
    SliceSets.none

/-- The exclusive owner of a lock. -/
def owner? (s : TableStore) (name : String) : Option String := (s.locks.getD name none)

/-- The shares of a lock. -/
def sharesOf (s : TableStore) (name : String) : Std.ExtTreeMap String Int := s.shares.getD name ∅

/-- The shares of a lock whose time is not up. -/
def liveShares (s : TableStore) (now : Int) (name : String) : Std.ExtTreeMap String Int :=
  (s.sharesOf name).filter fun _ expiry => now < expiry

/-- Keeps the shares of a lock. -/
def putShares (s : TableStore) (name : String) (shares : Std.ExtTreeMap String Int) : TableStore :=
  { s with shares := s.shares.insert name shares }

/-- Takes a lock for one owner, who may hold it already. -/
def lockExclusive (s : TableStore) (now : Int) (name owner : String) : Bool × TableStore :=
  if (s.liveShares now name).isEmpty ∧ (s.owner? name = none ∨ s.owner? name = some owner) then
    (true, { s with locks := s.locks.insert name (some owner) })
  else (false, s)

/-- Takes or renews a share of a lock, after the shares whose time is up are deleted. -/
def lockShared (s : TableStore) (now : Int) (name owner : String) (expiry : Int) :
    Bool × TableStore :=
  let live := s.liveShares now name
  if (s.owner? name).isNone then (true, s.putShares name (live.insert owner expiry))
  else (false, s.putShares name live)

/-- Gives up a share of a lock whose time is not up. -/
def unlockShared (s : TableStore) (now : Int) (name owner : String) : Bool × TableStore :=
  if (s.liveShares now name).contains owner ∧ (s.owner? name).isNone then
    (true, s.putShares name ((s.sharesOf name).erase owner))
  else (false, s)

/-- Gives up a lock. -/
def unlockExclusive (s : TableStore) (name owner : String) : Bool × TableStore :=
  if s.owner? name = some owner then (true, { s with locks := s.locks.insert name none })
  else (false, s)

/-- A lock as it is shown at an instant. -/
def viewLock (s : TableStore) (now : Int) (name : String) : Option LockView :=
  let view : LockView :=
    ⟨s.owner? name, (s.liveShares now name).map fun _ expiry => decodeExpiry expiry⟩
  if view.isFree then none else some view

/-- The answer to a call and the store after it, when it is open. -/
def performOpen (s : TableStore) (now : Instant) : (op : Operation) → op.Result × TableStore
  | .insertJob job =>
    if s.jobs.contains job.id.text then (.error (.jobExists job.id), s)
    else (.ok (), { s with jobs := s.jobs.insert job.id.text (.ofJob job) })
  | .getJob id =>
    match s.jobs[id.text]? with
    | some row => (row.toJob id.text, s)
    | none => (.error (.noJob id), s)
  | .updateJob job =>
    if s.jobs.contains job.id.text then
      (.ok (), { s with jobs := s.jobs.insert job.id.text (.ofJob job) })
    else (.error (.noJob job.id), s)
  | .deleteJob id =>
    if s.jobs.contains id.text then (.ok (), { s with jobs := s.jobs.erase id.text })
    else (.error (.noJob id), s)
  | .listJobs => (s.listJobs, s)
  | .addScheduled slice id => (.ok (), s.setFlags slice id fun row => { row with scheduled := 1 })
  | .removeScheduled slice id =>
    if (s.flags slice.millis).contains id.text then
      (.ok (), s.setFlags slice id fun row => { row with scheduled := 0 })
    else (.ok (), s)
  | .addActive slice id => (.ok (), s.setFlags slice id fun row => { row with active := 1 })
  | .addFinished slice id => (.ok (), s.setFlags slice id fun row => { row with finished := 1 })
  | .sliceSets slice => (decodeSets (s.flags slice.millis), s)
  | .deleteSlice slice => (.ok (), { s with statuses := s.statuses.erase slice.millis })
  | .listSlices => (s.statuses.keys.mapM decodeSlice, s)
  | .getPointer => (s.pointer.mapM decodeSlice, s)
  | .initPointer slice =>
    if s.pointer.isSome then (.ok false, s)
    else (.ok true, { s with pointer := some slice.millis })
  | .movePointer expected next =>
    if s.pointer = some expected.millis then (.ok true, { s with pointer := some next.millis })
    else (.ok false, s)
  | .lockExclusive name owner =>
    let (taken, s) := s.lockExclusive now.millis name owner
    (.ok taken, s)
  | .lockShared name owner ttl =>
    let (taken, s) := s.lockShared now.millis name owner (now.later ttl).millis
    (.ok taken, s)
  | .unlockShared name owner =>
    let (released, s) := s.unlockShared now.millis name owner
    (.ok released, s)
  | .unlockExclusive name owner =>
    let (released, s) := s.unlockExclusive name owner
    (.ok released, s)
  | .getLock name => (.ok (s.viewLock now.millis name), s)

/-- The answer to a call and the store after it. -/
def perform (s : TableStore) (now : Instant) (op : Operation) : op.Result × TableStore :=
  if s.closed then (.error (.other "the store is closed"), s) else s.performOpen now op

end TableStore

end SliceScheduler
