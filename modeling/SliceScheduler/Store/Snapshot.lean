import SliceScheduler.Json.Reader
import SliceScheduler.Store.Table
/-!
# Tables as text

The contents of the tables as one JSON text, so that they can be kept in a file:
`TableStore.snapshot` writes them and `TableStore.ofSnapshot?` reads them back. A row is an array of
its columns.
-/
namespace SliceScheduler.TableStore

open Json

/-- The rows of jobs. -/
def jobRows (s : TableStore) : List Json :=
  s.jobs.toList.map fun (id, row) =>
    arr [str id, str row.type, str row.name, str row.parameters, str row.trigger,
      int row.triggerTime, int row.retryCount]

/-- The rows of the indexes of slices. -/
def statusRows (s : TableStore) : List Json :=
  s.statuses.toList.flatMap fun (ms, rows) => rows.toList.map fun (id, row) =>
    arr [int ms, str id, int row.scheduled, int row.active, int row.finished]

/-- The rows of locks. -/
def lockRows (s : TableStore) : List Json :=
  s.locks.toList.map fun (name, owner) => arr [str name, orNull (owner.map str)]

/-- The rows of shares of locks. -/
def shareRows (s : TableStore) : List Json :=
  s.shares.toList.flatMap fun (name, shares) => shares.toList.map fun (owner, expiry) =>
    arr [str name, str owner, int expiry]

/-- The tables as JSON. -/
def toJson (s : TableStore) : Json :=
  arr [arr s.jobRows, arr s.statusRows, orNull (s.pointer.map int), arr s.lockRows, arr s.shareRows]

/-- The tables as text. -/
def snapshot (s : TableStore) : String := s.toJson.render

/-- The tables with a row of a job. -/
def addJobRow (s : TableStore) : Json → Option TableStore
  | arr [str id, str type, str name, str parameters, str trigger, int time, int retries] =>
    some { s with jobs := s.jobs.insert id ⟨type, name, parameters, trigger, time, retries⟩ }
  | _ => none

/-- The tables with a row of the index of a slice. -/
def addStatusRow (s : TableStore) : Json → Option TableStore
  | arr [int ms, str id, int scheduled, int active, int finished] =>
    some { s with
      statuses := s.statuses.insert ms ((s.flags ms).insert id ⟨scheduled, active, finished⟩) }
  | _ => none

/-- The tables with a row of a lock. -/
def addLockRow (s : TableStore) : Json → Option TableStore
  | arr [str name, null] => some { s with locks := s.locks.insert name none }
  | arr [str name, str owner] => some { s with locks := s.locks.insert name (some owner) }
  | _ => none

/-- The tables with a row of a share. -/
def addShareRow (s : TableStore) : Json → Option TableStore
  | arr [str name, str owner, int expiry] =>
    some (s.putShares name ((s.sharesOf name).insert owner expiry))
  | _ => none

/-- The tables with a pointer. -/
def setPointer (s : TableStore) : Json → Option TableStore
  | null => some s
  | int ms => some { s with pointer := some ms }
  | _ => none

/-- The tables of JSON. -/
def ofJson? : Json → Option TableStore
  | arr [arr jobs, arr statuses, pointer, arr locks, arr shares] => do
    let s ← jobs.foldlM addJobRow empty
    let s ← statuses.foldlM addStatusRow s
    let s ← s.setPointer pointer
    let s ← locks.foldlM addLockRow s
    shares.foldlM addShareRow s
  | _ => none

/-- The tables of a text. A text without anything has no rows. -/
def ofSnapshot? (text : String) : Option TableStore :=
  if text.isEmpty then some empty else Json.ofText? text >>= ofJson?

end SliceScheduler.TableStore
