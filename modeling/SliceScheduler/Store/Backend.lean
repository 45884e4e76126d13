import SliceScheduler.Store.Fault
import SliceScheduler.Store.Memory
import SliceScheduler.Store.Table
/-!
# Stores of either kind

1. `Backend` is a store in memory or in tables;
2. `StoreSession` is a store with its clock and with the calls that are made to fail.
-/
namespace SliceScheduler

/-- A store in memory or in tables. -/
inductive Backend where
  | memory (s : MemoryStore)
  | tables (s : TableStore)

namespace Backend

/-- Answers a call. -/
def perform : Backend → Instant → (op : Operation) → op.Result × Backend
  | memory s, now, op =>
    let (answer, s) := s.perform now op
    (answer, memory s)
  | tables s, now, op =>
    let (answer, s) := s.perform now op
    (answer, tables s)

/-- Changes the tables, if there are any. -/
def modifyTables (f : TableStore → TableStore) : Backend → Backend
  | memory s => memory s
  | tables s => tables (f s)

end Backend

/-- A store, its clock, and the calls that are made to fail. -/
structure StoreSession where
  store : Backend
  now : Instant
  faults : Faults
  /-- The level of consistency that calls ask for. -/
  level : Consistency

namespace StoreSession

/-- Makes a call to the store. A call that is made to fail does not reach it. -/
def call (s : StoreSession) (op : Operation) : op.Result × StoreSession :=
  match s.faults.meet op.call with
  | (some e, faults) => (.error e, { s with faults })
  | (none, faults) =>
    let (answer, store) := s.store.perform s.now op
    (answer, { s with store, faults })

/-- Changes the tables, if there are any. -/
def modifyTables (s : StoreSession) (f : TableStore → TableStore) : StoreSession :=
  { s with store := s.store.modifyTables f }

end StoreSession

end SliceScheduler
