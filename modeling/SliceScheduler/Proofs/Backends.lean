import SliceScheduler.Proofs.Scenario
import SliceScheduler.Proofs.TableLocks
import SliceScheduler.Proofs.TableRows
import SliceScheduler.Store.Backend
/-!
# The two stores answer alike

1. `Represents` says that the tables hold at an instant what the store in memory holds;
2. `Represents.performOpen` says that every call is then answered alike, and leaves stores for which
   this holds again;
3. `Backend.answers_memory_eq_tables` says that both stores give the same answers to all calls,
   starting without contents, as long as the clock does not go back and all times are whole.
-/
namespace SliceScheduler

/-- The tables hold at an instant what the store in memory holds. -/
structure Represents (now : Instant) (t : TableStore) (m : MemoryStore) : Prop where
  isOpen : t.closed = false
  jobs : RowsOfJobs t.jobs m.jobs
  index : RowsOfIndex t.statuses m.index
  pointer : t.pointer = m.pointer.map Slice.millis
  wholePointer : ∀ slice ∈ m.pointer, slice.start.IsWhole
  locks : RowsOfLocks now t m

namespace Represents

variable {now now' : Instant} {t : TableStore} {m : MemoryStore} {slice : Slice}

theorem empty : Represents now .empty .empty where
  isOpen := rfl
  jobs := RowsOfJobs.empty
  index := RowsOfIndex.empty
  pointer := rfl
  wholePointer slice found := absurd found (Option.not_mem_none slice)
  locks := RowsOfLocks.empty

theorem later (h : Represents now t m) (whole : now.IsWhole) (whole' : now'.IsWhole)
    (le : now ≤ now') : Represents now' t m :=
  { h with locks := h.locks.later whole whole' le }

theorem pointer_isSome (h : Represents now t m) : t.pointer.isSome = m.pointer.isSome := by
  rw [h.pointer, Option.isSome_map]

theorem pointer_eq_some (h : Represents now t m) (whole : slice.start.IsWhole) :
    t.pointer = some slice.millis ↔ m.pointer = some slice := by
  rw [h.pointer, Option.map_eq_some_iff]
  constructor
  · rintro ⟨other, found, same⟩
    rw [found, Slice.eq_of_start ((h.wholePointer other found).eq_of_millis_eq whole same)]
  · exact fun found => ⟨slice, found, rfl⟩

/-- A call that changes locks leaves the rest as it was. -/
theorem relock (h : Represents now t m) {t' : TableStore} {m' : MemoryStore}
    (rows : { t' with locks := t.locks, shares := t.shares } = t)
    (entries : { m' with locks := m.locks } = m) (locks : RowsOfLocks now t' m') :
    Represents now t' m' := by
  obtain ⟨jobs, statuses, pointer, _, _, closed⟩ := t'
  obtain ⟨jobs', index, pointer', _⟩ := m'
  rw [← rows, ← entries] at h
  exact { h with locks := locks }

/-- A call is answered alike, and what the stores hold after it is alike. -/
theorem performOpen (h : Represents now t m) (whole : now.IsWhole) (op : Operation)
    (times : op.IsWhole now) :
    (t.performOpen now op).1 = (m.perform now op).1 ∧
      Represents now (t.performOpen now op).2 (m.perform now op).2 := by
  cases op with
  | insertJob job =>
    simp only [TableStore.performOpen, MemoryStore.perform, h.jobs.contains]
    split
    · exact ⟨rfl, h⟩
    · exact ⟨rfl, { h with jobs := h.jobs.insert times }⟩
  | getJob id =>
    simp only [TableStore.performOpen, MemoryStore.perform, h.jobs.lookup]
    cases found : m.jobs[id]? with
    | none => exact ⟨rfl, h⟩
    | some job =>
      obtain ⟨rfl, wholeJob⟩ := h.jobs.own id job found
      refine ⟨?_, h⟩
      dsimp only [Option.map_some]
      exact JobRow.toJob_ofJob wholeJob.intervalFits
  | updateJob job =>
    simp only [TableStore.performOpen, MemoryStore.perform, h.jobs.contains]
    split
    · exact ⟨rfl, { h with jobs := h.jobs.insert times }⟩
    · exact ⟨rfl, h⟩
  | deleteJob id =>
    simp only [TableStore.performOpen, MemoryStore.perform, h.jobs.contains]
    split
    · exact ⟨rfl, { h with jobs := h.jobs.erase id }⟩
    · exact ⟨rfl, h⟩
  | listJobs => exact ⟨h.jobs.listJobs, h⟩
  | addScheduled slice id =>
    exact ⟨rfl, { h with index := h.index.setFlags times (.insert .scheduled) }⟩
  | removeScheduled slice id =>
    simp only [TableStore.performOpen, MemoryStore.perform]
    -- memory looks for the slice, the tables for the row of the job in it
    by_cases known : m.index.contains slice
    · by_cases row : (t.flags slice.millis).contains id.text
      · rw [if_pos row, if_pos known]
        exact ⟨rfl, { h with index := h.index.setFlags times (.erase .scheduled) }⟩
      · have same := h.index.modifySets_erase (Std.ExtTreeMap.mem_iff_contains.mpr known)
          (mt Std.ExtTreeMap.mem_iff_contains.mp row) .scheduled
        rw [if_neg row, if_pos known]
        refine ⟨rfl, ?_⟩
        show Represents now t (m.modifySets slice (·.change (·.erase id) .scheduled))
        rw [same]
        exact h
    · have noRow : ¬(t.flags slice.millis).contains id.text := by
        have absent := mt (h.index.contains times).mp (mt Std.ExtTreeMap.mem_iff_contains.mp known)
        rw [TableStore.flags, Std.ExtTreeMap.getD_eq_fallback absent]
        simp
      rw [if_neg noRow, if_neg known]
      exact ⟨rfl, h⟩
  | addActive slice id =>
    exact ⟨rfl, { h with index := h.index.setFlags times (.insert .active) }⟩
  | addFinished slice id =>
    exact ⟨rfl, { h with index := h.index.setFlags times (.insert .finished) }⟩
  | sliceSets slice => exact ⟨(h.index.rows slice times).decodeSets, h⟩
  | deleteSlice slice => exact ⟨rfl, { h with index := h.index.erase times }⟩
  | listSlices => exact ⟨h.index.listSlices, h⟩
  | getPointer =>
    refine ⟨?_, h⟩
    simp only [TableStore.performOpen, MemoryStore.perform, h.pointer]
    cases found : m.pointer with
    | none => rfl
    | some slice =>
      have read := RowsOfIndex.decodeSlice_millis (h.wholePointer slice found)
      show (some <$> TableStore.decodeSlice slice.millis) = Except.ok (some slice)
      rw [read]
      rfl
  | initPointer slice =>
    simp only [TableStore.performOpen, MemoryStore.perform, h.pointer_isSome]
    split
    · exact ⟨rfl, h⟩
    · exact ⟨rfl, { h with pointer := rfl, wholePointer := by rintro s ⟨⟩; exact times }⟩
  | movePointer expected next =>
    simp only [TableStore.performOpen, MemoryStore.perform, h.pointer_eq_some times.1]
    split
    · exact ⟨rfl, { h with pointer := rfl, wholePointer := by rintro s ⟨⟩; exact times.2 }⟩
    · exact ⟨rfl, h⟩
  | lockExclusive name owner =>
    obtain ⟨same, locks⟩ := h.locks.lockExclusive name owner
    refine ⟨congrArg Except.ok same, h.relock ?_ ?_ locks⟩
    · simp only [TableStore.performOpen, TableStore.lockExclusive]
      split <;> rfl
    · simp only [MemoryStore.perform, MemoryStore.lockExclusive]
      split
      · rfl
      · split <;> rfl
  | lockShared name owner ttl =>
    obtain ⟨same, locks⟩ := h.locks.lockShared name owner whole (whole.later times.1 times.2)
    refine ⟨congrArg Except.ok same, h.relock ?_ ?_ locks⟩
    · simp only [TableStore.performOpen, TableStore.lockShared]
      split <;> rfl
    · simp only [MemoryStore.perform, MemoryStore.lockShared]
      split <;> rfl
  | unlockShared name owner =>
    obtain ⟨same, locks⟩ := h.locks.unlockShared name owner
    refine ⟨congrArg Except.ok same, h.relock ?_ ?_ locks⟩
    · simp only [TableStore.performOpen, TableStore.unlockShared]
      split <;> rfl
    · simp only [MemoryStore.perform, MemoryStore.unlockShared, MemoryStore.settleLock]
      split_ifs <;> rfl
  | unlockExclusive name owner =>
    obtain ⟨same, locks⟩ := h.locks.unlockExclusive name owner
    refine ⟨congrArg Except.ok same, h.relock ?_ ?_ locks⟩
    · simp only [TableStore.performOpen, TableStore.unlockExclusive]
      split <;> rfl
    · simp only [MemoryStore.perform, MemoryStore.unlockExclusive, MemoryStore.settleLock]
      split_ifs <;> rfl
  | getLock name => exact ⟨congrArg Except.ok (h.locks.viewLock name), h⟩

theorem perform (h : Represents now t m) (whole : now.IsWhole) (op : Operation)
    (times : op.IsWhole now) :
    (t.perform now op).1 = (m.perform now op).1 ∧
      Represents now (t.perform now op).2 (m.perform now op).2 := by
  rw [TableStore.perform, h.isOpen, if_neg (by decide)]
  exact h.performOpen whole op times

end Represents

namespace Backend

/-- The answers to calls that are made one after the other, each at an instant. -/
def answers : Backend → List (Instant × Operation) → List (Σ op : Operation, op.Result)
  | _, [] => []
  | s, (now, op) :: calls =>
    let (answer, s) := s.perform now op
    ⟨op, answer⟩ :: s.answers calls

theorem answers_of_represents {now : Instant} {t : TableStore} {m : MemoryStore}
    (calls : List (Instant × Operation)) (h : Represents now t m) (whole : now.IsWhole)
    (later : ∀ call ∈ calls, now ≤ call.1) (ordered : calls.Pairwise fun a b => a.1 ≤ b.1)
    (times : ∀ call ∈ calls, call.1.IsWhole ∧ call.2.IsWhole call.1) :
    (memory m).answers calls = (tables t).answers calls := by
  induction calls generalizing now t m with
  | nil => rfl
  | cons call calls ih =>
    obtain ⟨moment, op⟩ := call
    obtain ⟨wholeAt, wholeCall⟩ := times (moment, op) List.mem_cons_self
    have caughtUp := h.later whole wholeAt (later (moment, op) List.mem_cons_self)
    obtain ⟨same, after⟩ := caughtUp.perform wholeAt op wholeCall
    obtain ⟨first, ordered⟩ := List.pairwise_cons.mp ordered
    have rest := ih after wholeAt first ordered fun call mem =>
      times call (List.mem_cons_of_mem _ mem)
    show ⟨op, (m.perform moment op).1⟩ :: (memory (m.perform moment op).2).answers calls
      = ⟨op, (t.perform moment op).1⟩ :: (tables (t.perform moment op).2).answers calls
    rw [same, rest]

/-- Both stores give the same answers to the same calls. -/
theorem answers_memory_eq_tables (calls : List (Instant × Operation))
    (ordered : calls.Pairwise fun a b => a.1 ≤ b.1)
    (times : ∀ call ∈ calls, call.1.IsWhole ∧ call.2.IsWhole call.1) :
    (memory .empty).answers calls = (tables .empty).answers calls := by
  -- the first call is made at some instant, and empty stores hold the same at any
  cases calls with
  | nil => rfl
  | cons call calls =>
    have whole := (times call List.mem_cons_self).1
    obtain ⟨first, -⟩ := List.pairwise_cons.mp ordered
    refine answers_of_represents _ .empty whole ?_ ordered times
    intro other mem
    rcases List.mem_cons.mp mem with rfl | mem
    · exact le_rfl
    · exact first other mem

/-- A series of jobs is indexed, and a lock that was shared for two seconds is taken after three. -/
def errands : List (Instant × Operation) :=
  let series : Job := { Job.errand with
    name := "tägliche \"Runde\""
    trigger := .repeating .newYear2024 (.ofSeconds 86400) (some ⟨7, by decide⟩) .zero }
  let threeLater := Instant.newYear2024.later (.ofSeconds 3)
  [(.newYear2024, .insertJob series), (.newYear2024, .addScheduled ⟨.newYear2024⟩ series.id),
    (.newYear2024, .lockShared "round" "a" (.ofSeconds 2)),
    (.newYear2024, .lockExclusive "round" "b"), (threeLater, .lockExclusive "round" "b"),
    (threeLater, .getLock "round"), (threeLater, .listJobs), (threeLater, .listSlices)]

theorem answers_memory_eq_tables_errands :
    (errands.Pairwise fun a b => a.1 ≤ b.1) ∧
      (∀ call ∈ errands, call.1.IsWhole ∧ call.2.IsWhole call.1) ∧
      (memory .empty).answers errands = (tables .empty).answers errands := by
  have ordered : errands.Pairwise fun a b => a.1 ≤ b.1 := by decide
  have times : ∀ call ∈ errands, call.1.IsWhole ∧ call.2.IsWhole call.1 := by decide
  exact ⟨ordered, times, answers_memory_eq_tables errands ordered times⟩

end Backend

end SliceScheduler
