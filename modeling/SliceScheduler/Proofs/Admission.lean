import SliceScheduler.Proofs.Order
import SliceScheduler.Proofs.Submission
import SliceScheduler.Proofs.TableRows
/-!
# Submissions that pass their checks

A job that passes every check that needs no store can still meet a job of its name, or a call that
is not answered.

1. `Program.Submission.Unanswered` says which calls of a submission may go unanswered, and
   `Program.Submission.Placed` lists what a submission that passes its checks may come to: the job
   is stored, or its name is taken, or a call was not answered;
2. `Program.Submission.places_schedule` says that it comes to one of these, over a store of either
   kind with any contents, whatever calls fail;
3. `Program.Submission.Placed.stored_of` and `Program.Submission.Placed.taken_of` tell the first two
   apart by the jobs that are scheduled in the slice;
4. `Program.Submission.runAlone?_of_quiet` says that where no call fails a program runs as over the
   store alone, and `Backend.Files.answers` that a store answers every call of the submission of a
   new job then.
-/
namespace SliceScheduler

namespace Program.Submission

/-- A call of the submission of a job to a slice is not answered, since it is to fail, or since the
store fails it. A row that is not there is an answer. -/
inductive Unanswered (pattern : FaultPattern) (store : Backend) (now : Instant) (job : Job)
    (slice : Slice) : StoreError → Prop
  | broken {e : StoreError} {n : Nat} : pattern n = some e →
      Unanswered pattern store now job slice e
  | pointer {e : StoreError} : (store.perform now .getPointer).1 = .error e →
      Unanswered pattern store now job slice e
  | index {e : StoreError} : (store.perform now (.sliceSets slice)).1 = .error e →
      Unanswered pattern store now job slice e
  | row {sets : SliceSets} {id : JobId} {e : StoreError} :
      (store.perform now (.sliceSets slice)).1 = .ok sets → id ∈ sets.scheduled →
      (store.perform now (.getJob id)).1 = .error e → (∀ what, e ≠ .notFound what) →
      Unanswered pattern store now job slice e
  | insert {e : StoreError} : (store.perform now (.insertJob job)).1 = .error e →
      Unanswered pattern store now job slice e

/-- What the submission of a job that passes its checks may come to. -/
inductive Placed (pattern : FaultPattern) (before : Backend) (now : Instant) (job : Job)
    (slice : Slice) (after : Backend) : Except SchedulerError Job → Prop
  | stored : before.Lacks job.id → (pattern.IsHonest → before.NameFree now job slice) →
      after = (before.addRow job).addEntry slice job.id →
      Placed pattern before now job slice after (.ok job)
  | taken {sets : SliceSets} {id : JobId} {other : Job} :
      (before.perform now (.sliceSets slice)).1 = .ok sets → id ∈ sets.scheduled →
      (before.perform now (.getJob id)).1 = .ok other → other.type = job.type →
      other.name = job.name → after = before →
      Placed pattern before now job slice after
        (.error (.invalidSubmission (.duplicateJobName job.type job.name slice)))
  | failed {e : StoreError} : Unanswered pattern before now job slice e →
      Placed pattern before now job slice after (.error (.storage e))

/-- The node and the clock are as they were, and the submission has come to what it may. -/
structure Arrives (pattern : FaultPattern) (desk : Desk) (store : Backend) (now : Instant)
    (job : Job) (answer : Except SchedulerError Job) (s : Alone FaultyStore) : Prop where
  desk_eq : s.desk = desk
  now_eq : s.now = now
  placed : Placed pattern store now job (job.slice desk.width) s.store.store answer

section

variable (pattern : FaultPattern) (desk : Desk) (store : Backend) (now : Instant) (job : Job)

/-- A program that finds the store as it was at first comes to what a submission may. -/
def Places (p : Submission Job) : Prop :=
  EndsFrom pattern desk store now (fun a => Arrives pattern desk store now job (.ok a))
    (fun e => Arrives pattern desk store now job (.error e)) p

end

variable {pattern : FaultPattern} {desk : Desk} {store : Backend} {now : Instant} {job : Job}

theorem Arrives.rests {answer : Except SchedulerError Job} {s : Alone FaultyStore}
    (arrives : Arrives pattern desk store now job answer s) :
    s = resting desk s.store.store now s.store.calls := by
  obtain ⟨d, ⟨b, calls⟩, t⟩ := s
  obtain ⟨rfl, rfl, -⟩ := arrives
  rfl

theorem Places.exists_arrives {p : Submission Job} (places : Places pattern desk store now job p)
    (n : Nat) : ∃ answer s, p.run.runAlone? pattern.perform (resting desk store now n) =
      some (answer, s) ∧ Arrives pattern desk store now job answer s := by
  obtain ⟨answer, s, ran, arrives⟩ := places n
  refine ⟨answer, s, ran, ?_⟩
  cases answer with
  | ok job => exact arrives
  | error e => exact arrives

theorem arrives_failed {e : StoreError} {s : Alone FaultyStore} (desk_eq : s.desk = desk)
    (now_eq : s.now = now)
    (unanswered : Unanswered pattern store now job (job.slice desk.width) e) :
    Arrives pattern desk store now job (.error (.storage e)) s :=
  ⟨desk_eq, now_eq, .failed unanswered⟩

/-! ## The steps of a submission -/

theorem places_callStore {op : Operation} (reads : op.reads) {f : op.Answer → Submission Job}
    (fails : ∀ e, (store.perform now op).1 = .error e →
      Unanswered pattern store now job (job.slice desk.width) e)
    (goes : ∀ a, (store.perform now op).1 = .ok a → Places pattern desk store now job (f a)) :
    Places pattern desk store now job (callStore op >>= f) := by
  intro n
  refine ends_bind (ends_callStore (fun e meets => arrives_failed rfl rfl (.broken meets)) ?_)
  have same := store.perform_reads now reads
  simp only [resting, same]
  cases found : (store.perform now op).1 with
  | ok a => exact goes a found _
  | error e => exact arrives_failed rfl rfl (fails e found)

theorem places_storeJob (free : pattern.IsHonest → store.NameFree now job (job.slice desk.width)) :
    Places pattern desk store now job (storeJob job (job.slice desk.width)) := by
  intro n
  refine ends_bind (ends_callStore (fun e meets => arrives_failed rfl rfl (.broken meets)) ?_)
  rcases store.perform_insertJob now job with ⟨wrote, lacks, enters⟩ | ⟨e, failed⟩
  · simp only [resting, wrote]
    refine ends_bind (ends_callStore (fun e meets => arrives_failed rfl rfl (.broken meets)) ?_)
    simp only [enters]
    exact ends_pure ⟨rfl, rfl, .stored lacks free rfl⟩
  · simp only [resting, failed]
    exact arrives_failed rfl rfl (.insert (congrArg Prod.fst failed))

theorem places_fileJob :
    Places pattern desk store now job (fileJob job (job.slice desk.width)) := by
  refine places_callStore rfl (fun e fails => .index fails) fun sets found n => ?_
  refine ends_bind (from_checkName (fun id mem e unanswered m => ?_)
    (fun id mem other row type name m => ?_) (fun lacks m => ?_) n)
  · rcases unanswered with ⟨k, meets⟩ | ⟨fails, known⟩
    · exact arrives_failed rfl rfl (.broken meets)
    · exact arrives_failed rfl rfl (.row found (Std.ExtTreeSet.mem_toList.mp mem) fails known)
  · exact ⟨rfl, rfl, .taken found (Std.ExtTreeSet.mem_toList.mp mem) row type name rfl⟩
  · refine places_storeJob (fun honest sets' found' => ?_) m
    exact Except.ok.inj (found.symm.trans found') ▸ lacks honest

theorem places_placeJob
    (inTime : ∀ pointer, (store.perform now .getPointer).1 = .ok pointer →
      pointer.getD (Slice.containing now desk.width) ≤ job.slice desk.width) :
    Places pattern desk store now job (placeJob job (job.slice desk.width)) := by
  refine places_callStore rfl (fun e fails => .pointer fails) fun pointer found => ?_
  have placed (active : Slice) (inTime : active ≤ job.slice desk.width) :
      Places pattern desk store now job
        (do
          if job.slice desk.width < active then
            refuse (.sliceAlreadyProcessed (job.slice desk.width) active)
          fileJob job (job.slice desk.width)) := by
    dsimp only
    rw [if_neg (not_lt_of_ge inTime)]
    exact places_fileJob
  cases pointer with
  | some p => exact fun n => ends_bind (ends_pure (placed p (inTime _ found) n))
  | none => exact fun n => ends_bind (ends_lift rfl (placed _ (inTime _ found) n))

/-- What a submission asks of the node and the job before it calls the store. -/
structure Passes (desk : Desk) (job : Job) : Prop where
  running : desk.mode ≠ .stopped
  moving : desk.stopped = false
  accepted : job.check desk.width = .ok ()
  registered : ∃ registration, desk.registry[job.type]? = some registration ∧
    registration.check job = .ok ()

/-- The submission of a job that passes its checks, for a slice that the pointer has not passed,
comes to what it may. -/
theorem places_schedule (passes : Passes desk job)
    (inTime : ∀ pointer, (store.perform now .getPointer).1 = .ok pointer →
      pointer.getD (Slice.containing now desk.width) ≤ job.slice desk.width) :
    Places pattern desk store now job (schedule job) := by
  obtain ⟨registration, registered, checked⟩ := passes.registered
  refine from_look ?_
  dsimp only
  rw [if_neg passes.running]
  refine from_look ?_
  dsimp only
  rw [passes.moving, passes.accepted, registered]
  simp only [Bool.false_eq_true, if_false, checked]
  exact fun n => ends_bind (ends_pure (ends_bind (ends_pure (places_placeJob inTime n))))

/-! ## Telling the outcomes apart -/

section

variable {slice : Slice} {after : Backend} {answer : Except SchedulerError Job}
  (placed : Placed pattern store now job slice after answer)
  (answered : ∀ e, ¬Unanswered pattern store now job slice e)
include placed answered

/-- When every call is answered and the jobs scheduled in the slice have other names, the job is
stored. -/
theorem Placed.stored_of
    (free : ∀ sets id other, (store.perform now (.sliceSets slice)).1 = .ok sets →
      id ∈ sets.scheduled → (store.perform now (.getJob id)).1 = .ok other →
      job.DiffersFrom other) :
    answer = .ok job ∧ after = (store.addRow job).addEntry slice job.id := by
  cases placed with
  | stored _ _ same => exact ⟨rfl, same⟩
  | taken found mem row type name => exact absurd ⟨type, name⟩ (free _ _ _ found mem row)
  | failed unanswered => exact absurd unanswered (answered _)

/-- When every call is answered and a job scheduled in the slice has the name, the job is
refused. -/
theorem Placed.taken_of {sets : SliceSets} {id : JobId} {other : Job} (honest : pattern.IsHonest)
    (found : (store.perform now (.sliceSets slice)).1 = .ok sets) (mem : id ∈ sets.scheduled)
    (row : (store.perform now (.getJob id)).1 = .ok other) (type : other.type = job.type)
    (name : other.name = job.name) :
    answer = .error (.invalidSubmission (.duplicateJobName job.type job.name slice)) ∧
      after = store := by
  cases placed with
  | stored _ free _ =>
    have differs := free honest sets found id (Std.ExtTreeSet.mem_toList.mpr mem) other row
    exact absurd ⟨type, name⟩ differs
  | taken _ _ _ _ _ same => exact ⟨rfl, same⟩
  | failed unanswered => exact absurd unanswered (answered _)

end

/-! ## Without failing calls -/

theorem isHonest_of_quiet (quiet : ∀ n, pattern n = none) : pattern.IsHonest :=
  fun n _ meets => Option.some_ne_none _ (meets.symm.trans (quiet n))

/-- A program that is run while no call fails does as over the store alone. -/
theorem runAlone?_of_quiet {α : Type} (quiet : ∀ n, pattern n = none) (p : Program α)
    (s : Alone FaultyStore) :
    p.runAlone? Backend.perform ⟨s.desk, s.store.store, s.now⟩ =
      (p.runAlone? pattern.perform s).map fun r =>
        (r.1, ⟨r.2.desk, r.2.store.store, r.2.now⟩) := by
  induction p generalizing s with
  | done a => rfl
  | ask r next ih =>
    cases r with
    | call op =>
      have made : pattern.perform s.store s.now op =
          ((s.store.store.perform s.now op).1,
            ⟨(s.store.store.perform s.now op).2, s.store.calls + 1⟩) := by
        rcases pattern.perform_cases s.store s.now op with ⟨e, meets, -⟩ | made
        · cases (quiet s.store.calls).symm.trans meets
        · exact made
      simp only [runAlone?, made]
      exact ih _ ⟨s.desk, ⟨_, s.store.calls + 1⟩, s.now⟩
    | look => exact ih _ s
    | change f => exact ih _ ⟨f s.desk, s.store, s.now⟩
    | now => exact ih _ s
    | _ => rfl

end Program.Submission

/-! ## Stores that answer -/

namespace Backend

open Program.Submission

/-- The rows and the index of the store are those of a store in memory. -/
def Files (m : MemoryStore) : Backend → Prop
  | memory s => s.jobs = m.jobs ∧ s.index = m.index
  | tables t => t.closed = false ∧ RowsOfJobs t.jobs m.jobs ∧ RowsOfIndex t.statuses m.index

variable {b : Backend} {m : MemoryStore} {now : Instant} {slice : Slice} {id : JobId} {job : Job}

theorem Files.getJob (files : b.Files m) :
    (b.perform now (.getJob id)).1 = (m.perform now (.getJob id)).1 := by
  cases b with
  | memory s =>
    simp only [perform_memory, MemoryStore.perform, files.1]
    cases m.jobs[id]? <;> rfl
  | tables t =>
    obtain ⟨isOpen, rows, -⟩ := files
    rw [perform_open isOpen]
    simp only [TableStore.performOpen, MemoryStore.perform, rows.lookup]
    cases found : m.jobs[id]? with
    | none => rfl
    | some job =>
      obtain ⟨rfl, whole⟩ := rows.own id job found
      dsimp only [Option.map_some]
      exact JobRow.toJob_ofJob whole.intervalFits

theorem Files.getJob_eq_ok (files : b.Files m) :
    (b.perform now (.getJob id)).1 = .ok job ↔ m.jobs[id]? = some job := by
  rw [files.getJob, MemoryStore.perform]
  cases m.jobs[id]? with
  | none =>
    refine iff_of_false (fun same => ?_) (fun same => ?_)
    · cases same
    · cases same
  | some other => exact ⟨fun same => congrArg some (Except.ok.inj same),
      fun same => congrArg Except.ok (Option.some.inj same)⟩

theorem Files.sliceSets (files : b.Files m) (whole : slice.start.IsWhole) :
    (b.perform now (.sliceSets slice)).1 = .ok (m.sets slice) := by
  cases b with
  | memory s => simp only [perform_memory, MemoryStore.perform, MemoryStore.sets, files.2]
  | tables t =>
    rw [perform_open files.1]
    exact (files.2.2.rows slice whole).decodeSets

theorem Files.insertJob (files : b.Files m) (fresh : m.jobs[job.id]? = none) :
    (b.perform now (.insertJob job)).1 = .ok () := by
  have unknown : m.jobs.contains job.id = false := by
    rw [Std.ExtTreeMap.contains_eq_isSome_getElem?, fresh]
    rfl
  cases b with
  | memory s => simp only [perform_memory, MemoryStore.perform, files.1, unknown]; rfl
  | tables t =>
    rw [perform_open files.1]
    simp only [TableStore.performOpen, files.2.1.contains, unknown]
    rfl

/-- No call of the submission of a new job goes unanswered. -/
theorem Files.answers {pattern : FaultPattern} (quiet : ∀ n, pattern n = none) (files : b.Files m)
    (fresh : m.jobs[job.id]? = none) {pointer : Option Slice} {sets : SliceSets}
    (there : (b.perform now .getPointer).1 = .ok pointer)
    (index : (b.perform now (.sliceSets slice)).1 = .ok sets) (e : StoreError) :
    ¬Unanswered pattern b now job slice e := by
  rintro (meets | fails | fails | ⟨-, -, fails, known⟩ | fails)
  · cases (quiet _).symm.trans meets
  · cases there.symm.trans fails
  · cases index.symm.trans fails
  · rw [files.getJob, MemoryStore.perform] at fails
    split at fails
    · cases fails
    · exact known _ (Except.error.inj fails).symm
  · cases (files.insertJob fresh).symm.trans fails

end Backend

end SliceScheduler
