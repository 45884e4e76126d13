import SliceScheduler.Proofs.Stage
import SliceScheduler.Proofs.StoreEntry
/-!
# What a store has of one job

A call about a job depends on nothing that a store has but the entry of that job, and changes
nothing else.

1. `JobEntry` is the row of a job and the slices whose index names it, and `MemoryStore.entry` is
   what a store has of a job;
2. `Operation.subject?` is the job that a call is about. `MemoryStore.answer_perform` and
   `MemoryStore.entry_perform` tell its answer and the entry after it by the entry before it;
3. `MemoryStore.Spares` says that two stores differ in the entry of one job at most, and
   `MemoryStore.spares_perform` that a call about the job leads to such a store;
4. `JobStage.IsAbout` says that a stage of a job is about the job.
-/
namespace SliceScheduler

/-- What a store has of a job: its row, and the slices whose index names it. -/
structure JobEntry where
  row : Option Job
  scheduled : Slice → Prop
  active : Slice → Prop
  finished : Slice → Prop

/-- The job that a call is about. -/
def Operation.subject? : Operation → Option JobId
  | insertJob job | updateJob job => some job.id
  | getJob id | deleteJob id | addScheduled _ id | removeScheduled _ id | addActive _ id
  | addFinished _ id => some id
  | _ => none

namespace JobEntry

/-- The job is scheduled in the slice and not finished in it. -/
def pending (e : JobEntry) (slice : Slice) : Prop := e.scheduled slice ∧ ¬e.finished slice

/-- The index of the slice names the job. -/
def indexed (e : JobEntry) (slice : Slice) : Prop :=
  e.scheduled slice ∨ e.active slice ∨ e.finished slice

/-- The answer to a call about the job. Nothing is said of other calls. -/
def answer (e : JobEntry) : (op : Operation) → op.Result
  | .insertJob job =>
    match e.row with
    | some _ => .error (.jobExists job.id)
    | none => .ok ()
  | .getJob id =>
    match e.row with
    | some job => .ok job
    | none => .error (.noJob id)
  | .updateJob job =>
    match e.row with
    | some _ => .ok ()
    | none => .error (.noJob job.id)
  | .deleteJob id =>
    match e.row with
    | some _ => .ok ()
    | none => .error (.noJob id)
  | .addScheduled _ _ | .removeScheduled _ _ | .addActive _ _ | .addFinished _ _ => .ok ()
  | _ => .error .poisoned

/-- The entry after a call about the job. -/
def after (e : JobEntry) : Operation → JobEntry
  | .insertJob job => { e with row := e.row.getD job }
  | .updateJob job => { e with row := e.row.map fun _ => job }
  | .deleteJob _ => { e with row := none }
  | .addScheduled slice _ => { e with scheduled := Function.update e.scheduled slice True }
  | .removeScheduled slice _ => { e with scheduled := Function.update e.scheduled slice False }
  | .addActive slice _ => { e with active := Function.update e.active slice True }
  | .addFinished slice _ => { e with finished := Function.update e.finished slice True }
  | _ => e

end JobEntry

namespace MemoryStore

variable {s s' s'' : MemoryStore} {now : Instant} {id : JobId} {slice : Slice} {op : Operation}

/-- The slices whose index names the job as active. -/
def activeIn (s : MemoryStore) (id : JobId) (slice : Slice) : Prop := id ∈ (s.sets slice).active

/-- What the store has of a job. -/
def entry (s : MemoryStore) (id : JobId) : JobEntry :=
  ⟨s.jobs[id]?, s.scheduledIn id, s.activeIn id, s.finishedIn id⟩

/-- A job is pending in a slice as the index of the slice says. -/
theorem pending_entry : (s.entry id).pending slice ↔ id ∈ (s.sets slice).pending :=
  mem_pending.symm

theorem entry_eq {e : JobEntry} (row : s.jobs[id]? = e.row)
    (scheduled : s.scheduledIn id = e.scheduled) (active : s.activeIn id = e.active)
    (finished : s.finishedIn id = e.finished) : s.entry id = e := by
  rw [entry, row, scheduled, active, finished]

/-! ## The active jobs of a slice -/

theorem activeIn_modifySets {f : SliceSets → SliceSets} {v : Prop}
    (here : id ∈ (f (s.sets slice)).active ↔ v) :
    (s.modifySets slice f).activeIn id = Function.update (s.activeIn id) slice v := by
  funext u
  simp only [activeIn, sets_modifySets, Function.update_apply]
  split
  · exact propext here
  · rfl

theorem activeIn_of_same {f : SliceSets → SliceSets}
    (same : id ∈ (f (s.sets slice)).active ↔ id ∈ (s.sets slice).active) :
    (s.modifySets slice f).activeIn id = s.activeIn id :=
  (activeIn_modifySets same).trans (Function.update_eq_self slice (s.activeIn id))

/-- Only a call that marks a job active changes which jobs are active, or one that clears an
index. -/
theorem activeIn_perform (kept : op.clears? = none) (other : ∀ slice, op ≠ .addActive slice id) :
    (s.perform now op).2.activeIn id = s.activeIn id := by
  by_cases lock : op.isLock = true
  · obtain ⟨locks, same⟩ := perform_locks s now lock
    rw [same]
    rfl
  · cases op with
    | addActive slice j =>
      have other : j ≠ id := fun same => other slice (congrArg _ same)
      exact activeIn_of_same (mem_insert.trans (or_iff_right other))
    | addScheduled | addFinished => exact activeIn_of_same .rfl
    | removeScheduled =>
      simp only [perform]
      split
      · exact activeIn_of_same .rfl
      · rfl
    | deleteSlice => cases kept
    | insertJob | updateJob | deleteJob | getJob | initPointer | movePointer =>
      simp only [perform]
      split <;> rfl
    | lockExclusive | lockShared | unlockShared | unlockExclusive => exact absurd rfl lock
    | listJobs | sliceSets | listSlices | getPointer | getLock => rfl

/-! ## Calls about the job -/

theorem contains_jobs (s : MemoryStore) (id : JobId) :
    s.jobs.contains id = s.jobs[id]?.isSome := Std.ExtTreeMap.contains_eq_isSome_getElem?

/-- The answer to a call about a job depends on the entry of the job alone. -/
theorem answer_perform (about : op.subject? = some id) :
    (s.perform now op).1 = (s.entry id).answer op := by
  cases op with
  | insertJob job | updateJob job | getJob other | deleteJob other =>
    simp only [Operation.subject?, Option.some.injEq] at about
    simp only [perform, JobEntry.answer, entry, contains_jobs, about]
    cases s.jobs[id]? <;> rfl
  | removeScheduled slice other =>
    simp only [perform, JobEntry.answer]
    split <;> rfl
  | addScheduled | addActive | addFinished => rfl
  | _ => cases about

/-- The entry of a job after a call about it. -/
theorem entry_perform (about : op.subject? = some id) :
    (s.perform now op).2.entry id = (s.entry id).after op := by
  cases op with
  | insertJob job | updateJob job =>
    obtain rfl := Option.some.inj about
    simp only [perform, contains_jobs]
    split
    · rename_i there
      obtain ⟨row, there⟩ := Option.isSome_iff_exists.mp there
      exact entry_eq (by simp [JobEntry.after, entry, there]) rfl rfl rfl
    · rename_i absent
      rw [Option.not_isSome_iff_eq_none] at absent
      exact entry_eq (by simp [JobEntry.after, entry, absent]) rfl rfl rfl
  | getJob other =>
    simp only [perform]
    split <;> rfl
  | deleteJob other =>
    obtain rfl := Option.some.inj about
    obtain ⟨row, index⟩ := deleteJob_row s now other
    exact entry_eq row (scheduledIn_of_index index) (activeIn_perform rfl fun _ same => by cases same)
      (finishedIn_of_index index)
  | addScheduled slice other =>
    obtain rfl := Option.some.inj about
    exact entry_eq rfl (scheduledIn_addScheduled ..) (activeIn_perform rfl fun _ same => by cases same)
      (finishedIn_addScheduled ..)
  | addActive slice other =>
    obtain rfl := Option.some.inj about
    exact entry_eq rfl (scheduledIn_of_same .rfl)
      (activeIn_modifySets (iff_true_intro (mem_insert.mpr (.inl rfl)))) (finishedIn_of_same .rfl)
  | addFinished slice other =>
    obtain rfl := Option.some.inj about
    exact entry_eq rfl (scheduledIn_addFinished ..) (activeIn_perform rfl fun _ same => by cases same)
      (finishedIn_addFinished ..)
  | removeScheduled slice other =>
    obtain rfl := Option.some.inj about
    have rows : (s.perform now (.removeScheduled slice other)).2.jobs = s.jobs := by
      simp only [perform]
      split <;> rfl
    exact entry_eq (congrArg (·[other]?) rows) (scheduledIn_removeScheduled ..)
      (activeIn_perform rfl fun _ same => by cases same) (finishedIn_removeScheduled ..)
  | _ => cases about

/-! ## What the call leaves alone -/

/-- The stores differ in the entry of the job at most. -/
structure Spares (id : JobId) (s s' : MemoryStore) : Prop where
  others : ∀ other, other ≠ id → s'.entry other = s.entry other
  pointer : s'.pointer = s.pointer
  locks : s'.locks = s.locks

theorem Spares.refl (id : JobId) (s : MemoryStore) : Spares id s s := ⟨fun _ _ => rfl, rfl, rfl⟩

theorem Spares.trans (first : Spares id s s') (second : Spares id s' s'') : Spares id s s'' where
  others other ne := (second.others other ne).trans (first.others other ne)
  pointer := second.pointer.trans first.pointer
  locks := second.locks.trans first.locks

/-- A call about a job changes nothing but the entry of the job. -/
theorem spares_perform (about : op.subject? = some id) : Spares id s (s.perform now op).2 := by
  have others (other : JobId) (ne : other ≠ id) : op.job? ≠ some other ∧
      (∀ slice, op ≠ .addActive slice other) ∧ op.clears? = none := by
    refine ⟨?_, ?_, ?_⟩
    · cases op <;> simp_all [Operation.subject?, Operation.job?, Ne.symm]
    · rintro slice rfl
      exact ne (Option.some.inj about)
    · cases op <;> first | rfl | cases about
  have rest : (s.perform now op).2.pointer = s.pointer ∧ (s.perform now op).2.locks = s.locks := by
    cases op with
    | insertJob | updateJob | getJob | deleteJob | removeScheduled =>
      simp only [perform]
      split <;> exact ⟨rfl, rfl⟩
    | addScheduled | addActive | addFinished => exact ⟨rfl, rfl⟩
    | _ => cases about
  refine ⟨fun other ne => ?_, rest.1, rest.2⟩
  obtain ⟨rows, active, kept⟩ := others other ne
  have agrees : Agrees other s (s.perform now op).2 := agrees_perform rows kept
  exact entry_eq agrees.row agrees.scheduled (activeIn_perform kept active) agrees.finished

end MemoryStore

/-! ## The stages of a job -/

/-- The stage is about the job of an id. -/
def JobStage.IsAbout (id : JobId) : JobStage → Prop
  | activate job _ | update job | enter job | finish job | leave job => job.id = id
  | retire other | delete other => other = id
  | load | pass | deadLetter _ => True

/-- The call of a stage is about the job that the stage is about. -/
theorem JobStage.subject_op {w : Duration} {slice : Slice} {id : JobId} {s : JobStage}
    (about : s.IsAbout id) : (s.op w slice id).subject? = some id := by
  cases s with
  | load | pass | deadLetter | activate => rfl
  | _ => exact congrArg some about

end SliceScheduler
