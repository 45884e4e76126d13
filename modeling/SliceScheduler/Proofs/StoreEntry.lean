import Mathlib.Logic.Function.Basic
import SliceScheduler.Proofs.StoreEffect
/-!
# What a store says about a job

1. `MemoryStore.scheduledIn` and `MemoryStore.finishedIn` are the slices whose index names a job as
   scheduled or as finished, and `MemoryStore.Agrees` compares two stores by what they say about
   one job;
2. `MemoryStore.agrees_perform` says that a call about another job, or about none, changes nothing
   about a job, and the lemmas after it what each call about the job does;
3. `MemoryStore.Keyed` says that rows are kept under the ids of their jobs.
-/
namespace SliceScheduler

/-- The job that the call may change something about. -/
def Operation.job? : Operation → Option JobId
  | insertJob job | updateJob job => some job.id
  | deleteJob id | addScheduled _ id | removeScheduled _ id | addFinished _ id => some id
  | _ => none

/-- The row that the call writes, if it succeeds. -/
def Operation.written? : Operation → Option Job
  | insertJob job | updateJob job => some job
  | _ => none

/-- The call clears the index of a slice. -/
def Operation.clears? : Operation → Option Slice
  | deleteSlice slice => some slice
  | _ => none

namespace MemoryStore

/-- The slices whose index names the job as scheduled. -/
def scheduledIn (s : MemoryStore) (id : JobId) (slice : Slice) : Prop :=
  id ∈ (s.sets slice).scheduled

/-- The slices whose index names the job as finished. -/
def finishedIn (s : MemoryStore) (id : JobId) (slice : Slice) : Prop :=
  id ∈ (s.sets slice).finished

/-- The stores say the same about the job. -/
structure Agrees (id : JobId) (s s' : MemoryStore) : Prop where
  row : s'.jobs[id]? = s.jobs[id]?
  scheduled : s'.scheduledIn id = s.scheduledIn id
  finished : s'.finishedIn id = s.finishedIn id

/-- Rows are kept under the ids of their jobs. -/
def Keyed (s : MemoryStore) : Prop := ∀ (id : JobId) (job : Job), s.jobs[id]? = some job → job.id = id

variable {s : MemoryStore} {now : Instant} {id : JobId} {slice : Slice}

theorem Agrees.refl : Agrees id s s := ⟨rfl, rfl, rfl⟩

/-! ## Indexes -/

theorem sets_modifySets (f : SliceSets → SliceSets) (u : Slice) :
    (s.modifySets slice f).sets u = if u = slice then f (s.sets slice) else s.sets u := by
  simp only [sets, modifySets, Std.ExtTreeMap.getD_insert, Std.LawfulEqCmp.compare_eq_iff_eq]
  by_cases same : slice = u
  · rw [if_pos same, if_pos same.symm]
  · rw [if_neg same, if_neg (Ne.symm same)]

theorem scheduledIn_modifySets {f : SliceSets → SliceSets} {v : Prop}
    (here : id ∈ (f (s.sets slice)).scheduled ↔ v) :
    (s.modifySets slice f).scheduledIn id = Function.update (s.scheduledIn id) slice v := by
  funext u
  simp only [scheduledIn, sets_modifySets, Function.update_apply]
  split
  · exact propext here
  · rfl

theorem finishedIn_modifySets {f : SliceSets → SliceSets} {v : Prop}
    (here : id ∈ (f (s.sets slice)).finished ↔ v) :
    (s.modifySets slice f).finishedIn id = Function.update (s.finishedIn id) slice v := by
  funext u
  simp only [finishedIn, sets_modifySets, Function.update_apply]
  split
  · exact propext here
  · rfl

theorem scheduledIn_of_same {f : SliceSets → SliceSets}
    (same : id ∈ (f (s.sets slice)).scheduled ↔ id ∈ (s.sets slice).scheduled) :
    (s.modifySets slice f).scheduledIn id = s.scheduledIn id :=
  (scheduledIn_modifySets same).trans (Function.update_eq_self slice (s.scheduledIn id))

theorem finishedIn_of_same {f : SliceSets → SliceSets}
    (same : id ∈ (f (s.sets slice)).finished ↔ id ∈ (s.sets slice).finished) :
    (s.modifySets slice f).finishedIn id = s.finishedIn id :=
  (finishedIn_modifySets same).trans (Function.update_eq_self slice (s.finishedIn id))

theorem mem_insert {ids : JobIds} {other : JobId} :
    id ∈ ids.insert other ↔ other = id ∨ id ∈ ids := by
  rw [Std.ExtTreeSet.mem_insert, Std.LawfulEqCmp.compare_eq_iff_eq]

theorem mem_erase {ids : JobIds} {other : JobId} :
    id ∈ ids.erase other ↔ other ≠ id ∧ id ∈ ids := by
  rw [Std.ExtTreeSet.mem_erase, Ne, Std.LawfulEqCmp.compare_eq_iff_eq]

theorem scheduledIn_of_index {s' : MemoryStore} (same : s'.index = s.index) :
    s'.scheduledIn id = s.scheduledIn id := by
  funext u
  simp only [scheduledIn, sets, same]

theorem finishedIn_of_index {s' : MemoryStore} (same : s'.index = s.index) :
    s'.finishedIn id = s.finishedIn id := by
  funext u
  simp only [finishedIn, sets, same]

/-! ## Rows -/

theorem jobs_insert (jobs : Std.ExtTreeMap JobId Job) (other : JobId) (job : Job) :
    (jobs.insert other job)[id]? = if other = id then some job else jobs[id]? := by
  simp only [Std.ExtTreeMap.getElem?_insert, Std.LawfulEqCmp.compare_eq_iff_eq]

theorem jobs_erase (jobs : Std.ExtTreeMap JobId Job) (other : JobId) :
    (jobs.erase other)[id]? = if other = id then none else jobs[id]? := by
  simp only [Std.ExtTreeMap.getElem?_erase, Std.LawfulEqCmp.compare_eq_iff_eq]

/-! ## Calls -/

/-- A call about another job, or about none, changes nothing about a job unless it clears an
index. -/
theorem agrees_perform {op : Operation} (other : op.job? ≠ some id) (kept : op.clears? = none) :
    Agrees id s (s.perform now op).2 := by
  by_cases lock : op.isLock = true
  · obtain ⟨locks, same⟩ := perform_locks s now lock
    rw [same]
    exact ⟨rfl, rfl, rfl⟩
  · cases op with
    | insertJob job | updateJob job =>
      have other : job.id ≠ id := fun same => other (congrArg some same)
      simp only [perform]
      split
      · first | exact .refl | exact ⟨(jobs_insert ..).trans (if_neg other), rfl, rfl⟩
      · first | exact .refl | exact ⟨(jobs_insert ..).trans (if_neg other), rfl, rfl⟩
    | deleteJob j =>
      have other : j ≠ id := fun same => other (congrArg some same)
      simp only [perform]
      split
      · exact ⟨(jobs_erase ..).trans (if_neg other), rfl, rfl⟩
      · exact .refl
    | addScheduled u j =>
      have other : j ≠ id := fun same => other (congrArg some same)
      exact ⟨rfl, scheduledIn_of_same (mem_insert.trans (or_iff_right other)),
        finishedIn_of_same .rfl⟩
    | removeScheduled u j =>
      have other : j ≠ id := fun same => other (congrArg some same)
      simp only [perform]
      split
      · exact ⟨rfl, scheduledIn_of_same (mem_erase.trans (and_iff_right other)),
          finishedIn_of_same .rfl⟩
      · exact .refl
    | addActive u j => exact ⟨rfl, scheduledIn_of_same .rfl, finishedIn_of_same .rfl⟩
    | addFinished u j =>
      have other : j ≠ id := fun same => other (congrArg some same)
      exact ⟨rfl, scheduledIn_of_same .rfl,
        finishedIn_of_same (mem_insert.trans (or_iff_right other))⟩
    | deleteSlice u => cases kept
    | getJob j =>
      simp only [perform]
      split <;> exact .refl
    | initPointer | movePointer =>
      simp only [perform]
      split
      · first | exact .refl | exact ⟨rfl, rfl, rfl⟩
      · first | exact .refl | exact ⟨rfl, rfl, rfl⟩
    | lockExclusive | lockShared | unlockShared | unlockExclusive => exact absurd rfl lock
    | listJobs | sliceSets | listSlices | getPointer | getLock => exact .refl

/-- A row that is there after a call was there before, or is the one that the call wrote. -/
theorem row_perform {op : Operation} {job : Job}
    (there : (s.perform now op).2.jobs[id]? = some job) :
    s.jobs[id]? = some job ∨ op.written? = some job := by
  have inserted {written : Job} (there : (s.jobs.insert written.id written)[id]? = some job) :
      s.jobs[id]? = some job ∨ some written = some job := by
    rw [jobs_insert] at there
    split at there
    · exact .inr there
    · exact .inl there
  by_cases lock : op.isLock = true
  · obtain ⟨locks, same⟩ := perform_locks s now lock
    rw [same] at there
    exact .inl there
  · cases op with
    | insertJob written =>
      simp only [perform] at there
      split at there
      · exact .inl there
      · exact inserted there
    | updateJob written =>
      simp only [perform] at there
      split at there
      · exact inserted there
      · exact .inl there
    | deleteJob other =>
      simp only [perform] at there
      split at there
      · rw [jobs_erase] at there
        split at there
        · cases there
        · exact .inl there
      · exact .inl there
    | getJob | removeScheduled | initPointer | movePointer =>
      simp only [perform] at there
      split at there <;> exact .inl there
    | lockExclusive | lockShared | unlockShared | unlockExclusive => exact absurd rfl lock
    | _ => exact .inl there

/-- A job is stored unless there is one under its id. -/
theorem insertJob_cases {job : Job} {answer : Except StoreError Unit} {s' : MemoryStore}
    (made : s.perform now (.insertJob job) = (answer, s')) :
    (∃ e, answer = .error e) ∧ s' = s ∨
      answer = .ok () ∧ s.jobs[job.id]? = none ∧
        s' = { s with jobs := s.jobs.insert job.id job } := by
  simp only [perform] at made
  split at made
  · obtain ⟨rfl, rfl⟩ := Prod.mk.inj made
    exact .inl ⟨⟨_, rfl⟩, rfl⟩
  · rename_i absent
    obtain ⟨rfl, rfl⟩ := Prod.mk.inj made
    rw [Std.ExtTreeMap.contains_eq_isSome_getElem?, Option.not_isSome_iff_eq_none] at absent
    exact .inr ⟨rfl, absent, rfl⟩

/-- A job is stored anew if there is one under its id. -/
theorem updateJob_cases {job : Job} {answer : Except StoreError Unit} {s' : MemoryStore}
    (made : s.perform now (.updateJob job) = (answer, s')) :
    (∃ e, answer = .error e) ∧ s.jobs[job.id]? = none ∧ s' = s ∨
      answer = .ok () ∧ s.jobs[job.id]?.isSome ∧
        s' = { s with jobs := s.jobs.insert job.id job } := by
  simp only [perform] at made
  split at made
  · rename_i there
    obtain ⟨rfl, rfl⟩ := Prod.mk.inj made
    rw [Std.ExtTreeMap.contains_eq_isSome_getElem?] at there
    exact .inr ⟨rfl, there, rfl⟩
  · rename_i absent
    obtain ⟨rfl, rfl⟩ := Prod.mk.inj made
    rw [Std.ExtTreeMap.contains_eq_isSome_getElem?, Option.not_isSome_iff_eq_none] at absent
    exact .inl ⟨⟨_, rfl⟩, absent, rfl⟩

/-- There is no row after a job was deleted. -/
theorem deleteJob_row (s : MemoryStore) (now : Instant) (id : JobId) :
    (s.perform now (.deleteJob id)).2.jobs[id]? = none ∧
      (s.perform now (.deleteJob id)).2.index = s.index := by
  simp only [perform]
  split
  · exact ⟨(jobs_erase ..).trans (if_pos rfl), rfl⟩
  · rename_i absent
    rw [Std.ExtTreeMap.contains_eq_isSome_getElem?, Option.not_isSome_iff_eq_none] at absent
    exact ⟨absent, rfl⟩

/-- Taking a job out of a slice never fails and keeps rows. -/
theorem removeScheduled_cases {answer : Except StoreError Unit} {s' : MemoryStore}
    (made : s.perform now (.removeScheduled slice id) = (answer, s')) :
    answer = .ok () ∧ s'.jobs = s.jobs := by
  simp only [perform] at made
  split at made
  · obtain ⟨rfl, rfl⟩ := Prod.mk.inj made
    exact ⟨rfl, rfl⟩
  · obtain ⟨rfl, rfl⟩ := Prod.mk.inj made
    exact ⟨rfl, rfl⟩

/-- The answer of a call that loads a job. -/
theorem getJob_cases {answer : Except StoreError Job} {s' : MemoryStore}
    (made : s.perform now (.getJob id) = (answer, s')) :
    s' = s ∧ ((∃ what, answer = .error (.notFound what)) ∧ s.jobs[id]? = none ∨
      ∃ job, answer = .ok job ∧ s.jobs[id]? = some job) := by
  simp only [perform] at made
  split at made
  · rename_i job there
    obtain ⟨rfl, rfl⟩ := Prod.mk.inj made
    exact ⟨rfl, .inr ⟨job, rfl, there⟩⟩
  · rename_i absent
    obtain ⟨rfl, rfl⟩ := Prod.mk.inj made
    exact ⟨rfl, .inl ⟨⟨_, rfl⟩, absent⟩⟩

theorem scheduledIn_addScheduled (s : MemoryStore) (now : Instant) (slice : Slice) (id : JobId) :
    (s.perform now (.addScheduled slice id)).2.scheduledIn id =
      Function.update (s.scheduledIn id) slice True :=
  scheduledIn_modifySets (iff_true_intro (mem_insert.mpr (.inl rfl)))

theorem finishedIn_addScheduled (s : MemoryStore) (now : Instant) (slice : Slice) (id : JobId) :
    (s.perform now (.addScheduled slice id)).2.finishedIn id = s.finishedIn id :=
  finishedIn_of_same .rfl

theorem scheduledIn_addFinished (s : MemoryStore) (now : Instant) (slice : Slice) (id : JobId) :
    (s.perform now (.addFinished slice id)).2.scheduledIn id = s.scheduledIn id :=
  scheduledIn_of_same .rfl

theorem finishedIn_addFinished (s : MemoryStore) (now : Instant) (slice : Slice) (id : JobId) :
    (s.perform now (.addFinished slice id)).2.finishedIn id =
      Function.update (s.finishedIn id) slice True :=
  finishedIn_modifySets (iff_true_intro (mem_insert.mpr (.inl rfl)))

/-- The index of a slice that is not there names no job. -/
theorem scheduledIn_removeScheduled (s : MemoryStore) (now : Instant) (slice : Slice) (id : JobId) :
    (s.perform now (.removeScheduled slice id)).2.scheduledIn id =
      Function.update (s.scheduledIn id) slice False := by
  simp only [perform]
  split
  · exact scheduledIn_modifySets (iff_false_intro fun mem => (mem_erase.mp mem).1 rfl)
  · rename_i absent
    funext u
    rw [Function.update_apply]
    split
    · subst u
      have none : id ∉ (∅ : JobIds) := Std.ExtTreeSet.not_mem_empty
      refine eq_false fun mem => none ?_
      rw [scheduledIn, sets, Std.ExtTreeMap.getD_eq_fallback] at mem
      · exact mem
      · rwa [← Std.ExtTreeMap.contains_iff_mem]
    · rfl

theorem finishedIn_removeScheduled (s : MemoryStore) (now : Instant) (slice : Slice) (id : JobId) :
    (s.perform now (.removeScheduled slice id)).2.finishedIn id = s.finishedIn id := by
  simp only [perform]
  split
  · exact finishedIn_of_same .rfl
  · rfl

theorem sets_deleteSlice (s : MemoryStore) (now : Instant) (slice u : Slice) :
    (s.perform now (.deleteSlice slice)).2.sets u = if u = slice then .none else s.sets u := by
  simp only [perform, sets, Std.ExtTreeMap.getD_erase, Std.LawfulEqCmp.compare_eq_iff_eq]
  by_cases same : slice = u
  · rw [if_pos same, if_pos same.symm]
  · rw [if_neg same, if_neg (Ne.symm same)]

theorem scheduledIn_deleteSlice (s : MemoryStore) (now : Instant) (slice : Slice) (id : JobId) :
    (s.perform now (.deleteSlice slice)).2.scheduledIn id =
      Function.update (s.scheduledIn id) slice False := by
  funext u
  rw [scheduledIn, sets_deleteSlice, Function.update_apply]
  split
  · exact eq_false Std.ExtTreeSet.not_mem_empty
  · rfl

theorem finishedIn_deleteSlice (s : MemoryStore) (now : Instant) (slice : Slice) (id : JobId) :
    (s.perform now (.deleteSlice slice)).2.finishedIn id =
      Function.update (s.finishedIn id) slice False := by
  funext u
  rw [finishedIn, sets_deleteSlice, Function.update_apply]
  split
  · exact eq_false Std.ExtTreeSet.not_mem_empty
  · rfl

/-- The pending jobs of a slice, each of them once. -/
theorem mem_pending {sets : SliceSets} :
    id ∈ sets.pending ↔ id ∈ sets.scheduled ∧ id ∉ sets.finished := by
  simp only [SliceSets.pending, List.mem_filter, Std.ExtTreeSet.mem_toList, Bool.not_eq_true',
    ← Bool.not_eq_true, Std.ExtTreeSet.contains_iff_mem]

theorem nodup_pending (sets : SliceSets) : sets.pending.Nodup := by
  refine List.Pairwise.filter _ ?_
  exact sets.scheduled.distinct_toList.imp fun other same => other (by
    rw [same, Std.LawfulEqCmp.compare_eq_iff_eq])

/-- A call that schedules nothing in a slice leaves no more jobs scheduled there and no fewer
finished ones, unless it clears the index of the slice. -/
theorem scheduledIn_perform {op : Operation} (other : ∀ j, op ≠ .addScheduled slice j)
    (here : (s.perform now op).2.scheduledIn id slice) : s.scheduledIn id slice ∧
      (s.finishedIn id slice → (s.perform now op).2.finishedIn id slice) := by
  have kept {s' : MemoryStore} (index : s'.index = s.index) (here : s'.scheduledIn id slice) :
      s.scheduledIn id slice ∧ (s.finishedIn id slice → s'.finishedIn id slice) := by
    rw [scheduledIn_of_index index] at here
    rw [finishedIn_of_index index]
    exact ⟨here, fun there => there⟩
  have changed {u : Slice} {f : SliceSets → SliceSets}
      (fewer : u = slice → id ∈ (f (s.sets u)).scheduled → id ∈ (s.sets u).scheduled)
      (more : id ∈ (s.sets u).finished → id ∈ (f (s.sets u)).finished)
      (here : (s.modifySets u f).scheduledIn id slice) : s.scheduledIn id slice ∧
        (s.finishedIn id slice → (s.modifySets u f).finishedIn id slice) := by
    simp only [scheduledIn, finishedIn, sets_modifySets] at here ⊢
    split at here
    · rename_i same
      subst same
      rw [if_pos rfl]
      exact ⟨fewer rfl here, more⟩
    · rename_i differs
      rw [if_neg differs]
      exact ⟨here, fun there => there⟩
  by_cases lock : op.isLock = true
  · obtain ⟨locks, same⟩ := perform_locks s now lock
    exact kept (by rw [same]) here
  · cases op with
    | addScheduled u j =>
      exact changed (fun same => absurd (congrArg (Operation.addScheduled · j) same) (other j))
        (fun there => there) here
    | addActive u j => exact changed (fun _ there => there) (fun there => there) here
    | addFinished u j =>
      exact changed (fun _ there => there) (fun there => mem_insert.mpr (.inr there)) here
    | removeScheduled u j =>
      simp only [perform] at here ⊢
      split at here
      · rename_i there
        rw [if_pos there]
        exact changed (fun _ there => (mem_erase.mp there).2) (fun there => there) here
      · rename_i absent
        rw [if_neg absent]
        exact kept rfl here
    | deleteSlice u =>
      rw [scheduledIn_deleteSlice, Function.update_apply] at here
      rw [finishedIn_deleteSlice, Function.update_apply]
      split at here
      · exact here.elim
      · rename_i differs
        rw [if_neg differs]
        exact ⟨here, fun there => there⟩
    | insertJob | updateJob | deleteJob | getJob | initPointer | movePointer =>
      refine kept ?_ here
      simp only [perform]
      split <;> rfl
    | lockExclusive | lockShared | unlockShared | unlockExclusive => exact absurd rfl lock
    | listJobs | sliceSets | listSlices | getPointer | getLock => exact kept rfl here

/-- A call that schedules nothing in a slice leaves no more jobs pending in it. -/
theorem pending_perform {op : Operation} (other : ∀ j, op ≠ .addScheduled slice j)
    (left : id ∈ ((s.perform now op).2.sets slice).pending) : id ∈ (s.sets slice).pending := by
  obtain ⟨scheduled, unfinished⟩ := mem_pending.mp left
  obtain ⟨before, kept⟩ := scheduledIn_perform other scheduled
  exact mem_pending.mpr ⟨before, fun finished => unfinished (kept finished)⟩

/-! ## Rows under their ids -/

/-- Every call keeps rows under the ids of their jobs. -/
theorem Keyed.perform {op : Operation} (keyed : s.Keyed) : (s.perform now op).2.Keyed := by
  intro id job row
  by_cases about : op.job? = some id
  · cases op with
    | insertJob other | updateJob other =>
      obtain rfl := Option.some.inj about
      simp only [MemoryStore.perform] at row
      split at row
      · first
        | exact keyed _ _ row
        | rw [jobs_insert, if_pos rfl, Option.some.injEq] at row
          rw [row]
      · first
        | exact keyed _ _ row
        | rw [jobs_insert, if_pos rfl, Option.some.injEq] at row
          rw [row]
    | deleteJob other =>
      obtain rfl := Option.some.inj about
      rw [(deleteJob_row ..).1] at row
      cases row
    | removeScheduled u other =>
      simp only [MemoryStore.perform] at row
      split at row <;> exact keyed id job row
    | addScheduled | addFinished => exact keyed id job row
    | _ => cases about
  · cases op with
    | deleteSlice u => exact keyed id job row
    | _ => exact keyed id job ((agrees_perform about rfl).row.symm.trans row)

end MemoryStore

end SliceScheduler
