import SliceScheduler.Proofs.Rescheduling
import SliceScheduler.Proofs.StoreEntry
import SliceScheduler.Proofs.Submission
/-!
# Names of submitted jobs

A submission refuses a job whose type and name a job has that is scheduled in the same slice. A job
that comes back or is retried enters its next slice without a look at the names there.

1. `Program.Submission.name_free` says that an accepted job has a name that was free in its slice;
2. `MemoryStore.Filled` are the stores that submissions lead to, one after the other, and
   `MemoryStore.Named` says that the jobs scheduled in one slice differ in type or name;
3. `MemoryStore.Filled.names_apart` is the result for such stores, and `Cluster.Run.names_meet` the
   run of a retry that meets a job of its name.
-/
namespace SliceScheduler

namespace Program.Submission

variable {pattern : FaultPattern} {desk : Desk} {store : Backend} {now : Instant} {job : Job}

/-- A submission lands as it may, and an accepted job has a name that was free. -/
theorem from_schedule_free : EndsFrom pattern desk store now
    (fun a s => Lands pattern job desk store now (.ok a) s ∧
      (pattern.IsHonest → store.NameFree now job (job.slice desk.width)))
    (fun e => Lands pattern job desk store now (.error e)) (schedule job) := by
  refine from_schedule lands_refused (from_placeJob lands_refused fun free n => ?_)
  have stored : Settles pattern job desk store now (storeJob job (job.slice desk.width)) :=
    settles_storeJob
  obtain ⟨answer, s', ran, lands⟩ := stored n
  cases answer with
  | ok a => exact ⟨_, s', ran, lands, free⟩
  | error e => exact ⟨_, s', ran, lands⟩

/-- What a submission of a job comes to when it is run. -/
theorem lands_schedule {n : Nat} {answer : Except SchedulerError Job} {s : Alone FaultyStore}
    (ran : (schedule job).run.runAlone? pattern.perform (resting desk store now n) =
      some (answer, s)) :
    Lands pattern job desk store now answer s ∧ (pattern.IsHonest → answer.isOk = true →
      store.NameFree now job (job.slice desk.width)) := by
  obtain ⟨answer', s', ran', lands⟩ := @from_schedule_free pattern desk store now job n
  obtain ⟨rfl, rfl⟩ := Prod.mk.inj (Option.some.inj (ran'.symm.trans ran))
  cases answer' with
  | ok a => exact ⟨lands.1, fun honest _ => lands.2 honest⟩
  | error e => exact ⟨lands, fun _ accepted => (by cases accepted)⟩

/-- An accepted job has a type and a name that no job scheduled in its slice had, unless a call that
failed has said that such a job is not there. -/
theorem name_free {s s' : Alone FaultyStore} {accepted : Job} (honest : pattern.IsHonest)
    (ran : (schedule job).run.runAlone? pattern.perform s = some (.ok accepted, s')) :
    s.store.store.NameFree s.now job (job.slice s.desk.width) :=
  (lands_schedule ran).2 honest rfl

end Program.Submission

/-! ## One submission after the other -/

namespace MemoryStore

/-- The stores that submissions lead to from an empty one. Nodes, clocks and failing calls may differ
from submission to submission. -/
inductive Filled : MemoryStore → Prop
  | empty : Filled .empty
  | submission {s s' : MemoryStore} {pattern : FaultPattern} {desk : Desk} {now : Instant} {n : Nat}
      {job : Job} {answer : Except SchedulerError Job} {after : Alone FaultyStore} :
    Filled s → pattern.IsHonest →
    (Program.schedule job).run.runAlone? pattern.perform
      (Program.Submission.resting desk (.memory s) now n) = some (answer, after) →
    after.store.store = .memory s' → Filled s'

/-- Scheduled jobs have rows, and those of one slice differ in type or name. -/
structure Named (s : MemoryStore) : Prop where
  rows : ∀ id x, s.scheduledIn id x → s.jobs[id]? ≠ none
  apart : ∀ x id id' job job', s.scheduledIn id x → s.scheduledIn id' x → s.jobs[id]? = some job →
    s.jobs[id']? = some job' → id ≠ id' → job.DiffersFrom job'

variable {s : MemoryStore} {job : Job} {slice : Slice}

theorem named_empty : MemoryStore.empty.Named := by
  have none (id : JobId) (x : Slice) : ¬ MemoryStore.empty.scheduledIn id x := by
    rw [scheduledIn, sets, MemoryStore.empty, Std.ExtTreeMap.getD_empty]
    exact Std.ExtTreeSet.not_mem_empty
  exact ⟨fun id x there => absurd there (none id x),
    fun x id id' job job' there => absurd there (none id x)⟩

/-- A row under a new id changes nothing about scheduled jobs. -/
theorem Named.insert (named : s.Named) (lacks : s.jobs[job.id]? = none) :
    { s with jobs := s.jobs.insert job.id job }.Named := by
  have kept {id : JobId} {x : Slice} (there : s.scheduledIn id x) :
      (s.jobs.insert job.id job)[id]? = s.jobs[id]? := by
    rw [jobs_insert, if_neg]
    rintro rfl
    exact named.rows _ x there lacks
  refine ⟨fun id x there => ?_, fun x id id' a b there there' row row' => ?_⟩
  · exact (kept there).symm ▸ named.rows id x there
  · exact named.apart x id id' a b there there' ((kept there).symm.trans row)
      ((kept there').symm.trans row')

theorem differsFrom_symm {other : Job} (differs : job.DiffersFrom other) :
    other.DiffersFrom job :=
  fun same => differs ⟨same.1.symm, same.2.symm⟩

/-- A job whose name is free in its slice is entered there. -/
theorem Named.enter (named : s.Named) (row : s.jobs[job.id]? = some job)
    (free : ∀ id other, s.scheduledIn id slice → s.jobs[id]? = some other → id ≠ job.id →
      job.DiffersFrom other) :
    (s.modifySets slice fun e => { e with scheduled := e.scheduled.insert job.id }).Named := by
  have scheduled {id : JobId} {x : Slice} (there : (s.modifySets slice fun e =>
      { e with scheduled := e.scheduled.insert job.id }).scheduledIn id x) :
      s.scheduledIn id x ∨ id = job.id ∧ x = slice := by
    rw [scheduledIn, sets_modifySets] at there
    split at there
    · rename_i same
      subst same
      rcases mem_insert.mp there with new | before
      · exact .inr ⟨new.symm, rfl⟩
      · exact .inl before
    · exact .inl there
  refine ⟨fun id x there => ?_, fun x id id' a b there there' row₁ row₂ differ => ?_⟩
  · rcases scheduled there with before | ⟨rfl, rfl⟩
    · exact named.rows id x before
    · show s.jobs[job.id]? ≠ none
      rw [row]
      exact Option.some_ne_none job
  · have row₁ : s.jobs[id]? = some a := row₁
    have row₂ : s.jobs[id']? = some b := row₂
    rcases scheduled there with before | ⟨rfl, rfl⟩
    · rcases scheduled there' with before' | ⟨rfl, rfl⟩
      · exact named.apart x id id' a b before before' row₁ row₂ differ
      · obtain rfl := Option.some.inj (row.symm.trans row₂)
        exact differsFrom_symm (free id a before row₁ differ)
    · obtain rfl := Option.some.inj (row.symm.trans row₁)
      rcases scheduled there' with before' | ⟨rfl, -⟩
      · exact free id' b before' row₂ differ.symm
      · exact absurd rfl differ

/-- The names that a submission compares are those of the rows of the scheduled jobs. -/
theorem differs_of_nameFree {now : Instant} (free : (Backend.memory s).NameFree now job slice)
    {id : JobId} {other : Job} (there : s.scheduledIn id slice) (row : s.jobs[id]? = some other) :
    job.DiffersFrom other := by
  refine free (s.sets slice) rfl id (Std.ExtTreeSet.mem_toList.mpr there) other ?_
  simp only [Backend.perform_memory, perform, row]

/-- Whatever a submission comes to, the jobs of one slice differ in type or name. -/
theorem Filled.named (filled : s.Filled) : s.Named := by
  induction filled with
  | empty => exact named_empty
  | @submission s s' pattern desk now n job answer after filled honest ran ends named =>
    obtain ⟨⟨-, -, submitted⟩, free⟩ := Program.Submission.lands_schedule ran
    have missing {id : JobId} (lacks : (Backend.memory s).Lacks id) : s.jobs[id]? = none := by
      rwa [Backend.Lacks, Std.ExtTreeMap.contains_eq_isSome_getElem?,
        Option.not_isSome_iff_eq_none] at lacks
    cases submitted with
    | accepted lacks same =>
      obtain rfl := Backend.memory.inj (ends.symm.trans same)
      refine Named.enter (named.insert (missing lacks)) ((jobs_insert ..).trans (if_pos rfl)) ?_
      intro id other there row differ
      rw [jobs_insert, if_neg (Ne.symm differ)] at row
      exact differs_of_nameFree (free honest rfl) there row
    | refused e same =>
      obtain rfl := Backend.memory.inj (ends.symm.trans same)
      exact named
    | unentered e n lacks same =>
      obtain rfl := Backend.memory.inj (ends.symm.trans same)
      exact named.insert (missing lacks)

/-- After any submissions, one after the other, no two jobs that are pending in one slice have the
same type and the same name. -/
theorem Filled.names_apart (filled : s.Filled) {id id' : JobId} {a b : Job}
    (pending : id ∈ (s.sets slice).pending) (pending' : id' ∈ (s.sets slice).pending)
    (row : s.jobs[id]? = some a) (row' : s.jobs[id']? = some b) (type : a.type = b.type)
    (name : a.name = b.name) : id = id' := by
  by_contra differ
  exact filled.named.apart slice id id' a b (mem_pending.mp pending).1 (mem_pending.mp pending').1
    row row' differ ⟨type.symm, name.symm⟩

end MemoryStore

/-! ## A retry that meets a job of its name -/

/-- Two jobs of one name are submitted for two slices. The first one is run and fails, and its retry
is entered into the slice of the second. -/
def Action.meeting : List Action :=
  [.join (.standard "a") .retried 0, .answer 0 0 none, .answer 0 0 none,
    .submit 0 1 .errand, .answer 0 1 none, .answer 0 1 none, .answer 0 1 none, .answer 0 1 none,
    .submit 0 2 .soon, .answer 0 2 none, .answer 0 2 none, .answer 0 2 none, .answer 0 2 none,
    .send 0 3 .tick, .receive 0, .proceed 0 3, .answer 0 3 none, .proceed 0 3, .answer 0 3 none,
    .answer 0 3 none, .answer 0 4 none, .proceed 0 4, .answer 0 5 none, .answer 0 5 none,
    .finish 0 5 (.failure (.other "no answer")), .answer 0 5 none, .answer 0 5 none]

/-- Two jobs of the same type and name are pending in one slice after a retry, although everything is
orderly. -/
theorem Cluster.Run.names_meet : ∃ past c x a b,
    (Cluster.start .newYear2024).Run (Action.IsOrderly (.ofSeconds 60)) past c ∧ a ≠ b ∧
      (c.store.sets x).pending = [a, b] ∧
      (c.store.jobs[a]?.map fun job => (job.type, job.name)) = some ("WORK", "errand") ∧
      (c.store.jobs[b]?.map fun job => (job.type, job.name)) = some ("WORK", "errand") := by
  have played : ((Cluster.start .newYear2024).play? (Action.IsOrderly (.ofSeconds 60)) []
      Action.meeting).map (fun r =>
        ((r.2.store.sets (Slice.next ⟨.newYear2024⟩ (.ofSeconds 60))).pending,
          r.2.store.jobs[Job.errand.id]?.map fun job => (job.type, job.name),
          r.2.store.jobs[Job.soon.id]?.map fun job => (job.type, job.name))) =
      some ([Job.errand.id, Job.soon.id], some ("WORK", "errand"), some ("WORK", "errand")) := by
    decide +kernel
  obtain ⟨⟨past, c⟩, ends, facts⟩ := Option.map_eq_some_iff.mp played
  obtain ⟨pending, first, second⟩ := by simpa only [Prod.mk.injEq] using facts
  exact ⟨past, c, _, _, _, Cluster.Run.of_play _ .nil ends, by decide, pending, first, second⟩

end SliceScheduler
