import SliceScheduler.Proofs.Course
import SliceScheduler.Proofs.NextSlice
import SliceScheduler.Proofs.Scenario
import SliceScheduler.Proofs.Settle
/-!
# What one job comes to

A job is run by itself, over any store, while no call fails.

1. `Solo` is a node whose executors are known beforehand, and `Program.runSolo?` runs a program on
   it from end to end;
2. `Solo.Follows` says that a node has come as far with a job as a course says, and
   `Solo.runJob_of_course` that running a job takes its course to the end;
3. `Solo.DeadLettered`, `Solo.Retired` and `Solo.MovedOn` are what may become of a job. A job goes
   on with what `Job.GoesOn` says: its next occurrence, or a retry;
4. `Solo.runJob_outcome` is the result: exactly one of them becomes of a job that was accepted, and
   nothing else in the store changes.
-/
namespace SliceScheduler

/-- A node by itself, with what its executors have run. -/
structure Solo where
  desk : Desk
  store : MemoryStore
  now : Instant
  executed : List (Registration × Job)

/-- Runs a program that makes calls, does local work of the desk and waits for executors. -/
def Program.runSolo? {α : Type} (run : Executors) : Program α → Solo → Option (α × Solo)
  | .done a, s => some (a, s)
  | .ask (.call op) next, s =>
    let (answer, store) := s.store.perform s.now op
    (next answer).runSolo? run { s with store }
  | .ask .look next, s => (next s.desk).runSolo? run s
  | .ask (.change f) next, s => (next ()).runSolo? run { s with desk := f s.desk }
  | .ask .now next, s => (next s.now).runSolo? run s
  | .ask (.execute registration job) next, s =>
    let (outcome, now) := run registration job
    (next outcome).runSolo? run { s with now, executed := s.executed ++ [(registration, job)] }
  | .ask _ _, _ => none

open Program

/-! ## Running a job takes its course -/

section Stages

variable (run : Executors) (w : Duration) (slice : Slice) (id : JobId)

/-- What is left of a job that was loaded. -/
theorem JobStage.runSolo?_loaded (job : Job) (s : Solo) :
    (runLoaded slice id job).runSolo? run s =
      ((loaded s.desk slice job).program w slice id).runSolo? run s := by
  show (if job.slice s.desk.width ≠ slice then passOver slice id else _).runSolo? run s = _
  simp only [loaded]
  by_cases elsewhere : job.slice s.desk.width ≠ slice
  · rw [if_pos elsewhere, if_pos elsewhere]
    rfl
  · rw [if_neg elsewhere, if_neg elsewhere]
    cases s.desk.registry[job.type]? <;> rfl

/-- What is left of a job after the answer to a call that it makes. -/
theorem JobStage.runSolo?_answer (stage : JobStage) :
    ∃ next, stage.program w slice id = .ask (.call (stage.op w slice id)) next ∧
      ∀ answer (s : Solo), s.desk.width = w →
        (next answer).runSolo? run s =
          let (events, next) := stage.react w s.desk slice id answer
          (next.program w slice id).runSolo? run
            { s with desk := s.desk.announceAll events } := by
  cases stage with
  | load =>
    refine ⟨_, rfl, fun answer s same => ?_⟩
    rcases answer with e | job
    · cases e <;> rfl
    · exact runSolo?_loaded run w slice id job s
  | pass | deadLetter | delete => exact ⟨_, rfl, fun answer s _ => rfl⟩
  | activate | update | enter | finish | leave | retire =>
    refine ⟨_, rfl, fun answer s _ => ?_⟩
    rcases answer with e | _ <;> rfl

theorem runSolo?_look {α : Type} (f : Desk → Program α) (s : Solo) :
    (look >>= f).runSolo? run s = (f s.desk).runSolo? run s := rfl

theorem runSolo?_now {α : Type} (f : Instant → Program α) (s : Solo) :
    (Program.now >>= f).runSolo? run s = (f s.now).runSolo? run s := rfl

theorem JobStage.runSolo?_complete (job : Job) {s : Solo} (width : s.desk.width = w) :
    (complete slice job).runSolo? run s =
      ((completing s.now s.desk job).program w slice id).runSolo? run s := by
  subst width
  unfold complete
  rw [runSolo?_look, runSolo?_now]
  simp only [completing]
  cases job.trigger.next? s.now s.desk.width <;> rfl

/-- What is left of a job after the run of its executor. -/
theorem JobStage.runSolo?_conclude (job : Job) (policy : RetryPolicy) (o : Outcome) {s : Solo}
    (width : s.desk.width = w) :
    (conclude slice id job policy o).runSolo? run s =
      let (events, stage) := outcome s.now s.desk slice id job policy o
      (stage.program w slice id).runSolo? run { s with desk := s.desk.announceAll events } := by
  simp only [outcome, conclude]
  cases o.error? with
  | none =>
    let told : Solo := { s with desk := s.desk.announce (.jobCompleted id job.type slice) }
    exact runSolo?_complete run w slice id job (s := told) width
  | some error =>
    simp only [fail]
    cases policy.decide job error with
    | retryAfter delay =>
      subst width
      rfl
    | terminal =>
      let told : Solo := { s with
        desk := s.desk.announce (.jobFailed job.id job.type slice error.message none) }
      exact runSolo?_complete run w slice id job (s := told) width

end Stages

/-- The node has come as far with a job as a course says, and has done nothing else. -/
structure Solo.Follows (id : JobId) (s s' : Solo) (c : Course) : Prop where
  entry : s'.store.entry id = c.entry
  spares : s.store.Spares id s'.store
  desk : s'.desk = s.desk.announceAll c.events
  executed : s'.executed = s.executed ++ c.executed

namespace Solo

variable (run : Executors) (slice : Slice) {id : JobId} {s s' : Solo} {c : Course}

theorem follows_start (s : Solo) (id : JobId) : s.Follows id s (.start (s.store.entry id)) :=
  ⟨rfl, .refl .., rfl, (List.append_nil _).symm⟩

/-- The next call or execution of a job takes its course one further. -/
theorem Follows.advance (follows : s.Follows id s' c) (of : c.IsOf id) :
    ∃ s'', s.Follows id s'' (c.advance run s.desk slice id) ∧
      (c.next.program s.desk.width slice id).runSolo? run s' =
        ((c.advance run s.desk slice id).next.program s.desk.width slice id).runSolo? run s'' := by
  obtain ⟨entry, next, events, executed⟩ := c
  have settings : s'.desk.settings = s.desk.settings := by rw [follows.desk]; simp
  have registry : s'.desk.registry = s.desk.registry := by rw [follows.desk]; simp
  have width : s'.desk.width = s.desk.width := congrArg NodeSettings.width settings
  cases next with
  | call stage =>
    have about : (stage.op s.desk.width slice id).subject? = some id := JobStage.subject_op of.about
    obtain ⟨rest, asks, answers⟩ := stage.runSolo?_answer run s.desk.width slice id
    let op := stage.op s.desk.width slice id
    let reaction := stage.react s.desk.width s.desk slice id (entry.answer op)
    let s'' : Solo := { s' with
      store := (s'.store.perform s'.now op).2
      desk := s'.desk.announceAll reaction.1 }
    refine ⟨s'', ⟨?_, ?_, ?_, follows.executed⟩, ?_⟩
    · exact (MemoryStore.entry_perform about).trans (congrArg (JobEntry.after · op) follows.entry)
    · exact follows.spares.trans (MemoryStore.spares_perform about)
    · exact (congrArg (Desk.announceAll · reaction.1) follows.desk).trans
        (Desk.announceAll_append ..).symm
    · show (stage.program s.desk.width slice id).runSolo? run s' = _
      rw [asks]
      have answer : (s'.store.perform s'.now op).1 = entry.answer op :=
        (MemoryStore.answer_perform about).trans (congrArg (JobEntry.answer · op) follows.entry)
      have goes := answers (s'.store.perform s'.now op).1
        { s' with store := (s'.store.perform s'.now op).2 } width
      rw [JobStage.react_congr settings registry] at goes
      refine Eq.trans goes ?_
      rw [answer]
      rfl
  | execute job registration =>
    let ended := JobStage.outcome (run registration job).2 s.desk slice id job
      registration.policy (run registration job).1
    let s'' : Solo := { s' with
      desk := s'.desk.announceAll ended.1
      now := (run registration job).2
      executed := s'.executed ++ [(registration, job)] }
    refine ⟨s'', ⟨follows.entry, follows.spares, ?_, ?_⟩, ?_⟩
    · exact (congrArg (Desk.announceAll · ended.1) follows.desk).trans
        (Desk.announceAll_append ..).symm
    · exact (congrArg (· ++ [(registration, job)]) follows.executed).trans
        (List.append_assoc ..)
    · let after : Solo := { s' with
        now := (run registration job).2
        executed := s'.executed ++ [(registration, job)] }
      have concludes := JobStage.runSolo?_conclude run s.desk.width slice id job
        registration.policy (run registration job).1 (s := after) width
      rw [JobStage.outcome_congr settings] at concludes
      exact concludes
  | spent => exact ⟨s', follows, rfl⟩

/-- Running a job takes its course as far as it goes. -/
theorem Follows.iterate (n : Nat) (s : Solo)
    (keyed : ∀ job, s.store.jobs[id]? = some job → job.id = id) :
    ∃ s', s.Follows id s'
        ((Course.advance run s.desk slice id)^[n] (.start (s.store.entry id))) ∧
      (runJob slice id).runSolo? run s =
        (((Course.advance run s.desk slice id)^[n] (.start (s.store.entry id))).next.program
          s.desk.width slice id).runSolo? run s' := by
  induction n with
  | zero => exact ⟨s, s.follows_start id, rfl⟩
  | succ n ih =>
    obtain ⟨s', follows, ran⟩ := ih
    obtain ⟨s'', follows', ran'⟩ :=
      follows.advance run slice ((Course.isOf_start keyed).iterate n)
    rw [Function.iterate_succ_apply']
    exact ⟨s'', follows', ran.trans ran'⟩

/-- A job whose course comes to an end comes to that end when it is run. -/
theorem runJob_of_course {n : Nat} {s : Solo} {c : Course}
    (keyed : ∀ job, s.store.jobs[id]? = some job → job.id = id)
    (course : (Course.advance run s.desk slice id)^[n] (.start (s.store.entry id)) = c)
    (spent : c.next = .spent) :
    ∃ s', (runJob slice id).runSolo? run s = some ((), s') ∧ s.Follows id s' c := by
  obtain ⟨s', follows, ran⟩ := Follows.iterate run slice n s keyed
  rw [course] at follows ran
  rw [spent] at ran
  exact ⟨s', ran, follows⟩

end Solo

/-! ## The outcome of one job -/

/-- The outcome leads to no retry: it is a success, or a failure that is terminal. -/
def Outcome.IsFinal (o : Outcome) (policy : RetryPolicy) (job : Job) : Prop :=
  ∀ error, o.error? = some error → policy.decide job error = .terminal

/-- What a job goes on with: its next occurrence and no retries, or once more after a delay with one
more retry. -/
inductive Job.GoesOn (job : Job) (policy : RetryPolicy) (w : Duration) (now : Instant)
    (o : Outcome) : Trigger → Count → Prop
  | occurrence {trigger : Trigger} : o.IsFinal policy job → job.trigger.next? now w = some trigger →
    GoesOn job policy w now o trigger .zero
  | retry {error : JobError} {delay : Duration} {time : Instant} : o.error? = some error →
    policy.decide job error = .retryAfter delay → retryTrigger now delay w = .single time →
    GoesOn job policy w now o (.single time) job.retries.succ

/-- Exactly one of three statements holds. -/
def ExactlyOne (a b c : Prop) : Prop := (a ∧ ¬b ∧ ¬c) ∨ (¬a ∧ b ∧ ¬c) ∨ (¬a ∧ ¬b ∧ c)

namespace Job

variable {job : Job} {policy : RetryPolicy} {w : Duration} {now : Instant} {o : Outcome}
variable {trigger : Trigger} {retries : Count}

theorem onward?_eq_none : job.onward? policy w now o = none ↔
    o.IsFinal policy job ∧ job.trigger.next? now w = none := by
  unfold onward? Outcome.IsFinal
  cases o.error? with
  | none => simp
  | some error => cases decided : policy.decide job error <;> simp [decided]

theorem goesOn_of_onward? (goes : job.onward? policy w now o = some (trigger, retries)) :
    job.GoesOn policy w now o trigger retries := by
  unfold onward? at goes
  cases raised : o.error? with
  | none =>
    simp only [raised, Option.map_none, Option.map_eq_some_iff, Prod.mk.injEq] at goes
    obtain ⟨next, found, rfl, rfl⟩ := goes
    exact .occurrence (fun error raised' => nomatch raised.symm.trans raised') found
  | some error =>
    cases decided : policy.decide job error with
    | retryAfter delay =>
      simp only [raised, Option.map_some, decided, Option.some.injEq, Prod.mk.injEq] at goes
      obtain ⟨rfl, rfl⟩ := goes
      obtain ⟨time, single⟩ := retryTrigger_single now delay w
      rw [single]
      exact .retry raised decided single
    | terminal =>
      simp only [raised, Option.map_some, decided, Option.map_eq_some_iff, Prod.mk.injEq] at goes
      obtain ⟨next, found, rfl, rfl⟩ := goes
      refine .occurrence (fun other raised' => ?_) found
      rw [← Option.some.inj (raised.symm.trans raised')]
      exact decided

/-- A job with a regular trigger goes on in a later slice than the current one. -/
theorem GoesOn.lt_slice (goes : job.GoesOn policy w now o trigger retries)
    (regular : job.trigger.Regular w) (next : (Slice.containing now w).HasNext w) :
    Slice.containing now w < trigger.slice w := by
  cases goes with
  | occurrence _ found => exact regular.lt_slice_next found
  | retry _ _ single => exact single ▸ lt_slice_retryTrigger next _

/-- A job with a regular trigger goes on with one. -/
theorem GoesOn.regular (goes : job.GoesOn policy w now o trigger retries)
    (regular : job.trigger.Regular w) : trigger.Regular w := by
  cases goes with
  | occurrence _ found => exact regular.of_next found
  | retry _ _ single => trivial

/-- A job that is accepted has a trigger that is. -/
theorem check_trigger (accepted : job.check w = .ok ()) : job.trigger.check w = .ok () := by
  unfold check at accepted
  split at accepted
  · cases accepted
  · split at accepted
    · cases accepted
    · split at accepted
      · cases accepted
      · cases checked : job.trigger.check w with
        | ok _ => rfl
        | error e =>
          rw [checked] at accepted
          cases accepted

end Job

namespace Solo

/-- No executor is registered for the job: it was not run, its row stays, and that is announced. -/
structure DeadLettered (slice : Slice) (job : Job) (s s' : Solo) : Prop where
  unregistered : s.desk.registry[job.type]? = none
  executed : s'.executed = s.executed
  row : s'.store.jobs[job.id]? = some job
  announced : s'.desk.log = s.desk.log.push (.jobDeadLettered job.id job.type slice)
  idle : ∀ other, ¬(s'.store.entry job.id).pending other

/-- The job was run once, and its row is deleted. -/
structure Retired (job : Job) (s s' : Solo) : Prop where
  executed : ∃ registration, s.desk.registry[job.type]? = some registration ∧
    s'.executed = s.executed ++ [(registration, job)]
  row : s'.store.jobs[job.id]? = none
  idle : ∀ other, ¬(s'.store.entry job.id).pending other

/-- The job was run once, and is pending in the slice of its new trigger and in no other, which is a
later slice than its own and the current one. -/
structure MovedOn (run : Executors) (slice : Slice) (job : Job) (s s' : Solo)
    (registration : Registration) (trigger : Trigger) (retries : Count) : Prop where
  registered : s.desk.registry[job.type]? = some registration
  executed : s'.executed = s.executed ++ [(registration, job)]
  goes : job.GoesOn registration.policy s.desk.width (run registration job).2
    (run registration job).1 trigger retries
  row : s'.store.jobs[job.id]? = some (job.rescheduled trigger retries)
  pending : ∀ other,
    (s'.store.entry job.id).pending other ↔ other = trigger.slice s.desk.width
  later : slice < trigger.slice s.desk.width
  future : Slice.containing (run registration job).2 s.desk.width < trigger.slice s.desk.width

variable {run : Executors} {slice : Slice} {job : Job} {s : Solo}

theorem keyed_of_stored (stored : s.store.jobs[job.id]? = some job) :
    ∀ other, s.store.jobs[job.id]? = some other → other.id = job.id :=
  fun _ found => congrArg Job.id (Option.some.inj (found.symm.trans stored))

theorem finished_here {e : JobEntry} {finished : Slice → Prop}
    (same : e.finished = Function.update finished slice True) : e.finished slice := by
  rw [same, Function.update_self]
  exact trivial

/-- A job is not pending where it is finished, nor where no index names it. -/
theorem not_pending {e e' : JobEntry} (alone : ∀ other, other ≠ slice → ¬e.indexed other)
    (scheduled : e'.scheduled = e.scheduled)
    (finished : e'.finished = Function.update e.finished slice True) (other : Slice) :
    ¬e'.pending other := by
  rintro ⟨mem, unfinished⟩
  by_cases same : other = slice
  · exact unfinished (same ▸ finished_here finished)
  · rw [scheduled] at mem
    exact alone other same (.inl mem)

section Ends

variable (stored : s.store.jobs[job.id]? = some job) (due : job.slice s.desk.width = slice)
  (alone : ∀ other, other ≠ slice → ¬(s.store.entry job.id).indexed other)
include stored due alone

variable (run) in
theorem runJob_unregistered (unregistered : s.desk.registry[job.type]? = none) :
    ∃ s', (runJob slice job.id).runSolo? run s = some ((), s') ∧
      s.store.Spares job.id s'.store ∧ (s'.store.entry job.id).finished slice ∧
      s.DeadLettered slice job s' := by
  obtain ⟨s', ran, follows⟩ := runJob_of_course run slice (keyed_of_stored stored)
    (Course.ends_unregistered (e := s.store.entry job.id) stored due unregistered) rfl
  have entry : s'.store.entry job.id = { s.store.entry job.id with
      finished := Function.update (s.store.entry job.id).finished slice True } := follows.entry
  refine ⟨s', ran, follows.spares, ?_, unregistered, ?_, ?_, ?_, ?_⟩
  · exact finished_here (congrArg JobEntry.finished entry)
  · exact follows.executed.trans (List.append_nil _)
  · exact (congrArg JobEntry.row entry).trans stored
  · rw [follows.desk]
    rfl
  · rw [entry]
    exact not_pending alone rfl rfl

theorem runJob_retired {registration : Registration}
    (registered : s.desk.registry[job.type]? = some registration)
    (ceases : job.onward? registration.policy s.desk.width (run registration job).2
      (run registration job).1 = none) :
    ∃ s', (runJob slice job.id).runSolo? run s = some ((), s') ∧
      s.store.Spares job.id s'.store ∧ (s'.store.entry job.id).finished slice ∧
      s.Retired job s' := by
  obtain ⟨s', ran, follows⟩ := runJob_of_course run slice (keyed_of_stored stored)
    (Course.ends_retired (e := s.store.entry job.id) stored due registered ceases) rfl
  have entry : s'.store.entry job.id = { s.store.entry job.id with
      row := none
      active := Function.update (s.store.entry job.id).active slice True
      finished := Function.update (s.store.entry job.id).finished slice True } := follows.entry
  refine ⟨s', ran, follows.spares, ?_, ⟨registration, registered, follows.executed⟩, ?_, ?_⟩
  · exact finished_here (congrArg JobEntry.finished entry)
  · exact congrArg JobEntry.row entry
  · rw [entry]
    exact not_pending alone rfl rfl

theorem runJob_moved {registration : Registration} {trigger : Trigger} {retries : Count}
    (registered : s.desk.registry[job.type]? = some registration)
    (onward : job.onward? registration.policy s.desk.width (run registration job).2
      (run registration job).1 = some (trigger, retries))
    (accepted : job.check s.desk.width = .ok ()) (inMillis : job.trigger.InMillis)
    (begun : slice.start ≤ (run registration job).2)
    (next : (Slice.containing (run registration job).2 s.desk.width).HasNext s.desk.width) :
    ∃ s', (runJob slice job.id).runSolo? run s = some ((), s') ∧
      s.store.Spares job.id s'.store ∧ (s'.store.entry job.id).finished slice ∧
      s.MovedOn run slice job s' registration trigger retries := by
  obtain ⟨s', ran, follows⟩ := runJob_of_course run slice (keyed_of_stored stored)
    (Course.ends_moved (e := s.store.entry job.id) stored due registered onward) rfl
  have entry : s'.store.entry job.id =
      { row := some (job.rescheduled trigger retries)
        scheduled := Function.update (Function.update (s.store.entry job.id).scheduled
          (trigger.slice s.desk.width) True) slice False
        active := Function.update (s.store.entry job.id).active slice True
        finished := Function.update (s.store.entry job.id).finished slice True } := follows.entry
  have goes := Job.goesOn_of_onward? onward
  have regular := Trigger.regular_of_check (Job.check_trigger accepted) inMillis
  have future := goes.lt_slice regular next
  -- the slice of the job has begun, and the new one is past the current slice
  have later : slice < trigger.slice s.desk.width := by
    refine lt_of_le_of_lt ?_ future
    rw [← due] at begun ⊢
    exact Slice.containing_le_of_start_le begun
  refine ⟨s', ran, follows.spares, ?_, registered, follows.executed, goes, ?_, ?_, later, future⟩
  · exact finished_here (congrArg JobEntry.finished entry)
  · exact congrArg JobEntry.row entry
  · intro other
    rw [entry]
    simp only [JobEntry.pending, Function.update_apply]
    by_cases here : other = slice
    · subst here
      simp [later.ne]
    · by_cases there : other = trigger.slice s.desk.width
      · subst there
        have unfinished : ¬(s.store.entry job.id).finished (trigger.slice s.desk.width) :=
          fun mem => alone _ here (.inr (.inr mem))
        simp [here, unfinished]
      · have unscheduled : ¬(s.store.entry job.id).scheduled other :=
          fun mem => alone other here (.inl mem)
        simp [here, there, unscheduled]

end Ends

/-- The outcome of one job. An accepted job that is stored, pending in its slice and in no other
index is run over any store, with any executors, while no call fails and the clock, when the
executor has come to an end, is not before the slice of the job. -/
theorem runJob_outcome (stored : s.store.jobs[job.id]? = some job)
    (accepted : job.check s.desk.width = .ok ()) (inMillis : job.trigger.InMillis)
    (due : job.slice s.desk.width = slice)
    (alone : ∀ other, other ≠ slice → ¬(s.store.entry job.id).indexed other)
    (clock : ∀ registration, s.desk.registry[job.type]? = some registration →
      slice.start ≤ (run registration job).2 ∧
        (Slice.containing (run registration job).2 s.desk.width).HasNext s.desk.width) :
    ∃ s', (runJob slice job.id).runSolo? run s = some ((), s') ∧
      (s'.store.entry job.id).finished slice ∧ ¬(s'.store.entry job.id).pending slice ∧
      ExactlyOne (s.DeadLettered slice job s') (s.Retired job s')
        (∃ registration trigger retries,
          s.MovedOn run slice job s' registration trigger retries) ∧
      (s'.store.jobs[job.id]? = none ↔ ∃ registration,
        s.desk.registry[job.type]? = some registration ∧
          (run registration job).1.IsFinal registration.policy job ∧
          job.trigger.next? (run registration job).2 s.desk.width = none) ∧
      s.store.Spares job.id s'.store := by
  cases registered : s.desk.registry[job.type]? with
  | none =>
    obtain ⟨s', ran, spares, finished, ends⟩ :=
      runJob_unregistered run stored due alone registered
    refine ⟨s', ran, finished, ends.idle slice, .inl ⟨ends, ?_, ?_⟩, ?_, spares⟩
    · rintro ⟨⟨registration, found, -⟩, -, -⟩
      exact nomatch registered.symm.trans found
    · rintro ⟨registration, trigger, retries, moved⟩
      exact nomatch registered.symm.trans moved.registered
    · rw [ends.row]
      simp
  | some registration =>
    obtain ⟨begun, next⟩ := clock registration registered
    cases onward : job.onward? registration.policy s.desk.width (run registration job).2
      (run registration job).1 with
    | none =>
      obtain ⟨s', ran, spares, finished, ends⟩ :=
        runJob_retired stored due alone registered onward
      refine ⟨s', ran, finished, ends.idle slice, .inr (.inl ⟨?_, ends, ?_⟩), ?_, spares⟩
      · exact fun dead => nomatch registered.symm.trans dead.unregistered
      · rintro ⟨registration, trigger, retries, moved⟩
        exact nomatch ends.row.symm.trans moved.row
      · obtain ⟨final, ceases⟩ := Job.onward?_eq_none.mp onward
        exact iff_of_true ends.row ⟨registration, rfl, final, ceases⟩
    | some goes =>
      obtain ⟨trigger, retries⟩ := goes
      obtain ⟨s', ran, spares, finished, ends⟩ :=
        runJob_moved stored due alone registered onward accepted inMillis begun next
      refine ⟨s', ran, finished, fun unfinished => unfinished.2 finished,
        .inr (.inr ⟨?_, ?_, registration, trigger, retries, ends⟩), ?_, spares⟩
      · exact fun dead => nomatch registered.symm.trans dead.unregistered
      · exact fun retired => nomatch retired.row.symm.trans ends.row
      · refine iff_of_false (fun gone => nomatch gone.symm.trans ends.row) ?_
        rintro ⟨other, found, final, ceases⟩
        obtain rfl := Option.some.inj found
        exact nomatch (Job.onward?_eq_none.mpr ⟨final, ceases⟩).symm.trans onward

/-! ## A job that comes round -/

/-- A job that is due at the first instant of 2024 and every hour after it. -/
def hourly : Job :=
  { Job.errand with trigger := .repeating .newYear2024 (.ofSeconds 3600) none .zero }

/-- A node over a store with the job alone, at the first instant of 2024. -/
def newYear : Solo where
  desk := .ofSettings (.standard "a") .errands
  store :=
    ((MemoryStore.empty.perform .newYear2024 (.insertJob hourly)).2.perform .newYear2024
      (.addScheduled ⟨.newYear2024⟩ hourly.id)).2
  now := .newYear2024
  executed := []

theorem runJob_outcome_hourly : ∃ s', (runJob ⟨.newYear2024⟩ hourly.id).runSolo?
      (fun _ _ => (.success, .newYear2024)) newYear = some ((), s') ∧
    ∃ registration trigger retries, newYear.MovedOn (fun _ _ => (.success, .newYear2024))
      ⟨.newYear2024⟩ hourly s' registration trigger retries := by
  have entry : newYear.store.entry hourly.id =
      ((MemoryStore.empty.entry hourly.id).after (.insertJob hourly)).after
        (.addScheduled ⟨.newYear2024⟩ hourly.id) :=
    (MemoryStore.entry_perform rfl).trans (congrArg (JobEntry.after · _)
      (MemoryStore.entry_perform rfl))
  have alone : ∀ other : Slice, other ≠ ⟨.newYear2024⟩ →
      ¬(newYear.store.entry hourly.id).indexed other := by
    intro other ne
    rw [entry]
    simp [JobEntry.after, JobEntry.indexed, Function.update_of_ne ne, MemoryStore.entry,
      MemoryStore.scheduledIn, MemoryStore.activeIn, MemoryStore.finishedIn, MemoryStore.sets,
      MemoryStore.empty, SliceSets.none]
  obtain ⟨s', ran, -, -, one, row, -⟩ := @runJob_outcome (fun _ _ => (.success, .newYear2024))
    ⟨.newYear2024⟩ hourly newYear rfl rfl (by decide) rfl alone fun _ _ => ⟨by decide, by decide⟩
  have comes : (hourly.trigger.next? .newYear2024 newYear.desk.width).isSome := rfl
  refine ⟨s', ran, ?_⟩
  rcases one with ⟨dead, -⟩ | ⟨-, retired, -⟩ | ⟨-, -, moved⟩
  · cases dead.unregistered
  · obtain ⟨registration, -, -, ceases⟩ := row.mp retired.row
    rw [ceases] at comes
    cases comes
  · exact moved

end Solo

end SliceScheduler
