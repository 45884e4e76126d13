import Mathlib.Logic.Function.Iterate
import SliceScheduler.Proofs.JobEntry
/-!
# The course of a job

A job that was set off makes one call after the other and waits for its executor in between. While
no call fails, what it does depends on its own entry in the store and on its executor alone.

1. `Course` is how far a job has come, and `Course.advance` takes it one call or one execution
   further;
2. `Course.IsOf` says that a course is that of the job of an id, and `Course.IsOf.advance` that it
   stays so;
3. `Course.end_unique` says that a course comes to one end only, however often it is looked at;
4. `Job.onward?` is what a job goes on with after the run of its executor, and
   `Course.ends_unregistered`, `Course.ends_retired` and `Course.ends_moved` are the ends of the
   course of a job that is stored and due.
-/
namespace SliceScheduler

/-- What executors make of jobs, and what the clock shows when they have come to an end. -/
abbrev Executors := Registration → Job → Outcome × Instant

/-- How far a job has come. -/
structure Course where
  /-- What the store has of the job. -/
  entry : JobEntry
  next : JobNext
  /-- What was announced. -/
  events : List Event
  /-- What executors have run. -/
  executed : List (Registration × Job)

/-- The stage after a call is about the job of an id. -/
def JobNext.IsAbout (id : JobId) : JobNext → Prop
  | call s => s.IsAbout id
  | execute job _ => job.id = id
  | spent => True

/-! ## What a job asks of a desk -/

@[simp] theorem Desk.registry_announceAll (desk : Desk) (events : List Event) :
    (desk.announceAll events).registry = desk.registry := by
  induction events generalizing desk with
  | nil => rfl
  | cons e events ih => exact ih (desk.announce e)

theorem Desk.announceAll_append (desk : Desk) (first second : List Event) :
    desk.announceAll (first ++ second) = (desk.announceAll first).announceAll second :=
  List.foldl_append

namespace JobStage

variable {desk desk' : Desk} (settings : desk'.settings = desk.settings)
include settings

theorem react_congr (registry : desk'.registry = desk.registry) {w : Duration} {slice : Slice}
    {id : JobId} (s : JobStage) (answer : (s.op w slice id).Result) :
    s.react w desk' slice id answer = s.react w desk slice id answer := by
  cases s with
  | load =>
    rcases answer with e | job
    · cases e <;> rfl
    · simp only [react]
      unfold loaded Desk.width
      rw [settings, registry]
  | pass | deadLetter | delete => rfl
  | activate | update | enter | finish | leave | retire => rcases answer with e | _ <;> rfl

theorem outcome_congr (now : Instant) (slice : Slice) (id : JobId) (job : Job)
    (policy : RetryPolicy) (o : Outcome) :
    outcome now desk' slice id job policy o = outcome now desk slice id job policy o := by
  unfold outcome completing Desk.width
  rw [settings]

end JobStage

/-! ## After the run of an executor -/

/-- The trigger and the retries that a job goes on with after the run of its executor, if it goes
on. -/
def Job.onward? (job : Job) (policy : RetryPolicy) (w : Duration) (now : Instant)
    (outcome : Outcome) : Option (Trigger × Count) :=
  match outcome.error?.map (policy.decide job) with
  | some (.retryAfter delay) => some (Program.retryTrigger now delay w, job.retries.succ)
  | some .terminal | none => (job.trigger.next? now w).map (·, Count.zero)

/-- The call after the run of an executor moves the job on or ends it. -/
theorem JobStage.outcome_eq (now : Instant) (desk : Desk) (slice : Slice) (id : JobId) (job : Job)
    (policy : RetryPolicy) (o : Outcome) :
    (outcome now desk slice id job policy o).2 =
      match job.onward? policy desk.width now o with
      | some (trigger, retries) => update (job.rescheduled trigger retries)
      | none => retire job.id := by
  have completes : completing now desk job =
      match (job.trigger.next? now desk.width).map (·, Count.zero) with
      | some (trigger, retries) => update (job.rescheduled trigger retries)
      | none => retire job.id := by
    unfold completing
    cases job.trigger.next? now desk.width <;> rfl
  unfold outcome Job.onward?
  cases o.error? with
  | none => exact completes
  | some error =>
    simp only [Option.map_some]
    cases policy.decide job error with
    | retryAfter delay => rfl
    | terminal => exact completes

namespace Course

variable (run : Executors) (desk : Desk) (slice : Slice) (id : JobId)

/-- A job that was set off. -/
def start (e : JobEntry) : Course := ⟨e, .call .load, [], []⟩

/-- The course of a job after its next call, or after the run of its executor. -/
def advance (c : Course) : Course :=
  match c.next with
  | .call s =>
    let op := s.op desk.width slice id
    let (events, next) := s.react desk.width desk slice id (c.entry.answer op)
    { c with entry := c.entry.after op, next, events := c.events ++ events }
  | .execute job registration =>
    let (outcome, now) := run registration job
    let (events, s) := JobStage.outcome now desk slice id job registration.policy outcome
    { c with
      next := .call s
      events := c.events ++ events
      executed := c.executed ++ [(registration, job)] }
  | .spent => c

/-- The course is that of the job of an id. -/
structure IsOf (c : Course) : Prop where
  keyed : ∀ job, c.entry.row = some job → job.id = id
  about : c.next.IsAbout id

variable {run desk slice id} {c : Course} {e : JobEntry}

theorem isOf_start (keyed : ∀ job, e.row = some job → job.id = id) : (start e).IsOf id :=
  ⟨keyed, trivial⟩

/-! ## Each step is about the job -/

theorem keyed_after {op : Operation} (keyed : ∀ job, e.row = some job → job.id = id)
    (about : op.subject? = some id) : ∀ job, (e.after op).row = some job → job.id = id := by
  intro job row
  cases op with
  | insertJob other =>
    cases before : e.row with
    | none =>
      simp only [JobEntry.after, before, Option.getD_none, Option.some.injEq] at row
      exact row ▸ Option.some.inj about
    | some there =>
      simp only [JobEntry.after, before, Option.getD_some, Option.some.injEq] at row
      exact row ▸ keyed there before
  | updateJob other =>
    obtain ⟨_, -, rfl⟩ := Option.map_eq_some_iff.mp row
    exact Option.some.inj about
  | deleteJob => cases row
  | _ => exact keyed job row

theorem about_react {w : Duration} {s : JobStage}
    (keyed : ∀ job, e.row = some job → job.id = id) (about : s.IsAbout id) :
    (s.react w desk slice id (e.answer (s.op w slice id))).2.IsAbout id := by
  cases s with
  | load =>
    simp only [JobStage.op, JobEntry.answer]
    cases row : e.row with
    | none => exact trivial
    | some job =>
      simp only [JobStage.react, JobStage.loaded]
      split
      · exact trivial
      · split
        · exact trivial
        · exact keyed job row
  | pass | deadLetter | delete => exact trivial
  | update job =>
    simp only [JobStage.op, JobEntry.answer]
    cases e.row with
    | none => exact trivial
    | some row => exact about
  | leave job => exact trivial
  | activate | enter | finish | retire => exact about

theorem IsOf.advance (of : c.IsOf id) : (c.advance run desk slice id).IsOf id := by
  obtain ⟨entry, next, events, executed⟩ := c
  cases next with
  | call s =>
    exact ⟨keyed_after of.keyed (JobStage.subject_op of.about), about_react of.keyed of.about⟩
  | execute job registration =>
    refine ⟨of.keyed, ?_⟩
    show JobStage.IsAbout id (JobStage.outcome ..).2
    rw [JobStage.outcome_eq]
    split <;> exact of.about
  | spent => exact of

theorem IsOf.iterate (of : c.IsOf id) (n : Nat) :
    ((Course.advance run desk slice id)^[n] c).IsOf id := by
  induction n with
  | zero => exact of
  | succ n ih =>
    rw [Function.iterate_succ_apply']
    exact ih.advance

/-! ## The end of a course -/

theorem advance_of_spent (spent : c.next = .spent) : c.advance run desk slice id = c := by
  rw [advance, spent]

/-- A course that is over stays as it is, so that it comes to one end only. -/
theorem end_unique {m n : Nat} (spent : ((advance run desk slice id)^[m] c).next = .spent)
    (spent' : ((advance run desk slice id)^[n] c).next = .spent) :
    (advance run desk slice id)^[m] c = (advance run desk slice id)^[n] c := by
  have later {k : Nat} {c : Course} (spent : c.next = .spent) :
      (advance run desk slice id)^[k] c = c :=
    Function.iterate_fixed (advance_of_spent spent) k
  rcases Nat.le_total m n with le | le
  · rw [← Nat.sub_add_cancel le, Function.iterate_add_apply, later spent]
  · rw [← Nat.sub_add_cancel le, Function.iterate_add_apply, later spent']

section Ends

variable {job : Job} (row : e.row = some job) (here : job.slice desk.width = slice)
include row here

/-- The first two calls of a job that no executor is registered for are all of its course. -/
theorem ends_unregistered (unregistered : desk.registry[job.type]? = none) :
    (advance run desk slice job.id)^[2] (start e) =
      { start e with
        entry := { e with finished := Function.update e.finished slice True }
        next := .spent
        events := [.jobDeadLettered job.id job.type slice] } := by
  have loads : JobStage.loaded desk slice job = .deadLetter job.type := by
    rw [JobStage.loaded, if_neg (not_not.mpr here), unregistered]
  simp only [Function.iterate_succ_apply, Function.iterate_zero_apply, start, advance,
    JobStage.op, JobEntry.answer, JobEntry.after, row, JobStage.react, loads, List.nil_append]

/-- A job that an executor is registered for is run. -/
theorem executes {registration : Registration}
    (registered : desk.registry[job.type]? = some registration) :
    (advance run desk slice job.id)^[3] (start e) =
      let after := JobStage.outcome (run registration job).2 desk slice job.id job
        registration.policy (run registration job).1
      { entry := { e with active := Function.update e.active slice True }
        next := .call after.2
        events := .jobStarted job.id job.type slice :: after.1
        executed := [(registration, job)] } := by
  have loads : JobStage.loaded desk slice job = .activate job registration := by
    rw [JobStage.loaded, if_neg (not_not.mpr here), registered]
  simp only [Function.iterate_succ_apply, Function.iterate_zero_apply, start, advance,
    JobStage.op, JobEntry.answer, JobEntry.after, row, JobStage.react, loads, List.nil_append,
    List.singleton_append]

/-- A job that does not go on is marked finished and deleted. -/
theorem ends_retired {registration : Registration}
    (registered : desk.registry[job.type]? = some registration)
    (ceases : job.onward? registration.policy desk.width (run registration job).2
      (run registration job).1 = none) :
    (advance run desk slice job.id)^[5] (start e) =
      { entry :=
          { e with
            row := none
            active := Function.update e.active slice True
            finished := Function.update e.finished slice True }
        next := .spent
        events := .jobStarted job.id job.type slice ::
          (JobStage.outcome (run registration job).2 desk slice job.id job
            registration.policy (run registration job).1).1
        executed := [(registration, job)] } := by
  have stage := JobStage.outcome_eq (run registration job).2 desk slice job.id job
    registration.policy (run registration job).1
  rw [ceases] at stage
  refine (Function.iterate_add_apply _ 2 3 _).trans ?_
  rw [executes row here registered]
  simp only [Function.iterate_succ_apply, Function.iterate_zero_apply, advance, stage, JobStage.op,
    JobEntry.answer, JobEntry.after, JobStage.react, List.append_nil]

/-- A job that goes on is stored with its new trigger and moved to the slice of it. -/
theorem ends_moved {registration : Registration} {trigger : Trigger} {retries : Count}
    (registered : desk.registry[job.type]? = some registration)
    (goes : job.onward? registration.policy desk.width (run registration job).2
      (run registration job).1 = some (trigger, retries)) :
    (advance run desk slice job.id)^[7] (start e) =
      { entry :=
          { row := some (job.rescheduled trigger retries)
            scheduled :=
              Function.update (Function.update e.scheduled (trigger.slice desk.width) True)
                slice False
            active := Function.update e.active slice True
            finished := Function.update e.finished slice True }
        next := .spent
        events := .jobStarted job.id job.type slice ::
          (JobStage.outcome (run registration job).2 desk slice job.id job
            registration.policy (run registration job).1).1 ++
          [.jobRescheduled job.id slice (trigger.slice desk.width) retries]
        executed := [(registration, job)] } := by
  have stage := JobStage.outcome_eq (run registration job).2 desk slice job.id job
    registration.policy (run registration job).1
  rw [goes] at stage
  refine (Function.iterate_add_apply _ 4 3 _).trans ?_
  rw [executes row here registered]
  simp only [Function.iterate_succ_apply, Function.iterate_zero_apply, advance, stage, JobStage.op,
    JobEntry.answer, JobEntry.after, row, JobStage.react, Option.map_some, List.append_nil]
  rfl

end Ends

end Course

end SliceScheduler
