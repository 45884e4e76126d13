import SliceScheduler.Proofs.JobStory
/-!
# What the events of a job say

Nobody answers for a job that was submitted: its events are the only account of what came of it.
They are true of a job that is run on a node by itself, whatever the store answers.

1. `JobEvents` are the events that a job may have, in their order;
2. `Watched.Truthful` says that the events are those of what the node did: an executor runs the job
   that was loaded just if that could be marked active; the job is told to have started just if an
   executor ran it, to have completed or failed as its executor ended, to be retried just if its
   policy asks for that, and to have been moved on just if each of the four writes was made and
   succeeded;
3. `Watched.Concludes.rescheduled_iff` says the last of these for the part of the run that makes the
   writes, where they stop at the first that fails;
4. `Watched.JobStory.truthful` is the result.
-/
namespace SliceScheduler

open Program

/-! ## What the events say -/

/-- The event at the end of an execution of a job of a type for a slice. -/
def Event.Ends (type : String) (slice : Slice) : Event → Prop
  | .jobCompleted _ told source | .jobFailed _ told source _ _ => told = type ∧ source = slice
  | _ => False

/-- The job that an event is about. -/
def Event.job? : Event → Option JobId
  | .jobStarted id _ _ | .jobCompleted id _ _ | .jobFailed id _ _ _ _ | .jobRescheduled id _ _ _
  | .jobDeadLettered id _ _ => some id
  | .tickDeferred _ | .sliceFinished _ => none

/-- The event about a job that was moved on from a slice. -/
def Event.Moves (slice : Slice) : Event → Prop
  | .jobRescheduled _ source _ _ => source = slice
  | _ => False

/-- The events of a job of a slice, in their order. -/
inductive JobEvents (slice : Slice) (id : JobId) : List Event → Prop
  | silent : JobEvents slice id []
  | deadLettered (type : String) : JobEvents slice id [.jobDeadLettered id type slice]
  | ended {type : String} {e : Event} : e.Ends type slice →
    JobEvents slice id [.jobStarted id type slice, e]
  | moved {type : String} {e e' : Event} : e.Ends type slice → e'.Moves slice →
    JobEvents slice id [.jobStarted id type slice, e, e']

/-- The time of the retry that was decided on at an instant. -/
def RetryDecision.retryAt? (w : Duration) (now : Instant) : RetryDecision → Option Instant
  | .retryAfter delay => some (retryTrigger now delay w).time
  | .terminal => none

theorem RetryDecision.retryAt?_eq_some {decision : RetryDecision} {w : Duration}
    {now t : Instant} : decision.retryAt? w now = some t ↔
      ∃ delay, decision = .retryAfter delay ∧ t = (retryTrigger now delay w).time := by
  cases decision <;> simp [retryAt?, eq_comm]

namespace Job

variable {job : Job} {policy : RetryPolicy} {w : Duration} {now t : Instant} {o : Outcome}

/-- A job that is retried goes on with the trigger of the retry. -/
theorem onward?_of_retryAt? {error : JobError} (raised : o.error? = some error)
    (retry : (policy.decide job error).retryAt? w now = some t) :
    ∃ trigger retries, job.onward? policy w now o = some (trigger, retries) ∧
      trigger.time = t := by
  obtain ⟨delay, decided, rfl⟩ := RetryDecision.retryAt?_eq_some.mp retry
  exact ⟨_, _, by rw [onward?, raised, Option.map_some, decided], rfl⟩

theorem ends_ending (job : Job) (policy : RetryPolicy) (w : Duration) (now : Instant)
    (o : Outcome) (slice : Slice) (id : JobId) :
    (job.ending policy w now o slice id).Ends job.type slice := by
  unfold ending
  cases o.error? <;> exact ⟨rfl, rfl⟩

theorem job?_ending {slice : Slice} {id : JobId} (same : job.id = id) :
    (job.ending policy w now o slice id).job? = some id := by
  unfold ending
  cases o.error? with
  | none => rfl
  | some error => exact congrArg some same

variable {slice source : Slice} {id i : JobId} {type message : String} {retry : Option Instant}

/-- The event at the end of an execution is a completion just if there was no error. -/
theorem ending_eq_completed : job.ending policy w now o slice id = .jobCompleted i type source ↔
    i = id ∧ type = job.type ∧ source = slice ∧ o.error? = none := by
  unfold ending
  cases o.error? <;> simp [eq_comm]

/-- The event at the end of an execution is a failure just if there was an error. It has the text of
the error, and the time of the retry if the policy asks for one. -/
theorem ending_eq_failed :
    job.ending policy w now o slice id = .jobFailed i type source message retry ↔
      source = slice ∧ job.id = i ∧ job.type = type ∧ ∃ error, o.error? = some error ∧
        error.message = message ∧ (policy.decide job error).retryAt? w now = retry := by
  unfold ending retryTime?
  cases raised : o.error? with
  | none => simp
  | some error => cases decided : policy.decide job error <;> simp [decided, RetryDecision.retryAt?,
      eq_comm, and_left_comm]

end Job

namespace Watched

variable {σ : Type} {W : Surroundings σ} {slice : Slice} {id : JobId}

/-- An event was announced. -/
def Tells (s : Watched σ) (e : Event) : Prop := ∃ b, (e, b) ∈ s.told

theorem tells_iff {s : Watched σ} {e : Event} : s.Tells e ↔ e ∈ s.told.map Prod.fst := by
  simp [Tells]

/-- A call was made, and it succeeded. -/
def Made (s : Watched σ) (op : Operation) : Prop := ∃ a, (⟨op, .ok a⟩ : Exchange) ∈ s.calls

variable {w : Duration} {job : Job} {onward : Option (Trigger × Count)} {s s' : Watched σ}

/-- A job was run of the id and type, and its executor ended with an error of the text. This is the
time of the retry that its policy asked for, if it asked for one. -/
def Failed (W : Surroundings σ) (w : Duration) (s : Watched σ) (i : JobId) (type message : String)
    (retry : Option Instant) : Prop :=
  ∃ registration job, (registration, job) ∈ s.executed ∧ job.id = i ∧ job.type = type ∧
    ∃ error, (W.execute registration job).1.error? = some error ∧ error.message = message ∧
      (registration.policy.decide job error).retryAt? w (W.execute registration job).2 = retry

/-- The node has told of what it did when it ran a job of a slice. -/
structure Truthful (W : Surroundings σ) (slice : Slice) (id : JobId) (s s' : Watched σ) : Prop where
  /-- Nothing; or dead-lettered; or started, and then ended, and then perhaps moved on. -/
  shape : JobEvents slice id (s'.told.map Prod.fst)
  log : s'.desk.log.toList = s.desk.log.toList ++ s'.told.map Prod.fst
  once : s'.executed.length ≤ 1
  /-- What an executor has run is the job that was loaded and marked active. -/
  executed : ∀ registration job, (registration, job) ∈ s'.executed ↔
    s.Activates W slice id job registration
  deadLettered : ∀ i type source, s'.Tells (.jobDeadLettered i type source) ↔
    i = id ∧ source = slice ∧ s.desk.registry[type]? = none ∧
      ∃ job, s.Loads W slice id job ∧ job.type = type
  started : ∀ i type source, s'.Tells (.jobStarted i type source) ↔
    i = id ∧ source = slice ∧ ∃ registration job, (registration, job) ∈ s'.executed ∧
      job.type = type
  completed : ∀ i type source, s'.Tells (.jobCompleted i type source) ↔
    i = id ∧ source = slice ∧ ∃ registration job, (registration, job) ∈ s'.executed ∧
      job.type = type ∧ (W.execute registration job).1.error? = none
  failed : ∀ i type source message retry, s'.Tells (.jobFailed i type source message retry) ↔
    source = slice ∧ s'.Failed W s.desk.width i type message retry
  retried : ∀ t, (∃ i type source message, s'.Tells (.jobFailed i type source message (some t))) ↔
    ∃ registration job error delay, (registration, job) ∈ s'.executed ∧
      (W.execute registration job).1.error? = some error ∧
      registration.policy.decide job error = .retryAfter delay ∧
      t = (retryTrigger (W.execute registration job).2 delay s.desk.width).time
  rescheduled : ∀ i source target retries, s'.Tells (.jobRescheduled i source target retries) ↔
    source = slice ∧ ∃ next : Job, next.id = i ∧ next.slice s.desk.width = target ∧
      next.retries = retries ∧ ∀ op ∈ next.moves s.desk.width slice, s'.Made op
  /-- What was moved on is the job that was run, with the trigger that it goes on with. -/
  onward : ∀ i source target retries, s'.Tells (.jobRescheduled i source target retries) →
    ∃ registration job trigger, (registration, job) ∈ s'.executed ∧ job.id = i ∧
      s.onward? W job registration = some (trigger, retries) ∧ trigger.slice s.desk.width = target
  unfailing : (∀ x ∈ s'.calls, ∃ a, x.2 = .ok a) →
    ∀ i type source message t, s'.Tells (.jobFailed i type source message (some t)) →
      ∃ i source target retries, s'.Tells (.jobRescheduled i source target retries)

/-! ### The writes that move a job -/

/-- A node that has made none of the first and the last of the writes that move a job. -/
def Unmoved (s : Watched σ) : Prop :=
  ∀ x ∈ s.calls, (∀ job, x.1 ≠ .updateJob job) ∧ ∀ slice id, x.1 ≠ .removeScheduled slice id

/-- The last of the writes is not among those before a write that fails. -/
theorem not_mem_of_moves {next : Job} {made rest : List Operation} {op : Operation}
    (split : next.moves w slice = made ++ op :: rest) (source : Slice) (i : JobId) :
    .removeScheduled source i ∉ made := by
  intro mem
  have length : made.length ≤ 3 := by
    have length := congrArg List.length split
    simp only [Job.moves, List.length_append, List.length_cons, List.length_nil] at length
    omega
  have initial :=
    calc made = (made ++ op :: rest).take made.length := List.take_left.symm
      _ = ([Operation.updateJob next, .addScheduled (next.slice w) next.id,
            .addFinished slice next.id] ++
              [Operation.removeScheduled slice next.id]).take made.length := by
        rw [← split]
        rfl
      _ = [Operation.updateJob next, .addScheduled (next.slice w) next.id,
            .addFinished slice next.id].take made.length := List.take_append_of_le_length length
  rw [initial] at mem
  simpa using List.mem_of_mem_take mem

/-- A call that succeeded was made before, or is among those made since. -/
theorem Made.of_askAll {ops : List Operation} {op : Operation} (made : (s.askAll W ops).Made op) :
    s.Made op ∨ op ∈ ops := by
  obtain ⟨a, mem⟩ := made
  rw [calls_askAll] at mem
  rcases List.mem_append.mp mem with before | mem
  · exact .inl ⟨a, before⟩
  · exact .inr (s.mem_of_mem_exchanges mem)

theorem Succeed.made {ops : List Operation} (succeed : s.Succeed W ops) {op : Operation}
    (mem : op ∈ ops) : (s.askAll W ops).Made op := by
  obtain ⟨a, mem⟩ := s.exchanges_of_succeed succeed mem
  exact ⟨a, by rw [calls_askAll]; exact List.mem_append_right _ mem⟩

/-- The move is told of just if the four writes were made and succeeded. -/
theorem Concludes.rescheduled_iff (concludes : Concludes W slice w job onward s s')
    (unmoved : s.Unmoved) (untold : ∀ i source target n, ¬s.Tells (.jobRescheduled i source target n))
    (i : JobId) (source target : Slice) (n : Count) :
    s'.Tells (.jobRescheduled i source target n) ↔
      source = slice ∧ ∃ next : Job, next.id = i ∧ next.slice w = target ∧ next.retries = n ∧
        ∀ op ∈ next.moves w slice, s'.Made op := by
  cases concludes with
  | @moved trigger retries goes succeed =>
    constructor
    · rintro ⟨b, mem⟩
      rw [told_tell, told_askAll] at mem
      rcases List.mem_append.mp mem with before | last
      · exact absurd ⟨b, before⟩ (untold i source target n)
      · obtain ⟨rfl, rfl, rfl, rfl⟩ := Event.jobRescheduled.inj
          (congrArg Prod.fst (List.mem_singleton.mp last))
        exact ⟨rfl, job.rescheduled trigger _, rfl, rfl, rfl, fun op mem => succeed.made mem⟩
    · rintro ⟨rfl, next, rfl, rfl, rfl, writes⟩
      have updated : (s.askAll W ((job.rescheduled trigger retries).moves w source)).Made
          (.updateJob next) := writes _ List.mem_cons_self
      rcases updated.of_askAll with ⟨a, before⟩ | mem
      · exact absurd rfl ((unmoved _ before).1 next)
      · obtain rfl : next = job.rescheduled trigger retries := by
          simpa [Job.moves] using mem
        exact ⟨_, List.mem_append_right _ (List.mem_singleton_self _)⟩
  | @stuck trigger retries made rest op e goes split fails =>
    refine iff_of_false (fun ⟨b, mem⟩ => untold i source target n ⟨b, ?_⟩) ?_
    · rwa [told_ask, told_askAll] at mem
    · rintro ⟨-, next, -, -, -, writes⟩
      obtain ⟨a, mem⟩ := writes (.removeScheduled slice next.id) (by simp [Job.moves])
      rw [calls_ask] at mem
      rcases List.mem_append.mp mem with before | last
      · rcases Made.of_askAll ⟨a, before⟩ with ⟨a, before⟩ | mem
        · exact absurd rfl ((unmoved _ before).2 slice next.id)
        · exact not_mem_of_moves split slice next.id mem
      · -- the last call is the one that failed
        have same := List.mem_singleton.mp last
        obtain rfl := congrArg Sigma.fst same
        rw [fails] at same
        cases eq_of_heq (Sigma.mk.inj same).2
  | ended k ceases =>
    refine iff_of_false (fun ⟨b, mem⟩ => untold i source target n ⟨b, ?_⟩) ?_
    · rwa [told_askAll] at mem
    · rintro ⟨-, next, -, -, -, writes⟩
      rcases (writes (.updateJob next) List.mem_cons_self).of_askAll with ⟨a, before⟩ | mem
      · exact absurd rfl ((unmoved _ before).1 next)
      · simpa [Job.ends] using List.mem_of_mem_take mem

/-- A move that is told of is that of the job, with the trigger that it goes on with, and its writes
had succeeded when it was told of. -/
theorem Concludes.moved_of_told (concludes : Concludes W slice w job onward s s')
    {i : JobId} {source target : Slice} {n : Count} {b : σ}
    (told : (.jobRescheduled i source target n, b) ∈ s'.told)
    (untold : ¬s.Tells (.jobRescheduled i source target n)) :
    ∃ trigger, onward = some (trigger, n) ∧ job.id = i ∧ trigger.slice w = target ∧
      s.Succeed W ((job.rescheduled trigger n).moves w slice) ∧
      b = (s.askAll W ((job.rescheduled trigger n).moves w slice)).store := by
  cases concludes with
  | @moved trigger retries goes succeed =>
    rw [told_tell, told_askAll] at told
    rcases List.mem_append.mp told with before | last
    · exact absurd ⟨b, before⟩ untold
    · obtain ⟨same, store⟩ := Prod.mk.inj (List.mem_singleton.mp last)
      obtain ⟨rfl, -, rfl, rfl⟩ := Event.jobRescheduled.inj same
      exact ⟨trigger, goes, rfl, rfl, succeed, store⟩
  | stuck =>
    rw [told_ask, told_askAll] at told
    exact absurd ⟨b, told⟩ untold
  | ended =>
    rw [told_askAll] at told
    exact absurd ⟨b, told⟩ untold

/-! ### The events of a job -/

/-- What is told and done after the event at the end of an execution. -/
theorem Concludes.told (concludes : Concludes W slice w job onward s s') :
    s'.executed = s.executed ∧ ∃ events, s'.told.map Prod.fst = s.told.map Prod.fst ++ events ∧
      s'.desk.log.toList = s.desk.log.toList ++ events ∧
      (events = [] ∨ ∃ e, e.Moves slice ∧ events = [e]) := by
  cases concludes with
  | @moved trigger retries goes succeed =>
    refine ⟨by simp, [.jobRescheduled job.id slice (trigger.slice w) retries], by simp, ?_,
      .inr ⟨.jobRescheduled job.id slice (trigger.slice w) retries, rfl, rfl⟩⟩
    simp [tell, Desk.announce]
  | stuck goes split fails => exact ⟨by simp, [], by simp, by simp [ask], .inl rfl⟩
  | ended n ceases => exact ⟨by simp, [], by simp, by simp, .inl rfl⟩

/-- A move that was stuck has a call that failed. -/
theorem Concludes.moved_of_ok (concludes : Concludes W slice w job onward s s')
    (goes : onward ≠ none) (succeed : ∀ x ∈ s'.calls, ∃ a, x.2 = .ok a) :
    ∃ i source target n, s'.Tells (.jobRescheduled i source target n) := by
  cases concludes with
  | moved => exact ⟨_, _, _, _, _, List.mem_append_right _ (List.mem_singleton_self _)⟩
  | @stuck trigger retries made rest op e goes split fails =>
    obtain ⟨a, ok⟩ := succeed ⟨op, (s.askAll W made).answer W op⟩
      (List.mem_append_right _ (List.mem_singleton_self _))
    rw [fails] at ok
    cases ok
  | ended n ceases => exact absurd ceases goes

/-- A node that has done nothing yet. -/
structure IsFresh (s : Watched σ) : Prop where
  calls : s.calls = []
  told : s.told = []
  executed : s.executed = []

theorem Loads.eq {job job' : Job} (loads : s.Loads W slice id job) (loads' : s.Loads W slice id job') :
    job = job' := Except.ok.inj (loads.loaded.symm.trans loads'.loaded)

/-- A retry is told of just if the failure is told of that asks for it. -/
theorem retried_of_failed (failed : ∀ i type source message retry,
    s'.Tells (.jobFailed i type source message retry) ↔
      source = slice ∧ s'.Failed W w i type message retry)
    (t : Instant) :
    (∃ i type source message, s'.Tells (.jobFailed i type source message (some t))) ↔
      ∃ registration job error delay, (registration, job) ∈ s'.executed ∧
        (W.execute registration job).1.error? = some error ∧
        registration.policy.decide job error = .retryAfter delay ∧
        t = (retryTrigger (W.execute registration job).2 delay w).time := by
  constructor
  · rintro ⟨i, type, source, message, tells⟩
    obtain ⟨-, registration, job, ran, -, -, error, raised, -, retry⟩ :=
      (failed i type source message (some t)).mp tells
    obtain ⟨delay, decided, same⟩ := RetryDecision.retryAt?_eq_some.mp retry
    exact ⟨registration, job, error, delay, ran, raised, decided, same⟩
  · rintro ⟨registration, job, error, delay, ran, raised, decided, same⟩
    exact ⟨job.id, job.type, slice, error.message, (failed ..).mpr ⟨rfl, registration, job, ran, rfl,
      rfl, error, raised, rfl, RetryDecision.retryAt?_eq_some.mpr ⟨delay, decided, same⟩⟩⟩

/-- What is known of a node that has not run a job, after a few calls. -/
theorem truthful_of_idle {events : List Event} (told : s'.told.map Prod.fst = events)
    (shape : events = [] ∧
        (∀ job, s.Loads W slice id job → s.desk.registry[job.type]? ≠ none) ∨
      ∃ job, s.Loads W slice id job ∧ s.desk.registry[job.type]? = none ∧
        events = [.jobDeadLettered id job.type slice])
    (log : s'.desk.log.toList = s.desk.log.toList ++ events) (executed : s'.executed = [])
    (inactive : ∀ registration job, ¬s.Activates W slice id job registration)
    (unmoved : s'.Unmoved) : s.Truthful W slice id s' := by
  have silent (e : Event) (tells : s'.Tells e) : ∃ type, e = .jobDeadLettered id type slice := by
    rw [tells_iff, told] at tells
    rcases shape with ⟨rfl, -⟩ | ⟨job, -, -, rfl⟩
    · cases tells
    · exact ⟨job.type, List.mem_singleton.mp tells⟩
  have other {e : Event} (differs : ∀ type, e ≠ .jobDeadLettered id type slice) : ¬s'.Tells e :=
    fun tells => (silent e tells).elim differs
  have failed (i type source message retry) :
      ¬s'.Tells (.jobFailed i type source message retry) := other fun _ same => by cases same
  have moved (i source target n) : ¬s'.Tells (.jobRescheduled i source target n) :=
    other fun _ same => by cases same
  have failed_iff (i type source message retry) :
      s'.Tells (.jobFailed i type source message retry) ↔
        source = slice ∧ s'.Failed W s.desk.width i type message retry :=
    iff_of_false (failed i type source message retry) (by simp [Failed, executed])
  exact {
    shape := by
      rw [told]
      rcases shape with ⟨rfl, -⟩ | ⟨job, -, -, rfl⟩
      · exact .silent
      · exact .deadLettered job.type
    log := told ▸ log
    once := by simp [executed]
    executed := fun registration job => by simp [executed, inactive]
    deadLettered := fun i type source => by
      rw [tells_iff, told]
      rcases shape with ⟨rfl, known⟩ | ⟨job, loads, unknown, rfl⟩
      · refine iff_of_false List.not_mem_nil ?_
        rintro ⟨-, -, unknown, job, loads, rfl⟩
        exact known job loads unknown
      · simp only [List.mem_singleton, Event.jobDeadLettered.injEq]
        constructor
        · rintro ⟨rfl, rfl, rfl⟩
          exact ⟨rfl, rfl, unknown, job, loads, rfl⟩
        · rintro ⟨rfl, rfl, -, job', loads', rfl⟩
          exact ⟨rfl, loads'.eq loads ▸ rfl, rfl⟩
    started := fun i type source =>
      iff_of_false (other fun _ same => by cases same) (by simp [executed])
    completed := fun i type source =>
      iff_of_false (other fun _ same => by cases same) (by simp [executed])
    failed := failed_iff
    retried := retried_of_failed failed_iff
    rescheduled := fun i source target n => by
      refine iff_of_false (moved i source target n) ?_
      rintro ⟨-, next, -, -, -, writes⟩
      obtain ⟨a, mem⟩ := writes (.updateJob next) List.mem_cons_self
      exact (unmoved _ mem).1 next rfl
    onward := fun i source target n tells => absurd tells (moved i source target n)
    unfailing := fun _ i type source message t tells =>
      absurd tells (failed i type source message (some t)) }

theorem ends_ending (s : Watched σ) (W : Surroundings σ) (slice : Slice) (id : JobId) (job : Job)
    (registration : Registration) :
    (s.ending W slice id job registration).Ends job.type slice := Job.ends_ending ..

section Ran

variable {registration : Registration} (fresh : s.IsFresh)
include fresh

theorem told_finished (W : Surroundings σ) (slice : Slice) (id : JobId) (job : Job)
    (registration : Registration) :
    (s.finished W slice id job registration).told =
      [(.jobStarted id job.type slice,
          ((s.ask W (.getJob id)).ask W (.addActive slice id)).store),
        (s.ending W slice id job registration,
          ((s.ask W (.getJob id)).ask W (.addActive slice id)).store)] := by
  simp [finished, begun, fresh.told]
  rfl

theorem untold_finished (W : Surroundings σ) (i : JobId) (source target : Slice) (n : Count) :
    ¬(s.finished W slice id job registration).Tells (.jobRescheduled i source target n) := by
  intro tells
  rw [tells_iff, told_finished fresh] at tells
  rcases List.mem_cons.mp tells with same | mem
  · cases same
  · have ends := s.ends_ending W slice id job registration
    have same : .jobRescheduled i source target n = s.ending W slice id job registration :=
      List.mem_singleton.mp mem
    rw [← same] at ends
    exact ends

variable (concludes : Concludes W slice s.desk.width job (s.onward? W job registration)
  (s.finished W slice id job registration) s')
include concludes

/-- The events of a job that was run. -/
theorem events_of_ran : ∃ events, s'.told.map Prod.fst =
      .jobStarted id job.type slice :: s.ending W slice id job registration :: events ∧
    s'.desk.log.toList = s.desk.log.toList ++ s'.told.map Prod.fst ∧
    (events = [] ∨ ∃ e, e.Moves slice ∧ events = [e]) := by
  obtain ⟨-, events, told, log, moves⟩ := concludes.told
  rw [told_finished fresh] at told
  refine ⟨events, told, ?_, moves⟩
  rw [log, told]
  simp [finished, begun, tell, ran, ask, Desk.announce]

/-- What is told of a job that was run, but for its move. -/
theorem tells_of_ran {e : Event} (stays : ¬e.Moves slice) : s'.Tells e ↔
    e = .jobStarted id job.type slice ∨ s.ending W slice id job registration = e := by
  obtain ⟨events, told, -, moves⟩ := events_of_ran fresh concludes
  rw [tells_iff, told, List.mem_cons, List.mem_cons, eq_comm (a := e) (b := ending ..)]
  refine or_congr_right ⟨?_, .inl⟩
  rintro (same | mem)
  · exact same
  · rcases moves with rfl | ⟨e', moves, rfl⟩
    · cases mem
    · exact absurd (List.mem_singleton.mp mem ▸ moves) stays

/-- A job of which a retry is told goes on at the time that is told. -/
theorem onward_of_failed {i : JobId} {type message : String} {source : Slice} {t : Instant}
    (tells : s'.Tells (.jobFailed i type source message (some t))) :
    ∃ trigger retries, s.onward? W job registration = some (trigger, retries) ∧
      trigger.time = t := by
  have stays : ¬Event.Moves slice (.jobFailed i type source message (some t)) := not_false
  rcases (tells_of_ran fresh concludes stays).mp tells with same | same
  · cases same
  · obtain ⟨-, -, -, error, raised, -, retry⟩ := Job.ending_eq_failed.mp same
    exact Job.onward?_of_retryAt? raised retry

theorem executed_of_ran : s'.executed = [(registration, job)] := by
  rw [concludes.told.1]
  simp [finished, begun, fresh.executed]

variable (activates : s.Activates W slice id job registration)
include activates

/-- What is known of a node that has run a job. -/
theorem truthful_of_ran : s.Truthful W slice id s' := by
  obtain ⟨events, told, log, moves⟩ := events_of_ran fresh concludes
  have ran := executed_of_ran fresh concludes
  have ends := s.ends_ending W slice id job registration
  have tells (e : Event) (stays : ¬e.Moves slice) := tells_of_ran fresh concludes stays
  have only {P : Registration → Job → Prop} :
      (∃ registration job, (registration, job) ∈ s'.executed ∧ P registration job) ↔
        P registration job := by
    simp [ran, and_assoc]
  have failed (i type source message retry) :
      s'.Tells (.jobFailed i type source message retry) ↔
        source = slice ∧ s'.Failed W s.desk.width i type message retry := by
    rw [tells (.jobFailed i type source message retry) not_false, ending, Job.ending_eq_failed,
      Failed, only]
    simp
  exact {
    shape := by
      rw [told]
      rcases moves with rfl | ⟨e', moves, rfl⟩
      · exact .ended ends
      · exact .moved ends moves
    log := log
    once := by simp [ran]
    executed := fun registration' job' => by
      rw [ran, List.mem_singleton, Prod.mk.injEq]
      constructor
      · rintro ⟨rfl, rfl⟩
        exact activates
      · intro activates'
        obtain rfl := activates'.toLoads.eq activates.toLoads
        exact ⟨Option.some.inj (activates'.registered.symm.trans activates.registered), rfl⟩
    deadLettered := fun i type source => by
      refine iff_of_false (fun told => ?_) ?_
      · rcases (tells (.jobDeadLettered i type source) not_false).mp told with same | same
        · cases same
        · rw [same] at ends
          exact ends
      · rintro ⟨-, -, unknown, job', loads, rfl⟩
        obtain rfl := loads.eq activates.toLoads
        cases unknown.symm.trans activates.registered
    started := fun i type source => by
      have ends : s.ending W slice id job registration ≠ .jobStarted i type source := fun same => by
        rw [same] at ends
        exact ends
      rw [tells (.jobStarted i type source) not_false, or_iff_left ends, only]
      simp [and_comm, eq_comm]
    completed := fun i type source => by
      rw [tells (.jobCompleted i type source) not_false, ending, Job.ending_eq_completed, only]
      simp [and_left_comm, eq_comm]
    failed := failed
    retried := retried_of_failed failed
    rescheduled := concludes.rescheduled_iff (by simp [Unmoved, finished, begun, fresh.calls])
      (untold_finished fresh W)
    onward := fun i source target n ⟨_, told⟩ => by
      obtain ⟨trigger, goes, same, here, -⟩ :=
        concludes.moved_of_told told (untold_finished fresh W i source target n)
      exact ⟨registration, job, trigger, ran ▸ List.mem_singleton_self _, same, goes, here⟩
    unfailing := fun succeed i type source message t told => by
      obtain ⟨trigger, retries, goes, -⟩ := onward_of_failed fresh concludes told
      exact concludes.moved_of_ok (fun ceases => by cases goes.symm.trans ceases) succeed }

end Ran

/-- A node that runs a job tells of what it does, whatever the store answers. -/
theorem JobStory.truthful (story : s.JobStory W slice id s') (fresh : s.IsFresh) :
    s.Truthful W slice id s' := by
  obtain ⟨calls, told, executed⟩ := fresh
  cases story with
  | unloaded fails =>
    have other (job : Job) (loads : s.Loads W slice id job) : False := by
      cases fails.symm.trans loads.loaded
    exact truthful_of_idle (by simp [told]) (.inl ⟨rfl, fun job loads => (other job loads).elim⟩)
      (by simp [ask]) (by simp [executed]) (fun _ job activates => other job activates.toLoads)
      (by simp [Unmoved, calls])
  | passed other =>
    exact truthful_of_idle (by simp [told]) (.inl ⟨rfl, fun job loads => (other job loads).elim⟩)
      (by simp [ask]) (by simp [executed]) (fun _ job activates => other job activates.toLoads)
      (by simp [Unmoved, calls])
  | @deadLettered job loads unknown =>
    refine truthful_of_idle (by simp [told]) (.inr ⟨job, loads, unknown, rfl⟩)
      (by simp [ask, tell, Desk.announce]) (by simp [executed]) (fun registration job' activates => ?_)
      (by simp [Unmoved, calls])
    obtain rfl := activates.toLoads.eq loads
    cases unknown.symm.trans activates.registered
  | @inactive job registration e loads registered fails =>
    refine truthful_of_idle (by simp [told]) (.inl ⟨rfl, fun job' loads' => ?_⟩) (by simp [ask])
      (by simp [executed]) (fun _ _ activates => ?_) (by simp [Unmoved, calls])
    · obtain rfl := loads'.eq loads
      exact fun unknown => by cases unknown.symm.trans registered
    · cases fails.symm.trans activates.activated
  | ran activates concludes => exact truthful_of_ran ⟨calls, told, executed⟩ concludes activates

end Watched

end SliceScheduler
