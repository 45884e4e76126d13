import SliceScheduler.Proofs.Watched
/-!
# What comes of a job that is run

A job is run on a node by itself, whatever the store answers and whatever the executor makes of it.

1. `Job.ending` is the event after the run of an executor, and `Job.moves` are the four writes that
   put the job on its new trigger;
2. `Watched.JobStory` lists what may come of the job, and `Watched.Concludes` what may come of it
   after the run of its executor, call by call;
3. `Program.exists_jobStory` says that running a job comes to an end, and to one of these.
-/
namespace SliceScheduler

open Program

/-! ## What a job comes to -/

namespace Job

variable (job : Job) (policy : RetryPolicy) (w : Duration) (now : Instant) (o : Outcome)

/-- The time of the retry that a policy asks for after the run of an executor. -/
def retryTime? : Option Instant :=
  match o.error?.map (policy.decide job) with
  | some (.retryAfter delay) => some (retryTrigger now delay w).time
  | some .terminal | none => none

/-- The event after the run of an executor. -/
def ending (slice : Slice) (id : JobId) : Event :=
  match o.error? with
  | none => .jobCompleted id job.type slice
  | some error =>
    .jobFailed job.id job.type slice error.message (job.retryTime? policy w now o)

/-- The writes that move a job from a slice to the slice of its trigger. -/
def moves (w : Duration) (source : Slice) (job : Job) : List Operation :=
  [.updateJob job, .addScheduled (job.slice w) job.id, .addFinished source job.id,
    .removeScheduled source job.id]

/-- The writes that end a job. -/
def ends (slice : Slice) (id : JobId) : List Operation := [.addFinished slice id, .deleteJob id]

end Job

namespace Watched

variable {σ : Type} (W : Surroundings σ) (slice : Slice) (id : JobId)

/-- What comes of a job that goes on, or does not, after the run of its executor. -/
inductive Concludes (w : Duration) (job : Job) (onward : Option (Trigger × Count))
    (s : Watched σ) : Watched σ → Prop
  /-- Every write succeeded. -/
  | moved {trigger : Trigger} {retries : Count} : onward = some (trigger, retries) →
    s.Succeed W (Job.moves w slice (job.rescheduled trigger retries)) →
    Concludes w job onward s
      ((s.askAll W (Job.moves w slice (job.rescheduled trigger retries))).tell
        (.jobRescheduled job.id slice (trigger.slice w) retries))
  /-- One of the writes failed. -/
  | stuck {trigger : Trigger} {retries : Count} {made rest : List Operation} {op : Operation}
    {e : StoreError} : onward = some (trigger, retries) →
    Job.moves w slice (job.rescheduled trigger retries) = made ++ op :: rest →
    (s.askAll W made).answer W op = .error e →
    Concludes w job onward s ((s.askAll W made).ask W op)
  | ended (n : Nat) : onward = none →
    Concludes w job onward s (s.askAll W ((Job.ends slice job.id).take n))

/-- A job that was loaded and belongs to the slice. -/
structure Loads (s : Watched σ) (job : Job) : Prop where
  loaded : s.answer W (.getJob id) = .ok job
  here : job.slice s.desk.width = slice

/-- A job that was loaded and marked active. -/
structure Activates (s : Watched σ) (job : Job) (registration : Registration) : Prop
    extends s.Loads W slice id job where
  registered : s.desk.registry[job.type]? = some registration
  activated : (s.ask W (.getJob id)).answer W (.addActive slice id) = .ok ()

/-- The node when the executor of a job begins. -/
def begun (s : Watched σ) (job : Job) : Watched σ :=
  ((s.ask W (.getJob id)).ask W (.addActive slice id)).tell (.jobStarted id job.type slice)

/-- The event after the run of the executor of a job. -/
def ending (s : Watched σ) (job : Job) (registration : Registration) : Event :=
  job.ending registration.policy s.desk.width (W.execute registration job).2
    (W.execute registration job).1 slice id

/-- What a job goes on with after the run of its executor. -/
def onward? (s : Watched σ) (job : Job) (registration : Registration) : Option (Trigger × Count) :=
  job.onward? registration.policy s.desk.width (W.execute registration job).2
    (W.execute registration job).1

/-- The node when the executor of a job has come to an end and that is announced. -/
def finished (s : Watched σ) (job : Job) (registration : Registration) : Watched σ :=
  ((s.begun W slice id job).ran W registration job).tell (s.ending W slice id job registration)

/-- What comes of a job that is run. -/
inductive JobStory (s : Watched σ) : Watched σ → Prop
  | unloaded {e : StoreError} : s.answer W (.getJob id) = .error e →
    JobStory s (s.ask W (.getJob id))
  /-- There is no such job, or it belongs to another slice. -/
  | passed : (∀ job, ¬s.Loads W slice id job) →
    JobStory s ((s.ask W (.getJob id)).ask W (.addFinished slice id))
  | deadLettered {job : Job} : s.Loads W slice id job → s.desk.registry[job.type]? = none →
    JobStory s (((s.ask W (.getJob id)).ask W (.addFinished slice id)).tell
      (.jobDeadLettered id job.type slice))
  | inactive {job : Job} {registration : Registration} {e : StoreError} :
    s.Loads W slice id job → s.desk.registry[job.type]? = some registration →
    (s.ask W (.getJob id)).answer W (.addActive slice id) = .error e →
    JobStory s ((s.ask W (.getJob id)).ask W (.addActive slice id))
  | ran {job : Job} {registration : Registration} {s' : Watched σ} :
    s.Activates W slice id job registration →
    Concludes W slice s.desk.width job (s.onward? W job registration)
      (s.finished W slice id job registration) s' →
    JobStory s s'

end Watched

namespace Program

variable {σ : Type} {W : Surroundings σ} {slice : Slice} {id : JobId}

/-! ## A job comes to what it may -/

theorem leaveSlice_eq (source : Slice) (id : JobId) :
    leaveSlice source id = writeAll [.removeScheduled source id] := by
  show ask (.call (.removeScheduled source id)) _ = ask (.call (.removeScheduled source id)) _
  exact congrArg _ (funext fun a => by cases a <;> rfl)

theorem moveJob_eq (w : Duration) (source : Slice) (job : Job) :
    moveJob source (job.slice w) job = writeAll (job.moves w source) := by
  unfold moveJob indexTarget finishSource
  rw [leaveSlice_eq]
  rfl

theorem watch?_reschedule (slice : Slice) (job : Job) (s : Watched σ) :
    s.Succeed W (job.moves s.desk.width slice) ∧
      (reschedule slice job).watch? W s = some ((),
        (s.askAll W (job.moves s.desk.width slice)).tell
          (.jobRescheduled job.id slice (job.slice s.desk.width) job.retries)) ∨
    ∃ made op rest e, job.moves s.desk.width slice = made ++ op :: rest ∧
      (s.askAll W made).answer W op = .error e ∧
      (reschedule slice job).watch? W s = some ((), (s.askAll W made).ask W op) := by
  have first : (reschedule slice job).watch? W s =
      ((writeAll (job.moves s.desk.width slice)).run.watch? W s).bind fun (result, s') =>
        (announceMove slice (job.slice s.desk.width) job result).watch? W s' := by
    rw [← moveJob_eq, ← watch?_bind]
    rfl
  rcases watch?_writeAll (W := W) (job.moves s.desk.width slice) s with
    ⟨succeed, ran⟩ | ⟨made, op, rest, e, split, -, fails, ran⟩
  · exact .inl ⟨succeed, by rw [first, ran]; exact watch?_announce_last (W := W) _ _⟩
  · exact .inr ⟨made, op, rest, e, split, fails, by rw [first, ran]; rfl⟩

theorem watch?_retire (slice : Slice) (id : JobId) (s : Watched σ) :
    ∃ n, (retire slice id).watch? W s = some ((), s.askAll W ((Job.ends slice id).take n)) := by
  have first : (retire slice id).watch? W s =
      (if (s.answer W (.addFinished slice id)).toBool then deleteJob id else pure ()).watch? W
        (s.ask W (.addFinished slice id)) := rfl
  rw [first]
  split
  · exact ⟨2, rfl⟩
  · exact ⟨1, rfl⟩

/-- What a job does when it goes on, or does not. -/
def carryOn (slice : Slice) (job : Job) : Option (Trigger × Count) → Program Unit
  | some (trigger, retries) => reschedule slice (job.rescheduled trigger retries)
  | none => retire slice job.id

/-- After the run of its executor a job is moved on or ends. -/
theorem watch?_conclude (job : Job) (policy : RetryPolicy) (o : Outcome) (s : Watched σ) :
    (conclude slice id job policy o).watch? W s =
      (carryOn slice job (job.onward? policy s.desk.width s.now o)).watch? W
        (s.tell (job.ending policy s.desk.width s.now o slice id)) := by
  have completes (e : Event) : (announce e >>= fun _ => complete slice job).watch? W s =
      (carryOn slice job ((job.trigger.next? s.now s.desk.width).map (·, Count.zero))).watch? W
        (s.tell e) := by
    rw [watch?_announce]
    unfold complete
    rw [watch?_look, watch?_now]
    have now : (s.tell e).now = s.now := rfl
    have width : (s.tell e).desk.width = s.desk.width := rfl
    rw [now, width]
    cases job.trigger.next? s.now s.desk.width <;> rfl
  unfold conclude Job.onward? Job.ending Job.retryTime?
  cases o.error? with
  | none => exact completes _
  | some error =>
    simp only [Option.map_some, fail]
    cases policy.decide job error with
    | retryAfter delay =>
      show (look >>= fun desk => now >>= fun t => announce _ >>= fun _ => _).watch? W s = _
      rw [watch?_look, watch?_now, watch?_announce]
      rfl
    | terminal => exact completes _

theorem exists_concludes (slice : Slice) (job : Job) (onward : Option (Trigger × Count))
    (s : Watched σ) : ∃ s', (carryOn slice job onward).watch? W s = some ((), s') ∧
      Watched.Concludes W slice s.desk.width job onward s s' := by
  cases onward with
  | none =>
    obtain ⟨n, ran⟩ := watch?_retire (W := W) slice job.id s
    exact ⟨_, ran, .ended n rfl⟩
  | some goes =>
    obtain ⟨trigger, retries⟩ := goes
    rcases watch?_reschedule (W := W) slice (job.rescheduled trigger retries) s with
      ⟨succeed, ran⟩ | ⟨made, op, rest, e, split, fails, ran⟩
    · exact ⟨_, ran, .moved rfl succeed⟩
    · exact ⟨_, ran, .stuck rfl split fails⟩

/-- A job that is loaded, due and of a known type is run, unless it cannot be marked active. -/
theorem exists_jobStory_of_loads {s : Watched σ} {job : Job} {registration : Registration}
    (loads : s.Loads W slice id job) (registered : s.desk.registry[job.type]? = some registration) :
    ∃ s', (Program.execute slice id job registration).watch? W (s.ask W (.getJob id)) =
      some ((), s') ∧ s.JobStory W slice id s' := by
  unfold Program.execute
  rw [watch?_call]
  cases activated : (s.ask W (.getJob id)).answer W (.addActive slice id) with
  | error e => exact ⟨_, rfl, .inactive loads registered activated⟩
  | ok _ =>
    obtain ⟨s', ran, concludes⟩ := exists_concludes (W := W) slice job
      (s.onward? W job registration) (s.finished W slice id job registration)
    refine ⟨s', ?_, .ran ⟨loads, registered, activated⟩ concludes⟩
    show (announce (.jobStarted id job.type slice) >>= fun _ =>
      awaitOutcome slice id job registration).watch? W _ = _
    rw [watch?_announce]
    show (request (.execute registration job) >>= fun o =>
      conclude slice id job registration.policy o).watch? W (s.begun W slice id job) = _
    rw [watch?_execute, watch?_conclude]
    exact ran

theorem watch?_runJob (slice : Slice) (id : JobId) (s : Watched σ) :
    (runJob slice id).watch? W s =
      (match s.answer W (.getJob id) with
        | .error (.notFound _) => passOver slice id
        | .error _ => pure ()
        | .ok job => runLoaded slice id job).watch? W (s.ask W (.getJob id)) :=
  watch?_call s _ _

theorem watch?_runLoaded (slice : Slice) (id : JobId) (job : Job) (s : Watched σ) :
    (runLoaded slice id job).watch? W s =
      (if job.slice s.desk.width ≠ slice then passOver slice id
        else
          match s.desk.registry[job.type]? with
          | none => deadLetter slice id job.type
          | some registration => execute slice id job registration).watch? W s :=
  watch?_look s _

/-- Running a job comes to an end, and to what it may. -/
theorem exists_jobStory (slice : Slice) (id : JobId) (s : Watched σ) :
    ∃ s', (runJob slice id).watch? W s = some ((), s') ∧ s.JobStory W slice id s' := by
  rw [watch?_runJob]
  cases loaded : s.answer W (.getJob id) with
  | error e =>
    cases e with
    | notFound => exact ⟨_, rfl, .passed fun job loads => by cases loaded.symm.trans loads.loaded⟩
    | _ => exact ⟨_, rfl, .unloaded loaded⟩
  | ok job =>
    dsimp only
    rw [watch?_runLoaded, Watched.desk_ask]
    by_cases here : job.slice s.desk.width = slice
    · rw [if_neg (not_not.mpr here)]
      cases registered : s.desk.registry[job.type]? with
      | none =>
        have ran : (deadLetter slice id job.type).watch? W (s.ask W (.getJob id)) =
            (announce (.jobDeadLettered id job.type slice)).watch? W
              ((s.ask W (.getJob id)).ask W (.addFinished slice id)) := rfl
        exact ⟨_, ran.trans (watch?_announce_last (W := W) _ _), .deadLettered ⟨loaded, here⟩ registered⟩
      | some registration => exact exists_jobStory_of_loads ⟨loaded, here⟩ registered
    · rw [if_pos here]
      refine ⟨_, rfl, .passed fun other loads => here ?_⟩
      obtain rfl := Except.ok.inj (loaded.symm.trans loads.loaded)
      exact loads.here

end Program

end SliceScheduler
