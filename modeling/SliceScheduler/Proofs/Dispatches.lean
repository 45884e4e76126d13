import SliceScheduler.Proofs.Handling
import SliceScheduler.Proofs.StoredRow
/-!
# Slices that are dispatched again

A job is run again and again on a node by itself, over a store in memory of which any calls are made
to fail.

1. `JobNext.left` bounds what is left to do with a job, and every call and every run of an executor
   leaves less;
2. `Watched.Follows` says that a node has come as far with a job as a handling says, and
   `Watched.Follows.exists_run` that what is left to do takes the steps of a handling to its end;
3. `Watched.Dispatches` runs the job as long as it is pending in its slice, and
   `Watched.Dispatches.exists_run` says that this takes such steps as well;
4. `Watched.Dispatches.accounted` is the result: the job is accounted for when it is no longer
   pending, or else the call failed that was to enter it into the slice that its row names.
   `Watched.Dispatches.drops` is two dispatches that drop a job for which that call has failed.
-/
namespace SliceScheduler

open Program

/-- When an executor has come to an end, the clock is not before the slice, and there is a slice
after the current one. -/
def Executors.KeepUp (run : Executors) (slice : Slice) (w : Duration) : Prop :=
  ∀ registration job, slice ≤ Slice.containing (run registration job).2 w ∧
    (Slice.containing (run registration job).2 w).HasNext w

/-! ## What is left to do becomes less -/

/-- A bound on the calls and runs that are left. -/
def JobNext.left : JobNext → Nat
  | call .load => 8
  | call (.activate _ _) => 7
  | execute _ _ => 6
  | call (.update _) => 5
  | call (.enter _) => 4
  | call (.finish _) => 3
  | call (.leave _) | call (.retire _) => 2
  | call .pass | call (.deadLetter _) | call (.delete _) => 1
  | spent => 0

theorem JobStage.left_react (w : Duration) (desk : Desk) (slice : Slice) (id : JobId)
    (t : JobStage) (answer : (t.op w slice id).Result) :
    (t.react w desk slice id answer).2.left < (JobNext.call t).left := by
  cases t with
  | load =>
    rcases answer with e | job
    · cases e <;> simp [react, JobNext.left]
    · simp only [react, loaded]
      split
      · simp [JobNext.left]
      · split <;> simp [JobNext.left]
  | activate | update | enter | finish | leave | retire =>
    rcases answer with e | _ <;> simp [react, JobNext.left]
  | pass | deadLetter | delete => simp [react, JobNext.left]

theorem JobStage.left_outcome (now : Instant) (desk : Desk) (slice : Slice) (id : JobId)
    (job : Job) (registration : Registration) (policy : RetryPolicy) (o : Outcome) :
    (JobNext.call (outcome now desk slice id job policy o).2).left <
      (JobNext.execute job registration).left := by
  rw [outcome_eq]
  split <;> simp [JobNext.left]

/-! ## The program of a job, call by call -/

namespace Watched

section Calls

variable {σ : Type} (W : Surroundings σ) (desk : Desk) (slice : Slice) (id : JobId)

/-- After events. -/
def tellAll (s : Watched σ) (events : List Event) : Watched σ := events.foldl tell s

theorem tellAll_eq (s : Watched σ) (events : List Event) : s.tellAll events =
    { s with
      desk := s.desk.announceAll events
      told := s.told ++ events.map (·, s.store) } := by
  induction events generalizing s with
  | nil => simp [tellAll, Desk.announceAll]
  | cons e events ih =>
    refine (ih (s.tell e)).trans ?_
    simp [tell, Desk.announceAll]

/-- What is left of a job after a call, and the node then. -/
def hear (s : Watched σ) (t : JobStage) : JobNext × Watched σ :=
  let op := t.op desk.width slice id
  let reaction := t.react desk.width desk slice id (s.answer W op)
  (reaction.2, (s.ask W op).tellAll reaction.1)

/-- The call that a job makes after the run of its executor, and the node when the end of the run is
announced. -/
def conclude (s : Watched σ) (job : Job) (registration : Registration) : JobStage × Watched σ :=
  let (o, now) := W.execute registration job
  ((JobStage.outcome now desk slice id job registration.policy o).2,
    (s.ran W registration job).tell
      (job.ending registration.policy desk.width now o slice id))

/-- What is left of a job after the answer to a call. -/
theorem watch?_answer (t : JobStage) :
    ∃ next, t.program desk.width slice id = .ask (.call (t.op desk.width slice id)) next ∧
      ∀ answer (s : Watched σ), s.desk.settings = desk.settings →
        s.desk.registry = desk.registry →
        (next answer).watch? W s =
          ((t.react desk.width desk slice id answer).2.program desk.width slice id).watch? W
            (s.tellAll (t.react desk.width desk slice id answer).1) := by
  cases t with
  | load =>
    refine ⟨_, rfl, fun answer s settings registry => ?_⟩
    rcases answer with e | job
    · cases e <;> rfl
    · have width : s.desk.width = desk.width := congrArg NodeSettings.width settings
      refine (watch?_runLoaded slice id job s).trans ?_
      simp only [JobStage.react, JobStage.loaded]
      rw [width, registry]
      by_cases elsewhere : job.slice desk.width ≠ slice
      · rw [if_pos elsewhere, if_pos elsewhere]
        rfl
      · rw [if_neg elsewhere, if_neg elsewhere]
        cases desk.registry[job.type]? <;> rfl
  | pass | delete => exact ⟨_, rfl, fun answer s _ _ => rfl⟩
  | deadLetter => exact ⟨_, rfl, fun answer s _ _ => watch?_announce_last s _⟩
  | activate job registration =>
    refine ⟨_, rfl, fun answer s _ _ => ?_⟩
    rcases answer with e | _
    · rfl
    · exact watch?_announce s _ _
  | leave job =>
    refine ⟨_, rfl, fun answer s _ _ => ?_⟩
    rcases answer with e | _
    · rfl
    · exact watch?_announce_last s _
  | update | enter | finish | retire =>
    refine ⟨_, rfl, fun answer s _ _ => ?_⟩
    rcases answer with e | _ <;> rfl

variable {desk} {s : Watched σ} (settings : s.desk.settings = desk.settings)
include settings

theorem watch?_call (registry : s.desk.registry = desk.registry) (t : JobStage) :
    (t.program desk.width slice id).watch? W s =
      ((s.hear W desk slice id t).1.program desk.width slice id).watch? W
        (s.hear W desk slice id t).2 := by
  obtain ⟨next, asks, answers⟩ := watch?_answer W desk slice id t
  rw [asks]
  exact answers _ (s.ask W _) settings registry

theorem watch?_execution (job : Job) (registration : Registration) :
    (awaitOutcome slice id job registration).watch? W s =
      ((s.conclude W desk slice id job registration).1.program desk.width slice id).watch? W
        (s.conclude W desk slice id job registration).2 := by
  have width : (s.ran W registration job).desk.width = desk.width :=
    congrArg NodeSettings.width settings
  have now : (s.ran W registration job).now = (W.execute registration job).2 := rfl
  show (request (.execute registration job) >>= fun o =>
    Program.conclude slice id job registration.policy o).watch? W s = _
  unfold conclude
  dsimp only
  rw [watch?_execute, watch?_conclude, width, now, JobStage.outcome_eq]
  cases job.onward? registration.policy desk.width (W.execute registration job).2
      (W.execute registration job).1 with
  | none => rfl
  | some goes =>
    obtain ⟨trigger, retries⟩ := goes
    dsimp only [carryOn, JobStage.program]
    rw [← width]
    rfl

end Calls

/-! ## A node that follows a job -/

variable {pattern : FaultPattern} {run : Executors} {desk : Desk} {slice : Slice} {id : JobId}
variable {s s' : Watched FaultyStore} {h : Handling}

/-- The node, over a store in memory, has come as far with a job as a handling says. -/
structure Follows (desk : Desk) (id : JobId) (s : Watched FaultyStore) (h : Handling) : Prop where
  settings : s.desk.settings = desk.settings
  registry : s.desk.registry = desk.registry
  store : ∃ m : MemoryStore, s.contents = .memory m ∧ m.entry id = h.entry
  calls : s.calls = h.calls
  told : s.told.map Prod.fst = h.events
  executed : s.executed = h.executed
  about : h.IsOf id

/-- The answer to a call is heard. -/
theorem Follows.hear (follows : s.Follows desk id h) {t : JobStage}
    {answer : (t.op desk.width slice id).Result} {m : MemoryStore}
    (answers : s.answer (pattern.surroundings run) (t.op desk.width slice id) = answer)
    (contents : (s.ask (pattern.surroundings run) (t.op desk.width slice id)).contents = .memory m)
    (about : (h.hear desk slice id t answer (m.entry id)).IsOf id) :
    (s.hear (pattern.surroundings run) desk slice id t).2.Follows desk id
      (h.hear desk slice id t answer (m.entry id)) := by
  subst answers
  unfold Watched.hear
  dsimp only
  rw [tellAll_eq]
  refine ⟨?_, ?_, ⟨m, contents, rfl⟩, ?_, ?_, follows.executed, about⟩
  · simpa using follows.settings
  · simpa using follows.registry
  · exact congrArg (· ++ [_]) follows.calls
  · simp [Handling.hear, follows.told, Function.comp_def]

variable (run slice) in
/-- A call is answered, or it is made to fail. -/
theorem Follows.call (follows : s.Follows desk id h) (honest : pattern.IsHonest) {t : JobStage}
    (next : h.next = .call t) : ∃ h', h.Step desk slice id h' ∧
      h'.next = (s.hear (pattern.surroundings run) desk slice id t).1 ∧
      (s.hear (pattern.surroundings run) desk slice id t).2.Follows desk id h' := by
  obtain ⟨m, contents, entry⟩ := follows.store
  have about := follows.about.about
  rw [next] at about
  have subject : (t.op desk.width slice id).subject? = some id := JobStage.subject_op about
  rcases pattern.perform_cases s.store s.now (t.op desk.width slice id) with ⟨e, meets, made⟩ | made
  · have answers : s.answer (pattern.surroundings run) (t.op desk.width slice id) = .error e :=
      congrArg Prod.fst made
    have after : (s.ask (pattern.surroundings run) (t.op desk.width slice id)).contents =
        .memory m := (congrArg (fun r => FaultyStore.store r.2) made).trans contents
    have step : h.Step desk slice id (h.hear desk slice id t (.error e) (m.entry id)) := by
      rw [entry]
      exact .failed next fun what same => honest _ what (same ▸ meets)
    refine ⟨_, step, ?_, follows.hear answers after (step.isOf follows.about)⟩
    exact congrArg (fun a => (t.react desk.width desk slice id a).2) answers.symm
  · have memory : s.store.store.perform s.now (t.op desk.width slice id) = _ :=
      congrArg (Backend.perform · s.now (t.op desk.width slice id)) contents
    rw [memory] at made
    have answers : s.answer (pattern.surroundings run) (t.op desk.width slice id) =
        h.entry.answer (t.op desk.width slice id) :=
      (congrArg Prod.fst made).trans (entry ▸ MemoryStore.answer_perform subject)
    have after : (s.ask (pattern.surroundings run) (t.op desk.width slice id)).contents =
        .memory (m.perform s.now (t.op desk.width slice id)).2 :=
      congrArg (fun r => FaultyStore.store r.2) made
    have entry' : (m.perform s.now (t.op desk.width slice id)).2.entry id =
        h.entry.after (t.op desk.width slice id) := entry ▸ MemoryStore.entry_perform subject
    have step : h.Step desk slice id (h.hear desk slice id t (h.entry.answer _)
        ((m.perform s.now (t.op desk.width slice id)).2.entry id)) := by
      rw [entry']
      exact .answered next
    refine ⟨_, step, ?_, follows.hear answers after (step.isOf follows.about)⟩
    exact congrArg (fun a => (t.react desk.width desk slice id a).2) answers.symm

/-- The run of an executor comes to an end. -/
theorem Follows.conclude (follows : s.Follows desk id h) {job : Job} {registration : Registration}
    (about : (h.conclude desk slice id job registration (run registration job).1
      (run registration job).2).IsOf id) :
    (s.conclude (pattern.surroundings run) desk slice id job registration).2.Follows desk id
      (h.conclude desk slice id job registration (run registration job).1
        (run registration job).2) := by
  refine ⟨follows.settings, follows.registry, follows.store, follows.calls, ?_,
    congrArg (· ++ [_]) follows.executed, about⟩
  rw [Handling.events_conclude]
  simp [Watched.conclude, follows.told]
  rfl

/-- What is left of a job is done, and that takes the steps of a handling. -/
theorem Follows.exists_run (follows : s.Follows desk id h) (honest : pattern.IsHonest)
    (clock : Executors.KeepUp run slice desk.width) :
    ∃ s' h', (h.next.program desk.width slice id).watch? (pattern.surroundings run) s =
        some ((), s') ∧
      Handling.Run desk slice id h h' ∧ h'.next = .spent ∧ s'.Follows desk id h' := by
  -- by how much is left to do
  induction bound : h.next.left using Nat.strong_induction_on generalizing s h with
  | _ n ih =>
    cases next : h.next with
    | spent => exact ⟨s, h, rfl, .refl, next, follows⟩
    | execute job registration =>
      obtain ⟨begun, hasNext⟩ := clock registration job
      have step : h.Step desk slice id _ := .ended (run registration job).1 next begun hasNext
      have less := JobStage.left_outcome (run registration job).2 desk slice id job registration
        registration.policy (run registration job).1
      rw [← next, bound] at less
      obtain ⟨s', h', ran, more, spent, follows'⟩ :=
        ih _ less (follows.conclude (step.isOf follows.about)) rfl
      refine ⟨s', h', ?_, .head step more, spent, follows'⟩
      exact (watch?_execution _ slice id follows.settings job registration).trans ran
    | call t =>
      obtain ⟨h₁, step, next₁, follows₁⟩ := follows.call run slice honest next
      have less : h₁.next.left < (JobNext.call t).left := next₁ ▸ JobStage.left_react ..
      rw [← next, bound] at less
      obtain ⟨s', h', ran, more, spent, follows'⟩ := ih _ less follows₁ rfl
      refine ⟨s', h', ?_, .head step more, spent, follows'⟩
      rw [next₁] at ran
      exact (watch?_call _ slice id follows.settings follows.registry t).trans ran

/-! ## Dispatches of a slice -/

/-- A slice is dispatched any number of times, and each time the job is run if it is pending. -/
inductive Dispatches (pattern : FaultPattern) (slice : Slice) (id : JobId)
    (s : Watched FaultyStore) : Watched FaultyStore → Prop
  | start : Dispatches pattern slice id s s
  | again {s' s'' : Watched FaultyStore} {m : MemoryStore} {run : Executors} :
    Dispatches pattern slice id s s' → s'.contents = .memory m → id ∈ (m.sets slice).pending →
    Executors.KeepUp run slice s.desk.width →
    (runJob slice id).watch? (pattern.surroundings run) s' = some ((), s'') →
    Dispatches pattern slice id s s''

/-- Dispatches take the steps of a handling. -/
theorem Dispatches.exists_run (dispatches : Dispatches pattern slice id s s')
    (honest : pattern.IsHonest) (follows : s.Follows s.desk id h) (spent : h.next = .spent) :
    ∃ h', Handling.Run s.desk slice id h h' ∧ h'.next = .spent ∧ s'.Follows s.desk id h' := by
  induction dispatches with
  | start => exact ⟨h, .refl, spent, follows⟩
  | @again s' s'' m run _ contents pending clock ran ih =>
    obtain ⟨h₁, earlier, spent₁, follows₁⟩ := ih
    obtain ⟨m', contents', entry⟩ := follows₁.store
    obtain rfl : m = m' := Backend.memory.inj (contents.symm.trans contents')
    have here : h₁.entry.pending slice := entry ▸ MemoryStore.pending_entry.mpr pending
    have set : h₁.Step s.desk slice id { h₁ with next := .call .load } := .dispatched spent₁ here
    have follows' : s'.Follows s.desk id { h₁ with next := .call .load } :=
      { follows₁ with store := ⟨m, contents, entry⟩, about := set.isOf follows₁.about }
    obtain ⟨t, h₂, ran', later, spent₂, follows₂⟩ := follows'.exists_run honest clock
    obtain rfl : s'' = t := congrArg Prod.snd (Option.some.inj (ran.symm.trans ran'))
    exact ⟨h₂, (earlier.tail set).trans later, spent₂, follows₂⟩

/-- A job that is stored and pending in its slice, and is finished in no other, is accounted for
after any number of dispatches of the slice that leave it no longer pending there, or else the call
failed that was to enter it into the slice that its row names. -/
theorem Dispatches.accounted {m : MemoryStore} {first : Job}
    (dispatches : Dispatches pattern slice first.id s s') (honest : pattern.IsHonest)
    (fresh : s.IsFresh) (contents : s.contents = .memory m) (row : m.jobs[first.id]? = some first)
    (due : first.slice s.desk.width = slice) (regular : first.trigger.Regular s.desk.width)
    (pending : first.id ∈ (m.sets slice).pending)
    (alone : ∀ other, other ≠ slice → ¬m.finishedIn first.id other)
    (left : ∀ m', s'.contents = .memory m' → first.id ∉ (m'.sets slice).pending) :
    ∃ h, s'.Follows s.desk first.id h ∧ h.next = .spent ∧
      (h.Accounted s.desk slice first.id first ∨ ∃ (next : Job) (e : StoreError),
        h.entry.row = some next ∧ slice ≠ next.slice s.desk.width ∧
        (⟨.addScheduled (next.slice s.desk.width) first.id, .error e⟩ : Exchange) ∈ h.calls) := by
  have follows : s.Follows s.desk first.id (.start (m.entry first.id)) :=
    ⟨rfl, rfl, ⟨m, contents, rfl⟩, fresh.calls, congrArg _ fresh.told, fresh.executed,
      fun job found => congrArg Job.id (Option.some.inj (found.symm.trans row)), trivial⟩
  obtain ⟨h, ran, spent, follows'⟩ := dispatches.exists_run honest follows rfl
  obtain ⟨m', contents', entry⟩ := follows'.store
  refine ⟨h, follows', spent, ran.accounted row rfl due regular
    (MemoryStore.pending_entry.mpr pending) alone fun here => left m' contents' ?_⟩
  exact MemoryStore.pending_entry.mp (entry ▸ here)

/-! ## A job that is dropped -/

/-- The contents of the store, if it is in memory. -/
def memory? (s : Watched FaultyStore) : Option MemoryStore :=
  match s.contents with
  | .memory m => some m
  | .tables _ => none

theorem contents_of_memory? {m : MemoryStore} (shown : s.memory? = some m) :
    s.contents = .memory m := by
  unfold memory? at shown
  split at shown
  · rename_i contents
    rwa [Option.some.inj shown] at contents
  · cases shown

/-- The fourth call fails. -/
def fourthFails : FaultPattern := fun n => if n = 3 then some .poisoned else none

/-- A node over a store with a job that comes back every hour, at the time that the job is due. -/
def atNewYear : Watched FaultyStore :=
  .start Solo.newYear.desk ⟨.memory Solo.newYear.store, 0⟩ .newYear2024

/-- The slice of midnight is dispatched, and executors succeed at once. -/
def dispatchNewYear (s : Watched FaultyStore) : Option (Unit × Watched FaultyStore) :=
  (runJob ⟨.newYear2024⟩ Solo.hourly.id).watch?
    (fourthFails.surroundings fun _ _ => (.success, .newYear2024)) s

/-- When the call fails that is to enter the job into the slice of one o'clock, the second dispatch
drops the job: its row names that slice, and it is pending neither there nor at midnight. -/
theorem Dispatches.drops : ∃ s m,
    Dispatches fourthFails ⟨.newYear2024⟩ Solo.hourly.id atNewYear s ∧ s.contents = .memory m ∧
      m.jobs[Solo.hourly.id]?.map (·.slice atNewYear.desk.width) = some (.minute 60) ∧
      (m.sets ⟨.newYear2024⟩).pending = [] ∧ (m.sets (.minute 60)).pending = [] := by
  have played : ((dispatchNewYear atNewYear).bind fun r => r.2.memory?.bind fun m =>
      (dispatchNewYear r.2).bind fun r' => r'.2.memory?.map fun m' =>
        ((m.sets ⟨.newYear2024⟩).pending,
          m'.jobs[Solo.hourly.id]?.map (·.slice atNewYear.desk.width),
          (m'.sets ⟨.newYear2024⟩).pending, (m'.sets (.minute 60)).pending)) =
      some ([Solo.hourly.id], some (.minute 60), [], []) := by decide +kernel
  obtain ⟨⟨⟨⟩, s⟩, first, played⟩ := Option.bind_eq_some_iff.mp played
  obtain ⟨m, memory, played⟩ := Option.bind_eq_some_iff.mp played
  obtain ⟨⟨⟨⟩, s'⟩, second, played⟩ := Option.bind_eq_some_iff.mp played
  obtain ⟨m', memory', facts⟩ := Option.map_eq_some_iff.mp played
  obtain ⟨pending, row, here, there⟩ := by simpa only [Prod.mk.injEq] using facts
  have clock : ⟨.newYear2024⟩ ≤ Slice.containing .newYear2024 atNewYear.desk.width ∧
      (Slice.containing .newYear2024 atNewYear.desk.width).HasNext atNewYear.desk.width := by decide
  have keepsUp : Executors.KeepUp (fun _ _ => (.success, .newYear2024)) ⟨.newYear2024⟩
      atNewYear.desk.width := fun _ _ => clock
  have due : Solo.hourly.id ∈ (Solo.newYear.store.sets ⟨.newYear2024⟩).pending := by decide +kernel
  have again : Solo.hourly.id ∈ (m.sets ⟨.newYear2024⟩).pending := by rw [pending]; decide
  have dispatched := Dispatches.start.again rfl due keepsUp first
  exact ⟨s', m', dispatched.again (contents_of_memory? memory) again keepsUp second,
    contents_of_memory? memory', row, here, there⟩

end Watched

end SliceScheduler
