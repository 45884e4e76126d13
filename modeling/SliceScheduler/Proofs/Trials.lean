import Mathlib.Data.List.Basic
import Mathlib.Logic.Function.Basic
import SliceScheduler.Engine.Drain
/-!
# The runs of a job that is retried

A job that is to be run once, and is retried by a bounded policy, seen from the job: its row, the
runs that have begun and ended, and the tasks that have to do with it.

1. `BoundedRetry.Retries` says that the condition of a policy asks for a retry after an outcome, and
   `BoundedRetry.shouldRetry_iff` that the policy retries then while retries are left;
2. `Hand` is what a task has to do with the job, and `Trials` the job with all such tasks;
3. `Trials.Step` lists what can happen to the job;
4. `Trials.Sound` is the invariant: `Trials.Phase` is how far the job has come, and
   `Trials.Sound.step` says that every step keeps it up;
5. `BoundedRetry.IsOver` says that no run is to follow. `Trials.Sound.starts_le`,
   `Trials.Sound.row_counts`, `Trials.Sound.final_of_gone` and `Trials.Sound.gone_of_isOver` are what
   holds at any time.

The retries in the row count the runs that have ended. Who runs the job has claimed it for the slice
that its row names, so that nobody else comes to run it before the row is written anew or deleted.
-/
namespace SliceScheduler

/-! ## The policy -/

/-- The condition asks for a retry after the error. -/
def RetryCondition.Admits : RetryCondition → JobError → Prop
  | always, _ => True
  | transientOnly, e => e.isTransient = true
  | never, _ => False

/-- The run has failed, with an error that the condition of the policy asks to be retried. -/
def BoundedRetry.Retries (p : BoundedRetry) (o : Outcome) : Prop :=
  ∃ e, o.error? = some e ∧ p.retryOn.Admits e

/-- No run is to follow: the last one was not to be retried, or no retry was left. -/
def BoundedRetry.IsOver (p : BoundedRetry) (ends : List (Job × Outcome)) : Prop :=
  ∃ last, ends.getLast? = some last ∧ (p.Retries last.2 → p.maxAttempts.val < ends.length)

/-- The policy retries what its condition asks for, while retries are left. -/
theorem BoundedRetry.shouldRetry_iff {p : BoundedRetry} {retries : Count} {e : JobError} :
    p.shouldRetry retries e = true ↔ p.retryOn.Admits e ∧ retries.val < p.maxAttempts.val := by
  unfold shouldRetry RetryCondition.Admits
  cases p.retryOn <;> simp

/-- The first job of a series of runs, with the time and the retries of a later one. -/
def Job.IsVersion (first job : Job) : Prop :=
  ∃ time retries, job = first.rescheduled (.single time) retries

/-! ## A job that is retried -/

/-- What a task has to do with a job that is retried. -/
inductive Hand where
  /-- A submission that has not stored the job yet. -/
  | waiting
  /-- A task that is about to set the job off or to load it, or that has only indexes to write. -/
  | claimed (slice : Slice)
  /-- A task that is about to mark the job active. -/
  | loaded (slice : Slice) (job : Job) (policy : RetryPolicy)
  /-- A task that waits for the executor of the job. -/
  | running (slice : Slice) (job : Job) (policy : RetryPolicy)
  /-- A task that is about to write the row anew, for a retry. -/
  | rearming (slice : Slice) (next : Job)
  /-- A task that is about to mark the job finished and to delete its row. -/
  | retiring (slice : Slice)

namespace Hand

/-- The slice that the job is claimed for. -/
def claims? : Hand → Option Slice
  | waiting => none
  | claimed slice | loaded slice _ _ | running slice _ _ | rearming slice _ | retiring slice =>
    some slice

/-- The task has started the job, and has still to record what came of it. -/
def isBusy : Hand → Bool
  | running .. | rearming .. | retiring _ => true
  | _ => false

end Hand

/-- A job that is retried, in a cluster. Tasks are given by the place of their node and their
number. -/
structure Trials where
  /-- The job has been submitted. -/
  known : Prop
  /-- The row of the job has been there. -/
  stored : Prop
  row : Option Job
  /-- How often the job was started. -/
  starts : Nat
  /-- The runs that have come to an end, the earliest first: what was run, and what came of it. -/
  ends : List (Job × Outcome)
  hands : Nat × Nat → Option Hand

namespace Trials

variable {first : Job} {p : BoundedRetry} {w : Duration} {T : Trials} {t u : Nat × Nat}
  {x : Option Hand} {slice : Slice}

/-- The slice that a task has claimed the job for. -/
def claims (T : Trials) (t : Nat × Nat) : Option Slice := (T.hands t).bind Hand.claims?

/-- The task comes to have another hand in the job. -/
def go (T : Trials) (t : Nat × Nat) (x : Option Hand) : Trials :=
  { T with hands := Function.update T.hands t x }

/-- What can happen to the job. -/
inductive Step (first : Job) (p : BoundedRetry) (w : Duration) (T : Trials) : Trials → Prop
  | idle : Step first p w T T
  /-- The job is submitted, and may be refused at once. -/
  | submit (t : Nat × Nat) {x : Option Hand} : ¬T.known → T.hands t = none →
    x = none ∨ x = some .waiting → Step first p w T { T.go t x with known := True }
  | refuse {t : Nat × Nat} : T.hands t = some .waiting → Step first p w T (T.go t none)
  | store {t : Nat × Nat} : T.hands t = some .waiting →
    Step first p w T { T.go t none with row := some first, stored := True }
  /-- A draining finds the job to be pending in its slice. -/
  | claim {t : Nat × Nat} {slice : Slice} : T.hands t = none →
    (∀ u, T.claims u ≠ some slice) → Step first p w T (T.go t (some (.claimed slice)))
  /-- A draining sets off the job as a task. -/
  | hand {t u : Nat × Nat} {slice : Slice} : T.hands t = some (.claimed slice) →
    T.hands u = none → Step first p w T ((T.go u (some (.claimed slice))).go t none)
  | drop {t : Nat × Nat} {slice : Slice} : T.hands t = some (.claimed slice) →
    Step first p w T (T.go t none)
  | load {t : Nat × Nat} {slice : Slice} {job : Job} {policy : RetryPolicy} :
    T.hands t = some (.claimed slice) → T.row = some job → job.slice w = slice →
    (job.type = first.type → policy = .bounded p) →
    Step first p w T (T.go t (some (.loaded slice job policy)))
  | start {t : Nat × Nat} {slice : Slice} {job : Job} {policy : RetryPolicy} :
    T.hands t = some (.loaded slice job policy) →
    Step first p w T { T.go t (some (.running slice job policy)) with starts := T.starts + 1 }
  /-- The run has failed, and the job is to be retried. -/
  | retry {t : Nat × Nat} {slice : Slice} {job : Job} {policy : RetryPolicy} {o : Outcome}
    (time : Instant) : T.hands t = some (.running slice job policy) → p.Retries o →
    job.retries.val < p.maxAttempts.val →
    Step first p w T
      { T.go t (some (.rearming slice (job.rescheduled (.single time) job.retries.succ))) with
        ends := T.ends ++ [(job, o)] }
  /-- The run was the last one. -/
  | finish {t : Nat × Nat} {slice : Slice} {job : Job} {policy : RetryPolicy} {o : Outcome} :
    T.hands t = some (.running slice job policy) →
    ¬(p.Retries o ∧ job.retries.val < p.maxAttempts.val) →
    Step first p w T { T.go t (some (.retiring slice)) with ends := T.ends ++ [(job, o)] }
  | record {t : Nat × Nat} {slice : Slice} {next : Job} : T.hands t = some (.rearming slice next) →
    Step first p w T { T.go t (some (.claimed slice)) with row := some next }
  | delete {t : Nat × Nat} {slice : Slice} : T.hands t = some (.retiring slice) →
    Step first p w T { T.go t none with row := none }

/-! ## The invariant -/

/-- Every run that has ended has failed and was to be retried, with a retry left. -/
def AllRetried (p : BoundedRetry) (ends : List (Job × Outcome)) : Prop :=
  ∀ (k : Nat) (r : Job × Outcome), ends[k]? = some r → p.Retries r.2 ∧ k < p.maxAttempts.val

/-- The last run was not to be retried, or no retry was left, and all runs before it were retried. -/
def Final (p : BoundedRetry) (ends : List (Job × Outcome)) : Prop :=
  ∃ before last, ends = before ++ [last] ∧ AllRetried p before ∧
    ¬(p.Retries last.2 ∧ before.length < p.maxAttempts.val)

/-- No task but one has started the job and has still to record what came of it. -/
def Alone (T : Trials) (t : Nat × Nat) : Prop :=
  ∀ u hand, T.hands u = some hand → hand.isBusy = true → u = t

/-- No task has started the job and has still to record what came of it. -/
def Idle (T : Trials) : Prop := ∀ u hand, T.hands u = some hand → hand.isBusy = false

/-- How far the job has come. -/
inductive Phase (p : BoundedRetry) (w : Duration) (T : Trials) : Prop
  | unstored : ¬T.stored → T.row = none → T.starts = 0 → T.ends = [] → T.Idle → Phase p w T
  /-- The job waits for its next run. -/
  | resting (row : Job) : T.stored → T.row = some row → T.starts = T.ends.length →
    row.retries.val = T.ends.length → AllRetried p T.ends → T.Idle → Phase p w T
  | running (t : Nat × Nat) (row : Job) : T.stored → T.row = some row →
    T.hands t = some (.running (row.slice w) row (.bounded p)) → T.starts = T.ends.length + 1 →
    row.retries.val = T.ends.length → AllRetried p T.ends → T.Alone t → Phase p w T
  /-- A retry is to be recorded. -/
  | rearming (t : Nat × Nat) (row next : Job) : T.stored → T.row = some row →
    T.hands t = some (.rearming (row.slice w) next) → T.starts = T.ends.length →
    row.retries.val + 1 = T.ends.length → next.retries.val = T.ends.length →
    AllRetried p T.ends → T.Alone t → Phase p w T
  /-- The row is to be deleted. -/
  | retiring (t : Nat × Nat) (row : Job) : T.stored → T.row = some row →
    T.hands t = some (.retiring (row.slice w)) → T.starts = T.ends.length →
    row.retries.val + 1 = T.ends.length → Final p T.ends → T.Alone t → Phase p w T
  | gone : T.stored → T.row = none → T.starts = T.ends.length → Final p T.ends → T.Idle →
    Phase p w T

/-- What holds of the job at any time. -/
structure Sound (first : Job) (p : BoundedRetry) (w : Duration) (T : Trials) : Prop where
  unknown : ¬T.known → ¬T.stored ∧ ∀ t, T.hands t ≠ some .waiting
  waiting : ∀ t, T.hands t = some .waiting → ¬T.stored ∧ ∀ u, T.hands u = some .waiting → u = t
  claim : ∀ t u slice, T.claims t = some slice → T.claims u = some slice → t = u
  version : ∀ row, T.row = some row → first.IsVersion row
  /-- Who has loaded the job, or is about to record a retry, has the row at hand. -/
  loads : ∀ t slice job policy, T.hands t = some (.loaded slice job policy) →
    T.row = some job ∧ job.slice w = slice ∧ policy = .bounded p
  rearms : ∀ t slice next, T.hands t = some (.rearming slice next) → first.IsVersion next
  /-- Every run was given the retries before it. -/
  given : ∀ (k : Nat) (r : Job × Outcome), T.ends[k]? = some r → r.1.retries.val = k
  phase : T.Phase p w

/-! ## Steps -/

theorem hands_go : (T.go t x).hands u = if u = t then x else T.hands u :=
  Function.update_apply ..

theorem claims_go : (T.go t x).claims u = if u = t then x.bind Hand.claims? else T.claims u := by
  unfold claims
  rw [hands_go]
  split <;> rfl

theorem claims_of_hand {hand : Hand} (there : T.hands t = some hand) : T.claims t = hand.claims? := by
  rw [claims, there, Option.bind_some]

theorem hands_of_waiting (other : x ≠ some .waiting)
    (waits : (T.go t x).hands u = some .waiting) : T.hands u = some .waiting := by
  rw [hands_go] at waits
  split at waits
  · exact absurd waits other
  · exact waits

/-- A task that claims no more than before. -/
theorem claim_go
    (claim : ∀ t u slice, T.claims t = some slice → T.claims u = some slice → t = u)
    (fewer : ∀ s, x.bind Hand.claims? = some s → T.claims t = some s) (a b : Nat × Nat)
    (s : Slice) (has : (T.go t x).claims a = some s) (has' : (T.go t x).claims b = some s) :
    a = b := by
  have before {c : Nat × Nat} (has : (T.go t x).claims c = some s) : T.claims c = some s := by
    rw [claims_go] at has
    split at has
    · subst c
      exact fewer s has
    · exact has
  exact claim a b s (before has) (before has')

/-- Tasks that have started the job are not touched by the others. -/
theorem busy_go (old : ∀ hand, T.hands t = some hand → hand.isBusy = false)
    (new : ∀ hand, x = some hand → hand.isBusy = false) (u : Nat × Nat) (hand : Hand)
    (busy : hand.isBusy = true) : (T.go t x).hands u = some hand ↔ T.hands u = some hand := by
  rw [hands_go]
  split
  · subst u
    refine iff_of_false (fun there => ?_) fun there => ?_
    · cases busy.symm.trans (new hand there)
    · cases busy.symm.trans (old hand there)
  · exact .rfl

theorem Idle.go (idle : T.Idle) (new : ∀ hand, x = some hand → hand.isBusy = false) :
    (T.go t x).Idle := by
  intro u hand there
  rw [hands_go] at there
  split at there
  · exact new hand there
  · exact idle u hand there

theorem Idle.alone_go (idle : T.Idle) : (T.go t x).Alone t := by
  intro u hand there busy
  rw [hands_go] at there
  split at there
  · assumption
  · cases busy.symm.trans (idle u hand there)

theorem Alone.go (alone : T.Alone t) : (T.go t x).Alone t := by
  intro u hand there busy
  rw [hands_go] at there
  split at there
  · assumption
  · exact alone u hand there busy

theorem Alone.idle_go (alone : T.Alone t) (new : ∀ hand, x = some hand → hand.isBusy = false) :
    (T.go t x).Idle := by
  intro u hand there
  rw [hands_go] at there
  split at there
  · exact new hand there
  · rename_i other
    cases busy : hand.isBusy with
    | false => rfl
    | true => exact absurd (alone u hand there busy) other

/-- How far the job has come depends on the tasks that have started it alone. -/
theorem Phase.congr {T' : Trials} (phase : T.Phase p w) (stored : T'.stored ↔ T.stored)
    (row : T'.row = T.row) (starts : T'.starts = T.starts) (ends : T'.ends = T.ends)
    (hands : ∀ u (hand : Hand), hand.isBusy = true →
      (T'.hands u = some hand ↔ T.hands u = some hand)) : T'.Phase p w := by
  have alone {t : Nat × Nat} (alone : T.Alone t) : T'.Alone t :=
    fun u hand there busy => alone u hand ((hands u hand busy).mp there) busy
  have idle (idle : T.Idle) : T'.Idle := by
    intro u hand there
    cases busy : hand.isBusy with
    | false => rfl
    | true => exact busy.symm.trans (idle u hand ((hands u hand busy).mp there))
  cases phase with
  | unstored unstored none unstarted unended rests =>
    exact .unstored (stored.not.mpr unstored) (row.trans none) (starts.trans unstarted)
      (ends.trans unended) (idle rests)
  | resting r there found begun counted retried rests =>
    exact .resting r (stored.mpr there) (row.trans found) (by rw [starts, ends, begun])
      (by rw [ends, counted]) (by rwa [ends]) (idle rests)
  | running t r there found runs begun counted retried single =>
    exact .running t r (stored.mpr there) (row.trans found) ((hands t _ rfl).mpr runs)
      (by rw [starts, ends, begun]) (by rw [ends, counted]) (by rwa [ends]) (alone single)
  | rearming t r next there found rearms begun counted counted' retried single =>
    exact .rearming t r next (stored.mpr there) (row.trans found) ((hands t _ rfl).mpr rearms)
      (by rw [starts, ends, begun]) (by rw [ends, counted]) (by rw [ends, counted'])
      (by rwa [ends]) (alone single)
  | retiring t r there found retires begun counted final single =>
    exact .retiring t r (stored.mpr there) (row.trans found) ((hands t _ rfl).mpr retires)
      (by rw [starts, ends, begun]) (by rw [ends, counted]) (by rwa [ends]) (alone single)
  | gone there none begun final rests =>
    exact .gone (stored.mpr there) (row.trans none) (by rw [starts, ends, begun])
      (by rwa [ends]) (idle rests)

namespace Sound

variable (sound : T.Sound first p w)
include sound

theorem unknown_go (other : x ≠ some .waiting) (unknown : ¬T.known) :
    ¬T.stored ∧ ∀ u, (T.go t x).hands u ≠ some .waiting :=
  ⟨(sound.unknown unknown).1,
    fun u waits => (sound.unknown unknown).2 u (hands_of_waiting other waits)⟩

theorem waiting_go (other : x ≠ some .waiting) (u : Nat × Nat)
    (waits : (T.go t x).hands u = some .waiting) :
    ¬T.stored ∧ ∀ v, (T.go t x).hands v = some .waiting → v = u := by
  obtain ⟨unstored, single⟩ := sound.waiting u (hands_of_waiting other waits)
  exact ⟨unstored, fun v waits => single v (hands_of_waiting other waits)⟩

theorem loads_go (new : ∀ slice job policy, x = some (.loaded slice job policy) →
      T.row = some job ∧ job.slice w = slice ∧ policy = .bounded p) (u : Nat × Nat) (slice : Slice)
    (job : Job) (policy : RetryPolicy)
    (there : (T.go t x).hands u = some (.loaded slice job policy)) :
    T.row = some job ∧ job.slice w = slice ∧ policy = .bounded p := by
  rw [hands_go] at there
  split at there
  · exact new slice job policy there
  · exact sound.loads u slice job policy there

theorem rearms_go (new : ∀ slice next, x = some (.rearming slice next) → first.IsVersion next)
    (u : Nat × Nat) (slice : Slice) (next : Job)
    (there : (T.go t x).hands u = some (.rearming slice next)) : first.IsVersion next := by
  rw [hands_go] at there
  split at there
  · exact new slice next there
  · exact sound.rearms u slice next there

/-- While a task has claimed the job for the slice that its row names, no other task has loaded it. -/
theorem unloaded_go {row job : Job} {policy : RetryPolicy} (found : T.row = some row)
    (claims : T.claims t = some (row.slice w)) (new : x ≠ some (.loaded slice job policy))
    (u : Nat × Nat) : (T.go t x).hands u ≠ some (.loaded slice job policy) := by
  intro there
  rw [hands_go] at there
  split at there
  · exact new there
  · rename_i other
    obtain ⟨row', same, -⟩ := sound.loads u slice job policy there
    obtain rfl := Option.some.inj (found.symm.trans row')
    exact other (sound.claim u t slice (claims_of_hand there) (same ▸ claims))

/-- A step of a task that has not started the job, and does not come to. -/
theorem turn (old : ∀ hand, T.hands t = some hand → hand.isBusy = false)
    (new : ∀ hand, x = some hand → hand.isBusy = false) (other : x ≠ some .waiting)
    (claim : ∀ a b s, (T.go t x).claims a = some s → (T.go t x).claims b = some s → a = b)
    (loads : ∀ slice job policy, x = some (.loaded slice job policy) →
      T.row = some job ∧ job.slice w = slice ∧ policy = .bounded p) :
    (T.go t x).Sound first p w where
  unknown := sound.unknown_go other
  waiting := sound.waiting_go other
  claim := claim
  version := sound.version
  loads := sound.loads_go loads
  rearms := sound.rearms_go fun slice next same => (by cases new _ same)
  given := sound.given
  phase := sound.phase.congr .rfl rfl rfl rfl (busy_go old new)

/-- The job that was loaded is the one in the row, and no task has started it. -/
theorem of_loaded {job : Job} {policy : RetryPolicy}
    (loaded : T.hands t = some (.loaded slice job policy)) : T.stored ∧ T.row = some job ∧
      job.slice w = slice ∧ policy = .bounded p ∧ T.starts = T.ends.length ∧
      job.retries.val = T.ends.length ∧ AllRetried p T.ends ∧ T.Idle := by
  obtain ⟨found, rfl, rfl⟩ := sound.loads t slice job policy loaded
  -- whoever has started the job has claimed it for the slice of its row
  have alone {u : Nat × Nat} {row : Job} {hand : Hand} (there : T.row = some row)
      (hands : T.hands u = some hand) (claims : hand.claims? = some (row.slice w))
      (busy : hand.isBusy = true) : False := by
    obtain rfl := Option.some.inj (found.symm.trans there)
    have same := sound.claim t u (job.slice w) (claims_of_hand loaded)
      ((claims_of_hand hands).trans claims)
    rw [← same, loaded] at hands
    cases hands
    cases busy
  cases sound.phase with
  | unstored unstored none => cases found.symm.trans none
  | resting row stored there begun counted retried idle =>
    obtain rfl := Option.some.inj (found.symm.trans there)
    exact ⟨stored, found, rfl, rfl, begun, counted, retried, idle⟩
  | running u row stored there runs => exact (alone there runs rfl rfl).elim
  | rearming u row next stored there rearms => exact (alone there rearms rfl rfl).elim
  | retiring u row stored there retires => exact (alone there retires rfl rfl).elim
  | gone stored none => cases found.symm.trans none

/-- A task that has started the job, and what it has still to do. -/
theorem of_busy {hand : Hand} (there : T.hands t = some hand) (busy : hand.isBusy = true) :
    T.Alone t ∧ T.stored ∧ ∃ row, T.row = some row ∧
      (hand = .running (row.slice w) row (.bounded p) ∧ T.starts = T.ends.length + 1 ∧
          row.retries.val = T.ends.length ∧ AllRetried p T.ends ∨
        (∃ next, hand = .rearming (row.slice w) next ∧ T.starts = T.ends.length ∧
          row.retries.val + 1 = T.ends.length ∧ next.retries.val = T.ends.length ∧
          AllRetried p T.ends) ∨
        hand = .retiring (row.slice w) ∧ T.starts = T.ends.length ∧ Final p T.ends) := by
  cases sound.phase with
  | unstored _ _ _ _ idle | resting _ _ _ _ _ _ idle | gone _ _ _ _ idle =>
    cases busy.symm.trans (idle t _ there)
  | running u row stored found runs begun counted retried alone =>
    obtain rfl := alone t _ there busy
    have same := Option.some.inj (there.symm.trans runs)
    exact ⟨alone, stored, row, found, .inl ⟨same, begun, counted, retried⟩⟩
  | rearming u row next stored found rearms begun counted counted' retried alone =>
    obtain rfl := alone t _ there busy
    have same := Option.some.inj (there.symm.trans rearms)
    exact ⟨alone, stored, row, found, .inr (.inl ⟨next, same, begun, counted, counted', retried⟩)⟩
  | retiring u row stored found retires begun _ final alone =>
    obtain rfl := alone t _ there busy
    have same := Option.some.inj (there.symm.trans retires)
    exact ⟨alone, stored, row, found, .inr (.inr ⟨same, begun, final⟩)⟩

/-- The job that runs is the one in the row. -/
theorem of_running {job : Job} {policy : RetryPolicy}
    (runs : T.hands t = some (.running slice job policy)) : T.stored ∧ T.row = some job ∧
      job.slice w = slice ∧ policy = .bounded p ∧ T.starts = T.ends.length + 1 ∧
      job.retries.val = T.ends.length ∧ AllRetried p T.ends ∧ T.Alone t := by
  obtain ⟨alone, stored, row, found, ⟨same, begun, counted, retried⟩ | ⟨next, same, -⟩ |
    ⟨same, -⟩⟩ := sound.of_busy runs rfl
  · obtain ⟨rfl, rfl, rfl⟩ := Hand.running.inj same
    exact ⟨stored, found, rfl, rfl, begun, counted, retried, alone⟩
  · cases same
  · cases same

/-- The row that is to be written anew is that of the run before. -/
theorem of_rearming {next : Job} (rearms : T.hands t = some (.rearming slice next)) :
    T.stored ∧ (∃ row, T.row = some row ∧ row.slice w = slice ∧
      row.retries.val + 1 = T.ends.length) ∧ T.starts = T.ends.length ∧
      next.retries.val = T.ends.length ∧ AllRetried p T.ends ∧ T.Alone t := by
  obtain ⟨alone, stored, row, found, ⟨same, -⟩ | ⟨next', same, begun, counted, counted', retried⟩ |
    ⟨same, -⟩⟩ := sound.of_busy rearms rfl
  · cases same
  · obtain ⟨rfl, rfl⟩ := Hand.rearming.inj same
    exact ⟨stored, ⟨row, found, rfl, counted⟩, begun, counted', retried, alone⟩
  · cases same

/-- The row that is to be deleted is that of the last run. -/
theorem of_retiring (retires : T.hands t = some (.retiring slice)) :
    T.stored ∧ (∃ row, T.row = some row ∧ row.slice w = slice) ∧ T.starts = T.ends.length ∧
      Final p T.ends ∧ T.Alone t := by
  obtain ⟨alone, stored, row, found, ⟨same, -⟩ | ⟨next, same, -⟩ | ⟨same, begun, final⟩⟩ :=
    sound.of_busy retires rfl
  · cases same
  · cases same
  · obtain rfl := Hand.retiring.inj same
    exact ⟨stored, ⟨row, found, rfl⟩, begun, final, alone⟩

end Sound

/-- A run in a list with one more run at the end. -/
theorem getElem?_concat {ends : List (Job × Outcome)} {last r : Job × Outcome} {k : Nat}
    (there : (ends ++ [last])[k]? = some r) : ends[k]? = some r ∨ k = ends.length ∧ r = last := by
  rcases Nat.lt_trichotomy k ends.length with less | rfl | more
  · rw [List.getElem?_append_left less] at there
    exact .inl there
  · rw [List.getElem?_concat_length] at there
    exact .inr ⟨rfl, (Option.some.inj there).symm⟩
  · rw [List.getElem?_eq_none (by rwa [List.length_append, List.length_singleton])] at there
    cases there

theorem AllRetried.concat {ends : List (Job × Outcome)} {job : Job} {o : Outcome}
    (retried : AllRetried p ends) (retries : p.Retries o)
    (left : ends.length < p.maxAttempts.val) : AllRetried p (ends ++ [(job, o)]) := by
  intro k r there
  rcases getElem?_concat there with there | ⟨rfl, rfl⟩
  · exact retried k r there
  · exact ⟨retries, left⟩

/-- Every run was given the retries before it, the one that has just ended included. -/
theorem Sound.given_concat {job : Job} {o : Outcome} (sound : T.Sound first p w)
    (counted : job.retries.val = T.ends.length) (k : Nat) (r : Job × Outcome)
    (there : (T.ends ++ [(job, o)])[k]? = some r) : r.1.retries.val = k := by
  rcases getElem?_concat there with there | ⟨rfl, rfl⟩
  · exact sound.given k r there
  · exact counted

namespace Sound

variable (sound : T.Sound first p w)
include sound

theorem of_unstored (unstored : ¬T.stored) :
    T.row = none ∧ T.starts = 0 ∧ T.ends = [] ∧ T.Idle := by
  cases sound.phase with
  | unstored _ none unstarted unended idle => exact ⟨none, unstarted, unended, idle⟩
  | resting _ stored | running _ _ stored | rearming _ _ _ stored | retiring _ _ stored
  | gone stored => exact absurd stored unstored

theorem stored_of_row {row : Job} (there : T.row = some row) : T.stored := by
  by_contra unstored
  cases (sound.of_unstored unstored).1.symm.trans there

/-- A task has nothing to do with the job any more. -/
theorem drop {hand : Hand} (there : T.hands t = some hand) (quiet : hand.isBusy = false) :
    (T.go t none).Sound first p w := by
  refine sound.turn (fun other same => ?_) (fun _ same => nomatch same) nofun
    (claim_go sound.claim fun _ same => nomatch same) fun _ _ _ same => nomatch same
  obtain rfl := Option.some.inj (there.symm.trans same)
  exact quiet

/-- A task claims the job, which nobody else has claimed for the slice. -/
theorem take (free : T.hands t = none) (unclaimed : ∀ u, T.claims u ≠ some slice) :
    (T.go t (some (.claimed slice))).Sound first p w := by
  refine sound.turn (fun hand same => (by cases free.symm.trans same)) ?_ nofun ?_
    fun _ _ _ same => nomatch same
  · intro hand same
    obtain rfl := Option.some.inj same
    rfl
  · intro a b s has has'
    rw [claims_go] at has has'
    split at has <;> split at has'
    · rename_i here here'
      exact here.trans here'.symm
    · exact absurd (has'.trans has.symm) (unclaimed b)
    · exact absurd (has.trans has'.symm) (unclaimed a)
    · exact sound.claim a b s has has'

end Sound

/-- Before the job is submitted nobody has anything to do with it. -/
theorem Sound.init (unstored : ¬T.stored) (row : T.row = none) (starts : T.starts = 0)
    (ends : T.ends = []) (free : ∀ t, T.hands t = none) : T.Sound first p w where
  unknown _ := ⟨unstored, fun t => free t ▸ nofun⟩
  waiting t waits := nomatch (free t).symm.trans waits
  claim t u slice has := by
    rw [claims, free] at has
    cases has
  version job there := nomatch row.symm.trans there
  loads t slice job policy there := nomatch (free t).symm.trans there
  rearms t slice next there := nomatch (free t).symm.trans there
  given k r there := by
    rw [ends] at there
    cases there
  phase := .unstored unstored row starts ends fun t hand there => nomatch (free t).symm.trans there

/-- A submission that begins. -/
theorem Sound.submit (sound : T.Sound first p w) (unknown : ¬T.known) (free : T.hands t = none)
    (part : x = none ∨ x = some .waiting) : { T.go t x with known := True }.Sound first p w := by
  obtain ⟨unstored, nobody⟩ := sound.unknown unknown
  have here {u : Nat × Nat} (waits : (T.go t x).hands u = some .waiting) : u = t := by
    rw [hands_go] at waits
    split at waits
    · assumption
    · exact absurd waits (nobody u)
  have quiet (hand : Hand) (same : x = some hand) : hand = .waiting := by
    rcases part with rfl | rfl
    · cases same
    · exact (Option.some.inj same).symm
  refine ⟨fun unknown' => absurd trivial unknown',
    fun u waits => ⟨unstored, fun v waits' => (here waits').trans (here waits).symm⟩,
    claim_go sound.claim fun s claims => ?_, sound.version,
    sound.loads_go fun slice job policy same => (by cases quiet _ same),
    sound.rearms_go fun slice next same => (by cases quiet _ same), sound.given,
    sound.phase.congr .rfl rfl rfl rfl (busy_go (fun hand same => (by cases free.symm.trans same))
      fun hand same => quiet hand same ▸ rfl)⟩
  rcases part with rfl | rfl <;> cases claims

/-- A submission stores the job. -/
theorem Sound.store (sound : T.Sound first p w) (fresh : first.retries = .zero)
    (own : first.IsVersion first) (waits : T.hands t = some .waiting) :
    { T.go t none with row := some first, stored := True }.Sound first p w := by
  obtain ⟨unstored, single⟩ := sound.waiting t waits
  obtain ⟨absent, unstarted, unended, idle⟩ := sound.of_unstored unstored
  refine ⟨fun unknown => absurd waits ((sound.unknown unknown).2 t), fun u waits' => ?_,
    claim_go sound.claim (fun _ same => nomatch same), fun row same => Option.some.inj same ▸ own,
    fun u slice job policy loaded => ?_, sound.rearms_go (fun _ _ same => nomatch same), sound.given,
    .resting first trivial rfl ?_ ?_ ?_ (idle.go fun _ same => nomatch same)⟩
  · -- the submission was the only one
    have waits' : (T.go t none).hands u = some .waiting := waits'
    obtain rfl := single u (hands_of_waiting (x := none) nofun waits')
    rw [hands_go, if_pos rfl] at waits'
    cases waits'
  · rw [hands_go] at loaded
    split at loaded
    · cases loaded
    · cases absent.symm.trans (sound.loads u slice job policy loaded).1
  · exact unstarted.trans (congrArg List.length unended).symm
  · rw [fresh]
    exact (congrArg List.length unended).symm
  · intro k r there
    have there : T.ends[k]? = some r := there
    rw [unended] at there
    cases there

/-- A task starts the job. -/
theorem Sound.start {job : Job} {policy : RetryPolicy} (sound : T.Sound first p w)
    (loaded : T.hands t = some (.loaded slice job policy)) :
    { T.go t (some (.running slice job policy)) with starts := T.starts + 1 }.Sound first p w := by
  obtain ⟨stored, found, rfl, rfl, begun, counted, retried, idle⟩ := sound.of_loaded loaded
  exact ⟨sound.unknown_go nofun, sound.waiting_go nofun,
    claim_go sound.claim fun s same => (claims_of_hand loaded).trans same, sound.version,
    sound.loads_go (fun _ _ _ same => nomatch same),
    sound.rearms_go (fun _ _ same => nomatch same), sound.given,
    .running t job stored found (Function.update_self ..) (congrArg (· + 1) begun) counted retried
      idle.alone_go⟩

/-- A run has failed, and is to be retried. -/
theorem Sound.retry {job : Job} {policy : RetryPolicy} {o : Outcome} (sound : T.Sound first p w)
    (time : Instant) (runs : T.hands t = some (.running slice job policy)) (retries : p.Retries o)
    (left : job.retries.val < p.maxAttempts.val) :
    { T.go t (some (.rearming slice (job.rescheduled (.single time) job.retries.succ))) with
      ends := T.ends ++ [(job, o)] }.Sound first p w := by
  obtain ⟨stored, found, rfl, rfl, begun, counted, retried, alone⟩ := sound.of_running runs
  have version : first.IsVersion (job.rescheduled (.single time) job.retries.succ) := by
    obtain ⟨_, _, rfl⟩ := sound.version job found
    exact ⟨time, _, rfl⟩
  have more : (T.ends ++ [(job, o)]).length = T.ends.length + 1 := List.length_append
  refine ⟨sound.unknown_go nofun, sound.waiting_go nofun,
    claim_go sound.claim fun s same => (claims_of_hand runs).trans same, sound.version,
    sound.loads_go (fun _ _ _ same => nomatch same), sound.rearms_go ?_, sound.given_concat counted,
    .rearming t job _ stored found (Function.update_self ..) (begun.trans more.symm) ?_ ?_
      (retried.concat retries (counted ▸ left)) alone.go⟩
  · intro s next same
    obtain ⟨-, rfl⟩ := Hand.rearming.inj (Option.some.inj same)
    exact version
  · rw [more, counted]
  · have last := p.maxAttempts.val_le
    show job.retries.succ.val = _
    rw [Count.val_succ, more]
    omega

/-- A run has come to an end that is not to be retried. -/
theorem Sound.finish {job : Job} {policy : RetryPolicy} {o : Outcome} (sound : T.Sound first p w)
    (runs : T.hands t = some (.running slice job policy))
    (last : ¬(p.Retries o ∧ job.retries.val < p.maxAttempts.val)) :
    { T.go t (some (.retiring slice)) with ends := T.ends ++ [(job, o)] }.Sound first p w := by
  obtain ⟨stored, found, rfl, rfl, begun, counted, retried, alone⟩ := sound.of_running runs
  have more : (T.ends ++ [(job, o)]).length = T.ends.length + 1 := List.length_append
  refine ⟨sound.unknown_go nofun, sound.waiting_go nofun,
    claim_go sound.claim fun s same => (claims_of_hand runs).trans same, sound.version,
    sound.loads_go (fun _ _ _ same => nomatch same),
    sound.rearms_go (fun _ _ same => nomatch same), sound.given_concat counted,
    .retiring t job stored found (Function.update_self ..) (begun.trans more.symm) ?_
      ⟨T.ends, _, rfl, retried, counted ▸ last⟩ alone.go⟩
  rw [more, counted]

/-- A retry is recorded. -/
theorem Sound.record {next : Job} (sound : T.Sound first p w)
    (rearms : T.hands t = some (.rearming slice next)) :
    { T.go t (some (.claimed slice)) with row := some next }.Sound first p w := by
  obtain ⟨stored, ⟨row, found, rfl, -⟩, begun, counted, retried, alone⟩ := sound.of_rearming rearms
  refine ⟨sound.unknown_go nofun, sound.waiting_go nofun,
    claim_go sound.claim fun s same => (claims_of_hand rearms).trans same,
    fun row same => Option.some.inj same ▸ sound.rearms t _ next rearms,
    fun u s job policy loaded => ?_, sound.rearms_go (fun _ _ same => nomatch same), sound.given,
    .resting next stored rfl begun counted retried (alone.idle_go ?_)⟩
  · exact absurd loaded (sound.unloaded_go found (claims_of_hand rearms) (by nofun) u)
  · intro hand same
    obtain rfl := Option.some.inj same
    rfl

/-- The row is deleted. -/
theorem Sound.delete (sound : T.Sound first p w) (retires : T.hands t = some (.retiring slice)) :
    { T.go t none with row := none }.Sound first p w := by
  obtain ⟨stored, ⟨row, found, rfl⟩, begun, final, alone⟩ := sound.of_retiring retires
  refine ⟨sound.unknown_go nofun, sound.waiting_go nofun,
    claim_go sound.claim (fun _ same => nomatch same), (fun _ same => nomatch same),
    fun u s job policy loaded => ?_, sound.rearms_go (fun _ _ same => nomatch same), sound.given,
    .gone stored rfl begun final (alone.idle_go fun _ same => nomatch same)⟩
  exact absurd loaded (sound.unloaded_go found (claims_of_hand retires) (by nofun) u)

/-- Every step keeps the job sound. -/
theorem Sound.step {T' : Trials} (sound : T.Sound first p w) (fresh : first.retries = .zero)
    (single : ∃ time, first.trigger = .single time) (step : T.Step first p w T') :
    T'.Sound first p w := by
  cases step with
  | idle => exact sound
  | submit t unknown free part => exact sound.submit unknown free part
  | refuse waits => exact sound.drop waits rfl
  | store waits =>
    obtain ⟨time, same⟩ := single
    exact sound.store fresh ⟨time, first.retries, same ▸ rfl⟩ waits
  | claim free unclaimed => exact sound.take free unclaimed
  | @hand t u slice claimed free =>
    -- the claim is given up by the one task before it is taken by the other
    have apart : u ≠ t := by
      rintro rfl
      cases free.symm.trans claimed
    have comm : (T.go u (some (.claimed slice))).go t none =
        (T.go t none).go u (some (.claimed slice)) :=
      congrArg (fun hands => { T with hands }) (Function.update_comm apart ..)
    rw [comm]
    refine (sound.drop claimed rfl).take ?_ fun v has => ?_
    · rw [hands_go, if_neg apart]
      exact free
    · rw [claims_go] at has
      split at has
      · cases has
      · rename_i other
        exact other (sound.claim v t slice has (claims_of_hand claimed))
  | drop claimed => exact sound.drop claimed rfl
  | load claimed found here policed =>
    refine sound.turn (fun hand same => ?_) (fun hand same => ?_) nofun
      (claim_go sound.claim fun s same => (claims_of_hand claimed).trans same) ?_
    · obtain rfl := Option.some.inj (claimed.symm.trans same)
      rfl
    · obtain rfl := Option.some.inj same
      rfl
    · intro slice job policy same
      obtain ⟨rfl, rfl, rfl⟩ := Hand.loaded.inj (Option.some.inj same)
      obtain ⟨_, _, rfl⟩ := sound.version _ found
      exact ⟨found, here, policed rfl⟩
  | start loaded => exact sound.start loaded
  | retry time runs retries left => exact sound.retry time runs retries left
  | finish runs last => exact sound.finish runs last
  | record rearms => exact sound.record rearms
  | delete retires => exact sound.delete retires

/-! ## What holds at any time -/

theorem AllRetried.length_le {ends : List (Job × Outcome)} (retried : AllRetried p ends) :
    ends.length ≤ p.maxAttempts.val := by
  rcases List.eq_nil_or_concat ends with rfl | ⟨before, last, rfl⟩
  · exact Nat.zero_le _
  · rw [List.length_concat]
    exact (retried before.length last (by rw [List.concat_eq_append, List.getElem?_concat_length])).2

theorem AllRetried.of_retries {ends : List (Job × Outcome)} (retries : ∀ r ∈ ends, p.Retries r.2)
    (left : ends.length ≤ p.maxAttempts.val) : AllRetried p ends :=
  fun _ r there => ⟨retries r (List.mem_of_getElem? there),
    Nat.lt_of_lt_of_le (List.getElem?_eq_some_iff.mp there).1 left⟩

/-- While every run was retried, another one is to follow. -/
theorem AllRetried.not_isOver {ends : List (Job × Outcome)} (retried : AllRetried p ends) :
    ¬p.IsOver ends := by
  rintro ⟨last, there, spent⟩
  obtain ⟨k, there⟩ := List.mem_iff_getElem?.mp (List.mem_of_getLast? there)
  exact absurd retried.length_le (Nat.not_le.mpr (spent (retried k last there).1))

theorem Final.isOver {ends : List (Job × Outcome)} (final : Final p ends) : p.IsOver ends := by
  obtain ⟨before, last, rfl, -, spent⟩ := final
  refine ⟨last, List.getLast?_concat, fun retries => ?_⟩
  rw [List.length_append, List.length_singleton]
  by_contra left
  exact spent ⟨retries, by omega⟩

/-- The runs are over with the last retry at the latest. -/
theorem Final.length_le {ends : List (Job × Outcome)} (final : Final p ends) :
    ends.length ≤ p.maxAttempts.val + 1 := by
  obtain ⟨before, last, rfl, retried, -⟩ := final
  rw [List.length_append, List.length_singleton]
  exact Nat.succ_le_succ retried.length_le

/-- A run that was not to be retried is the last one. -/
theorem Final.length_eq_one {ends : List (Job × Outcome)} {r : Job × Outcome}
    (final : Final p ends) (head : ends.head? = some r) (last : ¬p.Retries r.2) :
    ends.length = 1 := by
  obtain ⟨before, _, rfl, retried, -⟩ := final
  cases before with
  | nil => rfl
  | cons r' before =>
    obtain rfl := Option.some.inj head
    exact absurd (retried 0 r' rfl).1 last

/-- When every run was to be retried, all runs that the policy allows have been made. -/
theorem Final.length_eq {ends : List (Job × Outcome)} (final : Final p ends)
    (retries : ∀ r ∈ ends, p.Retries r.2) : ends.length = p.maxAttempts.val + 1 := by
  obtain ⟨last, there, spent⟩ := final.isOver
  have enough := spent (retries last (List.mem_of_getLast? there))
  have most := final.length_le
  omega

namespace Sound

variable (sound : T.Sound first p w)
include sound

theorem starts_bounds : T.ends.length ≤ T.starts ∧ T.starts ≤ T.ends.length + 1 := by
  cases sound.phase with
  | unstored _ _ unstarted unended =>
    rw [unstarted, unended]
    exact ⟨Nat.le_refl 0, Nat.zero_le 1⟩
  | running _ _ _ _ _ begun =>
    rw [begun]
    exact ⟨Nat.le_succ _, Nat.le_refl _⟩
  | resting _ _ _ begun | rearming _ _ _ _ _ _ begun | retiring _ _ _ _ _ begun | gone _ _ begun =>
    rw [begun]
    exact ⟨Nat.le_refl _, Nat.le_succ _⟩

/-- A run that has begun and has not ended has a task that waits for its executor. -/
theorem running_of_starts (more : T.starts = T.ends.length + 1) :
    ∃ t slice job policy, T.hands t = some (.running slice job policy) := by
  cases sound.phase with
  | unstored _ _ unstarted unended =>
    rw [unstarted, unended] at more
    cases more
  | running t row _ _ runs => exact ⟨t, _, row, _, runs⟩
  | resting _ _ _ begun | rearming _ _ _ _ _ _ begun | retiring _ _ _ _ _ begun | gone _ _ begun =>
    exact absurd (begun.symm.trans more) (Nat.ne_of_lt (Nat.lt_succ_self _))

/-- There is one run besides the retries. -/
theorem starts_le : T.starts ≤ p.maxAttempts.val + 1 := by
  cases sound.phase with
  | unstored _ _ unstarted =>
    rw [unstarted]
    exact Nat.zero_le _
  | running _ _ _ _ _ begun _ retried =>
    rw [begun]
    exact Nat.succ_le_succ retried.length_le
  | resting _ _ _ begun _ retried | rearming _ _ _ _ _ _ begun _ _ retried =>
    rw [begun]
    exact Nat.le_succ_of_le retried.length_le
  | retiring _ _ _ _ _ begun _ final | gone _ _ begun final =>
    rw [begun]
    exact final.length_le

/-- The row counts the runs that were retried, or a task is about to write that it does. -/
theorem row_counts (stored : T.stored) (retried : AllRetried p T.ends) :
    ∃ row, T.row = some row ∧ (row.retries.val = T.ends.length ∨
      ∃ t slice next, T.hands t = some (.rearming slice next) ∧
        next.retries.val = T.ends.length) := by
  cases sound.phase with
  | unstored unstored => exact absurd stored unstored
  | resting row _ there _ counted => exact ⟨row, there, .inl counted⟩
  | running _ row _ there _ _ counted => exact ⟨row, there, .inl counted⟩
  | rearming t row next _ there rearms _ _ counted =>
    exact ⟨row, there, .inr ⟨t, _, next, rearms, counted⟩⟩
  | retiring _ _ _ _ _ _ _ final | gone _ _ _ final => exact absurd final.isOver retried.not_isOver

/-- The row is not deleted before the last run is over. -/
theorem final_of_gone (stored : T.stored) (gone : T.row = none) :
    Final p T.ends ∧ T.starts = T.ends.length := by
  cases sound.phase with
  | unstored unstored => exact absurd stored unstored
  | gone _ _ begun final => exact ⟨final, begun⟩
  | resting _ _ there | running _ _ _ there | rearming _ _ _ _ there | retiring _ _ _ there =>
    cases gone.symm.trans there

/-- After the last run the row is gone, or a task is about to delete it. -/
theorem gone_of_isOver (spent : p.IsOver T.ends) : T.starts = T.ends.length ∧
    (T.row = none ∨ ∃ t slice, T.hands t = some (.retiring slice)) := by
  cases sound.phase with
  | unstored _ _ _ unended =>
    obtain ⟨last, there, -⟩ := spent
    rw [unended] at there
    cases there
  | resting _ _ _ _ _ retried | running _ _ _ _ _ _ _ retried | rearming _ _ _ _ _ _ _ _ _ retried =>
    exact absurd spent retried.not_isOver
  | retiring t _ _ _ retires begun => exact ⟨begun, .inr ⟨t, _, retires⟩⟩
  | gone _ absent begun => exact ⟨begun, .inl absent⟩

/-- When the first run is not to be retried, it is the only one. -/
theorem starts_eq_one {r : Job × Outcome} (head : T.ends.head? = some r) (last : ¬p.Retries r.2) :
    T.starts = 1 := by
  have there : T.ends[0]? = some r := List.head?_eq_getElem?.symm.trans head
  cases sound.phase with
  | unstored _ _ _ unended =>
    rw [unended] at there
    cases there
  | resting _ _ _ _ _ retried | running _ _ _ _ _ _ _ retried | rearming _ _ _ _ _ _ _ _ _ retried =>
    exact absurd (retried 0 r there).1 last
  | retiring _ _ _ _ _ begun _ final | gone _ _ begun final =>
    exact begun.trans (final.length_eq_one head last)

end Sound

end Trials

end SliceScheduler
