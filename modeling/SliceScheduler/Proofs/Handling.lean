import Mathlib.Logic.Relation
import SliceScheduler.Proofs.JobOutcome
import SliceScheduler.Proofs.JobStory
/-!
# Jobs whose records are interrupted

A slice is dispatched any number of times while calls to the store fail. A call that fails changes
nothing, and a job that was given up is set off anew as long as it is pending.

1. `Handling` is how far a node has come with a job, and `Handling.Step` lists what may happen next;
2. `Handling.Phase` is what is recorded of the job and what is left to do, and `Handling.Phase.step`
   says that every step keeps this up;
3. `Handling.Run.accounted` is the result: a job that is no longer pending in its slice is accounted
   for, unless the call failed that was to enter it into the slice of its new trigger;
4. `Handling.exists_dropped` says that this happens: every job that goes on is dropped when that
   call fails and the slice is dispatched once more.

The row is written before the index of the new slice. Between the two the job is pending only in the
slice that it leaves, where the next dispatch takes it for a job that has been moved on already.
-/
namespace SliceScheduler

open Program

namespace JobEntry

variable {e : JobEntry} {slice target : Slice}

/-- A job that is marked finished in a slice is not pending in it. -/
theorem not_pending_addFinished (e : JobEntry) (id : JobId) :
    ¬(e.after (.addFinished slice id)).pending slice :=
  fun pending => pending.2 (Solo.finished_here rfl)

/-- Whether a job is pending in a slice does not depend on the index of another. -/
theorem pending_of_other (other : slice ≠ target) (id : JobId) (pending : e.pending target) :
    (e.after (.addFinished slice id)).pending target ∧
      (e.after (.removeScheduled slice id)).pending target := by
  simpa [JobEntry.pending, after, Function.update_of_ne other.symm] using pending

end JobEntry

/-- How far a node has come with a job, with the calls that it made and their answers. -/
structure Handling extends Course where
  calls : List Exchange

namespace Handling

section Steps

variable (desk : Desk) (slice : Slice) (id : JobId)

/-- Nothing was done with the job yet. -/
def start (e : JobEntry) : Handling := ⟨⟨e, .spent, [], []⟩, []⟩

/-- After a call with an answer that left the entry as given. -/
def hear (h : Handling) (s : JobStage) (answer : (s.op desk.width slice id).Result)
    (entry : JobEntry) : Handling :=
  let reaction := s.react desk.width desk slice id answer
  { h with
    entry
    next := reaction.2
    events := h.events ++ reaction.1
    calls := h.calls ++ [⟨s.op desk.width slice id, answer⟩] }

/-- After a call that reached the store. -/
def answered (h : Handling) (s : JobStage) : Handling :=
  let op := s.op desk.width slice id
  h.hear desk slice id s (h.entry.answer op) (h.entry.after op)

/-- After a call that failed. -/
def failed (h : Handling) (s : JobStage) (e : StoreError) : Handling :=
  h.hear desk slice id s (.error e) h.entry

/-- After the run of an executor. -/
def conclude (h : Handling) (job : Job) (registration : Registration) (o : Outcome)
    (now : Instant) : Handling :=
  let ended := JobStage.outcome now desk slice id job registration.policy o
  { h with
    next := .call ended.2
    events := h.events ++ ended.1
    executed := h.executed ++ [(registration, job)] }

/-- What may happen next. A store that fails does not say that something is not there, and the clock
is not before the slice when an executor has come to an end. -/
inductive Step (h : Handling) : Handling → Prop
  | answered {s : JobStage} : h.next = .call s → Step h (h.answered desk slice id s)
  | failed {s : JobStage} {e : StoreError} : h.next = .call s → (∀ what, e ≠ .notFound what) →
    Step h (h.failed desk slice id s e)
  | ended {job : Job} {registration : Registration} {now : Instant} (o : Outcome) :
    h.next = .execute job registration → slice ≤ Slice.containing now desk.width →
    (Slice.containing now desk.width).HasNext desk.width →
    Step h (h.conclude desk slice id job registration o now)
  /-- The slice is dispatched once more. -/
  | dispatched : h.next = .spent → h.entry.pending slice → Step h { h with next := .call .load }

/-- Any number of steps. -/
abbrev Run : Handling → Handling → Prop := Relation.ReflTransGen (Step desk slice id)

/-! ## What is recorded of a job -/

/-- It was told what came of the job at last. -/
def Reported (first : Job) (h : Handling) : Prop :=
  ∃ (registration : Registration) (o : Outcome) (now : Instant),
    first.onward? registration.policy desk.width now o = none ∧
      first.ending registration.policy desk.width now o slice id ∈ h.events

/-- Nothing is recorded yet of the last run of the job. -/
def Unrecorded (first : Job) (h : Handling) : Prop :=
  match h.next with
  | .spent | .call .load | .call (.deadLetter _) => True
  | .call (.activate job _) | .execute job _ => job = first
  | .call (.update next) => next.id = id ∧ slice ≠ next.slice desk.width
  | .call (.retire other) => other = id ∧ Reported desk slice id first h
  | _ => False

/-- Nothing is left to do with a job but to mark it finished. -/
def Passes (h : Handling) : Prop :=
  match h.next with
  | .spent | .call .load | .call .pass => True
  | _ => False

/-- What is recorded of a job, and what is left to do. -/
inductive Phase (first : Job) (h : Handling) : Prop
  | unrecorded : h.entry.row = some first → h.entry.pending slice →
    (∀ other, other ≠ slice → ¬h.entry.finished other) → h.Unrecorded desk slice id first →
    Phase first h
  | deadLettered {type : String} : .jobDeadLettered id type slice ∈ h.events →
    ¬h.entry.pending slice → h.next = .spent → Phase first h
  | reported : h.Reported desk slice id first → ¬h.entry.pending slice →
    h.next = .call (.delete id) ∨
      h.next = .spent ∧ (∃ e, (⟨.deleteJob id, .error e⟩ : Exchange) ∈ h.calls) → Phase first h
  | deleted : h.entry.row = none → ¬h.entry.pending slice → h.next = .spent → Phase first h
  /-- The row names the slice of the new trigger, which the job is to be entered into. -/
  | entering {next : Job} : h.entry.row = some next → next.id = id →
    slice ≠ next.slice desk.width → h.entry.pending slice →
    ¬h.entry.finished (next.slice desk.width) → h.next = .call (.enter next) → Phase first h
  /-- That call has failed. -/
  | torn {next : Job} {e : StoreError} : h.entry.row = some next →
    slice ≠ next.slice desk.width →
    (⟨.addScheduled (next.slice desk.width) id, .error e⟩ : Exchange) ∈ h.calls → h.Passes →
    Phase first h
  | moved {next : Job} : h.entry.row = some next → next.id = id → slice ≠ next.slice desk.width →
    h.entry.pending (next.slice desk.width) →
    h.Passes ∨ h.next = .call (.finish next) ∨ h.next = .call (.leave next) → Phase first h

end Steps

variable {desk : Desk} {slice : Slice} {id : JobId} {first : Job} {h h' : Handling}

/-! ## What a step is -/

/-- The next call is answered, or fails. -/
theorem Step.of_call {s : JobStage} (step : h.Step desk slice id h') (next : h.next = .call s) :
    h' = h.answered desk slice id s ∨
      ∃ e : StoreError, (∀ what, e ≠ .notFound what) ∧ h' = h.failed desk slice id s e := by
  cases step with
  | answered calls =>
    obtain rfl := JobNext.call.inj (calls.symm.trans next)
    exact .inl rfl
  | failed calls honest =>
    obtain rfl := JobNext.call.inj (calls.symm.trans next)
    exact .inr ⟨_, honest, rfl⟩
  | ended _ runs => cases runs.symm.trans next
  | dispatched spent => cases spent.symm.trans next

/-- The run of an executor comes to an end. -/
theorem Step.of_execute {job : Job} {registration : Registration} (step : h.Step desk slice id h')
    (next : h.next = .execute job registration) : ∃ o now,
      slice ≤ Slice.containing now desk.width ∧
        (Slice.containing now desk.width).HasNext desk.width ∧
        h' = h.conclude desk slice id job registration o now := by
  cases step with
  | answered calls | failed calls => cases next.symm.trans calls
  | ended o runs begun hasNext =>
    obtain ⟨rfl, rfl⟩ := JobNext.execute.inj (runs.symm.trans next)
    exact ⟨o, _, begun, hasNext, rfl⟩
  | dispatched spent => cases next.symm.trans spent

/-- A job that was given up is set off again only while it is pending. -/
theorem Step.of_spent (step : h.Step desk slice id h') (next : h.next = .spent) :
    h.entry.pending slice ∧ h' = { h with next := .call .load } := by
  cases step with
  | answered calls | failed calls | ended _ calls => cases next.symm.trans calls
  | dispatched _ pending => exact ⟨pending, rfl⟩

/-- A job is given up when a call fails. -/
theorem next_failed {e : StoreError} (honest : ∀ what, e ≠ .notFound what) (s : JobStage) :
    (h.failed desk slice id s e).next = .spent := by
  cases s with
  | load =>
    cases e with
    | notFound what => exact absurd rfl (honest what)
    | _ => rfl
  | _ => rfl

/-- A call that fails is written down. -/
theorem mem_calls_failed (s : JobStage) (e : StoreError) :
    (⟨s.op desk.width slice id, .error e⟩ : Exchange) ∈ (h.failed desk slice id s e).calls :=
  List.mem_append_right _ (List.mem_singleton_self _)

/-- A job whose row was read. -/
theorem answered_load {job : Job} (row : h.entry.row = some job) :
    (h.answered desk slice id .load).next = .call (JobStage.loaded desk slice job) ∧
      (h.answered desk slice id .load).events = h.events := by
  simp only [answered, hear, JobStage.op, JobEntry.answer, row, JobStage.react, List.append_nil,
    and_self]

/-- A job whose row was written. -/
theorem answered_update {job : Job} (row : h.entry.row = some job) (next : Job) :
    (h.answered desk slice id (.update next)).next = .call (.enter next) ∧
      (h.answered desk slice id (.update next)).events = h.events := by
  simp only [answered, hear, JobStage.op, JobEntry.answer, row, JobStage.react, List.append_nil,
    and_self]

/-- What came of the run of an executor is told. -/
theorem events_conclude (job : Job) (registration : Registration) (o : Outcome) (now : Instant) :
    (h.conclude desk slice id job registration o now).events =
      h.events ++ [job.ending registration.policy desk.width now o slice id] := by
  refine congrArg (h.events ++ ·) ?_
  unfold JobStage.outcome Job.ending Job.retryTime?
  cases o.error? with
  | none => rfl
  | some error =>
    simp only [Option.map_some]
    cases registration.policy.decide job error <;> rfl

/-- Every step is about the job. -/
theorem Step.isOf (step : h.Step desk slice id h') (of : h.IsOf id) : h'.IsOf id := by
  obtain ⟨keyed, about⟩ := of
  cases step with
  | answered next =>
    rw [next] at about
    exact ⟨Course.keyed_after keyed (JobStage.subject_op about), Course.about_react keyed about⟩
  | failed next honest =>
    refine ⟨keyed, ?_⟩
    rw [next_failed honest]
    trivial
  | @ended job registration now o next =>
    rw [next] at about
    refine ⟨keyed, ?_⟩
    show JobStage.IsAbout id (JobStage.outcome ..).2
    rw [JobStage.outcome_eq]
    split <;> exact about
  | dispatched => exact ⟨keyed, trivial⟩

theorem passes_of_spent (spent : h.next = .spent) : h.Passes := by
  unfold Passes
  rw [spent]
  trivial

namespace Phase

/-! ## Every step keeps the phases up -/

/-- The next step with a job of which nothing is recorded yet. -/
theorem step_unrecorded (due : first.slice desk.width = slice) (keyed : first.id = id)
    (regular : first.trigger.Regular desk.width) (row : h.entry.row = some first)
    (pending : h.entry.pending slice)
    (alone : ∀ other, other ≠ slice → ¬h.entry.finished other)
    (left : h.Unrecorded desk slice id first) (step : h.Step desk slice id h') :
    h'.Phase desk slice id first := by
  unfold Unrecorded at left
  cases next : h.next with
  | spent =>
    obtain ⟨-, rfl⟩ := step.of_spent next
    exact .unrecorded row pending alone trivial
  | execute job registration =>
    rw [next] at left
    obtain rfl : job = first := left
    obtain ⟨o, now, begun, hasNext, rfl⟩ := step.of_execute next
    have next' : (h.conclude desk slice id job registration o now).next = .call _ :=
      congrArg JobNext.call (JobStage.outcome_eq now desk slice id job registration.policy o)
    refine .unrecorded row pending alone ?_
    unfold Unrecorded
    cases goes : job.onward? registration.policy desk.width now o with
    | none =>
      rw [next', goes]
      refine ⟨keyed, registration, o, now, goes, ?_⟩
      rw [events_conclude]
      exact List.mem_append_right _ (List.mem_singleton_self _)
    | some onward =>
      obtain ⟨trigger, retries⟩ := onward
      -- it goes on in a later slice, whose index the records of this one leave alone
      rw [next', goes]
      have later := (Job.goesOn_of_onward? goes).lt_slice regular hasNext
      exact ⟨keyed, (lt_of_le_of_lt begun later).ne⟩
  | call s =>
    rw [next] at left
    rcases step.of_call next with rfl | ⟨e, honest, rfl⟩
    · cases s with
      | load =>
        -- the row names the slice still, so that the job is not passed over
        refine .unrecorded row pending alone ?_
        unfold Unrecorded
        rw [(answered_load row).1]
        unfold JobStage.loaded
        rw [if_neg (not_not.mpr due)]
        cases desk.registry[first.type]? with
        | none => trivial
        | some registration => exact rfl
      | deadLetter type =>
        exact .deadLettered (List.mem_append_right _ (List.mem_singleton_self _))
          (JobEntry.not_pending_addFinished _ id) rfl
      | activate job registration => exact .unrecorded row pending alone left
      | update job =>
        obtain ⟨same, other⟩ := left
        refine .entering ?_ same other pending (alone _ other.symm) (answered_update row job).1
        show h.entry.row.map _ = _
        rw [row]
        rfl
      | retire other =>
        obtain ⟨rfl, registration, o, now, ceases, told⟩ := left
        exact .reported ⟨registration, o, now, ceases, List.mem_append_left _ told⟩
          (JobEntry.not_pending_addFinished _ other) (.inl rfl)
      | _ => cases left
    · refine .unrecorded row pending alone ?_
      unfold Unrecorded
      rw [next_failed honest]
      trivial

/-- The next step with a job that is to be entered into the slice of its new trigger. -/
theorem step_entering {next : Job} (row : h.entry.row = some next) (same : next.id = id)
    (other : slice ≠ next.slice desk.width) (unfinished : ¬h.entry.finished (next.slice desk.width))
    (left : h.next = .call (.enter next)) (step : h.Step desk slice id h') :
    h'.Phase desk slice id first := by
  rcases step.of_call left with rfl | ⟨e, honest, rfl⟩
  · refine .moved row same other ⟨?_, unfinished⟩ (.inr (.inl rfl))
    show Function.update h.entry.scheduled (next.slice desk.width) True _
    rw [Function.update_self]
    trivial
  · subst same
    exact .torn row other (mem_calls_failed (.enter next) e)
      (passes_of_spent (next_failed honest _))

/-- The next step with a job that is only to be marked finished, because its row names another
slice: the row stays, and the entries of other slices. -/
theorem step_passes {next : Job} (row : h.entry.row = some next)
    (other : slice ≠ next.slice desk.width) (left : h.Passes) (step : h.Step desk slice id h') :
    h'.entry.row = some next ∧ h'.Passes ∧ h.calls <+: h'.calls ∧
      ∀ target, slice ≠ target → h.entry.pending target → h'.entry.pending target := by
  unfold Passes at left ⊢
  cases next : h.next with
  | spent =>
    obtain ⟨-, rfl⟩ := step.of_spent next
    exact ⟨row, trivial, List.prefix_refl _, fun _ _ pending => pending⟩
  | execute job registration =>
    rw [next] at left
    cases left
  | call s =>
    rw [next] at left
    rcases step.of_call next with rfl | ⟨e, honest, rfl⟩
    · cases s with
      | load =>
        rw [(answered_load row).1]
        unfold JobStage.loaded
        rw [if_pos other.symm]
        exact ⟨row, trivial, List.prefix_append .., fun _ _ pending => pending⟩
      | pass =>
        exact ⟨row, trivial, List.prefix_append ..,
          fun _ other pending => (JobEntry.pending_of_other other id pending).1⟩
      | _ => cases left
    · rw [next_failed honest]
      exact ⟨row, trivial, List.prefix_append .., fun _ _ pending => pending⟩

/-- The next step with a job that is pending in the slice of its new trigger. -/
theorem step_moved {next : Job} (row : h.entry.row = some next) (same : next.id = id)
    (other : slice ≠ next.slice desk.width) (pending : h.entry.pending (next.slice desk.width))
    (left : h.Passes ∨ h.next = .call (.finish next) ∨ h.next = .call (.leave next))
    (step : h.Step desk slice id h') : h'.Phase desk slice id first := by
  rcases left with passes | finishes | leaves
  · obtain ⟨row', passes', -, kept⟩ := step_passes row other passes step
    exact .moved row' same other (kept _ other pending) (.inl passes')
  · rcases step.of_call finishes with rfl | ⟨e, honest, rfl⟩
    · have there := (JobEntry.pending_of_other other next.id pending).1
      exact .moved row same other there (.inr (.inr rfl))
    · exact .moved row same other pending (.inl (passes_of_spent (next_failed honest _)))
  · rcases step.of_call leaves with rfl | ⟨e, honest, rfl⟩
    · have there := (JobEntry.pending_of_other other next.id pending).2
      exact .moved row same other there (.inl (passes_of_spent rfl))
    · exact .moved row same other pending (.inl (passes_of_spent (next_failed honest _)))

/-- Every step keeps up what is recorded of a job. -/
theorem step (due : first.slice desk.width = slice) (keyed : first.id = id)
    (regular : first.trigger.Regular desk.width) (phase : h.Phase desk slice id first)
    (step : h.Step desk slice id h') : h'.Phase desk slice id first := by
  cases phase with
  | unrecorded row pending alone left =>
    exact step_unrecorded due keyed regular row pending alone left step
  | deadLettered told idle spent => exact absurd (step.of_spent spent).1 idle
  | deleted row idle spent => exact absurd (step.of_spent spent).1 idle
  | reported told idle left =>
    rcases left with deletes | ⟨spent, -⟩
    · rcases step.of_call deletes with rfl | ⟨e, honest, rfl⟩
      · exact .deleted rfl idle rfl
      · obtain ⟨registration, o, now, ceases, told⟩ := told
        exact .reported ⟨registration, o, now, ceases, List.mem_append_left _ told⟩ idle
          (.inr ⟨rfl, e, mem_calls_failed (.delete id) e⟩)
    · exact absurd (step.of_spent spent).1 idle
  | entering row same other pending unfinished left =>
    exact step_entering row same other unfinished left step
  | torn row other failed left =>
    obtain ⟨row', left', earlier, -⟩ := step_passes row other left step
    exact .torn row' other (earlier.subset failed) left'
  | moved row same other pending left => exact step_moved row same other pending left step

end Phase

/-! ## Runs -/

/-- What has become of a job that is no longer pending in its slice. -/
inductive Accounted (desk : Desk) (slice : Slice) (id : JobId) (first : Job) (h : Handling) : Prop
  | deleted : h.entry.row = none → Accounted desk slice id first h
  | deadLettered {type : String} : .jobDeadLettered id type slice ∈ h.events →
    Accounted desk slice id first h
  /-- What came of it at last was told, and its row is to be deleted next, or that has failed. -/
  | reported : h.Reported desk slice id first →
    h.next = .call (.delete id) ∨ (∃ e, (⟨.deleteJob id, .error e⟩ : Exchange) ∈ h.calls) →
    Accounted desk slice id first h
  /-- It is pending in the slice that its row names. -/
  | moved {next : Job} : h.entry.row = some next → h.entry.pending (next.slice desk.width) →
    Accounted desk slice id first h

section Runs

variable {e : JobEntry} (row : e.row = some first) (keyed : first.id = id)
  (due : first.slice desk.width = slice) (regular : first.trigger.Regular desk.width)
  (pending : e.pending slice) (alone : ∀ other, other ≠ slice → ¬e.finished other)
include row keyed due regular pending alone

theorem Run.phase (run : Run desk slice id (start e) h) : h.Phase desk slice id first := by
  induction run with
  | refl => exact .unrecorded row pending alone trivial
  | tail _ step ih => exact ih.step due keyed regular step

/-- A job that is pending in its slice, and is finished in no other, is accounted for when it is no
longer pending there, or else the call failed that was to enter it into the slice that its row
names. That is so at any time, however often the slice is dispatched, whichever calls fail and
whatever executors make of the job. -/
theorem Run.accounted (run : Run desk slice id (start e) h) (left : ¬h.entry.pending slice) :
    h.Accounted desk slice id first ∨ ∃ (next : Job) (error : StoreError),
      h.entry.row = some next ∧ slice ≠ next.slice desk.width ∧
      (⟨.addScheduled (next.slice desk.width) id, .error error⟩ : Exchange) ∈ h.calls := by
  cases run.phase row keyed due regular pending alone with
  | unrecorded _ here => exact absurd here left
  | deadLettered told => exact .inl (.deadLettered told)
  | reported told _ outstanding => exact .inl (.reported told (outstanding.imp_right And.right))
  | deleted gone => exact .inl (.deleted gone)
  | entering _ _ _ here => exact absurd here left
  | torn row other failed => exact .inr ⟨_, _, row, other, failed⟩
  | moved row _ _ there => exact .inl (.moved row there)

end Runs

/-! ## A job that is dropped -/

/-- Nothing more happens to a job that was given up and is not pending in its slice. -/
theorem Run.eq_of_idle (run : Run desk slice id h h') (spent : h.next = .spent)
    (idle : ¬h.entry.pending slice) : h' = h := by
  rcases Relation.ReflTransGen.cases_head run with rfl | ⟨_, step, -⟩
  · rfl
  · exact absurd (step.of_spent spent).1 idle

section Dropped

variable (id)

/-- The next dispatch of a job whose row names another slice marks it finished, if the calls
succeed. -/
theorem exists_passed {next : Job} (row : h.entry.row = some next)
    (other : slice ≠ next.slice desk.width) (pending : h.entry.pending slice)
    (spent : h.next = .spent) : ∃ h', Run desk slice id h h' ∧ h'.next = .spent ∧
      h'.entry = h.entry.after (.addFinished slice id) ∧ h'.events = h.events := by
  let again : Handling := { h with next := .call .load }
  let loaded := again.answered desk slice id .load
  obtain ⟨passes, told⟩ : loaded.next = .call _ ∧ loaded.events = h.events := answered_load row
  rw [JobStage.loaded, if_pos other.symm] at passes
  have set : h.Step desk slice id again := .dispatched spent pending
  have loads : again.Step desk slice id loaded := .answered rfl
  have marks : loaded.Step desk slice id (loaded.answered desk slice id .pass) := .answered passes
  exact ⟨_, ((Relation.ReflTransGen.single set).tail loads).tail marks, rfl, rfl,
    (List.append_nil _).trans told⟩

/-- A job that goes on is given up, with a row that names the slice of its new trigger, when the
call fails that is to enter it there. -/
theorem exists_torn {e : JobEntry} (row : e.row = some first) (due : first.slice desk.width = slice)
    (pending : e.pending slice) {registration : Registration}
    (registered : desk.registry[first.type]? = some registration) {o : Outcome} {now : Instant}
    (begun : slice ≤ Slice.containing now desk.width)
    (hasNext : (Slice.containing now desk.width).HasNext desk.width) {trigger : Trigger}
    {retries : Count}
    (goes : first.onward? registration.policy desk.width now o = some (trigger, retries)) :
    ∃ h, Run desk slice id (start e) h ∧ h.next = .spent ∧
      h.entry = { e with
        row := some (first.rescheduled trigger retries)
        active := Function.update e.active slice True } ∧
      h.events = [.jobStarted id first.type slice,
        first.ending registration.policy desk.width now o slice id] := by
  let next := first.rescheduled trigger retries
  let dispatched : Handling := { start e with next := .call .load }
  let loaded := dispatched.answered desk slice id .load
  obtain ⟨activates, silent⟩ : loaded.next = .call _ ∧ loaded.events = [] := answered_load row
  rw [JobStage.loaded, if_neg (not_not.mpr due), registered] at activates
  let active := loaded.answered desk slice id (.activate first registration)
  let ended := active.conclude desk slice id first registration o now
  have updates : ended.next = .call (.update next) := by
    refine (congrArg JobNext.call (JobStage.outcome_eq now desk slice id first _ o)).trans ?_
    rw [goes]
  let updated := ended.answered desk slice id (.update next)
  obtain ⟨enters, silent'⟩ : updated.next = .call (.enter next) ∧ updated.events = ended.events :=
    answered_update row next
  have set : (start e).Step desk slice id dispatched := .dispatched rfl pending
  have loads : dispatched.Step desk slice id loaded := .answered rfl
  have marks : loaded.Step desk slice id active := .answered activates
  have runs : active.Step desk slice id ended := .ended o rfl begun hasNext
  have writes : ended.Step desk slice id updated := .answered updates
  have fails : updated.Step desk slice id (updated.failed desk slice id (.enter next) .poisoned) :=
    .failed enters fun what same => by cases same
  refine ⟨_, (((((Relation.ReflTransGen.single set).tail loads).tail marks).tail runs).tail
    writes).tail fails, rfl, ?_, ?_⟩
  · show { e with row := e.row.map fun _ => next, active := _ } = _
    rw [row]
    rfl
  · show updated.events ++ [] = _
    rw [silent', events_conclude, List.append_nil]
    show loaded.events ++ [_] ++ [_] = _
    rw [silent]
    rfl

/-- Whatever job goes on may be dropped: when the call fails that is to enter it into the slice of
its new trigger and its slice is dispatched once more, its row stays, it is pending nowhere, nothing
was told but how its run ended, and nothing more happens to it. -/
theorem exists_dropped {e : JobEntry} (row : e.row = some first)
    (due : first.slice desk.width = slice) (regular : first.trigger.Regular desk.width)
    (pending : e.pending slice) (alone : ∀ other, other ≠ slice → ¬e.pending other)
    {registration : Registration} (registered : desk.registry[first.type]? = some registration)
    {o : Outcome} {now : Instant} (begun : slice ≤ Slice.containing now desk.width)
    (hasNext : (Slice.containing now desk.width).HasNext desk.width) {trigger : Trigger}
    {retries : Count}
    (goes : first.onward? registration.policy desk.width now o = some (trigger, retries)) :
    ∃ h, Run desk slice id (start e) h ∧ h.entry.row = some (first.rescheduled trigger retries) ∧
      (∀ other, ¬h.entry.pending other) ∧
      h.events = [.jobStarted id first.type slice,
        first.ending registration.policy desk.width now o slice id] ∧
      ∀ h', Run desk slice id h h' → h' = h := by
  obtain ⟨h, run, spent, entry, told⟩ :=
    exists_torn id row due pending registered begun hasNext goes
  have later := (Job.goesOn_of_onward? goes).lt_slice regular hasNext
  have torn : h.entry.row = some (first.rescheduled trigger retries) := by rw [entry]
  have here : h.entry.pending slice := by
    rw [entry]
    exact pending
  obtain ⟨h', run', spent', entry', told'⟩ :=
    exists_passed id torn (lt_of_le_of_lt begun later).ne here spent
  have idle (other : Slice) : ¬h'.entry.pending other := by
    rw [entry']
    by_cases same : other = slice
    · exact same ▸ JobEntry.not_pending_addFinished h.entry id
    · rw [entry]
      simpa [JobEntry.pending, JobEntry.after, Function.update_of_ne same] using alone other same
  refine ⟨h', run.trans run', ?_, idle, told'.trans told, fun h'' more => ?_⟩
  · rw [entry']
    exact torn
  · exact more.eq_of_idle spent' (idle slice)

end Dropped

end Handling

end SliceScheduler
