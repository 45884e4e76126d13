import SliceScheduler.Engine.Alone
import SliceScheduler.Engine.Submit
import SliceScheduler.Proofs.Scenario
import SliceScheduler.Store.Backend
/-!
# What a submission does to the store

A job is submitted to a node by itself, over a store of either kind with any contents, while any of
the calls to the store fail.

1. `FaultPattern` says which calls fail, and `FaultPattern.perform` answers the calls that do not;
2. `Submitted` lists what a submission may come to: the job is accepted and the store has its row
   and its entry in the index; or it is refused and the store is as it was; or the call that enters
   the row into the index failed, and the store has the row without its entry;
3. `Submission.from_schedule` walks through the calls of a submission up to the ones that write, by
   the rules of `Ends`, and says what it has found out about names on the way;
4. `Submission.isAtomic` is the result: a submission comes to an end, and to one of these;
   `Submission.row_without_entry` shows that the last of them happens.
-/
namespace SliceScheduler

/-- The error that a call fails with, by the number of calls before it. -/
abbrev FaultPattern := Nat → Option StoreError

/-- A store and the number of calls that it has been asked. -/
structure FaultyStore where
  store : Backend
  calls : Nat

/-- Answers a call unless it is to fail. A call that fails does not reach the store. -/
def FaultPattern.perform (pattern : FaultPattern) : Performer FaultyStore := fun s now op =>
  match pattern s.calls with
  | some e => (.error e, { s with calls := s.calls + 1 })
  | none =>
    let (answer, store) := s.store.perform now op
    (answer, ⟨store, s.calls + 1⟩)

theorem FaultPattern.perform_cases (pattern : FaultPattern) (s : FaultyStore) (now : Instant)
    (op : Operation) :
    (∃ e, pattern s.calls = some e ∧
      pattern.perform s now op = (.error e, ⟨s.store, s.calls + 1⟩)) ∨
    pattern.perform s now op =
      ((s.store.perform now op).1, ⟨(s.store.perform now op).2, s.calls + 1⟩) := by
  unfold FaultPattern.perform
  cases meets : pattern s.calls with
  | some e => exact .inl ⟨e, rfl, rfl⟩
  | none => exact .inr rfl

/-- A call that only reads. -/
def Operation.reads : Operation → Bool
  | getJob _ | listJobs | sliceSets _ | listSlices | getPointer | getLock _ => true
  | _ => false

/-- No call fails with the error about something that is not there. -/
def FaultPattern.IsHonest (pattern : FaultPattern) : Prop :=
  ∀ n what, pattern n ≠ some (.notFound what)

/-- The job has another type or another name. -/
def Job.DiffersFrom (job other : Job) : Prop := ¬(other.type = job.type ∧ other.name = job.name)

namespace Backend

/-- The jobs that can be looked up have other types or other names. -/
def LacksName (b : Backend) (now : Instant) (job : Job) (ids : List JobId) : Prop :=
  ∀ id ∈ ids, ∀ other, (b.perform now (.getJob id)).1 = .ok other → job.DiffersFrom other

/-- No job that is scheduled in the slice has the type and the name of the job. -/
def NameFree (b : Backend) (now : Instant) (job : Job) (slice : Slice) : Prop :=
  ∀ sets, (b.perform now (.sliceSets slice)).1 = .ok sets →
    b.LacksName now job sets.scheduled.toList

/-- There is no row of a job. -/
def Lacks (id : JobId) : Backend → Prop
  | memory s => ¬ s.jobs.contains id
  | tables s => ¬ s.jobs.contains id.text

/-- The store with the row of a job, and otherwise as it is. -/
def addRow (job : Job) : Backend → Backend
  | memory s => memory { s with jobs := s.jobs.insert job.id job }
  | tables s => tables { s with jobs := s.jobs.insert job.id.text (.ofJob job) }

/-- The store with a job among the scheduled ones of a slice, and otherwise as it is. -/
def addEntry (slice : Slice) (id : JobId) : Backend → Backend
  | memory s => memory (s.modifySets slice fun e => { e with scheduled := e.scheduled.insert id })
  | tables s => tables (s.setFlags slice id fun row => { row with scheduled := 1 })

theorem perform_memory (s : MemoryStore) (now : Instant) (op : Operation) :
    (memory s).perform now op = ((s.perform now op).1, memory (s.perform now op).2) := rfl

theorem perform_open {s : TableStore} (isOpen : s.closed = false) (now : Instant)
    (op : Operation) :
    (tables s).perform now op = ((s.performOpen now op).1, tables (s.performOpen now op).2) := by
  simp only [perform, TableStore.perform, isOpen, Bool.false_eq_true, if_false]

theorem perform_closed {s : TableStore} (closed : s.closed = true) (now : Instant)
    (op : Operation) :
    (tables s).perform now op = (.error (.other "the store is closed"), tables s) := by
  simp only [perform, TableStore.perform, closed, if_true]

/-- A call that reads changes nothing. -/
theorem perform_reads (b : Backend) (now : Instant) {op : Operation} (reads : op.reads) :
    (b.perform now op).2 = b := by
  cases b with
  | memory s =>
    rw [perform_memory]
    cases op with
    | getJob id =>
      simp only [MemoryStore.perform]
      split <;> rfl
    | listJobs | sliceSets | listSlices | getPointer | getLock => rfl
    | _ => cases reads
  | tables s =>
    cases isOpen : s.closed with
    | true => rw [perform_closed isOpen]
    | false =>
      rw [perform_open isOpen]
      cases op with
      | getJob id =>
        simp only [TableStore.performOpen]
        split <;> rfl
      | listJobs | sliceSets | listSlices | getPointer | getLock => rfl
      | _ => cases reads

/-- A row is written where there is none, and then an entry can be written too; or the call fails
without effect. -/
theorem perform_insertJob (b : Backend) (now : Instant) (job : Job) :
    (b.perform now (.insertJob job) = (.ok (), b.addRow job) ∧ b.Lacks job.id ∧
      ∀ slice, (b.addRow job).perform now (.addScheduled slice job.id) =
        (.ok (), (b.addRow job).addEntry slice job.id)) ∨
    ∃ e, b.perform now (.insertJob job) = (.error e, b) := by
  cases b with
  | memory s =>
    rw [perform_memory]
    unfold MemoryStore.perform
    by_cases there : s.jobs.contains job.id
    · simp only [there, if_true]
      exact .inr ⟨_, rfl⟩
    · simp only [there]
      exact .inl ⟨rfl, there, fun _ => rfl⟩
  | tables s =>
    cases isOpen : s.closed with
    | true =>
      rw [perform_closed isOpen]
      exact .inr ⟨_, rfl⟩
    | false =>
      rw [perform_open isOpen]
      unfold TableStore.performOpen
      by_cases there : s.jobs.contains job.id.text
      · simp only [there, if_true]
        exact .inr ⟨_, rfl⟩
      · simp only [there]
        refine .inl ⟨rfl, there, fun slice => ?_⟩
        exact perform_open (s := { s with jobs := s.jobs.insert job.id.text (.ofJob job) }) isOpen
          now _

end Backend

/-- What the submission of a job to a store may come to. -/
inductive Submitted (pattern : FaultPattern) (job : Job) (slice : Slice) (before : Backend)
    (after : FaultyStore) : Except SchedulerError Job → Prop where
  | accepted : before.Lacks job.id → after.store = (before.addRow job).addEntry slice job.id →
      Submitted pattern job slice before after (.ok job)
  | refused (e : SchedulerError) : after.store = before →
      Submitted pattern job slice before after (.error e)
  /-- The last call failed, after the row was written. -/
  | unentered (e : StoreError) (n : Nat) : before.Lacks job.id → after.store = before.addRow job →
      after.calls = n + 1 → pattern n = some e →
      Submitted pattern job slice before after (.error (.storage e))

namespace Program

theorem runAlone?_andThen {σ α β : Type} (perform : Performer σ) (p : Program α)
    (f : α → Program β) (s : Alone σ) :
    (p.andThen f).runAlone? perform s =
      (p.runAlone? perform s).bind fun (a, s') => (f a).runAlone? perform s' := by
  induction p generalizing s with
  | done a => rfl
  | ask r next ih =>
    cases r with
    | call op => exact ih _ _
    | look => exact ih _ _
    | change g => exact ih _ _
    | now => exact ih _ _
    | _ => rfl

namespace Submission

variable {α β : Type} {pattern : FaultPattern} {s : Alone FaultyStore}
variable {accept : α → Alone FaultyStore → Prop}
variable {reject : SchedulerError → Alone FaultyStore → Prop}

/-- A submission comes to an end, with a result or with a refusal. -/
def Ends (pattern : FaultPattern) (p : Submission α) (s : Alone FaultyStore)
    (accept : α → Alone FaultyStore → Prop) (reject : SchedulerError → Alone FaultyStore → Prop) :
    Prop :=
  ∃ answer s', p.run.runAlone? pattern.perform s = some (answer, s') ∧
    match answer with
    | .ok a => accept a s'
    | .error e => reject e s'

theorem ends_pure {a : α} (now : accept a s) : Ends pattern (pure a) s accept reject :=
  ⟨.ok a, s, rfl, now⟩

theorem ends_throw {e : SchedulerError} (now : reject e s) :
    Ends pattern (throw e : Submission α) s accept reject :=
  ⟨.error e, s, rfl, now⟩

theorem ends_bind {p : Submission β} {f : β → Submission α}
    (first : Ends pattern p s (fun b s' => Ends pattern (f b) s' accept reject) reject) :
    Ends pattern (p >>= f) s accept reject := by
  obtain ⟨answer, s₁, ran, goes⟩ := first
  have split : (p >>= f).run.runAlone? pattern.perform s = _ := runAlone?_andThen _ p _ _
  rw [show p.runAlone? pattern.perform s = some (answer, s₁) from ran] at split
  cases answer with
  | ok b =>
    obtain ⟨answer, s₂, ran', goes⟩ := goes
    exact ⟨answer, s₂, split.trans ran', goes⟩
  | error e => exact ⟨.error e, s₁, split, goes⟩

/-- A program that cannot be refused is run for its result. -/
theorem ends_lift {p : Program α} {a : α} {s' : Alone FaultyStore}
    (ran : p.runAlone? pattern.perform s = some (a, s')) (now : accept a s') :
    Ends pattern (liftM p) s accept reject := by
  have lifted : (liftM p : Submission α).run.runAlone? pattern.perform s = _ :=
    runAlone?_andThen _ p _ _
  rw [ran] at lifted
  exact ⟨.ok a, s', lifted, now⟩

theorem ends_call {op : Operation} {accept : op.Result → Alone FaultyStore → Prop}
    (fails : ∀ e, pattern s.store.calls = some e →
      accept (.error e) { s with store := ⟨s.store.store, s.store.calls + 1⟩ })
    (answers : accept (s.store.store.perform s.now op).1
      { s with store := ⟨(s.store.store.perform s.now op).2, s.store.calls + 1⟩ }) :
    Ends pattern (liftM (call op)) s accept reject := by
  have ran : (call op).runAlone? pattern.perform s =
      some ((pattern.perform s.store s.now op).1,
        { s with store := (pattern.perform s.store s.now op).2 }) := rfl
  refine ends_lift ran ?_
  rcases pattern.perform_cases s.store s.now op with ⟨e, meets, made⟩ | made
  · rw [made]
    exact fails e meets
  · rw [made]
    exact answers

theorem ends_callStore {op : Operation} {accept : op.Answer → Alone FaultyStore → Prop}
    (fails : ∀ e, pattern s.store.calls = some e →
      reject (.storage e) { s with store := ⟨s.store.store, s.store.calls + 1⟩ })
    (answers : match (s.store.store.perform s.now op).1 with
      | .ok a =>
        accept a { s with store := ⟨(s.store.store.perform s.now op).2, s.store.calls + 1⟩ }
      | .error e =>
        reject (.storage e)
          { s with store := ⟨(s.store.store.perform s.now op).2, s.store.calls + 1⟩ }) :
    Ends pattern (callStore op) s accept reject := by
  have ran : (callStore op).runAlone? pattern.perform s =
      some ((pattern.perform s.store s.now op).1.mapError .storage,
        { s with store := (pattern.perform s.store s.now op).2 }) := rfl
  refine ⟨_, _, ran, ?_⟩
  rcases pattern.perform_cases s.store s.now op with ⟨e, meets, made⟩ | made
  · rw [made]
    exact fails e meets
  · rw [made]
    revert answers
    cases (s.store.store.perform s.now op).1 with
    | ok a => exact id
    | error e => exact id

section Calls

variable {desk : Desk} {store : Backend} {now : Instant} {job : Job} {slice : Slice}

/-- A node by itself over a store that has been asked some calls. -/
def resting (desk : Desk) (store : Backend) (now : Instant) (n : Nat) : Alone FaultyStore :=
  ⟨desk, ⟨store, n⟩, now⟩

/-- From a store that is as it was at first, whatever the number of calls. -/
def EndsFrom (pattern : FaultPattern) (desk : Desk) (store : Backend) (now : Instant)
    (accept : α → Alone FaultyStore → Prop) (reject : SchedulerError → Alone FaultyStore → Prop)
    (p : Submission α) : Prop :=
  ∀ n, Ends pattern p (resting desk store now n) accept reject

variable (rejects : ∀ e n, reject e (resting desk store now n))
include rejects

theorem from_throw (e : SchedulerError) :
    EndsFrom pattern desk store now accept reject (throw e) :=
  fun n => ends_throw (rejects e n)

theorem from_insist {ε : Type} {wrap : ε → SubmissionError} {check : Except ε Unit}
    {p : Submission α} (goes : EndsFrom pattern desk store now accept reject p) :
    EndsFrom pattern desk store now accept reject (insist wrap check >>= fun _ => p) := by
  intro n
  cases check with
  | ok u => exact ends_bind (ends_pure (goes n))
  | error e => exact ends_bind (ends_throw (rejects _ n))

omit rejects in
theorem from_look {f : Desk → Submission α}
    (goes : EndsFrom pattern desk store now accept reject (f desk)) :
    EndsFrom pattern desk store now accept reject (liftM look >>= f) :=
  fun n => ends_bind (ends_lift rfl (goes n))

omit rejects in
theorem from_call {op : Operation} (reads : op.reads) {f : op.Result → Submission α}
    (goes : ∀ a, (∃ e n, pattern n = some e ∧ a = .error e) ∨ a = (store.perform now op).1 →
      EndsFrom pattern desk store now accept reject (f a)) :
    EndsFrom pattern desk store now accept reject (liftM (call op) >>= f) := by
  intro n
  refine ends_bind (ends_call (fun e meets => goes _ (.inl ⟨e, n, meets, rfl⟩) _) ?_)
  have same := store.perform_reads now reads
  simp only [resting, same]
  exact goes _ (.inr rfl) _

theorem from_callStore {op : Operation} (reads : op.reads) {f : op.Answer → Submission α}
    (goes : ∀ a, (store.perform now op).1 = .ok a →
      EndsFrom pattern desk store now accept reject (f a)) :
    EndsFrom pattern desk store now accept reject (callStore op >>= f) := by
  intro n
  refine ends_bind (ends_callStore (fun e _ => rejects _ _) ?_)
  have same := store.perform_reads now reads
  simp only [resting, same]
  cases found : (store.perform now op).1 with
  | ok a => exact goes a found _
  | error e => exact rejects _ _

omit rejects in
/-- Of the jobs that are compared one cannot be looked up, or one has the name, or else the name is
free. A job that is gone or has another name is passed over. -/
theorem from_checkName {accept : Unit → Alone FaultyStore → Prop} {others : List JobId}
    (broken : ∀ id ∈ others, ∀ e, (∃ n, pattern n = some e) ∨
      (store.perform now (.getJob id)).1 = .error e ∧ (∀ what, e ≠ .notFound what) →
      ∀ n, reject (.storage e) (resting desk store now n))
    (taken : ∀ id ∈ others, ∀ other, (store.perform now (.getJob id)).1 = .ok other →
      other.type = job.type → other.name = job.name → ∀ n,
      reject (.invalidSubmission (.duplicateJobName job.type job.name slice))
        (resting desk store now n))
    (free : (pattern.IsHonest → store.LacksName now job others) →
      ∀ n, accept () (resting desk store now n)) :
    EndsFrom pattern desk store now accept reject (checkName job slice others) := by
  induction others with
  | nil => exact fun n => ends_pure (free (fun _ id mem => absurd mem List.not_mem_nil) n)
  | cons id rest ih =>
    have mem : id ∈ id :: rest := List.mem_cons_self
    have passed (differs : pattern.IsHonest → ∀ other,
        (store.perform now (.getJob id)).1 = .ok other → job.DiffersFrom other) :
        EndsFrom pattern desk store now accept reject (checkName job slice rest) :=
      ih (fun other mem => broken other (List.mem_cons_of_mem id mem))
        (fun other mem => taken other (List.mem_cons_of_mem id mem))
        fun lacks => free fun honest => List.forall_mem_cons.mpr ⟨differs honest, lacks honest⟩
    refine from_call rfl fun found origin => ?_
    split
    · refine passed fun honest other there => ?_
      rcases origin with ⟨e, n, meets, same⟩ | same
      · exact absurd (Except.error.inj same ▸ meets) (honest n _)
      · cases same.trans there
    · rename_i e known
      refine fun n => ends_bind (ends_throw (broken id mem e ?_ n))
      rcases origin with ⟨_, n, meets, ⟨⟩⟩ | same
      · exact .inl ⟨n, meets⟩
      · exact .inr ⟨same.symm, known⟩
    · rename_i existing
      split
      · rename_i alike
        refine fun n => ends_bind (ends_throw (taken id mem existing ?_ alike.1 alike.2 n))
        rcases origin with ⟨e, n, -, same⟩ | same
        · cases same
        · exact same.symm
      · rename_i differs
        refine passed fun _ other there => ?_
        rcases origin with ⟨e, n, -, same⟩ | same
        · cases same
        · exact Except.ok.inj (same.trans there) ▸ differs

/-! ## Up to the calls that write -/

variable {accept : Job → Alone FaultyStore → Prop}
variable (stores : (pattern.IsHonest → store.NameFree now job (job.slice desk.width)) →
  EndsFrom pattern desk store now accept reject (storeJob job (job.slice desk.width)))
include stores

theorem from_fileJob : EndsFrom pattern desk store now accept reject
    (fileJob job (job.slice desk.width)) := by
  refine from_callStore rejects rfl fun sets found n => ?_
  refine ends_bind (from_checkName (fun _ _ _ _ => rejects _) (fun _ _ _ _ _ _ => rejects _)
    (fun lacks m => ?_) n)
  exact stores (fun honest sets' found' => Except.ok.inj (found.symm.trans found') ▸ lacks honest) m

theorem from_placeJob : EndsFrom pattern desk store now accept reject
    (placeJob job (job.slice desk.width)) := by
  refine from_callStore rejects rfl fun pointer _ => ?_
  have placed (active : Slice) : EndsFrom pattern desk store now accept reject
      (do
        if job.slice desk.width < active then
          refuse (.sliceAlreadyProcessed (job.slice desk.width) active)
        fileJob job (job.slice desk.width)) := by
    dsimp only
    split
    · exact fun n => ends_bind (ends_throw (rejects _ n))
    · exact from_fileJob rejects stores
  cases pointer with
  | some p => exact fun n => ends_bind (ends_pure (placed p n))
  | none => exact fun n => ends_bind (ends_lift rfl (placed _ n))

omit stores

/-- A submission that passes the checks is placed. -/
theorem from_submit (places : EndsFrom pattern desk store now accept reject
    (placeJob job (job.slice desk.width))) :
    EndsFrom pattern desk store now accept reject (submit job) := by
  refine from_look ?_
  dsimp only
  split
  · exact fun n => ends_bind (ends_throw (rejects _ n))
  · refine from_insist rejects ?_
    split
    · exact from_insist rejects places
    · exact from_throw rejects _

theorem from_schedule (places : EndsFrom pattern desk store now accept reject
    (placeJob job (job.slice desk.width))) :
    EndsFrom pattern desk store now accept reject (schedule job) := by
  refine from_look ?_
  dsimp only
  split
  · exact fun n => ends_bind (ends_throw (rejects _ n))
  · exact from_submit rejects places

end Calls

/-- The node and the clock are as they were, and the store has come to what it may. -/
structure Lands (pattern : FaultPattern) (job : Job) (d : Desk) (store : Backend) (now : Instant)
    (answer : Except SchedulerError Job) (s : Alone FaultyStore) : Prop where
  desk : s.desk = d
  now : s.now = now
  submitted : Submitted pattern job (job.slice d.width) store s.store answer

section Lands

variable (pattern) (job : Job) (desk : Desk) (store : Backend) (now : Instant)

/-- A submission that finds the store as it was at first comes to what it may. -/
def Settles (p : Submission Job) : Prop :=
  EndsFrom pattern desk store now (fun a => Lands pattern job desk store now (.ok a))
    (fun e => Lands pattern job desk store now (.error e)) p

variable {pattern job desk store now}

theorem lands_refused (e : SchedulerError) (n : Nat) :
    Lands pattern job desk store now (.error e) (resting desk store now n) :=
  ⟨rfl, rfl, .refused e rfl⟩

theorem settles_storeJob :
    Settles pattern job desk store now (storeJob job (job.slice desk.width)) := by
  intro n
  refine ends_bind (ends_callStore (fun e _ => lands_refused _ _) ?_)
  rcases store.perform_insertJob now job with ⟨wrote, lacks, enters⟩ | ⟨e, failed⟩
  · -- the row is written; from here the call that enters it is the only one left
    simp only [resting, wrote]
    refine ends_bind (ends_callStore (fun e meets => ?_) ?_)
    · exact ⟨rfl, rfl, .unentered e (n + 1) lacks rfl rfl meets⟩
    · simp only [enters]
      exact ends_pure ⟨rfl, rfl, .accepted lacks rfl⟩
  · simp only [resting, failed]
    exact lands_refused _ _

theorem settles_submit : Settles pattern job desk store now (submit job) :=
  from_submit lands_refused (from_placeJob lands_refused fun _ => settles_storeJob)

theorem settles_schedule : Settles pattern job desk store now (schedule job) :=
  from_schedule lands_refused (from_placeJob lands_refused fun _ => settles_storeJob)

end Lands

/-- Whatever calls fail, a submission comes to an end, and either the job is accepted and the store
has its row and its entry in the index, or it is refused and the store is as it was, or the entry
could not be written and the store has the row alone. -/
def IsAtomic (job : Job) (p : Submission Job) : Prop :=
  ∀ (pattern : FaultPattern) (s : Alone FaultyStore), ∃ answer s',
    p.run.runAlone? pattern.perform s = some (answer, s') ∧
      Lands pattern job s.desk s.store.store s.now answer s'

theorem isAtomic_of_settles {job : Job} {p : Submission Job}
    (settles : ∀ pattern desk store now, Settles pattern job desk store now p) :
    IsAtomic job p := by
  intro pattern s
  obtain ⟨answer, s', ran, lands⟩ := settles pattern s.desk s.store.store s.now s.store.calls
  refine ⟨answer, s', ran, ?_⟩
  cases answer with
  | ok a => exact lands
  | error e => exact lands

/-- A job that is submitted to a node, and one that is scheduled with a node that may be shutting
down. -/
theorem isAtomic (job : Job) : IsAtomic job (submit job) ∧ IsAtomic job (schedule job) :=
  ⟨isAtomic_of_settles fun _ _ _ _ => settles_submit,
    isAtomic_of_settles fun _ _ _ _ => settles_schedule⟩

/-- The first instant of 2024. -/
def dueTime : Instant := .newYear2024

/-- A node that takes jobs of one type. -/
def worker : Desk :=
  .ofSettings (.standard "a") (Std.ExtTreeMap.empty.insert "WORK" ⟨0, fun _ => .ok (), .none⟩)

/-- A job that is due at once. -/
def errand : Job := { (default : Job) with type := "WORK", name := "errand", trigger := .single dueTime }

/-- The call that enters the job into the index fails: the submission is refused, and the row of the
job is in the store, which had none. -/
theorem row_without_entry : ∃ e s',
    (submit errand).run.runAlone?
      (FaultPattern.perform fun n => if n = 3 then some (.other "no answer") else none)
      ⟨worker, ⟨.memory .empty, 0⟩, dueTime⟩ = some (.error e, s') ∧
    s'.store.store = .memory { MemoryStore.empty with
      jobs := Std.ExtTreeMap.empty.insert errand.id errand } ∧
    s'.store.store ≠ .memory .empty := by
  refine ⟨_, _, rfl, rfl, fun same => ?_⟩
  have added : { MemoryStore.empty with
      jobs := Std.ExtTreeMap.empty.insert errand.id errand } ≠ MemoryStore.empty := by decide
  exact added (Backend.memory.inj same)

end Submission

end Program

end SliceScheduler
