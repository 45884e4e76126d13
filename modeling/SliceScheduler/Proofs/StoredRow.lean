import SliceScheduler.Proofs.JobEvents
import SliceScheduler.Proofs.JobOutcome
import SliceScheduler.Proofs.RowText
import SliceScheduler.Proofs.Submission
/-!
# What the store has when a job is told of

A job is run on a node by itself, over a store of either kind with any contents, while any of the
calls to the store fail.

1. `Backend.Stores` says that the row of a job is read as the job, and `Backend.IsActive` that the
   job is in the active set of a slice;
2. `Backend.SameRows` says that two stores have the same rows: writing to the index keeps them,
   `Backend.sameRows_perform`;
3. `Watched.Concludes.stores` and `Watched.Concludes.moved_of_faultless` say what the store has when
   a job was moved on, and that the move comes to its end while no call is made to fail;
4. `Program.runJob_truthful` is the result.
-/
namespace SliceScheduler

/-- A call that changes nothing but the index of a slice. -/
def Operation.indexes : Operation → Bool
  | addScheduled _ _ | removeScheduled _ _ | addActive _ _ | addFinished _ _ => true
  | _ => false

namespace Backend

variable {b b' : Backend} {now : Instant} {job : Job} {id : JobId} {slice : Slice}

/-- The row of a job is read as the job. -/
def Stores (b : Backend) (job : Job) : Prop := ∀ now, (b.perform now (.getJob job.id)).1 = .ok job

/-- The row of an id is about the job of that id. A row of tables cannot be about another one. -/
def Keyed (id : JobId) : Backend → Prop
  | memory s => ∀ job, s.jobs[id]? = some job → job.id = id
  | tables _ => True

/-- The job is in the active set of the slice. -/
def IsActive (slice : Slice) (id : JobId) : Backend → Prop
  | memory s => id ∈ (s.sets slice).active
  | tables s => ∃ row, (s.flags slice.millis)[id.text]? = some row ∧ row.active ≠ 0

/-- The store can keep a trigger: tables have intervals of whole milliseconds only. -/
def Keeps (t : Trigger) : Backend → Prop
  | memory _ => True
  | tables _ => t.IntervalFits

/-- Calls reach the store. -/
def IsOpen : Backend → Prop
  | memory _ => True
  | tables s => s.closed = false

/-! ## Rows -/

/-- Two stores have the same rows. -/
def SameRows : Backend → Backend → Prop
  | memory s, memory s' => s'.jobs = s.jobs
  | tables s, tables s' => s'.jobs = s.jobs ∧ s'.closed = s.closed
  | _, _ => False

theorem SameRows.getJob (same : b.SameRows b') (now now' : Instant) (id : JobId) :
    (b'.perform now' (.getJob id)).1 = (b.perform now (.getJob id)).1 := by
  cases b with
  | memory s =>
    cases b' with
    | memory s' =>
      have same : s'.jobs = s.jobs := same
      simp only [perform_memory, MemoryStore.perform, same]
      cases s.jobs[id]? <;> rfl
    | tables s' => cases same
  | tables s =>
    cases b' with
    | memory s' => cases same
    | tables s' =>
      obtain ⟨jobs, closed⟩ := same
      cases isOpen : s.closed with
      | true => rw [perform_closed isOpen, perform_closed (closed.trans isOpen)]
      | false =>
        rw [perform_open isOpen, perform_open (closed.trans isOpen)]
        simp only [TableStore.performOpen, jobs]
        cases s.jobs[id.text]? <;> rfl

theorem SameRows.refl (b : Backend) : b.SameRows b := by
  cases b with
  | memory s => rfl
  | tables s => exact ⟨rfl, rfl⟩

theorem SameRows.trans {b'' : Backend} (same : b.SameRows b') (same' : b'.SameRows b'') :
    b.SameRows b'' := by
  cases b with
  | memory s =>
    cases b' with
    | memory s' =>
      cases b'' with
      | memory s'' => exact Eq.trans same' same
      | tables s'' => cases same'
    | tables s' => cases same
  | tables s =>
    cases b' with
    | memory s' => cases same
    | tables s' =>
      cases b'' with
      | memory s'' => cases same'
      | tables s'' => exact ⟨same'.1.trans same.1, same'.2.trans same.2⟩

theorem SameRows.stores (same : b.SameRows b') (stores : b.Stores job) : b'.Stores job :=
  fun now => (same.getJob now now job.id).trans (stores now)

theorem SameRows.isOpen (same : b.SameRows b') (isOpen : b.IsOpen) : b'.IsOpen := by
  cases b with
  | memory s =>
    cases b' with
    | memory s' => trivial
    | tables s' => cases same
  | tables s =>
    cases b' with
    | memory s' => trivial
    | tables s' => exact same.2.trans isOpen

/-- Writing to the index leaves the rows as they are. -/
theorem sameRows_perform {op : Operation} (indexes : op.indexes) (b : Backend) (now : Instant) :
    b.SameRows (b.perform now op).2 := by
  cases b with
  | memory s =>
    cases op with
    | addScheduled | addActive | addFinished => rfl
    | removeScheduled =>
      simp only [perform_memory, MemoryStore.perform]
      split <;> rfl
    | _ => cases indexes
  | tables s =>
    cases isOpen : s.closed with
    | true =>
      rw [perform_closed isOpen]
      exact ⟨rfl, rfl⟩
    | false =>
      rw [perform_open isOpen]
      cases op with
      | addScheduled | addActive | addFinished => exact ⟨rfl, rfl⟩
      | removeScheduled =>
        simp only [TableStore.performOpen]
        split <;> exact ⟨rfl, rfl⟩
      | _ => cases indexes

/-! ## Calls that succeed -/

theorem isOpen_of_ok {op : Operation} {a : op.Answer} (ok : (b.perform now op).1 = .ok a) :
    b.IsOpen := by
  cases b with
  | memory s => trivial
  | tables s =>
    cases closed : s.closed with
    | true =>
      rw [perform_closed closed] at ok
      cases ok
    | false => exact closed

/-- Writing to the index of a store that is reached succeeds. -/
theorem ok_of_isOpen {op : Operation} (indexes : op.indexes) (isOpen : b.IsOpen) :
    ∃ a, (b.perform now op).1 = .ok a := by
  cases b with
  | memory s =>
    cases op with
    | addScheduled | addActive | addFinished => exact ⟨(), rfl⟩
    | removeScheduled =>
      simp only [perform_memory, MemoryStore.perform]
      split <;> exact ⟨(), rfl⟩
    | _ => cases indexes
  | tables s =>
    rw [perform_open isOpen]
    cases op with
    | addScheduled | addActive | addFinished => exact ⟨(), rfl⟩
    | removeScheduled =>
      simp only [TableStore.performOpen]
      split <;> exact ⟨(), rfl⟩
    | _ => cases indexes

theorem isActive_of_ok {a : Unit} (ok : (b.perform now (.addActive slice id)).1 = .ok a) :
    (b.perform now (.addActive slice id)).2.IsActive slice id := by
  cases b with
  | memory s =>
    show id ∈ ((s.modifySets slice fun e => { e with active := e.active.insert id }).sets slice).active
    simp [MemoryStore.sets, MemoryStore.modifySets]
  | tables s =>
    rw [perform_open (isOpen_of_ok ok)]
    refine ⟨{ (s.flags slice.millis).getD id.text .clear with active := 1 }, ?_, by simp⟩
    simp [TableStore.performOpen, TableStore.setFlags, TableStore.flags]

/-- A job that was read from tables was read from a row of them. -/
theorem row_of_getJob {s : TableStore} (found : ((tables s).perform now (.getJob id)).1 = .ok job) :
    ∃ row, s.jobs[id.text]? = some row ∧ row.toJob id.text = .ok job := by
  rw [perform_open (isOpen_of_ok found)] at found
  simp only [TableStore.performOpen] at found
  cases row : s.jobs[id.text]? with
  | none =>
    rw [row] at found
    cases found
  | some r =>
    rw [row] at found
    exact ⟨r, rfl, found⟩

/-- The job that is read under an id has that id. -/
theorem Keyed.id_eq (keyed : b.Keyed id) (found : (b.perform now (.getJob id)).1 = .ok job) :
    job.id = id := by
  cases b with
  | memory s =>
    rw [perform_memory] at found
    simp only [MemoryStore.perform] at found
    cases row : s.jobs[id]? with
    | none =>
      rw [row] at found
      cases found
    | some other =>
      rw [row] at found
      exact Except.ok.inj found ▸ keyed other row
  | tables s =>
    obtain ⟨row, -, read⟩ := row_of_getJob found
    exact Except.ok.inj ((JobRow.parts_of_toJob read).2.symm.trans (JobRow.decodeId_text id))

/-- A store can keep the trigger of a job that was read from it. -/
theorem keeps_of_getJob (found : (b.perform now (.getJob id)).1 = .ok job) :
    b.Keeps job.trigger := by
  cases b with
  | memory s => trivial
  | tables s =>
    obtain ⟨row, -, read⟩ := row_of_getJob found
    exact Trigger.intervalFits_of_ofText? (JobRow.parts_of_toJob read).1

/-- A row that was written is read. -/
theorem stores_of_ok {a : Unit} (ok : (b.perform now (.updateJob job)).1 = .ok a)
    (keeps : b.Keeps job.trigger) : (b.perform now (.updateJob job)).2.Stores job := by
  intro now'
  cases b with
  | memory s =>
    rw [perform_memory] at ok ⊢
    simp only [MemoryStore.perform] at ok ⊢
    split at ok
    · rename_i there
      simp [perform_memory, MemoryStore.perform, there]
    · cases ok
  | tables s =>
    have isOpen : s.closed = false := isOpen_of_ok ok
    rw [perform_open isOpen] at ok ⊢
    simp only [TableStore.performOpen] at ok ⊢
    split at ok
    · rename_i there
      rw [if_pos there]
      rw [perform_open (s := { s with jobs := s.jobs.insert job.id.text (.ofJob job) }) isOpen]
      simp only [TableStore.performOpen, Std.ExtTreeMap.getElem?_insert_self]
      exact JobRow.toJob_ofJob keeps
    · cases ok

/-- The row of a job that was read can be written. -/
theorem ok_of_getJob (found : (b.perform now (.getJob id)).1 = .ok job) {next : Job}
    (same : next.id = id) (now' : Instant) : (b.perform now' (.updateJob next)).1 = .ok () ∧
      (b.perform now' (.updateJob next)).2.IsOpen := by
  subst same
  cases b with
  | memory s =>
    rw [perform_memory] at found ⊢
    simp only [MemoryStore.perform] at found ⊢
    cases row : s.jobs[next.id]? with
    | none =>
      rw [row] at found
      cases found
    | some job =>
      have there : s.jobs.contains next.id := by
        rw [← Std.ExtTreeMap.isSome_getElem?_eq_contains, row]
        rfl
      rw [if_pos there]
      exact ⟨rfl, trivial⟩
  | tables s =>
    have isOpen : s.closed = false := isOpen_of_ok found
    obtain ⟨row, there, -⟩ := row_of_getJob found
    have there : s.jobs.contains next.id.text := by
      rw [← Std.ExtTreeMap.isSome_getElem?_eq_contains, there]
      rfl
    rw [perform_open isOpen]
    simp only [TableStore.performOpen, there, if_true]
    exact ⟨trivial, isOpen⟩

end Backend

/-- A store and executors, for programs that do not move the pointer. -/
def FaultPattern.surroundings (pattern : FaultPattern) (run : Executors) :
    Surroundings FaultyStore :=
  ⟨pattern.perform, run, fun _ s => ([], s)⟩

namespace Watched

open Backend

variable {pattern : FaultPattern} {run : Executors} {slice : Slice} {id : JobId} {w : Duration}
variable {s s' : Watched FaultyStore} {job : Job} {onward : Option (Trigger × Count)}

/-- The contents of the store. -/
def contents (s : Watched FaultyStore) : Backend := s.store.store

/-- A call that succeeds has reached the store. -/
theorem reaches {op : Operation} {a : op.Answer}
    (ok : s.answer (pattern.surroundings run) op = .ok a) :
    (s.contents.perform s.now op).1 = .ok a ∧
      (s.ask (pattern.surroundings run) op).contents = (s.contents.perform s.now op).2 := by
  rcases pattern.perform_cases s.store s.now op with ⟨e, -, made⟩ | made
  · have failed : s.answer (pattern.surroundings run) op = .error e := congrArg Prod.fst made
    rw [failed] at ok
    cases ok
  · have answered : s.answer (pattern.surroundings run) op = (s.contents.perform s.now op).1 :=
      congrArg Prod.fst made
    exact ⟨answered.symm.trans ok, congrArg (fun r => FaultyStore.store r.2) made⟩

/-- While no call is made to fail, every call reaches the store. -/
theorem reaches_of_faultless (s : Watched FaultyStore) (run : Executors)
    (faultless : ∀ n, pattern n = none) (op : Operation) :
    s.answer (pattern.surroundings run) op = (s.contents.perform s.now op).1 ∧
      (s.ask (pattern.surroundings run) op).contents = (s.contents.perform s.now op).2 := by
  rcases pattern.perform_cases s.store s.now op with ⟨e, meets, -⟩ | made
  · cases (faultless _).symm.trans meets
  · exact ⟨congrArg Prod.fst made, congrArg (fun r => FaultyStore.store r.2) made⟩

/-- Writes to the index that succeed leave the rows as they are. -/
theorem sameRows_askAll {ops : List Operation} (indexes : ∀ op ∈ ops, op.indexes)
    (succeed : s.Succeed (pattern.surroundings run) ops) :
    s.contents.SameRows (s.askAll (pattern.surroundings run) ops).contents := by
  induction ops generalizing s with
  | nil => exact .refl _
  | cons op ops ih =>
    obtain ⟨⟨a, ok⟩, rest⟩ := succeed
    have first := sameRows_perform (indexes op List.mem_cons_self) s.contents s.now
    rw [← (reaches ok).2] at first
    exact first.trans (ih (fun op' mem => indexes op' (List.mem_cons_of_mem _ mem)) rest)

/-- Writes to the index of a store that is reached succeed while no call is made to fail. -/
theorem succeed_of_isOpen (faultless : ∀ n, pattern n = none) {ops : List Operation}
    (indexes : ∀ op ∈ ops, op.indexes) (isOpen : s.contents.IsOpen) :
    s.Succeed (pattern.surroundings run) ops := by
  induction ops generalizing s with
  | nil => trivial
  | cons op ops ih =>
    have here := indexes op List.mem_cons_self
    obtain ⟨answered, after⟩ := reaches_of_faultless s run faultless op
    refine ⟨answered ▸ ok_of_isOpen here isOpen,
      ih (fun op' mem => indexes op' (List.mem_cons_of_mem _ mem)) ?_⟩
    rw [after]
    exact (sameRows_perform here s.contents s.now).isOpen isOpen

/-- The writes of a move after the first are writes to the index. -/
theorem indexes_of_moves (next : Job) : ∀ op ∈ (next.moves w slice).tail, op.indexes := by
  simp [Job.moves, Operation.indexes]

/-- A call after others that succeeds. -/
theorem Succeed.answer {W : Surroundings FaultyStore} {made rest : List Operation} {op : Operation}
    (succeed : s.Succeed W (made ++ op :: rest)) : ∃ a, (s.askAll W made).answer W op = .ok a := by
  induction made generalizing s with
  | nil => exact succeed.1
  | cons op' made ih => exact ih succeed.2

/-- What the store has when a job was moved on. -/
theorem Concludes.stores (concludes : Concludes (pattern.surroundings run) slice w job onward s s')
    (keeps : ∀ trigger retries, onward = some (trigger, retries) → s.contents.Keeps trigger)
    {i : JobId} {source target : Slice} {n : Count} {b : FaultyStore}
    (told : (.jobRescheduled i source target n, b) ∈ s'.told)
    (untold : ¬s.Tells (.jobRescheduled i source target n)) :
    ∃ trigger, onward = some (trigger, n) ∧ job.id = i ∧ trigger.slice w = target ∧
      b.store.Stores (job.rescheduled trigger n) := by
  obtain ⟨trigger, goes, same, here, ⟨⟨a, ok⟩, rest⟩, rfl⟩ := concludes.moved_of_told told untold
  obtain ⟨ok, after⟩ := reaches ok
  have written := stores_of_ok ok (keeps trigger n goes)
  rw [← after] at written
  exact ⟨trigger, goes, same, here, (sameRows_askAll (indexes_of_moves _) rest).stores written⟩

/-- The move of a job whose row can be read comes to its end while no call is made to fail. -/
theorem Concludes.moved_of_faultless
    (concludes : Concludes (pattern.surroundings run) slice w job onward s s')
    (faultless : ∀ n, pattern n = none) (goes : onward ≠ none)
    (found : (s.contents.perform s.now (.getJob job.id)).1 = .ok job) :
    ∃ i source target n, s'.Tells (.jobRescheduled i source target n) := by
  cases concludes with
  | moved => exact ⟨_, _, _, _, _, List.mem_append_right _ (List.mem_singleton_self _)⟩
  | @stuck trigger retries made rest op e goes split fails =>
    obtain ⟨answered, after⟩ := reaches_of_faultless s run faultless
      (.updateJob (job.rescheduled trigger retries))
    obtain ⟨ok, isOpen⟩ := ok_of_getJob found (rfl : (job.rescheduled trigger retries).id = _) s.now
    have succeed : s.Succeed (pattern.surroundings run)
        ((job.rescheduled trigger retries).moves w slice) :=
      ⟨⟨(), answered.trans ok⟩,
        succeed_of_isOpen faultless (indexes_of_moves _) (after ▸ isOpen)⟩
    rw [split] at succeed
    obtain ⟨a, ok⟩ := succeed.answer
    rw [fails] at ok
    cases ok
  | ended k ceases => exact absurd ceases goes

/-! ## A job that is run -/

/-- What is told after the event at the end of an execution is a move. -/
theorem Concludes.started_before {W : Surroundings FaultyStore}
    (concludes : Concludes W slice w job onward s s') {i : JobId} {type : String} {source : Slice}
    {b : FaultyStore} (told : (.jobStarted i type source, b) ∈ s'.told) :
    (.jobStarted i type source, b) ∈ s.told := by
  cases concludes with
  | moved =>
    rw [told_tell, told_askAll] at told
    rcases List.mem_append.mp told with before | last
    · exact before
    · cases congrArg Prod.fst (List.mem_singleton.mp last)
  | stuck => rwa [told_ask, told_askAll] at told
  | ended => rwa [told_askAll] at told

theorem Activates.row {registration : Registration}
    (activates : s.Activates (pattern.surroundings run) slice id job registration) :
    let s' := s.finished (pattern.surroundings run) slice id job registration
    (s.contents.perform s.now (.getJob id)).1 = .ok job ∧
      s.contents.SameRows s'.contents ∧ s'.contents.IsActive slice id := by
  intro s'
  obtain ⟨found, after⟩ := reaches activates.loaded
  obtain ⟨marked, after'⟩ := reaches activates.activated
  rw [perform_reads _ _ rfl] at after
  have contents : s'.contents = _ := after'
  have indexes : (Operation.addActive slice id).indexes := rfl
  rw [contents]
  exact ⟨found, after ▸ sameRows_perform indexes _ _, isActive_of_ok marked⟩

/-- A store that keeps the trigger of a job keeps the one that the job goes on with. -/
theorem keeps_of_onward {b : Backend} {policy : RetryPolicy} {now : Instant} {o : Outcome}
    (keeps : b.Keeps job.trigger) {trigger : Trigger} {retries : Count}
    (goes : job.onward? policy w now o = some (trigger, retries)) : b.Keeps trigger := by
  cases b with
  | memory => trivial
  | tables =>
    cases Job.goesOn_of_onward? goes with
    | occurrence final found =>
      cases due : job.trigger with
      | single time =>
        rw [due] at found
        cases found
      | repeating time interval limit count =>
        rw [due] at found keeps
        obtain ⟨-, time', -, rfl⟩ := Trigger.next?_eq_some found
        exact keeps
    | retry => trivial

/-- The store had what the node told of. -/
structure Witnessed (pattern : FaultPattern) (slice : Slice) (id : JobId)
    (s s' : Watched FaultyStore) : Prop where
  /-- The job that an executor ran was in the store. -/
  loaded : ∀ registration job, (registration, job) ∈ s'.executed →
    (s.contents.perform s.now (.getJob id)).1 = .ok job
  /-- All events are about the job of the id, if its row is. -/
  job : s.contents.Keyed id → ∀ e, s'.Tells e → e.job? = some id
  /-- A job that is told to have started was in the active set. -/
  active : ∀ type b, (.jobStarted id type slice, b) ∈ s'.told → b.store.IsActive slice id
  /-- A job that is told to have been moved on was stored with the retries and the slice that were
  told, and the time of the retry that was told, if one was told. It is the job that was run. -/
  stored : ∀ i source target retries b, (.jobRescheduled i source target retries, b) ∈ s'.told →
    ∃ next : Job, b.store.Stores next ∧ next.id = i ∧ next.retries = retries ∧
      next.slice s.desk.width = target ∧
      (∀ j type source message t, s'.Tells (.jobFailed j type source message (some t)) →
        next.trigger.time = t) ∧
      ∃ registration job trigger, (registration, job) ∈ s'.executed ∧
        next = job.rescheduled trigger retries
  /-- While no call is made to fail, a job whose retry is told of is moved on. -/
  unfailing : (∀ n, pattern n = none) → s.contents.Keyed id →
    ∀ i type source message t, s'.Tells (.jobFailed i type source message (some t)) →
      ∃ i source target retries, s'.Tells (.jobRescheduled i source target retries)

theorem witnessed_of_idle (idle : s'.executed = [])
    (events : ∀ e, s'.Tells e → ∃ type, e = .jobDeadLettered id type slice) :
    s.Witnessed pattern slice id s' := by
  refine ⟨fun registration job ran => ?_, fun _ e told => ?_, fun type b told => ?_,
    fun i source target retries b told => ?_, fun _ _ i type source message t told => ?_⟩
  · rw [idle] at ran
    cases ran
  · obtain ⟨_, rfl⟩ := events e told
    rfl
  · obtain ⟨_, same⟩ := events _ ⟨b, told⟩
    cases same
  · obtain ⟨_, same⟩ := events _ ⟨b, told⟩
    cases same
  · obtain ⟨_, same⟩ := events _ told
    cases same

/-- The events of a job that was run are about it. -/
theorem job_of_ran {registration : Registration} (fresh : s.IsFresh) (same : job.id = id)
    (concludes : Concludes (pattern.surroundings run) slice s.desk.width job
      (s.onward? (pattern.surroundings run) job registration)
      (s.finished (pattern.surroundings run) slice id job registration) s')
    {e : Event} (tells : s'.Tells e) : e.job? = some id := by
  by_cases moves : e.Moves slice
  · obtain ⟨b, told⟩ := tells
    cases e with
    | jobRescheduled i source target n =>
      obtain ⟨trigger, -, rfl, -⟩ :=
        concludes.moved_of_told told (untold_finished fresh _ i source target n)
      exact congrArg some same
    | _ => cases moves
  · rcases (tells_of_ran fresh concludes moves).mp tells with rfl | rfl
    · rfl
    · exact Job.job?_ending same

theorem witnessed_of_ran {registration : Registration} (fresh : s.IsFresh)
    (activates : s.Activates (pattern.surroundings run) slice id job registration)
    (concludes : Concludes (pattern.surroundings run) slice s.desk.width job
      (s.onward? (pattern.surroundings run) job registration)
      (s.finished (pattern.surroundings run) slice id job registration) s') :
    s.Witnessed pattern slice id s' := by
  obtain ⟨found, same, active⟩ := activates.row
  have ran : s'.executed = [(registration, job)] := executed_of_ran fresh concludes
  refine ⟨fun registration' job' mem => ?_,
    fun keyed e tells => job_of_ran fresh (keyed.id_eq found) concludes tells,
    fun type b told => ?_, fun i source target retries b told => ?_,
    fun faultless keyed i type source message t tells => ?_⟩
  · rw [ran] at mem
    obtain ⟨-, rfl⟩ := Prod.mk.inj (List.mem_singleton.mp mem)
    exact found
  · have began := concludes.started_before told
    rw [told_finished fresh] at began
    rcases List.mem_cons.mp began with first | last
    · cases congrArg Prod.snd first
      exact active
    · have ends := s.ends_ending (pattern.surroundings run) slice id job registration
      have same : .jobStarted id type slice =
          s.ending (pattern.surroundings run) slice id job registration :=
        congrArg Prod.fst (List.mem_singleton.mp last)
      rw [← same] at ends
      exact ends.elim
  · have keeps (trigger : Trigger) (n : Count)
        (goes : s.onward? (pattern.surroundings run) job registration = some (trigger, n)) :
        (s.finished (pattern.surroundings run) slice id job registration).contents.Keeps trigger :=
      keeps_of_onward (keeps_of_getJob ((same.getJob s.now s.now id).trans found)) goes
    obtain ⟨trigger, goes, rfl, rfl, stores⟩ :=
      concludes.stores keeps told (untold_finished fresh _ i source target retries)
    refine ⟨_, stores, rfl, rfl, rfl, fun j type' source' message t tells => ?_,
      registration, job, trigger, ran ▸ List.mem_singleton_self _, rfl⟩
    obtain ⟨trigger', retries', goes', time⟩ := onward_of_failed fresh concludes tells
    cases Option.some.inj (goes.symm.trans goes')
    exact time
  · obtain ⟨trigger, retries, goes, -⟩ := onward_of_failed fresh concludes tells
    obtain rfl := keyed.id_eq found
    exact concludes.moved_of_faultless faultless (fun ceases => nomatch goes.symm.trans ceases)
      ((same.getJob ..).trans found)

theorem JobStory.witnessed (story : s.JobStory (pattern.surroundings run) slice id s')
    (fresh : s.IsFresh) : s.Witnessed pattern slice id s' := by
  cases story with
  | ran activates concludes => exact witnessed_of_ran fresh activates concludes
  | deadLettered =>
    refine witnessed_of_idle (by simp [fresh.executed]) fun e ⟨b, told⟩ => ?_
    simp only [told_tell, told_ask, fresh.told, List.nil_append, List.mem_singleton] at told
    exact ⟨_, congrArg Prod.fst told⟩
  | _ =>
    refine witnessed_of_idle (by simp [fresh.executed]) fun e ⟨b, told⟩ => ?_
    simp [fresh.told] at told

end Watched

open Watched in
/-- A node that runs a job comes to an end, whatever the store has and whatever calls fail. Its
events tell of what it did, and the store had what they tell of. -/
theorem Program.runJob_truthful (pattern : FaultPattern) (run : Executors) (slice : Slice)
    (id : JobId) (desk : Desk) (store : Backend) (now : Instant) :
    ∃ s', (runJob slice id).watch? (pattern.surroundings run) (start desk ⟨store, 0⟩ now) =
        some ((), s') ∧
      (start desk ⟨store, 0⟩ now).Truthful (pattern.surroundings run) slice id s' ∧
      (start desk ⟨store, 0⟩ now).Witnessed pattern slice id s' := by
  have fresh : (start desk (⟨store, 0⟩ : FaultyStore) now).IsFresh := ⟨rfl, rfl, rfl⟩
  obtain ⟨s', ran, story⟩ := exists_jobStory (W := pattern.surroundings run) slice id
    (start desk ⟨store, 0⟩ now)
  exact ⟨s', ran, story.truthful fresh, story.witnessed fresh⟩

end SliceScheduler
