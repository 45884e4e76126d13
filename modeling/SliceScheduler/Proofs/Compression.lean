import SliceScheduler.Maintenance.Submission
import SliceScheduler.Proofs.Admission
import SliceScheduler.Proofs.DurationText
import SliceScheduler.Proofs.Names
import SliceScheduler.Proofs.OrderedMaps
import SliceScheduler.Proofs.Requests
import SliceScheduler.Proofs.Rounding
/-!
# A compression that comes back

A node that starts looks for a compression that comes back, and submits one if there is none. The
search reads rows alone, so that it takes a row for a compression that will run.

1. `Maintenance.Kept` lists what this may come to, and `Maintenance.keepCompression_kept` says that
   it comes to one of these, over a store of either kind and whatever calls fail;
2. `Program.Submission.Admits` says what a submission asks of the node, the store and the job, and
   `Program.Submission.from_admits` that a job of which that holds is accepted while no call fails;
3. `MemoryStore.KeepsCompression` says that a store has one compression that comes back, and that it
   is waiting in a slice that the pointer has not passed. `Maintenance.keeps_of_admits` and
   `Maintenance.keepCompression_found` are the results: a store without one gets such a compression,
   and a store with one stays as it is, whatever its index says;
4. `Maintenance.refused_of_behind` is a start that is refused: the pointer has passed the slice of
   the first block.
-/
namespace SliceScheduler

/-- The job is a compression that comes back. -/
def Job.IsCompression (job : Job) : Prop :=
  job.type = Maintenance.compress.jobType ∧ job.trigger.isRepeating = true

instance (job : Job) : Decidable job.IsCompression := inferInstanceAs (Decidable (_ ∧ _))

/-- The store has one compression that comes back, after blocks of a size, and the compression is
waiting in the slice of its trigger. The pointer has not passed that slice. -/
structure MemoryStore.KeepsCompression (s : MemoryStore) (id : JobId) (size w : Duration) :
    Prop where
  row : ∃ job time limit count, s.jobs[id]? = some job ∧ job.IsCompression ∧
    job.trigger = .repeating time size limit count ∧ id ∈ (s.sets (job.slice w)).pending ∧
    ∀ pointer, s.pointer = some pointer → pointer ≤ job.slice w
  only : ∀ (other : JobId) (job : Job), s.jobs[other]? = some job → job.IsCompression → other = id

namespace Program.Submission

variable {α : Type} {pattern : FaultPattern} {desk : Desk} {now : Instant} {job : Job}

/-- What is done for its effect alone ends as it does. -/
theorem ends_discard {p : Submission α} {s : Alone FaultyStore}
    {accept : Unit → Alone FaultyStore → Prop} {reject : SchedulerError → Alone FaultyStore → Prop}
    (ends : Ends pattern p s (fun _ => accept ()) reject) :
    Ends pattern (discard p) s accept reject := by
  obtain ⟨answer, s', ran, lands⟩ := ends
  have split : (discard p).run.runAlone? pattern.perform s = _ := runAlone?_andThen _ p _ _
  rw [show p.runAlone? pattern.perform s = some (answer, s') from ran] at split
  cases answer with
  | ok a => exact ⟨.ok (), s', split, lands⟩
  | error e => exact ⟨.error e, s', split, lands⟩

/-! ## Submissions that are accepted -/

/-- Everything that a submission asks of the node, the store and the job holds. -/
structure Admits (desk : Desk) (s : MemoryStore) (now : Instant) (job : Job) : Prop where
  running : desk.mode ≠ .stopped
  moving : desk.stopped = false
  accepted : job.check desk.width = .ok ()
  registered : ∃ registration, desk.registry[job.type]? = some registration ∧
    registration.check job = .ok ()
  inTime : s.pointer.getD (Slice.containing now desk.width) ≤ job.slice desk.width
  free : (Backend.memory s).NameFree now job (job.slice desk.width)
  fresh : s.jobs[job.id]? = none

section Admits

variable {s : MemoryStore} {slice : Slice} {accept : α → Alone FaultyStore → Prop}
variable {reject : SchedulerError → Alone FaultyStore → Prop} (quiet : ∀ n, pattern n = none)
include quiet

/-- While no call fails, a call that only reads is answered. -/
theorem from_read {op : Operation} (reads : op.reads) {f : op.Answer → Submission α} {a : op.Answer}
    (found : (s.perform now op).1 = .ok a)
    (goes : EndsFrom pattern desk (.memory s) now accept reject (f a)) :
    EndsFrom pattern desk (.memory s) now accept reject (callStore op >>= f) := by
  intro n
  refine ends_bind (ends_callStore (fun e meets => ?_) ?_)
  · cases (quiet n).symm.trans meets
  · have same := (Backend.memory s).perform_reads now reads
    have found : ((Backend.memory s).perform now op).1 = .ok a := found
    simp only [resting, same, found]
    exact goes (n + 1)

/-- While no call fails, a job of which everything holds that a submission asks is accepted. -/
theorem from_admits {accept : Job → Alone FaultyStore → Prop} (admits : Admits desk s now job)
    (enters : ∀ n, accept job (resting desk
      (((Backend.memory s).addRow job).addEntry (job.slice desk.width) job.id) now n)) :
    EndsFrom pattern desk (.memory s) now accept reject (schedule job) := by
  have passes : Passes desk job :=
    ⟨admits.running, admits.moving, admits.accepted, admits.registered⟩
  have files : (Backend.memory s).Files s := ⟨rfl, rfl⟩
  have places : Places pattern desk (.memory s) now job (schedule job) :=
    places_schedule passes fun pointer found => Except.ok.inj found ▸ admits.inTime
  intro n
  obtain ⟨answer, after, ran, arrives⟩ := places.exists_arrives n
  obtain ⟨rfl, stored⟩ := arrives.placed.stored_of (files.answers quiet admits.fresh rfl rfl)
    fun sets id other found mem row =>
      admits.free sets found id (Std.ExtTreeSet.mem_toList.mpr mem) other row
  have lands : accept job after := by
    rw [arrives.rests, stored]
    exact enters after.store.calls
  exact ⟨.ok job, after, ran, lands⟩

end Admits

end Program.Submission

namespace Maintenance

open Program Program.Submission

variable {pattern : FaultPattern} {id : JobId} {size : Duration} {desk : Desk} {now : Instant}

/-! ## What a start comes to -/

/-- What a start may come to: a compression that comes back is there already; or there is none, and
the submission of one came to what it may; or the start is refused. -/
inductive Kept (pattern : FaultPattern) (id : JobId) (size : Duration) (desk : Desk)
    (before : Backend) (now : Instant) (after : FaultyStore) : Except SchedulerError Unit → Prop
  | found {jobs : List Job} {job : Job} : (before.perform now .listJobs).1 = .ok jobs →
      job ∈ jobs → job.IsCompression → after.store = before →
      Kept pattern id size desk before now after (.ok ())
  | submitted {jobs : List Job} {trigger : Trigger} {answer : Except SchedulerError Job} :
      (before.perform now .listJobs).1 = .ok jobs → (∀ job ∈ jobs, ¬job.IsCompression) →
      Trigger.repeating? (Slice.ceil now size).start size desk.width = .ok trigger →
      Submitted pattern ((repeatingCompression size).job id trigger) (trigger.slice desk.width)
        before after answer →
      Kept pattern id size desk before now after (answer.map fun _ => ())
  | refused (e : SchedulerError) : after.store = before →
      Kept pattern id size desk before now after (.error e)

theorem any_isCompression {jobs : List Job} :
    (jobs.any fun job => job.type == compress.jobType && job.trigger.isRepeating) = true ↔
      ∃ job ∈ jobs, job.IsCompression := by
  simp only [List.any_eq_true, Bool.and_eq_true, beq_iff_eq, Job.IsCompression]

/-- A start comes to an end, and to what it may, whatever the store has and whatever calls fail. -/
theorem keepCompression_kept (s : Alone FaultyStore) : ∃ answer s',
    (keepCompression id size).run.runAlone? pattern.perform s = some (answer, s') ∧
      Kept pattern id size s.desk s.store.store s.now s'.store answer := by
  let ends answer (s' : Alone FaultyStore) : Prop :=
    Kept pattern id size s.desk s.store.store s.now s'.store answer
  have rejects (e : SchedulerError) (n : Nat) :
      ends (.error e) (resting s.desk s.store.store s.now n) := .refused e rfl
  have kept : EndsFrom pattern s.desk s.store.store s.now (fun u => ends (.ok u))
      (fun e => ends (.error e)) (keepCompression id size) := by
    refine from_callStore rejects rfl fun jobs listed => ?_
    dsimp only
    split
    · rename_i there
      obtain ⟨job, mem, recurs⟩ := any_isCompression.mp there
      exact fun n => ends_pure (.found listed mem recurs rfl)
    · rename_i missing
      refine from_look fun n => ends_bind (ends_lift rfl ?_)
      split
      · exact ends_throw (rejects _ n)
      · rename_i trigger built
        refine ends_discard ?_
        obtain ⟨answer, s', ran, lands⟩ := @from_schedule_free pattern s.desk s.store.store s.now
          ((repeatingCompression size).job id trigger) n
        have none : ∀ job ∈ jobs, ¬job.IsCompression := fun job mem recurs =>
          missing (any_isCompression.mpr ⟨job, mem, recurs⟩)
        refine ⟨answer, s', ran, ?_⟩
        cases answer with
        | ok a => exact .submitted listed none built lands.1.submitted
        | error e => exact .submitted listed none built lands.submitted
  obtain ⟨answer, s', ran, lands⟩ := kept s.store.calls
  refine ⟨answer, s', ran, ?_⟩
  cases answer with
  | ok u => exact lands
  | error e => exact lands

/-! ## A store without a compression -/

theorem mem_listJobs {s : MemoryStore} {job : Job} :
    job ∈ s.listJobs ↔ ∃ other : JobId, s.jobs[other]? = some job := by
  rw [MemoryStore.listJobs, List.mem_mergeSort, OrderedMap.values_eq_map_snd, List.mem_map]
  constructor
  · rintro ⟨⟨other, job⟩, mem, rfl⟩
    exact ⟨other, Std.ExtTreeMap.mem_toList_iff_getElem?_eq_some.mp mem⟩
  · rintro ⟨other, row⟩
    exact ⟨(other, job), Std.ExtTreeMap.mem_toList_iff_getElem?_eq_some.mpr row, rfl⟩

theorem parameters_repeatingCompression (size : Duration) (name : String) :
    (repeatingCompression size).parameters[name]? =
      if Block.sizeParameter = name then some (Text.naturalText size.seconds ++ "s") else none := by
  simp [repeatingCompression, Std.ExtTreeMap.ofList_singleton, Std.ExtTreeMap.getElem?_insert]

/-- The compression passes its own check when a block has a second at least. -/
theorem check_repeatingCompression (long : 0 < size.seconds) (trigger : Trigger) :
    compress.check ((repeatingCompression size).job id trigger) = .ok () := by
  have target : ((repeatingCompression size).job id trigger).parameter? Block.targetParameter =
      none := (parameters_repeatingCompression size _).trans (if_neg (by decide))
  have own : ((repeatingCompression size).job id trigger).parameter? Block.sizeParameter =
      some (Text.naturalText size.seconds ++ "s") :=
    (parameters_repeatingCompression size _).trans (if_pos rfl)
  refine bind_eq_ok.mpr ⟨(), discard_eq_ok.mpr (mapM_eq_ok.mpr ?_), ?_⟩
  · rw [target]
    nofun
  · refine discard_eq_ok.mpr (mapM_eq_ok.mpr ?_)
    rw [own]
    rintro _ ⟨⟩
    exact ⟨_, Block.parseSize_eq_ok.mpr (Duration.ofExpression?_seconds long size.seconds_lt)⟩

/-- The compression is accepted with every trigger that is. -/
theorem accepts_repeatingCompression {w : Duration} {trigger : Trigger}
    (accepted : trigger.check w = .ok ()) :
    ((repeatingCompression size).job id trigger).check w = .ok () := by
  have named : ((repeatingCompression size).job id trigger).blankParameter? = none := by
    refine List.find?_eq_none.mpr fun name mem => ?_
    have present := Std.ExtTreeMap.mem_iff_isSome_getElem?.mp (Std.ExtTreeMap.mem_keys.mp mem)
    have present : (repeatingCompression size).parameters[name]?.isSome := present
    rw [parameters_repeatingCompression] at present
    split at present
    · rename_i same
      subst same
      decide
    · cases present
  have texts : ¬Text.isBlankText compress.jobType = true := by decide
  unfold Job.check
  rw [if_neg (show ¬Text.isBlankText ((repeatingCompression size).job id trigger).type from texts),
    if_neg (show ¬Text.isBlankText ((repeatingCompression size).job id trigger).name from texts),
    named]
  show (trigger.check w).mapError _ = _
  rw [accepted]
  rfl

/-- What a start asks of the node, the store and the clock, when no compression comes back yet. -/
structure Admits (id : JobId) (size : Duration) (desk : Desk) (s : MemoryStore) (now : Instant)
    (trigger : Trigger) : Prop where
  running : desk.mode ≠ .stopped
  moving : desk.stopped = false
  registered : ∃ registration, desk.registry[compress.jobType]? = some registration ∧
    registration.check = compress.check
  long : 0 < size.seconds
  built : Trigger.repeating? (Slice.ceil now size).start size desk.width = .ok trigger
  starts : trigger.time.Starts desk.width
  inTime : s.pointer.getD (Slice.containing now desk.width) ≤ trigger.slice desk.width
  free : (Backend.memory s).NameFree now ((repeatingCompression size).job id trigger)
    (trigger.slice desk.width)
  fresh : s.jobs[id]? = none
  unfinished : ∀ slice, ¬s.finishedIn id slice
  missing : ∀ (other : JobId) (job : Job), s.jobs[other]? = some job → ¬job.IsCompression

variable {s : MemoryStore} {trigger : Trigger}

theorem Admits.submission (admits : Admits id size desk s now trigger) :
    Submission.Admits desk s now ((repeatingCompression size).job id trigger) where
  running := admits.running
  moving := admits.moving
  accepted := accepts_repeatingCompression
    (Trigger.check_of_repeating? admits.built admits.starts)
  registered := by
    obtain ⟨registration, registered, check⟩ := admits.registered
    exact ⟨registration, registered, check ▸ check_repeatingCompression admits.long trigger⟩
  inTime := admits.inTime
  free := admits.free
  fresh := admits.fresh

/-- What a start asks for holds of a store where the pointer is not ahead of the clock and no job
has the name of the compression, as long as two blocks after the clock are in range. -/
theorem Admits.of_clock (running : desk.mode ≠ .stopped) (moving : desk.stopped = false)
    (registered : ∃ registration, desk.registry[compress.jobType]? = some registration ∧
      registration.check = compress.check)
    (whole : nanosPerSecond ∣ size.nanos) (long : 0 < size.seconds)
    (multiple : max desk.width.millis 1 ∣ size.millis)
    (since : 0 ≤ now.millis) (outside : ¬now.IsLeap)
    (inRange : now.millis + 2 * size.millis < (maxSecond + 1) * 1000)
    (behind : ∀ pointer, s.pointer = some pointer → pointer ≤ Slice.containing now desk.width)
    (unnamed : ∀ (other : JobId) (job : Job), s.jobs[other]? = some job →
      ¬(job.type = compress.jobType ∧ job.name = compress.jobType))
    (fresh : s.jobs[id]? = none) (unfinished : ∀ slice, ¬s.finishedIn id slice)
    (missing : ∀ (other : JobId) (job : Job), s.jobs[other]? = some job → ¬job.IsCompression) :
    ∃ trigger, Admits id size desk s now trigger := by
  have inMillis : size.IsWhole := Nat.dvd_trans (by decide) whole
  have pos : 0 < size.millis := by
    simp only [Duration.seconds, Duration.millis, nanosPerSecond, nanosPerMilli] at *
    omega
  have reached : Slice.IsReached size now := Slice.isReached_of_nonneg since outside
  obtain ⟨trigger, built⟩ := Trigger.exists_repeating? inMillis pos multiple reached inRange
  obtain ⟨-, starts, least⟩ := Trigger.isLeast_of_repeating? inMillis built reached outside
  refine ⟨trigger, running, moving, registered, long, built, starts, ?_, ?_, fresh, unfinished,
    missing⟩
  · have current : Slice.containing now desk.width ≤ trigger.slice desk.width :=
      Slice.containing_mono least.1.1
        (Instant.millis_le_of_le least.1.1 (Nat.lt_of_not_le outside)) desk.width
    cases there : s.pointer with
    | none => exact current
    | some pointer => exact le_trans (behind pointer there) current
  · rintro sets - other - job found same
    cases row : s.jobs[other]? with
    | none =>
      simp only [Backend.perform_memory, MemoryStore.perform, row] at found
      cases found
    | some other' =>
      simp only [Backend.perform_memory, MemoryStore.perform, row] at found
      obtain rfl := Except.ok.inj found
      exact unnamed other other' row same

/-- The store that a start leads to keeps a compression. -/
theorem Admits.keeps (admits : Admits id size desk s now trigger) :
    ∃ s', ((Backend.memory s).addRow ((repeatingCompression size).job id trigger)).addEntry
        (trigger.slice desk.width) id = .memory s' ∧ s'.KeepsCompression id size desk.width := by
  obtain ⟨-, -, same⟩ := Trigger.repeating?_eq_ok.mp admits.built
  refine ⟨_, rfl,
    ⟨(repeatingCompression size).job id trigger, _, _, _, ?_, ⟨rfl, ?_⟩, same, ?_, ?_⟩,
    fun other job row recurs => ?_⟩
  · exact (MemoryStore.jobs_insert ..).trans (if_pos rfl)
  · exact same ▸ rfl
  · show id ∈ ((MemoryStore.modifySets _ (trigger.slice desk.width) _).sets
      (trigger.slice desk.width)).pending
    rw [MemoryStore.mem_pending, MemoryStore.sets_modifySets, if_pos rfl]
    exact ⟨MemoryStore.mem_insert.mpr (.inl rfl), admits.unfinished _⟩
  · intro pointer there
    have there : s.pointer = some pointer := there
    have inTime := admits.inTime
    rwa [there, Option.getD_some] at inTime
  · have row := (MemoryStore.jobs_insert ..).symm.trans row
    split at row
    · exact Eq.symm ‹_›
    · exact absurd recurs (admits.missing other job row)

section Quiet

variable (quiet : ∀ n, pattern n = none) (n : Nat)
include quiet

/-- A start of a node that has what it asks for leads to a store that keeps a compression. -/
theorem keeps_of_admits (admits : Admits id size desk s now trigger) :
    Ends pattern (keepCompression id size) (resting desk (.memory s) now n)
      (fun _ s' => ∃ m, s'.store.store = .memory m ∧ m.KeepsCompression id size desk.width)
      (fun _ _ => False) := by
  refine from_read quiet rfl (a := s.listJobs) rfl ?_ n
  have missing : ¬(s.listJobs.any fun job =>
      job.type == compress.jobType && job.trigger.isRepeating) = true := by
    rw [any_isCompression]
    rintro ⟨job, mem, recurs⟩
    obtain ⟨other, row⟩ := mem_listJobs.mp mem
    exact admits.missing other job row recurs
  dsimp only
  rw [if_neg missing]
  refine from_look fun n => ends_bind (ends_lift rfl ?_)
  simp only [resting, admits.built]
  exact ends_discard (from_admits quiet admits.submission (fun m => admits.keeps) n)

/-- A start that finds a compression that comes back leaves the store as it is, whether or not the
compression is waiting in any slice, and whatever the size of its blocks. -/
theorem keepCompression_found {other : JobId} {job : Job} (row : s.jobs[other]? = some job)
    (recurs : job.IsCompression) :
    Ends pattern (keepCompression id size) (resting desk (.memory s) now n)
      (fun _ s' => s'.store.store = .memory s) (fun _ _ => False) := by
  refine from_read quiet rfl (a := s.listJobs) rfl ?_ n
  have there : (s.listJobs.any fun job =>
      job.type == compress.jobType && job.trigger.isRepeating) = true :=
    any_isCompression.mpr ⟨job, mem_listJobs.mpr ⟨other, row⟩, recurs⟩
  dsimp only
  rw [if_pos there]
  exact fun m => ends_pure rfl

end Quiet

/-- A start is refused when the first slice for the compression is before the pointer. This happens
when the clock is at the very beginning of a block and the slice that begins with it is over. -/
theorem refused_of_behind {pointer : Slice}
    (missing : ∀ (other : JobId) (job : Job), s.jobs[other]? = some job → ¬job.IsCompression)
    (built : Trigger.repeating? (Slice.ceil now size).start size desk.width = .ok trigger)
    (ahead : s.pointer = some pointer) (behind : trigger.slice desk.width < pointer) :
    EndsFrom pattern desk (.memory s) now (fun _ _ => False)
      (fun _ s' => s'.store.store = .memory s) (keepCompression id size) := by
  have rejects (e : SchedulerError) (n : Nat) :
      (resting desk (.memory s) now n).store.store = .memory s := rfl
  let job := (repeatingCompression size).job id trigger
  have placed : EndsFrom pattern desk (.memory s) now (fun _ _ => False)
      (fun _ s' => s'.store.store = .memory s) (placeJob job (job.slice desk.width)) := by
    refine from_callStore rejects rfl fun found same n => ?_
    obtain rfl : found = some pointer := (Except.ok.inj same).symm.trans ahead
    refine ends_bind (ends_pure ?_)
    dsimp only
    rw [if_pos (show job.slice desk.width < pointer from behind)]
    exact ends_bind (ends_throw rfl)
  refine from_callStore rejects rfl fun jobs listed => ?_
  obtain rfl : jobs = s.listJobs := (Except.ok.inj listed).symm
  dsimp only
  split
  · rename_i there
    obtain ⟨job, mem, recurs⟩ := any_isCompression.mp there
    obtain ⟨other, row⟩ := mem_listJobs.mp mem
    exact absurd recurs (missing other job row)
  · refine from_look fun n => ends_bind (ends_lift rfl ?_)
    simp only [resting, built]
    exact ends_discard (from_schedule rejects placed n)

/-- A node that takes compressions. -/
def compressor : Desk :=
  .ofSettings (.standard "a")
    (Std.ExtTreeMap.empty.insert compress.jobType ⟨0, compress.check, compress.policy⟩)

example : ((keepCompression default (.ofSeconds 7200)).run.runAlone?
    (FaultPattern.perform fun _ => none)
    ⟨compressor, ⟨.memory { MemoryStore.empty with
      pointer := some ((Slice.mk .newYear2024).next (.ofSeconds 60)) }, 0⟩, .newYear2024⟩).map
        Prod.fst =
    some (.error (.invalidSubmission (.sliceAlreadyProcessed ⟨.newYear2024⟩
      ((Slice.mk .newYear2024).next (.ofSeconds 60))))) := by
  decide +kernel

end Maintenance

end SliceScheduler
