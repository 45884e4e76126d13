import SliceScheduler.Proofs.Configured
import SliceScheduler.Proofs.MaintenanceRequests
/-!
# The names of deletions

The name of a deletion is made of what is deleted: the tenant, or the tenant, the type and the name
of a metric, with underscores between them. All of these but the type may have underscores of their
own.

1. `MetricTarget.joined_eq_iff` says which metrics have the same name: those of which one runs into
   the other, `MetricTarget.RunsInto`;
2. `Maintenance.Demand.submits_stored` and `Maintenance.Demand.submits_refused` say what a
   submission comes to by the names of the jobs that are scheduled in its slice;
3. `Maintenance.deletions_apart` is the result: two deletions in one slice do not stand in each
   other's way unless they are of metrics that run into each other.
   `Maintenance.deletions_collide` are two that do.
-/
namespace SliceScheduler

/-! ## Joined texts -/

/-- The first underscore parts a text. -/
theorem append_underscore_inj {a b c d : List Char} (plain : '_' ∉ a) (plain' : '_' ∉ b) :
    a ++ '_' :: c = b ++ '_' :: d ↔ a = b ∧ c = d := by
  induction a generalizing b with
  | nil =>
    cases b with
    | nil => simp
    | cons y b =>
      have differ : '_' ≠ y := fun same => plain' (same ▸ List.mem_cons_self)
      simp [differ]
  | cons x a ih =>
    have differ : x ≠ '_' := fun same => plain (same ▸ List.mem_cons_self)
    cases b with
    | nil => simp [differ]
    | cons y b =>
      rw [List.cons_append, List.cons_append, List.cons.injEq, List.cons.injEq,
        ih (fun mem => plain (List.mem_cons_of_mem x mem))
          (fun mem => plain' (List.mem_cons_of_mem y mem)), and_assoc]

/-- A metric to be deleted: its tenant, its type and its name. -/
structure MetricTarget where
  tenant : String
  type : MetricType
  name : String
deriving DecidableEq

namespace MetricTarget

/-- The parts with underscores between them. -/
def joined (target : MetricTarget) : String :=
  target.tenant ++ "_" ++ target.type.code ++ "_" ++ target.name

/-- The tenant of the second goes on with the type of the first where the tenant of the first ends,
and may go on with the front of its name; the name of the first ends with the type and the name of
the second. -/
inductive RunsInto (a b : MetricTarget) : Prop
  | type : b.tenant = a.tenant ++ "_" ++ a.type.code → a.name = b.type.code ++ "_" ++ b.name →
      RunsInto a b
  | name (front : String) : b.tenant = a.tenant ++ "_" ++ a.type.code ++ "_" ++ front →
      a.name = front ++ "_" ++ b.type.code ++ "_" ++ b.name → RunsInto a b

theorem underscore_notMem_code (type : MetricType) : '_' ∉ type.code.toList := by
  cases type <;> decide

theorem toList_joined (target : MetricTarget) : target.joined.toList =
    target.tenant.toList ++ '_' :: (target.type.code.toList ++ '_' :: target.name.toList) := by
  simp [joined]

theorem code_inj {a b : MetricType} (same : a.code = b.code) : a = b := by
  cases a <;> cases b <;> first | rfl | exact absurd same (by decide)

/-- Where the tenant of the second goes on, it goes on with the type of the first. -/
theorem runsInto_of_rest {a b : MetricTarget} {rest : List Char}
    (tenant : b.tenant.toList = a.tenant.toList ++ rest)
    (same : '_' :: (a.type.code.toList ++ '_' :: a.name.toList) =
      rest ++ '_' :: (b.type.code.toList ++ '_' :: b.name.toList)) :
    a = b ∨ a.RunsInto b := by
  have plain := underscore_notMem_code a.type
  have plain' := underscore_notMem_code b.type
  cases rest with
  | nil =>
    obtain ⟨type, name⟩ := (append_underscore_inj plain plain').mp (List.cons.inj same).2
    rw [List.append_nil] at tenant
    obtain ⟨t, c, n⟩ := a
    obtain ⟨t', c', n'⟩ := b
    obtain rfl : t' = t := String.toList_inj.mp tenant
    obtain rfl : c = c' := code_inj (String.toList_inj.mp type)
    obtain rfl : n = n' := String.toList_inj.mp name
    exact .inl rfl
  | cons x rest =>
    rw [List.cons_append, List.cons.injEq] at same
    obtain ⟨rfl, same⟩ := same
    right
    by_cases mem : '_' ∈ rest
    · obtain ⟨first, front, rfl, plainFirst⟩ := List.eq_append_cons_of_mem mem
      rw [List.append_assoc, List.cons_append, append_underscore_inj plain plainFirst] at same
      refine .name (String.ofList front) ?_ ?_
      · rw [← String.toList_inj, tenant, ← same.1]
        simp
      · rw [← String.toList_inj, same.2]
        simp
    · rw [append_underscore_inj plain mem] at same
      refine .type ?_ ?_
      · rw [← String.toList_inj, tenant, ← same.1]
        simp
      · rw [← String.toList_inj, same.2]
        simp

theorem RunsInto.joined_eq {a b : MetricTarget} (runs : a.RunsInto b) : a.joined = b.joined := by
  cases runs with
  | type tenant name => simp only [joined, tenant, name, String.append_assoc]
  | name front tenant name => simp only [joined, tenant, name, String.append_assoc]

/-- Two metrics have the same joined parts when they are the same or one of them runs into the
other. -/
theorem joined_eq_iff {a b : MetricTarget} :
    a.joined = b.joined ↔ a = b ∨ a.RunsInto b ∨ b.RunsInto a := by
  constructor
  · intro same
    rw [← String.toList_inj, toList_joined, toList_joined, List.append_eq_append_iff] at same
    rcases same with ⟨rest, tenant, same⟩ | ⟨rest, tenant, same⟩
    · rcases runsInto_of_rest tenant same with same | runs
      · exact .inl same
      · exact .inr (.inl runs)
    · rcases runsInto_of_rest tenant same with same | runs
      · exact .inl same.symm
      · exact .inr (.inr runs)
  · rintro (rfl | runs | runs)
    · rfl
    · exact runs.joined_eq
    · exact runs.joined_eq.symm

end MetricTarget

/-! ## What a store has -/

/-- The store in memory with one more job, scheduled in a slice. -/
def MemoryStore.file (m : MemoryStore) (slice : Slice) (job : Job) : MemoryStore :=
  { m with jobs := m.jobs.insert job.id job }.modifySets slice
    fun e => { e with scheduled := e.scheduled.insert job.id }

namespace Backend

/-- The store is open, and has no row and no index. -/
def IsVacant : Backend → Prop
  | memory s => s.jobs = ∅ ∧ s.index = ∅
  | tables t => t.closed = false ∧ t.jobs = ∅ ∧ t.statuses = ∅

variable {b : Backend} {m : MemoryStore} {slice : Slice} {job : Job}

theorem IsVacant.files (vacant : b.IsVacant) : b.Files .empty := by
  cases b with
  | memory s => exact vacant
  | tables t =>
    obtain ⟨isOpen, jobs, statuses⟩ := vacant
    exact ⟨isOpen, jobs ▸ RowsOfJobs.empty, statuses ▸ RowsOfIndex.empty⟩

/-- A job that is stored and scheduled is filed. -/
theorem Files.add (files : b.Files m) (due : job.trigger.IsWhole) (whole : slice.start.IsWhole) :
    ((b.addRow job).addEntry slice job.id).Files (m.file slice job) := by
  cases b with
  | memory s =>
    obtain ⟨jobs, index⟩ := files
    simp only [addRow, addEntry, Files, MemoryStore.file, MemoryStore.modifySets,
      MemoryStore.sets, jobs, index, and_self]
  | tables t =>
    obtain ⟨isOpen, rows, index⟩ := files
    have index : RowsOfIndex
        { t with jobs := t.jobs.insert job.id.text (.ofJob job) }.statuses
        { m with jobs := m.jobs.insert job.id job }.index := index
    exact ⟨isOpen, rows.insert due, index.setFlags whole (.insert .scheduled)⟩

/-- The pointer stays where it is. -/
theorem getPointer_add (b : Backend) (now : Instant) (slice : Slice) (job : Job) :
    (((b.addRow job).addEntry slice job.id).perform now .getPointer).1 =
      (b.perform now .getPointer).1 := by
  cases b with
  | memory s => rfl
  | tables t =>
    have closed : (({ t with jobs := t.jobs.insert job.id.text (.ofJob job) } : TableStore).setFlags
        slice job.id fun row => { row with scheduled := 1 }).closed = t.closed := rfl
    cases isOpen : t.closed with
    | false =>
      rw [perform_open isOpen, addRow, addEntry, perform_open (closed.trans isOpen)]
      rfl
    | true => rw [perform_closed isOpen, addRow, addEntry, perform_closed (closed.trans isOpen)]

end Backend

namespace MemoryStore

variable {m : MemoryStore} {slice : Slice} {job : Job} {id : JobId}

theorem getElem?_file : (m.file slice job).jobs[id]? =
    if compare job.id id = .eq then some job else m.jobs[id]? :=
  Std.ExtTreeMap.getElem?_insert

theorem notMem_scheduled_empty : id ∉ (empty.sets slice).scheduled :=
  Std.ExtTreeSet.not_mem_empty

theorem mem_scheduled_file : id ∈ ((m.file slice job).sets slice).scheduled ↔
    job.id = id ∨ id ∈ (m.sets slice).scheduled := by
  rw [file, sets_modifySets, if_pos rfl, Std.ExtTreeSet.mem_insert,
    Std.LawfulEqCmp.compare_eq_iff_eq]
  rfl

end MemoryStore

/-! ## Submissions in a row -/

namespace Maintenance

open Program.Submission

/-- What is asked for, when, and the id that it gets. -/
structure Demand where
  now : Instant
  id : JobId
  what : CommandLine.Submission

namespace Demand

/-- The job that is asked for. -/
def job (d : Demand) (desk : Desk) : Job := d.what.trimmed.asked.jobAt desk d.now d.id

/-- The submission of what is asked for comes to an answer and leaves a store. -/
def Submits (d : Demand) (desk : Desk) (before : Backend) (answer : Except SchedulerError Job)
    (after : Backend) : Prop :=
  (submit d.id d.what.request).run.runAlone? Backend.perform ⟨desk, before, d.now⟩ =
    some (answer, ⟨desk, after, d.now⟩)

/-- A minute later there is a slice, which the pointer has not passed. Without a pointer that slice
is not before the current one. -/
structure DueIn (d : Demand) (desk : Desk) (store : Backend) (slice : Slice) : Prop where
  reached : Slice.IsReached desk.width (d.now.later submissionDelay)
  ceil : Slice.ceil (d.now.later submissionDelay) desk.width = slice
  ahead : ∃ pointer, (store.perform d.now .getPointer).1 = .ok pointer ∧
    pointer.getD (Slice.containing d.now desk.width) ≤ slice

variable {d d' : Demand} {desk : Desk} {store : Backend} {slice : Slice} {m : MemoryStore}

theorem DueIn.slice_eq (due : d.DueIn desk store slice) : (d.job desk).slice desk.width = slice :=
  (Trigger.slice_singleAt due.reached).trans due.ceil

theorem DueIn.whole (due : d.DueIn desk store slice) : slice.start.IsWhole :=
  due.ceil ▸ (Slice.starts_ceil due.reached).1

theorem DueIn.isWhole_trigger (due : d.DueIn desk store slice) :
    (d.job desk).trigger.IsWhole :=
  (Slice.starts_ceil due.reached).1

theorem DueIn.file (due : d.DueIn desk store slice) (job : Job) :
    d.DueIn desk ((store.addRow job).addEntry slice job.id) slice := by
  obtain ⟨pointer, there, ahead⟩ := due.ahead
  exact ⟨due.reached, due.ceil, pointer, (store.getPointer_add d.now slice job).trans there, ahead⟩

/-- Over a store without faults that has no row of its id, a submission comes to what it may, and no
call goes unanswered. -/
theorem exists_submits (takes : Takes desk) (sound : d.what.IsSound) (files : store.Files m)
    (due : d.DueIn desk store slice) (fresh : m.jobs[d.id]? = none) :
    ∃ answer after, d.Submits desk store answer after ∧
      Placed (fun _ => none) store d.now (d.job desk) slice after answer ∧
      ∀ e, ¬Unanswered (fun _ => none) store d.now (d.job desk) slice e := by
  obtain ⟨pointer, there, ahead⟩ := due.ahead
  have asked := CommandLine.Submission.request_eq_ok.mpr ⟨sound, rfl⟩
  have places : Places (fun _ => none) desk store d.now (d.job desk)
      (submit d.id d.what.request) := by
    refine places_submit takes asked due.reached fun pointer' there' => ?_
    obtain rfl := Except.ok.inj (there.symm.trans there')
    exact due.ceil ▸ ahead
  obtain ⟨answer, s, ran, arrives⟩ := places.exists_arrives 0
  refine ⟨answer, s.store.store, ?_, due.slice_eq ▸ arrives.placed,
    files.answers (fun _ => rfl) fresh there (files.sliceSets due.whole)⟩
  have alone := runAlone?_of_quiet (fun _ => rfl) (submit d.id d.what.request).run
    (resting desk store d.now 0)
  rw [ran, Option.map_some, arrives.desk_eq, arrives.now_eq] at alone
  exact alone

section

variable (takes : Takes desk) (sound : d.what.IsSound) (files : store.Files m)
  (due : d.DueIn desk store slice) (fresh : m.jobs[d.id]? = none)
include takes sound files due fresh

/-- The job is stored when the jobs scheduled in its slice have other names. -/
theorem submits_stored
    (free : ∀ id ∈ (m.sets slice).scheduled, ∀ other, m.jobs[id]? = some other →
      (d.job desk).DiffersFrom other) :
    d.Submits desk store (.ok (d.job desk))
      ((store.addRow (d.job desk)).addEntry slice (d.job desk).id) := by
  obtain ⟨answer, after, submits, placed, answered⟩ := exists_submits takes sound files due fresh
  obtain ⟨rfl, rfl⟩ := placed.stored_of answered fun sets id other found mem row => by
    obtain rfl := Except.ok.inj ((files.sliceSets due.whole).symm.trans found)
    exact free id mem other (files.getJob_eq_ok.mp row)
  exact submits

/-- The job is refused when a job scheduled in its slice has its name. -/
theorem submits_refused {id : JobId} {other : Job} (mem : id ∈ (m.sets slice).scheduled)
    (row : m.jobs[id]? = some other) (type : other.type = (d.job desk).type)
    (name : other.name = (d.job desk).name) :
    d.Submits desk store (.error (.invalidSubmission
      (.duplicateJobName (d.job desk).type (d.job desk).name slice))) store := by
  obtain ⟨answer, after, submits, placed, answered⟩ := exists_submits takes sound files due fresh
  obtain ⟨rfl, rfl⟩ := placed.taken_of answered (isHonest_of_quiet fun _ => rfl)
    (files.sliceSets due.whole) mem (files.getJob_eq_ok.mpr row) type name
  exact submits

end

/-- Both jobs are stored, one after the other. -/
def BothStored (d d' : Demand) (desk : Desk) (store : Backend) (slice : Slice) : Prop :=
  ∃ between, between = (store.addRow (d.job desk)).addEntry slice d.id ∧
    d.Submits desk store (.ok (d.job desk)) between ∧
    d'.Submits desk between (.ok (d'.job desk))
      ((between.addRow (d'.job desk)).addEntry slice d'.id)

/-- The first job is stored and the second is refused for its name, with the store as the first left
it. -/
def SecondRefused (d d' : Demand) (desk : Desk) (store : Backend) (slice : Slice) : Prop :=
  ∃ between, between = (store.addRow (d.job desk)).addEntry slice d.id ∧
    d.Submits desk store (.ok (d.job desk)) between ∧
    d'.Submits desk between (.error (.invalidSubmission
      (.duplicateJobName (d'.job desk).type (d'.job desk).name slice))) between

theorem SecondRefused.not_bothStored (refused : d.SecondRefused d' desk store slice) :
    ¬d.BothStored d' desk store slice := by
  rintro ⟨_, rfl, -, stored⟩
  obtain ⟨_, rfl, -, refused⟩ := refused
  cases congrArg Prod.fst (Option.some.inj (refused.symm.trans stored))

/-- Two that are asked for over a store without rows, in one slice and under two ids. -/
structure InOneSlice (d d' : Demand) (desk : Desk) (store : Backend) (slice : Slice) : Prop where
  takes : Takes desk
  vacant : store.IsVacant
  due : d.DueIn desk store slice
  due' : d'.DueIn desk store slice
  apart : d.id ≠ d'.id

namespace InOneSlice

variable (pair : d.InOneSlice d' desk store slice) (sound : d.what.IsSound)
include pair sound

theorem submits_first : d.Submits desk store (.ok (d.job desk))
    ((store.addRow (d.job desk)).addEntry slice d.id) :=
  submits_stored pair.takes sound pair.vacant.files pair.due rfl
    fun _ mem => absurd mem MemoryStore.notMem_scheduled_empty

omit sound in
/-- What the first leaves has its job, scheduled in the slice, and no other. -/
theorem files_between : ((store.addRow (d.job desk)).addEntry slice d.id).Files
    (MemoryStore.empty.file slice (d.job desk)) :=
  pair.vacant.files.add pair.due.isWhole_trigger pair.due.whole

omit sound in
theorem fresh : (MemoryStore.empty.file slice (d.job desk)).jobs[d'.id]? = none := by
  have apart : compare (d.job desk).id d'.id ≠ .eq := fun same =>
    pair.apart (Std.LawfulEqCmp.eq_of_compare same)
  rw [MemoryStore.getElem?_file, if_neg apart]
  rfl

variable (sound' : d'.what.IsSound)
include sound'

theorem bothStored (differs : (d'.job desk).DiffersFrom (d.job desk)) :
    d.BothStored d' desk store slice := by
  refine ⟨_, rfl, pair.submits_first sound, ?_⟩
  refine submits_stored pair.takes sound' pair.files_between (pair.due'.file (d.job desk))
    pair.fresh fun id mem other row => ?_
  rcases MemoryStore.mem_scheduled_file.mp mem with rfl | mem
  · rw [MemoryStore.getElem?_file, if_pos Std.ReflCmp.compare_self] at row
    exact Option.some.inj row ▸ differs
  · exact absurd mem MemoryStore.notMem_scheduled_empty

theorem secondRefused (type : (d.job desk).type = (d'.job desk).type)
    (name : (d.job desk).name = (d'.job desk).name) : d.SecondRefused d' desk store slice := by
  have row : (MemoryStore.empty.file slice (d.job desk)).jobs[(d.job desk).id]? =
      some (d.job desk) := by
    rw [MemoryStore.getElem?_file, if_pos Std.ReflCmp.compare_self]
  exact ⟨_, rfl, pair.submits_first sound, submits_refused pair.takes sound' pair.files_between
    (pair.due'.file (d.job desk)) pair.fresh (MemoryStore.mem_scheduled_file.mpr (.inl rfl)) row
    type name⟩

end InOneSlice

end Demand

end Maintenance

/-! ## Deletions -/

namespace MetricTarget

variable {a b : MetricTarget}

/-- Without the blanks around the tenant and the name. -/
def trimmed (target : MetricTarget) : MetricTarget :=
  ⟨Text.strip target.tenant, target.type, Text.strip target.name⟩

/-- Neither the tenant nor the name is blank. -/
def IsNamed (target : MetricTarget) : Prop :=
  Text.isBlankText target.tenant = false ∧ Text.isBlankText target.name = false

/-- What is asked for to delete the metric. -/
def deletion (target : MetricTarget) : CommandLine.Submission :=
  .deleteMetric target.tenant target.type.code target.name

theorem IsNamed.isSound (named : a.IsNamed) : a.deletion.IsSound :=
  ⟨named.1, named.2, a.type, rfl⟩

theorem kind_deletion (target : MetricTarget) : target.deletion.trimmed.kind = .deleteMetric := rfl

theorem label_deletion_inj :
    a.deletion.trimmed.label = b.deletion.trimmed.label ↔ a.trimmed.joined = b.trimmed.joined := by
  simp only [deletion, CommandLine.Submission.trimmed, CommandLine.Submission.label, joined,
    trimmed, String.append_assoc, String.append_right_inj]

end MetricTarget

/-- A node that takes maintenance jobs. -/
def Desk.maintainer : Desk := .ofSettings (.standard "a") CommandLine.maintenanceRegistry

namespace Maintenance

open Demand

variable {d d' : Demand} {desk : Desk} {store : Backend} {slice : Slice}
  {s s' : CommandLine.Submission}

theorem Demand.type_job (asks : d.what = s) : (d.job desk).type = s.trimmed.kind.jobType :=
  asks ▸ rfl

theorem Demand.name_job (asks : d.what = s) : (d.job desk).name = s.trimmed.label := asks ▸ rfl

theorem Demand.differs_of_label (asks : d.what = s) (asks' : d'.what = s')
    (labels : s.trimmed.label ≠ s'.trimmed.label) : (d'.job desk).DiffersFrom (d.job desk) :=
  fun same => labels ((name_job asks).symm.trans (same.2.trans (name_job asks')))

namespace Demand

/-- Asked for at the first instant of 2024. -/
def first (what : CommandLine.Submission) : Demand := ⟨.newYear2024, Job.errand.id, what⟩

/-- Asked for at the first instant of 2024, under another id. -/
def second (what : CommandLine.Submission) : Demand := ⟨.newYear2024, Job.soon.id, what⟩

theorem inOneSlice_newYear (s s' : CommandLine.Submission) :
    (first s).InOneSlice (second s') .maintainer (.memory .empty) (.minute 1) := by
  have due (d : Demand) (newYear : d.now = .newYear2024) :
      d.DueIn .maintainer (.memory .empty) (.minute 1) := by
    constructor
    · rw [newYear]; decide
    · rw [newYear]; decide
    · exact ⟨none, rfl, by rw [newYear]; decide⟩
  have apart : Job.errand.id ≠ Job.soon.id := by decide
  have takes : Takes .maintainer := ⟨by decide, rfl, Config.registered⟩
  exact ⟨takes, ⟨rfl, rfl⟩, due _ rfl, due _ rfl, apart⟩

end Demand

/-- Deletions in one slice over a store without rows. The deletions of two tenants are both stored.
The deletions of two metrics are both stored unless one of the metrics runs into the other, and then
the second is refused for its name. -/
theorem deletions_apart (pair : d.InOneSlice d' desk store slice) :
    (∀ tenant tenant', d.what = .deleteTenant tenant → d'.what = .deleteTenant tenant' →
      Text.isBlankText tenant = false → Text.isBlankText tenant' = false →
      Text.strip tenant ≠ Text.strip tenant' → d.BothStored d' desk store slice) ∧
    ∀ a b : MetricTarget, d.what = a.deletion → d'.what = b.deletion → a.IsNamed → b.IsNamed →
      a.trimmed ≠ b.trimmed →
      (¬(a.trimmed.RunsInto b.trimmed ∨ b.trimmed.RunsInto a.trimmed) →
        d.BothStored d' desk store slice) ∧
      (a.trimmed.RunsInto b.trimmed ∨ b.trimmed.RunsInto a.trimmed →
        d.SecondRefused d' desk store slice) := by
  refine ⟨fun tenant tenant' asks asks' named named' differ => ?_,
    fun a b asks asks' named named' differ => ⟨fun free => ?_, fun runs => ?_⟩⟩
  · refine pair.bothStored (asks ▸ named) (asks' ▸ named')
      (differs_of_label asks asks' fun same => ?_)
    exact differ ((String.append_right_inj _).mp same)
  · refine pair.bothStored (asks ▸ named.isSound) (asks' ▸ named'.isSound)
      (differs_of_label asks asks' fun same => ?_)
    rcases MetricTarget.joined_eq_iff.mp (MetricTarget.label_deletion_inj.mp same) with same | runs
    · exact differ same
    · exact free runs
  · have same := MetricTarget.label_deletion_inj.mpr (MetricTarget.joined_eq_iff.mpr (.inr runs))
    have type : (d.job desk).type = (d'.job desk).type := by
      rw [type_job asks, type_job asks', a.kind_deletion, b.kind_deletion]
    exact pair.secondRefused (asks ▸ named.isSound) (asks' ▸ named'.isSound) type
      ((name_job asks).trans (same.trans (name_job asks').symm))

/-- Tenants of which one begins with the other, and metrics with an underscore that is once in the
tenant and once in the name. -/
theorem deletions_apart_newYear :
    ((first (.deleteTenant "a")).InOneSlice (second (.deleteTenant "a_b")) .maintainer
        (.memory .empty) (.minute 1) ∧
      (first (.deleteTenant "a")).BothStored (second (.deleteTenant "a_b")) .maintainer
        (.memory .empty) (.minute 1)) ∧
    (first (MetricTarget.mk "a_b" .gauge "c").deletion).InOneSlice
        (second (MetricTarget.mk "a" .gauge "b_c").deletion) .maintainer (.memory .empty)
        (.minute 1) ∧
      (first (MetricTarget.mk "a_b" .gauge "c").deletion).BothStored
        (second (MetricTarget.mk "a" .gauge "b_c").deletion) .maintainer (.memory .empty)
        (.minute 1) := by
  refine ⟨⟨inOneSlice_newYear _ _, ?_⟩, inOneSlice_newYear _ _, ?_⟩
  · exact (deletions_apart (inOneSlice_newYear _ _)).1 "a" "a_b" rfl rfl (by decide) (by decide)
      (by decide)
  · refine ((deletions_apart (inOneSlice_newYear _ _)).2 ⟨"a_b", .gauge, "c"⟩ ⟨"a", .gauge, "b_c"⟩
      rfl rfl ⟨by decide, by decide⟩ ⟨by decide, by decide⟩ (by decide)).1 fun runs => ?_
    have differ : (MetricTarget.mk "a_b" .gauge "c").trimmed.joined ≠
        (MetricTarget.mk "a" .gauge "b_c").trimmed.joined := by decide
    exact differ (MetricTarget.joined_eq_iff.mpr (.inr runs))

/-- Of the deletions of two metrics that run into each other the second is not stored. -/
theorem deletions_collide :
    (MetricTarget.mk "a" .gauge "b_gauge_c").trimmed ≠
        (MetricTarget.mk "a_gauge_b" .gauge "c").trimmed ∧
      (first (MetricTarget.mk "a" .gauge "b_gauge_c").deletion).SecondRefused
        (second (MetricTarget.mk "a_gauge_b" .gauge "c").deletion)
        .maintainer (.memory .empty) (.minute 1) ∧
      ¬(first (MetricTarget.mk "a" .gauge "b_gauge_c").deletion).BothStored
        (second (MetricTarget.mk "a_gauge_b" .gauge "c").deletion)
        .maintainer (.memory .empty) (.minute 1) := by
  have named : (MetricTarget.mk "a" .gauge "b_gauge_c").IsNamed := ⟨by decide, by decide⟩
  have named' : (MetricTarget.mk "a_gauge_b" .gauge "c").IsNamed := ⟨by decide, by decide⟩
  have refused := (inOneSlice_newYear _ _).secondRefused named.isSound named'.isSound rfl
    (MetricTarget.label_deletion_inj.mpr (by decide))
  exact ⟨by decide, refused, refused.not_bothStored⟩

end Maintenance

end SliceScheduler
