import SliceScheduler.Proofs.Compression
import SliceScheduler.Proofs.JobOutcome
/-!
# The blocks of a compression that comes back

A compression that comes back is created by the start of a node and then run again and again, by any
node. Whatever the clock shows when its runs come to an end, they compress whole blocks, each of
them once and in order.

1. `Maintenance.Occurs` is a run of a job by a node by itself, `Maintenance.Series` are the runs of
   a job one after the other, and `Maintenance.Occurs.outcome` says what one run leaves for the
   next;
2. `Maintenance.IsDue` says of a row that it is the one of a compression with blocks of a size, due
   at the end of a block: `Maintenance.IsDue.execute` is what its run asks for, and
   `Maintenance.IsDue.next` that it is due again at the end of a later block, which is the next one
   unless that had ended already;
3. `Maintenance.Series.covers` says so of all runs, by induction on the series, and
   `Maintenance.isDue_of_created` that a start creates such a row;
4. `Maintenance.keepCompression_covers` is the result for a row that a start has created. That a start
   creates one over a store without a compression says `Maintenance.keeps_of_admits`.
-/
namespace SliceScheduler

/-! ## Multiples of a block -/

namespace Instant

/-- The instant is a number of whole blocks after 1970, outside a leap second. -/
def IsMultiple (size : Duration) (t : Instant) : Prop := ¬t.IsLeap ∧ (size.nanos : Int) ∣ t.nanos

variable {t : Instant} {size : Duration}

theorem IsWhole.nanos_eq (whole : t.IsWhole) : t.nanos = t.millis * nanosPerMilli := by
  obtain ⟨n, fraction⟩ := whole.2
  simp only [nanos, millis, nanosPerSecond, nanosPerMilli] at *
  omega

theorem millis_mul_le_nanos (t : Instant) : t.millis * nanosPerMilli ≤ t.nanos := by
  simp only [nanos, millis, nanosPerSecond, nanosPerMilli]
  omega

end Instant

/-- A size of blocks: whole seconds, at least one, and so few that a signed word holds their
milliseconds. -/
structure Duration.IsBlockSize (size : Duration) : Prop where
  whole : nanosPerSecond ∣ size.nanos
  pos : 0 < size.seconds
  fits : size.millis < Word.size63

namespace Duration.IsBlockSize

variable {size : Duration} (block : size.IsBlockSize)
include block

theorem isWhole : size.IsWhole := Nat.dvd_trans (by decide) block.whole

theorem nanos_eq : size.nanos = size.millis * nanosPerMilli :=
  (Nat.div_mul_cancel block.isWhole).symm

theorem millis_pos : 0 < size.millis := by
  have pos := block.pos
  simp only [Duration.seconds, Duration.millis, nanosPerSecond, nanosPerMilli] at *
  omega

theorem sliceMillis_eq : size.sliceMillis = size.millis := by
  rw [sliceMillis_of_lt block.fits, Nat.max_eq_left block.millis_pos]

/-- The ends of blocks are where slices of their size start. -/
theorem starts_iff {t : Instant} : t.Starts size ↔ t.IsMultiple size := by
  unfold Instant.Starts Instant.IsMultiple
  rw [block.sliceMillis_eq, block.nanos_eq]
  constructor
  · rintro ⟨whole, multiple⟩
    rw [whole.nanos_eq, Int.natCast_mul]
    exact ⟨whole.1, Int.mul_dvd_mul_right _ multiple⟩
  · rintro ⟨outside, multiple⟩
    have whole : t.IsWhole := by
      refine ⟨outside, ?_⟩
      have milli : (nanosPerMilli : Int) ∣ t.nanos :=
        Int.dvd_trans (Int.natCast_mul .. ▸ Int.dvd_mul_left ..) multiple
      simp only [Instant.nanos, nanosPerSecond, nanosPerMilli] at *
      omega
    rw [whole.nanos_eq, Int.natCast_mul] at multiple
    exact ⟨whole, Int.dvd_of_mul_dvd_mul_right (by decide) multiple⟩

end Duration.IsBlockSize

/-! ## The next occurrence -/

namespace Trigger

variable {time current next : Instant} {interval : Duration}

/-- The occurrence after one at a whole instant is later. -/
theorem lt_nextTime? (whole : time.IsWhole) (length : interval.IsWhole) (pos : 0 < interval.millis)
    (found : nextTime? time current interval = some next) : time < next := by
  obtain ⟨first, added, rest⟩ := Option.bind_eq_some_iff.mp found
  obtain ⟨whole', sum⟩ := whole.add? length added
  have first_gt : time < first := Instant.lt_of_millis_lt (by omega) whole'.outside
  have step := (Instant.stepNanos_of_add? whole (Option.isSome_of_eq_some added)).1
  have parts : interval.millis * nanosPerMilli = interval.nanos := Nat.div_mul_cancel length
  have long : nanosPerMilli ≤ Instant.stepNanos interval := by
    simp only [nanosPerMilli] at *
    omega
  split at rest
  · rename_i passed
    exact lt_of_lt_of_le first_gt (le_trans passed (le_of_lt (lt_of_nextTime? long found)))
  · exact Option.some.inj rest ▸ first_gt

/-- The next occurrence is an interval later when that has not been reached. -/
theorem millis_nextTime? (whole : time.IsWhole) (length : interval.IsWhole)
    (early : current.millis < time.millis + interval.millis)
    (found : nextTime? time current interval = some next) :
    next.millis = time.millis + interval.millis := by
  obtain ⟨first, added, rest⟩ := Option.bind_eq_some_iff.mp found
  obtain ⟨whole', sum⟩ := whole.add? length added
  have ahead : ¬first ≤ current :=
    not_le_of_gt (Instant.lt_of_millis_lt (by omega) whole'.outside)
  rw [if_neg ahead] at rest
  rw [← Option.some.inj rest, sum]

end Trigger

/-- The slice of an instant does not start at a later millisecond. -/
theorem Slice.millis_containing_le (t : Instant) (w : Duration) :
    (containing t w).millis ≤ t.millis := by
  by_cases reached : IsReached w t
  · rw [millis_containing reached]
    exact floorMillis_le t.millis w
  · rw [containing_of_not_reached reached]
    exact le_refl t.millis

namespace Maintenance

open Program Program.Submission

variable {w size : Duration}

/-! ## Runs of a job -/

/-- A run of a job: the job that an executor was given, and what the clock showed when the executor
had come to an end. -/
structure Occurrence where
  job : Job
  ended : Instant

/-- The time that the run was due at. -/
def Occurrence.time (o : Occurrence) : Instant := o.job.trigger.time

/-- A node with slices of a width, on which an executor for compressions is registered, runs a job
that it has found in the store, in the slice that the job is due in. `after` is the row that this
leaves. -/
inductive Occurs (w : Duration) (job : Job) : Occurrence → Option Job → Prop
  | intro {run : Executors} {s s' : Solo} {registration : Registration} {given : Job} :
      s.desk.width = w → s.desk.registry[job.type]? = some registration →
      registration.policy = compress.policy → s.store.jobs[job.id]? = some job →
      (runJob (job.slice w) job.id).runSolo? run s = some ((), s') →
      s'.executed = s.executed ++ [(registration, given)] →
      Occurs w job ⟨given, (run registration given).2⟩ s'.store.jobs[job.id]?

/-- The runs of a job, one after the other. Each of them finds the row that the one before it has
left. -/
inductive Series (w : Duration) : Job → List Occurrence → Prop
  | nil {job : Job} : Series w job []
  | last {job : Job} {o : Occurrence} : Occurs w job o none → Series w job [o]
  | more {job next : Job} {o : Occurrence} {rest : List Occurrence} :
      Occurs w job o (some next) → Series w next rest → Series w job (o :: rest)

/-- The row that a run leaves: with the next trigger if there is one, and none otherwise. -/
def rowAfter (w : Duration) (job : Job) (ended : Instant) : Option Job :=
  (job.trigger.next? ended w).map (job.rescheduled · Count.zero)

/-- A failed compression is not retried. -/
theorem onward?_compress (job : Job) (now : Instant) (o : Outcome) :
    job.onward? compress.policy w now o = (job.trigger.next? now w).map (·, Count.zero) := by
  unfold Job.onward?
  cases o.error? <;> rfl

/-- A run gives the job to its executor and leaves the row with the next trigger, if there is
one. -/
theorem runJob_compress (run : Executors) {s : Solo} {registration : Registration} {job : Job}
    (registered : s.desk.registry[job.type]? = some registration)
    (policy : registration.policy = compress.policy) (stored : s.store.jobs[job.id]? = some job) :
    ∃ s', (runJob (job.slice s.desk.width) job.id).runSolo? run s = some ((), s') ∧
      s'.executed = s.executed ++ [(registration, job)] ∧
      s'.store.jobs[job.id]? = rowAfter s.desk.width job (run registration job).2 := by
  have onward := onward?_compress (w := s.desk.width) job (run registration job).2
    (run registration job).1
  rw [← policy] at onward
  cases next : job.trigger.next? (run registration job).2 s.desk.width with
  | none =>
    rw [next, Option.map_none] at onward
    obtain ⟨s', ran, follows⟩ := Solo.runJob_of_course run (job.slice s.desk.width)
      (Solo.keyed_of_stored stored)
      (Course.ends_retired (e := s.store.entry job.id) stored rfl registered onward) rfl
    refine ⟨s', ran, follows.executed, ?_⟩
    rw [rowAfter, next, Option.map_none]
    exact congrArg JobEntry.row follows.entry
  | some trigger =>
    rw [next, Option.map_some] at onward
    obtain ⟨s', ran, follows⟩ := Solo.runJob_of_course run (job.slice s.desk.width)
      (Solo.keyed_of_stored stored)
      (Course.ends_moved (e := s.store.entry job.id) stored rfl registered onward) rfl
    refine ⟨s', ran, follows.executed, ?_⟩
    rw [rowAfter, next, Option.map_some]
    exact congrArg JobEntry.row follows.entry

/-- What a run comes to: the executor was given the job that the store had. -/
theorem Occurs.outcome {job : Job} {o : Occurrence} {after : Option Job}
    (occurs : Occurs w job o after) : o.job = job ∧ after = rowAfter w job o.ended := by
  obtain ⟨rfl, registered, policy, stored, ran, executed⟩ := occurs
  obtain ⟨s'', ran', executed', row⟩ := runJob_compress _ registered policy stored
  obtain ⟨-, rfl⟩ := Prod.mk.inj (Option.some.inj (ran'.symm.trans ran))
  have given := List.append_cancel_left (executed.symm.trans executed')
  obtain ⟨-, rfl⟩ := Prod.mk.inj (List.cons.inj given).1
  exact ⟨rfl, row⟩

/-! ## The row of the compression -/

/-- The row of the compression with blocks of a size, due at the end of a block that starts in
range. -/
structure IsDue (size : Duration) (job : Job) : Prop where
  parameters : job.parameters = (repeatingCompression size).parameters
  repeats : ∃ count, job.trigger = .repeating job.trigger.time size none count
  starts : job.trigger.time.Starts size
  inRange : minSecond * 1000 + size.millis ≤ job.trigger.time.millis

namespace IsDue

variable {job : Job} (block : size.IsBlockSize) (due : IsDue size job)
include block due

/-- The block that precedes the time of the compression is the one that ends there. -/
theorem precedes : ∃ start, Block.Precedes job.trigger.time size start job.trigger.time := by
  have pos := block.millis_pos
  have last := due.starts.1.millis_inRange
  have first := due.inRange
  have inRange : (Instant.ofMillis? (job.trigger.time.millis - size.millis)).isSome :=
    Instant.ofMillis?_isSome.mpr (by omega)
  obtain ⟨start, found⟩ := Option.isSome_iff_exists.mp inRange
  have length := Instant.millis_of_ofMillis? found
  exact ⟨start, {
    start_whole := Instant.isWhole_of_ofMillis? found
    stop_whole := due.starts.1
    length := by omega
    aligned := block.sliceMillis_eq ▸ due.starts.2
    ended := le_refl _
    last := by omega }⟩

/-- The compression asks for the block that ends at its time, whatever the settings. -/
theorem asks {start : Instant}
    (precedes : Block.Precedes job.trigger.time size start job.trigger.time) (settings : Settings) :
    Asks settings job compress (.compressBlock start job.trigger.time) := by
  have parameter (name : String) :
      job.parameter? name = (repeatingCompression size).parameters[name]? := by
    rw [Job.parameter?, due.parameters]
  have target : job.parameter? Block.targetParameter = none :=
    (parameter _).trans ((parameters_repeatingCompression size _).trans (if_neg (by decide)))
  have own : job.parameter? Block.sizeParameter = some (Text.naturalText size.seconds ++ "s") :=
    (parameter _).trans ((parameters_repeatingCompression size _).trans (if_pos rfl))
  have read := Duration.ofExpression?_seconds block.pos size.seconds_lt
  rw [Duration.ofSeconds_seconds block.whole] at read
  exact .compress (.due target) (.named own read) precedes

/-- The run of the compression is one request, for the block that ends at its time. -/
theorem execute : ∃ start : Instant, start.IsMultiple size ∧
    start.nanos + size.nanos = job.trigger.time.nanos ∧ ∀ settings log,
      compress.execute settings job log = log.perform (.compressBlock start job.trigger.time) := by
  obtain ⟨start, precedes⟩ := due.precedes block
  have length := precedes.length
  have nanos := block.nanos_eq
  refine ⟨start, block.starts_iff.mp ⟨precedes.start_whole, ?_⟩, ?_, fun settings log => ?_⟩
  · rw [show start.millis = job.trigger.time.millis - size.millis by omega, block.sliceMillis_eq]
    exact Int.dvd_sub precedes.aligned (Int.dvd_refl _)
  · rw [precedes.start_whole.nanos_eq, precedes.stop_whole.nanos_eq, nanos, ← length,
      Int.natCast_mul, Int.add_mul]
  · rw [Maintenance.execute, plan_eq_ok.mpr (due.asks block precedes settings)]

/-- The series of the compression is one of ends of blocks. -/
theorem regular : job.trigger.Regular size := by
  obtain ⟨count, repeats⟩ := due.repeats
  have step : Instant.stepNanos size = size.millis * nanosPerMilli := by
    have fits := block.fits
    rw [Instant.stepNanos, block.nanos_eq, Nat.min_eq_left]
    simp only [Instant.maxStepNanos, nanosPerMilli, Word.size63] at *
    omega
  have multiple : size.sliceMillis ∣ (size.millis : Int) := by
    rw [block.sliceMillis_eq]
  rw [repeats]
  exact ⟨due.starts, step, multiple⟩

/-- The compression is due again at the end of a later block, which is the next block unless that
has ended already. -/
theorem next {trigger : Trigger} {now : Instant} (found : job.trigger.next? now w = some trigger) :
    IsDue size (job.rescheduled trigger .zero) ∧
      job.trigger.time.nanos + size.nanos ≤ trigger.time.nanos ∧
      (now.nanos < job.trigger.time.nanos + size.nanos →
        trigger.time.nanos = job.trigger.time.nanos + size.nanos) := by
  obtain ⟨count, repeats⟩ := due.repeats
  have starts := (due.regular block).starts_next found
  rw [repeats] at found
  obtain ⟨-, time, found, same⟩ := Trigger.next?_eq_some found
  have later : job.trigger.time < trigger.time := by
    rw [same]
    exact Trigger.lt_nextTime? due.starts.1 block.isWhole block.millis_pos found
  -- both times are ends of blocks, so that they are a block apart
  have apart : job.trigger.time.millis + size.millis ≤ trigger.time.millis := by
    rw [← block.sliceMillis_eq]
    exact due.starts.add_le starts ((due.starts.1.lt_iff_millis_lt starts.1).mp later)
  have nanos := block.nanos_eq
  rw [due.starts.1.nanos_eq, starts.1.nanos_eq]
  refine ⟨⟨due.parameters, ⟨count.succ, ?_⟩, starts, ?_⟩, ?_, fun early => ?_⟩
  · show trigger = .repeating trigger.time size none count.succ
    rw [same]
    rfl
  · have first := due.inRange
    show _ ≤ trigger.time.millis
    omega
  · simp only [nanosPerMilli] at *
    omega
  · have current := Slice.millis_containing_le now w
    have clock := now.millis_mul_le_nanos
    have early : now.millis < job.trigger.time.millis + size.millis := by
      simp only [nanosPerMilli] at *
      omega
    have next : trigger.time.millis = job.trigger.time.millis + size.millis := by
      rw [same]
      exact Trigger.millis_nextTime? due.starts.1 block.isWhole
        (lt_of_le_of_lt current early) found
    rw [next, nanos, Int.natCast_mul, Int.add_mul]

end IsDue

/-! ## All runs -/

/-- The second run is due a block after the first at the earliest, and exactly then if the first
came to an end before that. -/
def Occurrence.Precedes (size : Duration) (a b : Occurrence) : Prop :=
  a.time.nanos + size.nanos ≤ b.time.nanos ∧
    (a.ended.nanos < a.time.nanos + size.nanos → b.time.nanos = a.time.nanos + size.nanos)

/-- The first run is given the row that the series begins with. -/
theorem Series.head_job {job : Job} {runs : List Occurrence} (series : Series w job runs) :
    ∀ o ∈ runs.head?, o.job = job := by
  intro o first
  cases series with
  | nil => cases first
  | last occurs => exact Option.some.inj first ▸ occurs.outcome.1
  | more occurs _ => exact Option.some.inj first ▸ occurs.outcome.1

/-- All runs of a compression are due at ends of blocks, each after the ones before it. -/
theorem Series.covers {job : Job} {runs : List Occurrence} (block : size.IsBlockSize)
    (series : Series w job runs) (due : IsDue size job) :
    (∀ o ∈ runs, IsDue size o.job) ∧ runs.IsChain (Occurrence.Precedes size) := by
  induction series with
  | nil => exact ⟨fun o mem => absurd mem List.not_mem_nil, .nil⟩
  | last occurs =>
    refine ⟨fun o mem => ?_, .singleton _⟩
    rw [List.mem_singleton.mp mem, occurs.outcome.1]
    exact due
  | @more job next o rest occurs series ih =>
    obtain ⟨same, leaves⟩ := occurs.outcome
    obtain ⟨trigger, found, rfl⟩ := Option.map_eq_some_iff.mp leaves.symm
    obtain ⟨due', later, early⟩ := due.next block found
    obtain ⟨each, chain⟩ := ih due'
    refine ⟨fun o' mem => ?_, ?_⟩
    · rcases List.mem_cons.mp mem with rfl | mem
      · exact same ▸ due
      · exact each o' mem
    · cases rest with
      | nil => exact .singleton o
      | cons o' rest =>
        have head := series.head_job o' rfl
        refine List.isChain_cons_cons.mpr ⟨?_, chain⟩
        rw [Occurrence.Precedes, Occurrence.time, Occurrence.time, same, head]
        exact ⟨later, early⟩

/-! ## The row that a start creates -/

/-- When the first block starts in range, so does the block that the clock is in. -/
theorem isReached_of_first {now : Instant} (block : size.IsBlockSize) (outside : ¬now.IsLeap)
    (multiple : w.sliceMillis ∣ (size.millis : Int))
    (inRange : minSecond * 1000 + size.millis ≤ (Slice.ceil (Slice.ceil now size).start w).millis) :
    Slice.IsReached size now := by
  by_contra fails
  rcases Slice.not_reached_bounds fails with ⟨-, low⟩ | ⟨-, -, leap⟩
  · have above := Slice.lt_floorMillis_add now.millis size
    rw [block.sliceMillis_eq] at above
    rw [Slice.ceil_eq now size, Slice.containing_of_not_reached fails, if_pos rfl] at inRange
    have inRange : minSecond * 1000 + size.millis ≤ (Slice.ceil now w).millis := inRange
    suffices (Slice.ceil now w).millis ≤ Slice.floorMillis now.millis size + size.millis by omega
    rw [Slice.ceil_eq]
    by_cases reached : Slice.IsReached w now
    · have floor := Slice.floorMillis_le now.millis w
      rw [← Slice.millis_containing reached] at floor
      split
      · omega
      · by_cases next : (Slice.containing now w).HasNext w
        · -- the end of the block is the start of a slice after the current one
          have ends : w.sliceMillis ∣ Slice.floorMillis now.millis size + size.millis := by
            rw [Slice.floorMillis, block.sliceMillis_eq]
            exact Int.dvd_add (Int.dvd_mul_of_dvd_right multiple) multiple
          have starts : w.sliceMillis ∣ (Slice.containing now w).millis :=
            (Slice.starts_containing reached).2
          have slices := Int.le_of_dvd (by omega) (Int.dvd_sub ends starts)
          rw [Slice.millis_next next]
          exact Int.add_le_of_le_sub_left slices
        · rw [Slice.next_eq_self next]
          omega
    · rw [Slice.containing_of_not_reached reached, if_pos rfl]
      exact le_of_lt above
  · exact outside leap

section Created

variable {pattern : FaultPattern} {id : JobId} {s s' : Alone FaultyStore} {m m' : MemoryStore}
  {job : Job}
  (created : (keepCompression id size).run.runAlone? pattern.perform s = some (.ok (), s'))
  (before : s.store.store = .memory m) (absent : m.jobs[id]? = none)
  (after : s'.store.store = .memory m') (row : m'.jobs[id]? = some job)
include created before absent after row

/-- The row that a start creates is that of the compression, with a trigger that was built for
it. -/
theorem created_eq : ∃ trigger,
    Trigger.repeating? (Slice.ceil s.now size).start size s.desk.width = .ok trigger ∧
      job = (repeatingCompression size).job id trigger := by
  obtain ⟨answer, s'', ran, kept⟩ := @keepCompression_kept pattern id size s
  obtain ⟨rfl, rfl⟩ := Prod.mk.inj (Option.some.inj (ran.symm.trans created))
  generalize ended : (Except.ok () : Except SchedulerError Unit) = answer at kept
  cases kept with
  | found _ _ _ same =>
    obtain rfl := Backend.memory.inj (after.symm.trans (same.trans before))
    cases absent.symm.trans row
  | @submitted jobs trigger answer _ _ built submitted =>
    cases submitted with
    | accepted _ same =>
      rw [before] at same
      obtain rfl := Backend.memory.inj (after.symm.trans same)
      have found := (MemoryStore.jobs_insert ..).symm.trans row
      rw [if_pos (show ((repeatingCompression size).job id trigger).id = id from rfl)] at found
      exact ⟨trigger, built, (Option.some.inj found).symm⟩
    | refused => cases ended
    | unentered => cases ended
  | refused => cases ended

/-- The row that a start creates is due at the first end of a block that is not before the clock, if
the first block starts in range. -/
theorem isDue_of_created (seconds : nanosPerSecond ∣ size.nanos) (outside : ¬s.now.IsLeap)
    (inRange : minSecond * 1000 + size.millis ≤ job.trigger.time.millis) :
    size.IsBlockSize ∧ IsDue size job ∧
      IsLeast {t | s.now ≤ t ∧ t.Starts size} job.trigger.time := by
  obtain ⟨trigger, built, rfl⟩ := created_eq created before absent after row
  have inRange : minSecond * 1000 + size.millis ≤ trigger.time.millis := inRange
  have bounds := trigger.time.millis_bounds
  obtain ⟨multiple, -, same⟩ := Trigger.repeating?_eq_ok.mp built
  obtain ⟨positive, slices⟩ := Trigger.checkInterval_eq_ok.mp multiple
  have block : size.IsBlockSize := by
    refine ⟨seconds, ?_, ?_⟩
    · have parts : size.seconds * nanosPerSecond = size.nanos := Nat.div_mul_cancel seconds
      simp only [nanosPerSecond] at parts
      omega
    · simp only [minSecond, maxSecond, Word.size63] at *
      omega
  have inSlices : s.desk.width.sliceMillis ∣ (size.millis : Int) :=
    block.sliceMillis_eq ▸ Duration.sliceMillis_dvd block.millis_pos block.fits slices
  have reached : Slice.IsReached size s.now :=
    isReached_of_first block outside inSlices (by rw [same] at inRange; exact inRange)
  obtain ⟨repeats, -, least⟩ :=
    Trigger.isLeast_of_repeating? block.isWhole built reached outside
  exact ⟨block, ⟨rfl, ⟨_, repeats⟩, least.1.2, inRange⟩, least⟩

/-- A compression that a start creates covers disjoint whole blocks. Its first run is due at the
first multiple of the block that is not before the clock. Every run asks for the block that ends at
the time it is due at, whatever the settings. The blocks of later runs come after those of earlier
ones, and immediately after if the run came to an end before the next block did. The blocks are
those of whole seconds of which the first starts in range, and the clock is outside a leap second
when the compression is created. It may show anything when the runs come to their ends. -/
theorem keepCompression_covers (seconds : nanosPerSecond ∣ size.nanos) (outside : ¬s.now.IsLeap)
    (inRange : minSecond * 1000 + size.millis ≤ job.trigger.time.millis) {runs : List Occurrence}
    (series : Series s.desk.width job runs) :
    IsLeast {t | s.now ≤ t ∧ t.IsMultiple size} job.trigger.time ∧
      (∀ o ∈ runs.head?, o.time = job.trigger.time) ∧
      (∀ o ∈ runs, ∃ start : Instant, start.IsMultiple size ∧
        start.nanos + size.nanos = o.time.nanos ∧ ∀ settings log,
          compress.execute settings o.job log = log.perform (.compressBlock start o.time)) ∧
      runs.Pairwise (fun a b : Occurrence => a.time.nanos + size.nanos ≤ b.time.nanos) ∧
      runs.IsChain (fun a b : Occurrence => a.ended.nanos < a.time.nanos + size.nanos →
        b.time.nanos = a.time.nanos + size.nanos) := by
  obtain ⟨block, due, least⟩ :=
    isDue_of_created created before absent after row seconds outside inRange
  obtain ⟨each, chain⟩ := series.covers block due
  have trans : IsTrans Occurrence fun a b => a.time.nanos + size.nanos ≤ b.time.nanos :=
    ⟨fun a b c first second => by omega⟩
  refine ⟨?_, fun o first => ?_, fun o mem => (each o mem).execute block,
    (chain.imp fun _ _ => And.left).pairwise, chain.imp fun _ _ => And.right⟩
  · simpa only [block.starts_iff] using least
  · rw [Occurrence.time, series.head_job o first]

end Created

/-! ## Two runs -/

/-- A compression can be run by a node that takes compressions, whatever the clock shows then. -/
theorem occurs_compression {job : Job} (type : job.type = compress.jobType) (ended : Instant) :
    Occurs compressor.width job ⟨job, ended⟩ (rowAfter compressor.width job ended) := by
  let s : Solo := {
    desk := compressor
    store := { MemoryStore.empty with jobs := MemoryStore.empty.jobs.insert job.id job }
    now := ended
    executed := [] }
  have stored : s.store.jobs[job.id]? = some job := (MemoryStore.jobs_insert ..).trans (if_pos rfl)
  have registered : s.desk.registry[job.type]? = some ⟨0, compress.check, compress.policy⟩ := by
    rw [type]
    rfl
  obtain ⟨s', ran, executed, row⟩ :=
    runJob_compress (fun _ _ => (.success, ended)) registered rfl stored
  rw [← show s'.store.jobs[job.id]? = rowAfter compressor.width job ended from row]
  exact .intro rfl registered rfl stored ran executed

/-- A compression of blocks of two hours that was created at the first instant of 2024. -/
def bihourly : Job :=
  (repeatingCompression (.ofSeconds 7200)).job default
    (.repeating .newYear2024 (.ofSeconds 7200) none .zero)

/-- The row of the compression after a start at the first instant of 2024. -/
def createdAtNewYear : Option (Except SchedulerError Unit × Option Job) :=
  ((keepCompression default (.ofSeconds 7200)).run.runAlone? (FaultPattern.perform fun _ => none)
    ⟨compressor, ⟨.memory .empty, 0⟩, .newYear2024⟩).map fun r =>
      (r.1, match r.2.store.store with
        | .memory m => m.jobs[(default : JobId)]?
        | .tables _ => none)

/-- A start over an empty store creates the compression, and the blocks of its first two runs lie
apart. -/
theorem keepCompression_covers_newYear : ∃ s' m first second,
    MemoryStore.empty.jobs[(default : JobId)]? = none ∧
    (keepCompression default (.ofSeconds 7200)).run.runAlone? (FaultPattern.perform fun _ => none)
      ⟨compressor, ⟨.memory .empty, 0⟩, .newYear2024⟩ = some (.ok (), s') ∧
    s'.store.store = .memory m ∧ m.jobs[(default : JobId)]? = some bihourly ∧
    Series compressor.width bihourly [first, second] ∧
    IsLeast {t | Instant.newYear2024 ≤ t ∧ t.IsMultiple (.ofSeconds 7200)} first.time ∧
    first.time.nanos + (Duration.ofSeconds 7200).nanos ≤ second.time.nanos := by
  have starts : createdAtNewYear = some (.ok (), some bihourly) := by decide +kernel
  obtain ⟨⟨answer, s'⟩, created, facts⟩ := Option.map_eq_some_iff.mp starts
  obtain ⟨rfl, row⟩ := Prod.mk.inj facts
  obtain ⟨m', after⟩ : ∃ m', s'.store.store = .memory m' := by
    cases there : s'.store.store with
    | memory m => exact ⟨m, rfl⟩
    | tables t =>
      simp only [there] at row
      cases row
  simp only [after] at row
  have absent : MemoryStore.empty.jobs[(default : JobId)]? = none := by decide
  -- the first run comes to its end in the block after its own: the second is due two blocks later
  let ended := Instant.newYear2024.later (.ofSeconds 10000)
  let next : Job := bihourly.rescheduled
    (.repeating (Instant.newYear2024.later (.ofSeconds 14400)) (.ofSeconds 7200) none
      Count.zero.succ) .zero
  have leaves : rowAfter compressor.width bihourly ended = some next := by decide +kernel
  obtain ⟨later, leaves'⟩ : ∃ later, rowAfter compressor.width next ended = some later :=
    Option.isSome_iff_exists.mp (by decide +kernel)
  have series : Series compressor.width bihourly [⟨bihourly, ended⟩, ⟨next, ended⟩] :=
    .more (leaves ▸ occurs_compression rfl ended)
      (.more (leaves' ▸ occurs_compression rfl ended) .nil)
  obtain ⟨least, begins, -, apart, -⟩ := keepCompression_covers created rfl absent after row
    (by decide) (by decide) (by decide) series
  exact ⟨s', m', _, _, absent, created, after, row, series, begins _ rfl ▸ least,
    List.rel_of_pairwise_cons apart (List.mem_singleton.mpr rfl)⟩

end Maintenance

end SliceScheduler
