import SliceScheduler.Proofs.Blocks
import SliceScheduler.Maintenance.Executor
/-!
# What the check of a maintenance job promises of its run

The parameters of a maintenance job are read twice: by the check when the job is submitted, and
again when it runs, then together with the settings and the range of instants.

1. `Maintenance.Asks` says which request the parameters of a job stand for, and
   `Maintenance.plan_eq_ok` that a run makes that request and no other;
2. `Maintenance.plan_of_refused` says that a job that the check refuses is refused by its run, for
   the same reason;
3. `Maintenance.plan_of_accepted` says that a job that the check accepts is refused by its run in
   one case only: it is a compression, and no block of its size precedes its target time;
4. `WorkLog.perform_ne` says that the service keeps account of every request, so that no request was
   made when the account is the same. `Maintenance.execute_agrees_check` puts all of this together,
   and `Maintenance.overlong_accepted` is a compression of that one case.
-/
namespace SliceScheduler

/-! ## Reading a parameter -/

/-- The parameter has a value, and the value is not blank. -/
def Job.HasText (job : Job) (name value : String) : Prop :=
  job.parameter? name = some value ∧ Text.isBlankText value = false

theorem Job.requireParameter_eq_ok {job : Job} {name value : String} :
    job.requireParameter name = .ok value ↔ job.HasText name value := by
  unfold requireParameter HasText
  cases job.parameter? name with
  | none => simp
  | some given =>
    by_cases blank : Text.isBlankText given = true
    · simp only [blank, if_true, reduceCtorEq, Option.some.injEq, false_iff, not_and]
      rintro rfl
      simp [blank]
    · simp only [blank, Bool.false_eq_true, if_false, Except.ok.injEq, Option.some.injEq]
      exact ⟨fun same => ⟨same, same ▸ Bool.eq_false_of_not_eq_true blank⟩, And.left⟩

/-- A text is the code of a type of metric when it is read as that type. -/
theorem MetricType.parse_eq_ok {code : String} {type : MetricType} :
    parse code = .ok type ↔ code = type.code := by
  unfold parse
  constructor
  · intro read
    split at read
    · rename_i t found
      obtain rfl := Except.ok.inj read
      exact (beq_iff_eq.mp (List.find?_some found :)).symm
    · cases read
  · rintro rfl
    cases type <;> rfl

namespace Block

/-- A text denotes a target time when it has the milliseconds of a whole instant in range. -/
theorem parseTarget_eq_ok {text : String} {target : Instant} : parseTarget text = .ok target ↔
    Text.int64? (Text.stripChars text.toList) = some target.millis ∧ target.IsWhole := by
  unfold parseTarget
  cases Text.int64? (Text.stripChars text.toList) with
  | none => simp
  | some ms =>
    simp only [Option.some.injEq]
    constructor
    · intro read
      split at read
      · cases read
      · rename_i t found
        obtain rfl := Except.ok.inj read
        exact ⟨(Instant.millis_of_ofMillis? found).symm, Instant.isWhole_of_ofMillis? found⟩
    · rintro ⟨rfl, whole⟩
      rw [whole.ofMillis?_millis]

theorem parseSize_eq_ok {text : String} {size : Duration} :
    parseSize text = .ok size ↔ Duration.ofExpression? text = some size := by
  unfold parseSize Duration.parse
  cases Duration.ofExpression? text with
  | none => simp [Except.mapError]
  | some d => simp [Except.mapError]

end Block

/-! ## What a job asks for -/

namespace Maintenance

variable {settings : Settings} {job : Job} {kind : Maintenance} {work : Work}

/-- The target time of a job is the one that it names, or else the time it is due at. -/
inductive Target (job : Job) : Instant → Prop
  | named {text : String} {target : Instant} :
      job.parameter? Block.targetParameter = some text →
      Text.int64? (Text.stripChars text.toList) = some target.millis → target.IsWhole →
      Target job target
  | due : job.parameter? Block.targetParameter = none → Target job job.trigger.time

/-- The size of the block of a job is the one that it names, or else the one of the settings, or
else the standard one. -/
inductive Size (settings : Settings) (job : Job) : Duration → Prop
  | named {text : String} {size : Duration} :
      job.parameter? Block.sizeParameter = some text → Duration.ofExpression? text = some size →
      Size settings job size
  | configured {text : String} {size : Duration} :
      job.parameter? Block.sizeParameter = none →
      settings.get? settingsGroup sizeKey = some text → Duration.ofExpression? text = some size →
      Size settings job size
  | standard :
      job.parameter? Block.sizeParameter = none → settings.get? settingsGroup sizeKey = none →
      Size settings job Block.standardSize

/-- The request that the parameters of a job stand for. -/
inductive Asks (settings : Settings) (job : Job) : Maintenance → Work → Prop
  | deleteTenant {tenant : String} :
      job.HasText tenantParameter tenant → Asks settings job deleteTenant (.deleteTenant tenant)
  | deleteMetric {tenant name : String} {type : MetricType} :
      job.HasText tenantParameter tenant → job.HasText metricTypeParameter type.code →
      job.HasText metricNameParameter name →
      Asks settings job deleteMetric (.deleteMetric tenant type name)
  | compress {target start stop : Instant} {size : Duration} :
      Target job target → Size settings job size → Block.Precedes target size start stop →
      Asks settings job compress (.compressBlock start stop)

/-- The compression has a target time and a size, but no block of the size precedes the time. -/
def LacksBlock (settings : Settings) (job : Job) (target : Instant) (size : Duration) : Prop :=
  Target job target ∧ Size settings job size ∧ ∀ start stop, ¬Block.Precedes target size start stop

theorem targetTime_eq_ok {target : Instant} : targetTime job = .ok target ↔ Target job target := by
  unfold targetTime
  constructor
  · intro read
    split at read
    · obtain ⟨number, whole⟩ := Block.parseTarget_eq_ok.mp read
      exact .named ‹_› number whole
    · obtain rfl := Except.ok.inj read
      exact .due ‹_›
  · rintro (⟨given, number, whole⟩ | absent)
    · rw [given]
      exact Block.parseTarget_eq_ok.mpr ⟨number, whole⟩
    · rw [absent]

theorem blockSize_eq_ok {size : Duration} :
    blockSize settings job = .ok size ↔ Size settings job size := by
  unfold blockSize
  constructor
  · intro read
    split at read
    · exact .named ‹_› (Block.parseSize_eq_ok.mp read)
    · split at read
      · exact .configured ‹_› ‹_› (Block.parseSize_eq_ok.mp read)
      · obtain rfl := Except.ok.inj read
        exact .standard ‹_› ‹_›
  · rintro (⟨given, number⟩ | ⟨absent, given, number⟩ | ⟨absent, absent'⟩)
    · rw [given]
      exact Block.parseSize_eq_ok.mpr number
    · rw [absent, given]
      exact Block.parseSize_eq_ok.mpr number
    · rw [absent, absent']

/-- What is computed in two steps is computed when the first step is. -/
theorem bind_eq_ok {ε α β : Type} {x : Except ε α} {f : α → Except ε β} {b : β} :
    x >>= f = .ok b ↔ ∃ a, x = .ok a ∧ f a = .ok b := by
  cases x with
  | error e => simp [bind, Except.bind]
  | ok a => simp [bind, Except.bind]

theorem parseMetricType_eq_ok {code : String} {type : MetricType} :
    parseMetricType code = .ok type ↔ code = type.code := by
  rw [← MetricType.parse_eq_ok, parseMetricType]
  cases MetricType.parse code <;> simp [Except.mapError]

/-- A run makes the request that the parameters of the job stand for, and no other. -/
theorem plan_eq_ok : kind.plan settings job = .ok work ↔ Asks settings job kind work := by
  cases kind with
  | deleteTenant =>
    simp only [plan, bind_eq_ok, Job.requireParameter_eq_ok]
    constructor
    · rintro ⟨tenant, given, same⟩
      obtain rfl := Except.ok.inj same
      exact .deleteTenant given
    · rintro ⟨given⟩
      exact ⟨_, given, rfl⟩
  | deleteMetric =>
    simp only [plan, bind_eq_ok, Job.requireParameter_eq_ok, parseMetricType_eq_ok]
    constructor
    · rintro ⟨tenant, given, _, given', type, rfl, name, given'', same⟩
      obtain rfl := Except.ok.inj same
      exact .deleteMetric given given' given''
    · rintro ⟨⟩
      rename_i tenant name type given given' given''
      exact ⟨_, given, _, given', _, rfl, _, given'', rfl⟩
  | compress =>
    simp only [plan, bind_eq_ok, targetTime_eq_ok, blockSize_eq_ok]
    constructor
    · rintro ⟨target, aims, size, sized, found⟩
      split at found
      · rename_i start stop found'
        obtain rfl := Except.ok.inj found
        exact .compress aims sized (Block.bounds?_eq_some.mp found')
      · cases found
    · rintro ⟨⟩
      rename_i target start stop size aims sized precedes
      refine ⟨target, aims, size, sized, ?_⟩
      rw [Block.bounds?_eq_some.mpr precedes]
      rfl

/-! ## What the check promises -/

theorem bind_eq_error {ε α β : Type} {x : Except ε α} {f : α → Except ε β} {e : ε} :
    x >>= f = .error e ↔ x = .error e ∨ ∃ a, x = .ok a ∧ f a = .error e := by
  cases x with
  | error e => simp [bind, Except.bind]
  | ok a => simp [bind, Except.bind]

theorem discard_eq_ok {ε α : Type} {x : Except ε α} {u : Unit} :
    discard x = .ok u ↔ ∃ a, x = .ok a := by
  cases x with
  | error e => exact ⟨nofun, nofun⟩
  | ok a => exact ⟨fun _ => ⟨a, rfl⟩, fun _ => rfl⟩

theorem discard_eq_error {ε α : Type} {x : Except ε α} {e : ε} :
    discard x = .error e ↔ x = .error e := by
  cases x with
  | error e' =>
    exact ⟨fun same => Except.error.inj same ▸ rfl, fun same => Except.error.inj same ▸ rfl⟩
  | ok a => exact ⟨nofun, nofun⟩

/-- An optional parameter is read without an error when it is absent or its text is readable. -/
theorem mapM_eq_ok {ε α : Type} {text : Option String} {f : String → Except ε α} :
    (∃ a, text.mapM f = .ok a) ↔ ∀ given, text = some given → ∃ a, f given = .ok a := by
  cases text with
  | none => exact ⟨fun _ => nofun, fun _ => ⟨none, rfl⟩⟩
  | some given =>
    constructor
    · rintro ⟨a, read⟩ _ ⟨⟩
      obtain ⟨a, read, -⟩ := bind_eq_ok.mp read
      exact ⟨a, read⟩
    · intro readable
      obtain ⟨a, read⟩ := readable given rfl
      exact ⟨some a, bind_eq_ok.mpr ⟨a, read, rfl⟩⟩

theorem mapM_eq_error {ε α : Type} {text : Option String} {f : String → Except ε α} {e : ε} :
    text.mapM f = .error e ↔ ∃ given, text = some given ∧ f given = .error e := by
  cases text with
  | none => exact ⟨nofun, nofun⟩
  | some given =>
    constructor
    · intro refused
      rcases bind_eq_error.mp refused with refused | ⟨a, -, read⟩
      · exact ⟨given, rfl, refused⟩
      · cases read
    · rintro ⟨_, ⟨⟩, refused⟩
      exact bind_eq_error.mpr (.inl refused)

/-- What the check refuses is refused by the run, for the same reason. -/
theorem plan_of_refused {e : JobError} (refused : kind.check job = .error e) :
    kind.plan settings job = .error e := by
  cases kind with
  | deleteTenant => exact bind_eq_error.mpr (.inl (discard_eq_error.mp refused))
  | deleteMetric =>
    simp only [check, plan, bind_eq_error, discard_eq_error, discard_eq_ok] at refused ⊢
    rcases refused with refused | ⟨_, ⟨tenant, given⟩, refused | ⟨code, given', refused⟩⟩
    · exact .inl refused
    · exact .inr ⟨tenant, given, .inl refused⟩
    · refine .inr ⟨tenant, given, .inr ⟨code, given', ?_⟩⟩
      rcases refused with refused | ⟨_, ⟨type, read⟩, refused⟩
      · exact .inl refused
      · exact .inr ⟨type, read, .inl refused⟩
  | compress =>
    simp only [check, plan, bind_eq_error, discard_eq_error, discard_eq_ok, mapM_eq_error,
      mapM_eq_ok] at refused ⊢
    rcases refused with ⟨text, given, refused⟩ | ⟨_, readable, text, given, refused⟩
    · refine .inl ?_
      rw [targetTime, given]
      exact refused
    · have sized : blockSize settings job = .error e := by
        rw [blockSize, given]
        exact refused
      cases aims : targetTime job with
      | ok target => exact .inr ⟨target, rfl, .inl sized⟩
      | error e' =>
        -- the check has read the target time
        rw [targetTime] at aims
        split at aims
        · obtain ⟨target, read⟩ := readable _ ‹_›
          rw [read] at aims
          cases aims
        · cases aims

/-- What the check accepts has a target time and a size. -/
theorem aims_of_accepted
    (readable : ∀ text, settings.get? settingsGroup sizeKey = some text →
      (Duration.ofExpression? text).isSome)
    (accepted : compress.check job = .ok ()) :
    ∃ target size, Target job target ∧ Size settings job size := by
  simp only [check, bind_eq_ok, discard_eq_ok, mapM_eq_ok, Block.parseTarget_eq_ok,
    Block.parseSize_eq_ok] at accepted
  obtain ⟨_, targets, sizes⟩ := accepted
  have aims : ∃ target, Target job target := by
    cases given : job.parameter? Block.targetParameter with
    | none => exact ⟨_, .due given⟩
    | some text =>
      obtain ⟨target, number, whole⟩ := targets text given
      exact ⟨target, .named given number whole⟩
  have sized : ∃ size, Size settings job size := by
    cases given : job.parameter? Block.sizeParameter with
    | some text =>
      obtain ⟨size, number⟩ := sizes text given
      exact ⟨size, .named given number⟩
    | none =>
      cases given' : settings.get? settingsGroup sizeKey with
      | none => exact ⟨_, .standard given given'⟩
      | some text =>
        obtain ⟨size, number⟩ := Option.isSome_iff_exists.mp (readable text given')
        exact ⟨size, .configured given given' number⟩
  obtain ⟨target, aims⟩ := aims
  obtain ⟨size, sized⟩ := sized
  exact ⟨target, size, aims, sized⟩

/-- A compression that lacks a block is refused by its run. -/
theorem plan_of_lacks {target : Instant} {size : Duration}
    (lacks : LacksBlock settings job target size) :
    compress.plan settings job = .error (Block.noBlock target size) := by
  obtain ⟨aims, sized, none⟩ := lacks
  refine bind_eq_error.mpr (.inr ⟨target, targetTime_eq_ok.mpr aims, ?_⟩)
  refine bind_eq_error.mpr (.inr ⟨size, blockSize_eq_ok.mpr sized, ?_⟩)
  rw [Block.bounds?_eq_none.mpr none]

/-- What the check accepts comes down to a request, but for a compression that lacks a block. -/
theorem plan_of_accepted
    (readable : ∀ text, settings.get? settingsGroup sizeKey = some text →
      (Duration.ofExpression? text).isSome)
    (accepted : kind.check job = .ok ()) :
    (∃ work, Asks settings job kind work) ∨
      kind = compress ∧ ∃ target size, LacksBlock settings job target size ∧
        kind.plan settings job = .error (Block.noBlock target size) := by
  cases kind with
  | deleteTenant =>
    obtain ⟨tenant, given⟩ := discard_eq_ok.mp accepted
    exact .inl ⟨_, .deleteTenant (Job.requireParameter_eq_ok.mp given)⟩
  | deleteMetric =>
    simp only [check, bind_eq_ok, discard_eq_ok, Job.requireParameter_eq_ok,
      parseMetricType_eq_ok] at accepted
    obtain ⟨_, ⟨tenant, given⟩, _, given', _, ⟨type, rfl⟩, name, given''⟩ := accepted
    exact .inl ⟨_, .deleteMetric given given' given''⟩
  | compress =>
    obtain ⟨target, size, aims, sized⟩ := aims_of_accepted readable accepted
    cases found : Block.bounds? target size with
    | some bounds => exact .inl ⟨_, .compress aims sized (Block.bounds?_eq_some.mp found)⟩
    | none =>
      have lacks : LacksBlock settings job target size :=
        ⟨aims, sized, Block.bounds?_eq_none.mp found⟩
      exact .inr ⟨rfl, target, size, lacks, plan_of_lacks lacks⟩

end Maintenance

/-! ## What a run does -/

/-- The service keeps account of every request that it is asked. -/
theorem WorkLog.perform_ne (log : WorkLog) (work : Work) : (log.perform work).2 ≠ log := by
  unfold perform
  cases kept : log.refusal with
  | some reason =>
    intro same
    rw [← same] at kept
    cases kept
  | none =>
    intro same
    have lengths := congrArg (·.done.length) same
    simp at lengths

/-- The service gives reasons of its own. -/
theorem WorkLog.perform_ne_invalidParameter (log : WorkLog) (work : Work) (name reason : String) :
    (log.perform work).1 ≠ .error (.invalidParameter name reason) := by
  unfold perform
  split <;> simp

namespace Maintenance

variable {settings : Settings} {job : Job} {kind : Maintenance}

/-- The check and the run of a maintenance job agree, if the size of a block in the settings can be
read. What the check refuses is refused by the run, for the same reason and without a request. What
the check accepts is run as the one request that its parameters stand for, and the parameters are
not refused again; only a compression that lacks a block is, without a request, for its size. -/
theorem execute_agrees_check
    (readable : ∀ text, settings.get? settingsGroup sizeKey = some text →
      (Duration.ofExpression? text).isSome) (log : WorkLog) :
    (∀ e, kind.check job = .error e → kind.execute settings job log = (.error e, log)) ∧
    (kind.check job = .ok () →
      (∃ work, Asks settings job kind work ∧
          (∀ other, Asks settings job kind other → other = work) ∧
          kind.execute settings job log = log.perform work ∧
          ∀ name reason,
            (kind.execute settings job log).1 ≠ .error (.invalidParameter name reason)) ∨
        kind = compress ∧ ∃ target size, LacksBlock settings job target size ∧
          kind.execute settings job log = (.error (Block.noBlock target size), log)) := by
  refine ⟨fun e refused => ?_, fun accepted => ?_⟩
  · rw [execute, plan_of_refused refused]
  · rcases plan_of_accepted readable accepted with ⟨work, asks⟩ | ⟨only, target, size, lacks, fails⟩
    · have planned := plan_eq_ok.mpr asks
      have run : kind.execute settings job log = log.perform work := by rw [execute, planned]
      refine .inl ⟨work, asks, fun other asks' => ?_, run, fun name reason => ?_⟩
      · rw [plan_eq_ok.mpr asks'] at planned
        exact Except.ok.inj planned
      · rw [run]
        exact log.perform_ne_invalidParameter work name reason
    · exact .inr ⟨only, target, size, lacks, by rw [execute, fails]⟩

/-- Settings with blocks of an hour. -/
def hourly : Settings :=
  .table (.ofList [(settingsGroup, Std.ExtTreeMap.ofList [(sizeKey, "1h")])])

/-- A compression that leaves the size to the settings. -/
def halfPastTwo : Job :=
  { (default : Job) with
    type := compress.jobType
    name := "compression"
    parameters := .ofList [(Block.targetParameter, "9000000")] }

/-- The compression is accepted, and run as the request that it stands for. -/
theorem execute_agrees_check_hourly :
    ∃ work, Asks hourly halfPastTwo compress work ∧
      compress.execute hourly halfPastTwo .empty = WorkLog.empty.perform work := by
  have size : hourly.get? settingsGroup sizeKey = some "1h" := by decide +kernel
  have readable : ∀ text, hourly.get? settingsGroup sizeKey = some text →
      (Duration.ofExpression? text).isSome := by
    intro text given
    obtain rfl := Option.some.inj (size.symm.trans given)
    decide +kernel
  rcases (@execute_agrees_check hourly halfPastTwo compress readable .empty).2
    (by decide +kernel) with ⟨work, asks, -, run, -⟩ | ⟨-, target, size, -, run⟩
  · exact ⟨work, asks, run⟩
  · have met : (compress.execute hourly halfPastTwo .empty).1 = .ok () := by decide +kernel
    rw [run] at met
    cases met

/-- A compression of blocks of a hundred million days. -/
def overlong : Job :=
  { (default : Job) with
    type := compress.jobType
    name := "overlong"
    parameters := .ofList [(Block.targetParameter, "0"), (Block.sizeParameter, "100000000d")] }

/-- The check accepts the compression, and the run refuses one of the parameters that the check has
accepted. -/
theorem overlong_accepted : compress.check overlong = .ok () ∧
    compress.execute (.table ∅) overlong .empty =
      (.error (.invalidParameter "blockSize"
        "no block of 8640000000000s around 1970-01-01 00:00:00 UTC"), .empty) := by
  decide +kernel

end Maintenance

end SliceScheduler
