import SliceScheduler.CommandLine.Run
import SliceScheduler.Proofs.Acceptance
import SliceScheduler.Proofs.Admission
import SliceScheduler.Proofs.DurationGrammar
import SliceScheduler.Proofs.Requests
import SliceScheduler.Proofs.RetryTime
/-!
# Asking for maintenance

A maintenance job is asked for by its arguments, or is submitted like any other job, with the
arguments as its parameters. The arguments are checked in the one case, trimmed, and the parameters
in the other, as they are.

1. `CommandLine.Submission.request_eq_ok` says which arguments are accepted and what job is asked
   for, `CommandLine.Submission.check_eq_ok` that the check of the parameters accepts the same
   arguments, and `CommandLine.Submission.accepted_iff_check` puts the two side by side;
2. `Trigger.check_singleAt` and `Maintenance.next_le_ceil` say that a minute later there is a slice
   to run the job in, and that it is the one after the current slice or a later one;
3. `Maintenance.submit_placed` is the result: a job that is asked for is stored, unless a job has
   its name or a call is not answered. `Maintenance.submit_misaligned` is the case it leaves out, of a
   minute later in a slice that starts before the first instant.
-/
namespace SliceScheduler

/-! ## Arguments and parameters -/

namespace Job

variable {job : Job} {entries : List (String × String)} {name value : String}

theorem parameter?_of_mem (given : job.parameters = .ofList entries)
    (distinct : (entries.map (·.1)).Nodup) (mem : (name, value) ∈ entries) :
    job.parameter? name = some value := by
  rw [parameter?, given]
  refine Std.ExtTreeMap.getElem?_ofList_of_mem Std.ReflCmp.compare_self ?_ mem
  exact (List.pairwise_map.mp distinct).imp fun differ same =>
    differ (Std.LawfulEqCmp.eq_of_compare same)

theorem parameter?_of_notMem (given : job.parameters = .ofList entries)
    (missing : name ∉ entries.map (·.1)) : job.parameter? name = none := by
  rw [parameter?, given]
  refine Std.ExtTreeMap.getElem?_ofList_of_contains_eq_false ?_
  rwa [Bool.eq_false_iff, Ne, List.contains_iff_mem]

theorem exists_hasText (given : job.parameter? name = some value) :
    (∃ text, job.HasText name text) ↔ Text.isBlankText value = false := by
  simp [HasText, given]

end Job

theorem Duration.ofExpression?_strip (text : String) :
    ofExpression? (Text.strip text) = ofExpression? text := by
  simp only [ofExpression?, Text.toList_strip, Text.stripChars_stripChars]

theorem MetricType.isBlankText_code (type : MetricType) :
    Text.isBlankText type.code = false := by
  cases type <;> decide

namespace Maintenance

theorem mapError_eq_ok {ε ε' α : Type} {x : Except ε α} {f : ε → ε'} {a : α} :
    x.mapError f = .ok a ↔ x = .ok a := by
  cases x with
  | error e =>
    refine iff_of_false (fun same => ?_) (fun same => ?_)
    · cases same
    · cases same
  | ok b => exact ⟨fun same => Except.ok.inj same ▸ rfl, fun same => Except.ok.inj same ▸ rfl⟩

theorem required_eq_ok {name value trimmed : String} :
    required name value = .ok trimmed ↔
      Text.isBlankText value = false ∧ trimmed = Text.strip value := by
  have empty : (Text.strip value).isEmpty = Text.isBlankText value := by
    rw [Bool.eq_iff_iff, String.isEmpty_iff, Text.strip_eq_empty_iff]
  rw [required, empty]
  cases Text.isBlankText value <;> simp [eq_comm]

end Maintenance

namespace CommandLine.Submission

open Maintenance

/-- The type of the job. -/
def kind : Submission → Maintenance
  | deleteTenant _ => .deleteTenant
  | deleteMetric _ _ _ => .deleteMetric
  | compress _ _ => .compress

/-- The arguments, each as the parameter that it is for. -/
def entries : Submission → List (String × String)
  | deleteTenant tenant => [(tenantParameter, tenant)]
  | deleteMetric tenant type name =>
    [(tenantParameter, tenant), (metricTypeParameter, type), (metricNameParameter, name)]
  | compress target size =>
    (Block.targetParameter, Text.integerText target) ::
      (size.map fun size => (Block.sizeParameter, size)).toList

/-- The name of the job. -/
def label : Submission → String
  | deleteTenant tenant => Maintenance.deleteTenant.jobType ++ "_" ++ tenant
  | deleteMetric tenant type name =>
    Maintenance.deleteMetric.jobType ++ "_" ++ tenant ++ "_" ++ type ++ "_" ++ name
  | compress target _ =>
    Maintenance.compress.jobType ++ "_single_" ++ Text.integerText target

/-- Without the blanks around the arguments. The type of a metric is taken as it is. -/
def trimmed : Submission → Submission
  | deleteTenant tenant => deleteTenant (Text.strip tenant)
  | deleteMetric tenant type name => deleteMetric (Text.strip tenant) type (Text.strip name)
  | compress target size => compress target (size.map Text.strip)

/-- What is asked of the arguments: a tenant and a metric are not blank, a type is one of the four,
a target time is an instant, and a size is a duration expression. -/
def IsSound : Submission → Prop
  | deleteTenant tenant => Text.isBlankText tenant = false
  | deleteMetric tenant type name =>
    Text.isBlankText tenant = false ∧ Text.isBlankText name = false ∧
      ∃ known : MetricType, type = known.code
  | compress target size =>
    (∃ t, Block.parseTarget (Text.integerText target) = .ok t) ∧
      ∀ text, size = some text → (Duration.ofExpression? text).isSome

/-- The job that is asked for, without id and trigger. -/
def asked (s : Submission) : JobRequest := ⟨s.kind, s.label, .ofList s.entries⟩

variable {s : Submission} {r : JobRequest} {job : Job}

theorem isSound_trimmed : s.trimmed.IsSound ↔ s.IsSound := by
  cases s with
  | deleteTenant tenant => rw [trimmed, IsSound, IsSound, Text.isBlankText_strip]
  | deleteMetric tenant type name =>
    rw [trimmed, IsSound, IsSound, Text.isBlankText_strip, Text.isBlankText_strip]
  | compress target size => cases size <;> simp [trimmed, IsSound, Duration.ofExpression?_strip]

/-- The parameters that a job may be given together. -/
def parameterSets : List (List String) :=
  [[tenantParameter], [tenantParameter, metricTypeParameter, metricNameParameter],
    [Block.targetParameter], [Block.targetParameter, Block.sizeParameter]]

theorem mem_parameterSets (s : Submission) : s.entries.map (·.1) ∈ parameterSets := by
  cases s with
  | deleteTenant tenant => exact .head _
  | deleteMetric tenant type name => exact .tail _ (.head _)
  | compress target size =>
    cases size with
    | none => exact .tail _ (.tail _ (.head _))
    | some size => exact .tail _ (.tail _ (.tail _ (.head _)))

theorem nodup_entries (s : Submission) : (s.entries.map (·.1)).Nodup := by
  have nodup : ∀ names ∈ parameterSets, names.Nodup := by decide
  exact nodup _ s.mem_parameterSets

theorem isBlankText_of_mem {name : String} (mem : name ∈ s.entries.map (·.1)) :
    Text.isBlankText name = false := by
  have written : ∀ names ∈ parameterSets, ∀ name ∈ names, Text.isBlankText name = false := by
    decide
  exact written _ s.mem_parameterSets name mem

/-- Sound arguments are accepted, and what is asked for are the trimmed ones. -/
theorem request_eq_ok : s.request = .ok r ↔ s.IsSound ∧ r = s.trimmed.asked := by
  cases s with
  | deleteTenant tenant =>
    simp only [request, requestDeleteTenant, bind_eq_ok, required_eq_ok, IsSound]
    constructor
    · rintro ⟨_, ⟨sound, rfl⟩, same⟩
      exact ⟨sound, (Except.ok.inj same).symm⟩
    · rintro ⟨sound, rfl⟩
      exact ⟨_, ⟨sound, rfl⟩, rfl⟩
  | deleteMetric tenant type name =>
    simp only [request, requestDeleteMetric, bind_eq_ok, required_eq_ok, IsSound,
      mapError_eq_ok, MetricType.parse_eq_ok]
    constructor
    · rintro ⟨_, ⟨tenant, rfl⟩, _, ⟨name, rfl⟩, type, rfl, same⟩
      exact ⟨⟨tenant, name, type, rfl⟩, (Except.ok.inj same).symm⟩
    · rintro ⟨⟨tenant, name, type, rfl⟩, rfl⟩
      exact ⟨_, ⟨tenant, rfl⟩, _, ⟨name, rfl⟩, type, rfl, rfl⟩
  | compress target size =>
    simp only [request, requestCompress, bind_eq_ok, discard_eq_ok, mapM_eq_ok, IsSound,
      mapError_eq_ok, Block.parseSize_eq_ok, Option.isSome_iff_exists]
    have asks : JobRequest.mk .compress
        (Maintenance.compress.jobType ++ "_single_" ++ Text.integerText target)
        (.ofList ((Block.targetParameter, Text.integerText target) ::
          (size.map fun size => (Block.sizeParameter, Text.strip size)).toList)) =
        (compress target size).trimmed.asked := by
      cases size <;> rfl
    constructor
    · rintro ⟨_, target, _, size, same⟩
      exact ⟨⟨target, size⟩, (Except.ok.inj same).symm.trans asks⟩
    · rintro ⟨⟨target, size⟩, rfl⟩
      exact ⟨(), target, (), size, congrArg Except.ok asks⟩

/-- The check of the parameters asks the same of the arguments. -/
theorem check_eq_ok (given : job.parameters = .ofList s.entries) :
    s.kind.check job = .ok () ↔ s.IsSound := by
  have known {name value : String} (mem : (name, value) ∈ s.entries) :=
    Job.parameter?_of_mem given s.nodup_entries mem
  cases s with
  | deleteTenant tenant =>
    simp only [kind, check, discard_eq_ok, Job.requireParameter_eq_ok, IsSound]
    exact Job.exists_hasText (known (by simp [entries]))
  | deleteMetric tenant type name =>
    simp only [kind, check, bind_eq_ok, discard_eq_ok, Job.requireParameter_eq_ok,
      parseMetricType_eq_ok, IsSound]
    have tenantText : job.parameter? tenantParameter = some tenant := known (by simp [entries])
    have typeText : job.parameter? metricTypeParameter = some type := known (by simp [entries])
    have nameText : job.parameter? metricNameParameter = some name := known (by simp [entries])
    rw [← Job.exists_hasText tenantText, ← Job.exists_hasText nameText]
    constructor
    · rintro ⟨_, tenant, _, ⟨given, -⟩, _, code, name⟩
      obtain rfl := Option.some.inj (typeText.symm.trans given)
      exact ⟨tenant, name, code⟩
    · rintro ⟨tenant, name, code, rfl⟩
      exact ⟨(), tenant, _, ⟨typeText, code.isBlankText_code⟩, (), ⟨code, rfl⟩, name⟩
  | compress target size =>
    simp only [kind, check, bind_eq_ok, discard_eq_ok, mapM_eq_ok, Block.parseSize_eq_ok, IsSound,
      Option.isSome_iff_exists]
    have targetText : job.parameter? Block.targetParameter = some (Text.integerText target) :=
      known (by simp [entries])
    have sizeText : job.parameter? Block.sizeParameter = size := by
      cases size with
      | none =>
        have missing : Block.sizeParameter ∉ [Block.targetParameter] := by decide
        exact Job.parameter?_of_notMem given missing
      | some size => exact known (by simp [entries])
    simp [targetText, sizeText]

/-- Arguments are accepted just when the check of a job of the type accepts them, untrimmed, as its
parameters. -/
theorem accepted_iff_check (given : job.parameters = .ofList s.entries) :
    (∃ r, s.request = .ok r) ↔ s.kind.check job = .ok () := by
  simp only [request_eq_ok, exists_and_left, exists_eq, and_true, check_eq_ok given]

/-! ## The job that is asked for -/

theorem isBlankText_append (a b : String) :
    Text.isBlankText (a ++ b) = (Text.isBlankText a && Text.isBlankText b) := by
  simp only [Text.isBlankText, String.toList_append, List.all_append]

theorem isBlankText_jobType (kind : Maintenance) : Text.isBlankText kind.jobType = false := by
  cases kind <;> decide

theorem isBlankText_label (s : Submission) : Text.isBlankText s.label = false := by
  cases s <;> simp [label, isBlankText_append, isBlankText_jobType]

/-- The check of a submission finds nothing wrong with the job that is asked for but its trigger. -/
theorem check_job (s : Submission) (id : JobId) (trigger : Trigger) (w : Duration) :
    (s.asked.job id trigger).check w = (trigger.check w).mapError .invalidTrigger := by
  have named : (s.asked.job id trigger).blankParameter? = none := by
    refine List.find?_eq_none.mpr fun name mem => ?_
    have mem := Std.ExtTreeMap.mem_ofList.mp (Std.ExtTreeMap.mem_keys.mp mem)
    rw [isBlankText_of_mem (List.contains_iff_mem.mp mem)]
    exact Bool.false_ne_true
  have type : Text.isBlankText (s.asked.job id trigger).type = false := isBlankText_jobType s.kind
  have name : Text.isBlankText (s.asked.job id trigger).name = false := s.isBlankText_label
  rw [Job.check, type, name, named]
  rfl

end CommandLine.Submission

/-! ## A minute later -/

namespace Trigger

variable {t : Instant} {w : Duration}

theorem check_singleAt (reached : Slice.IsReached w t) : (singleAt t w).check w = .ok () :=
  check_single_eq_ok.mpr (Slice.starts_ceil reached).2

/-- Without a slice that starts in range nothing is rounded up. -/
theorem check_singleAt_of_not_reached (fails : ¬Slice.IsReached w t) (outside : ¬t.IsLeap) :
    (singleAt t w).check w = .error (.misaligned t) := by
  have unrounded : singleAt t w = single t := by
    rw [singleAt, Slice.ceil_eq, Slice.containing_of_not_reached fails, if_pos rfl]
  have unaligned : Slice.isAligned t w = false := by
    rw [Bool.eq_false_iff, Ne, isAligned_iff]
    intro aligned
    have floor : Slice.floorMillis t.millis w = t.millis := Int.ediv_mul_cancel aligned
    have first := t.millis_bounds
    rcases Slice.not_reached_bounds fails with ⟨-, low⟩ | ⟨-, -, leap⟩
    · omega
    · exact outside leap
  rw [unrounded, check, time, unaligned]
  rfl

theorem slice_singleAt (reached : Slice.IsReached w t) :
    (singleAt t w).slice w = Slice.ceil t w :=
  Slice.containing_of_starts (Slice.starts_ceil reached)

end Trigger

namespace Maintenance

open Program Program.Submission

variable {now due : Instant} {w : Duration}

/-- A minute after a leap second is due fifty-nine seconds after the milliseconds that it shows. -/
theorem millis_lt_of_add? (found : now.add? submissionDelay = some due) :
    now.millis < due.millis ∧ ¬due.IsLeap := by
  have step : (Instant.stepNanos submissionDelay : Int) = 60 * nanosPerSecond := by decide
  rw [Instant.add?, step, Instant.addNanos?] at found
  have bound := now.nano_lt
  split at found
  · rw [if_pos (by omega), Instant.ofOffset?] at found
    obtain ⟨second, nano⟩ := Instant.ofParts?_eq_some found
    simp only [Instant.millis, Instant.IsLeap, second, nano, nanosPerSecond, nanosPerMilli] at *
    omega
  · rw [Instant.ofOffset?] at found
    obtain ⟨second, nano⟩ := Instant.ofParts?_eq_some found
    simp only [Instant.millis, Instant.IsLeap, second, nano, nanosPerSecond, nanosPerMilli] at *
    omega

section

variable (found : now.add? submissionDelay = some due) (reached : Slice.IsReached w now)
include found reached

theorem isReached_of_add? : Slice.IsReached w due := by
  obtain ⟨fewer, outside⟩ := millis_lt_of_add? found
  have mono := Slice.floorMillis_mono (le_of_lt fewer) w
  by_contra fails
  rw [Slice.isReached_iff] at reached
  rcases Slice.not_reached_bounds fails with ⟨-, low⟩ | ⟨-, -, leap⟩
  · omega
  · exact outside leap

/-- A minute later the current slice is over, or the next one has not started. -/
theorem next_le_ceil (next : (Slice.containing due w).HasNext w) :
    (Slice.containing now w).next w ≤ Slice.ceil due w := by
  obtain ⟨fewer, outside⟩ := millis_lt_of_add? found
  have reached' := isReached_of_add? found reached
  have first := (Slice.isLeast_ceil reached' outside (.inr next)).1
  refine Slice.next_le (Slice.starts_containing reached) first.2 ?_
  have up : due.millis ≤ (Slice.ceil due w).millis :=
    Instant.millis_le_of_le first.1 (Nat.not_le.mp outside)
  have down := Slice.floorMillis_le now.millis w
  rw [Slice.lt_iff_millis_lt (Slice.isWhole_containing reached)
    (Slice.isWhole_of_start first.2.1), Slice.millis_containing reached]
  omega

end

/-! ## The submission of what is asked for -/

/-- The node runs, and it takes the maintenance jobs with their own checks. -/
structure Takes (desk : Desk) : Prop where
  running : desk.mode ≠ .stopped
  moving : desk.stopped = false
  registered : ∀ kind : Maintenance, ∃ registration,
    desk.registry[kind.jobType]? = some registration ∧ registration.check = kind.check

variable {s : CommandLine.Submission} {r : JobRequest} {desk : Desk} {store : Backend}
  {pattern : FaultPattern} {id : JobId} {trigger : Trigger}

theorem Takes.passes (takes : Takes desk) (asked : s.request = .ok r)
    (accepted : trigger.check desk.width = .ok ()) : Passes desk (r.job id trigger) := by
  obtain ⟨sound, rfl⟩ := CommandLine.Submission.request_eq_ok.mp asked
  obtain ⟨registration, registered, check⟩ := takes.registered s.trimmed.kind
  have own : s.trimmed.kind.check (s.trimmed.asked.job id trigger) = .ok () :=
    (CommandLine.Submission.check_eq_ok rfl).mpr
      (CommandLine.Submission.isSound_trimmed.mpr sound)
  refine ⟨takes.running, takes.moving, ?_, registration, registered, check ▸ own⟩
  rw [s.trimmed.check_job, accepted]
  rfl

/-- The job that is submitted to a node at an instant. -/
def JobRequest.jobAt (r : JobRequest) (desk : Desk) (now : Instant) (id : JobId) : Job :=
  r.job id (Trigger.singleAfter now submissionDelay desk.width)

/-- A submission for a slice that starts in range, and that the pointer has not passed, comes to
what it may. -/
theorem places_submit (takes : Takes desk) (asked : s.request = .ok r)
    (reached : Slice.IsReached desk.width (now.later submissionDelay))
    (inTime : ∀ pointer, (store.perform now .getPointer).1 = .ok pointer →
      pointer.getD (Slice.containing now desk.width) ≤
        Slice.ceil (now.later submissionDelay) desk.width) :
    Places pattern desk store now (r.jobAt desk now id) (submit id s.request) := by
  have slice : (r.jobAt desk now id).slice desk.width =
      Slice.ceil (now.later submissionDelay) desk.width := Trigger.slice_singleAt reached
  rw [asked]
  unfold Places Maintenance.submit
  refine from_look fun n => ends_bind (ends_lift rfl ?_)
  exact places_schedule (takes.passes asked (Trigger.check_singleAt reached))
    (fun pointer found => slice ▸ inTime pointer found) n

/-- What is asked for is stored, or it is refused for its name, when every call is answered. The
current slice and a minute later are in range, with a slice after that, and the pointer is not after
the next slice. -/
theorem submit_placed (takes : Takes desk) (asked : s.request = .ok r)
    (found : now.add? submissionDelay = some due) (reached : Slice.IsReached desk.width now)
    (next : (Slice.containing due desk.width).HasNext desk.width)
    (behind : ∀ pointer, (store.perform now .getPointer).1 = .ok (some pointer) →
      pointer ≤ (Slice.containing now desk.width).next desk.width)
    (answered : ∀ e, ¬Unanswered pattern store now (r.jobAt desk now id)
      ((r.jobAt desk now id).slice desk.width) e) (n : Nat) :
    ∃ answer after, (submit id s.request).run.runAlone? pattern.perform
        (resting desk store now n) = some (answer, after) ∧
      (answer = .ok (r.jobAt desk now id) ∧
          after.store.store = (store.addRow (r.jobAt desk now id)).addEntry
            ((r.jobAt desk now id).slice desk.width) id ∨
        answer = .error (.invalidSubmission (.duplicateJobName r.kind.jobType r.name
            ((r.jobAt desk now id).slice desk.width))) ∧
          after.store.store = store) := by
  have later := Instant.later_eq found
  have inTime : ∀ pointer, (store.perform now .getPointer).1 = .ok pointer →
      pointer.getD (Slice.containing now desk.width) ≤
        Slice.ceil (now.later submissionDelay) desk.width := by
    intro pointer there
    rw [later]
    refine le_trans ?_ (next_le_ceil found reached next)
    cases pointer with
    | none => exact Slice.le_next
    | some pointer => exact behind pointer there
  have places : Places pattern desk store now (r.jobAt desk now id) (submit id s.request) :=
    places_submit takes asked (later ▸ isReached_of_add? found reached) inTime
  obtain ⟨answer, after, ran, arrives⟩ := places.exists_arrives n
  refine ⟨answer, after, ran, ?_⟩
  cases arrives.placed with
  | stored _ _ same => exact .inl ⟨rfl, same⟩
  | taken _ _ _ _ _ same => exact .inr ⟨rfl, same⟩
  | failed unanswered => exact absurd unanswered (answered _)

/-- What would be due in a slice that starts before the first instant is refused for its trigger. -/
theorem submit_misaligned (takes : Takes desk) (asked : s.request = .ok r)
    (found : now.add? submissionDelay = some due) (fails : ¬Slice.IsReached desk.width due) :
    EndsFrom pattern desk store now (fun _ _ => False)
      (fun e after => e = .invalidSubmission (.invalidTrigger (.misaligned due)) ∧
        after.store.store = store) (submit id s.request) := by
  obtain ⟨-, rfl⟩ := CommandLine.Submission.request_eq_ok.mp asked
  have trigger := Trigger.check_singleAt_of_not_reached fails (millis_lt_of_add? found).2
  rw [← Instant.later_eq found] at trigger
  have refused := s.trimmed.check_job id
    (Trigger.singleAfter now submissionDelay desk.width) desk.width
  rw [show (Trigger.singleAfter now submissionDelay desk.width).check desk.width = _ from trigger,
    Instant.later_eq found] at refused
  rw [asked]
  unfold Maintenance.submit
  refine from_look fun n => ends_bind (ends_lift rfl ?_)
  refine from_look ?_ n
  dsimp only
  rw [if_neg takes.running]
  refine from_look ?_
  dsimp only [resting]
  rw [takes.moving, refused]
  exact fun m => ends_bind (ends_throw ⟨rfl, rfl⟩)

/-- Slices of two minutes and two seconds are not reached a minute after the first instant. -/
example : ¬Slice.IsReached (.ofSeconds 122) (Instant.earliest.later submissionDelay) := by decide

end Maintenance

end SliceScheduler
