import SliceScheduler.Proofs.Order
import SliceScheduler.Store.Operation
/-!
# Times in whole milliseconds

The tables keep times in whole milliseconds, so that a time with a finer part, or one in a leap
second, comes back changed.

1. `Instant.IsWhole` and `Duration.IsWhole` are the times that come back as they were:
   `Instant.IsWhole.ofMillis?_millis`;
2. such instants are ordered by their milliseconds, `Instant.IsWhole.compare_millis`, and a whole
   length of time later is such an instant again, `Instant.IsWhole.later`;
3. `Operation.IsWhole` says that all the times of a call are whole and in range.
-/
namespace SliceScheduler

/-- A whole number of milliseconds. -/
def Duration.IsWhole (d : Duration) : Prop := nanosPerMilli ∣ d.nanos

instance (d : Duration) : Decidable d.IsWhole := inferInstanceAs (Decidable (_ ∣ _))

namespace Instant

/-- A whole number of milliseconds, outside a leap second. -/
def IsWhole (t : Instant) : Prop := ¬t.IsLeap ∧ nanosPerMilli ∣ t.nano

instance (t : Instant) : Decidable t.IsWhole := inferInstanceAs (Decidable (_ ∧ _))

variable {a b t : Instant} {d : Duration}

theorem IsWhole.outside (whole : t.IsWhole) : t.nano < nanosPerSecond := Nat.lt_of_not_le whole.1

theorem IsWhole.ofMillis?_millis (whole : t.IsWhole) : ofMillis? t.millis = some t := by
  have inRange := (⟨t.second_ge, t.second_le, t.nano_lt, t.leap_ends_minute⟩ : _ ∧ _ ∧ _ ∧ _)
  have outside := whole.outside
  have fraction := whole.2
  have second : t.millis / 1000 = t.second := by
    simp only [millis, nanosPerMilli, nanosPerSecond] at *
    omega
  have nano : (t.millis % 1000).toNat * nanosPerMilli = t.nano := by
    simp only [millis, nanosPerMilli, nanosPerSecond] at *
    omega
  rw [ofMillis?, second, nano, ofParts?, dif_pos inRange]

theorem IsWhole.millis_inRange (whole : t.IsWhole) :
    minSecond * 1000 ≤ t.millis ∧ t.millis < (maxSecond + 1) * 1000 :=
  ofMillis?_isSome.mp (Option.isSome_of_eq_some whole.ofMillis?_millis)

/-- The instant of a number of milliseconds is whole. -/
theorem isWhole_of_ofMillis? {ms : Int} (found : ofMillis? ms = some t) : t.IsWhole := by
  obtain ⟨-, nano⟩ := ofParts?_eq_some found
  exact ⟨Nat.not_le.mpr (nano_lt_of_ofMillis? found), nano ▸ Nat.dvd_mul_left ..⟩

theorem IsWhole.eq_of_millis_eq (whole : a.IsWhole) (whole' : b.IsWhole)
    (same : a.millis = b.millis) : a = b := by
  have found := whole.ofMillis?_millis
  rw [same, whole'.ofMillis?_millis] at found
  exact (Option.some.inj found).symm

theorem IsWhole.lt_iff_millis_lt (whole : a.IsWhole) (whole' : b.IsWhole) :
    a < b ↔ a.millis < b.millis := by
  constructor
  · intro less
    rcases lt_or_eq_of_le (millis_le_of_le (le_of_lt less) whole.outside) with fewer | same
    · exact fewer
    · exact absurd (whole.eq_of_millis_eq whole' same) (ne_of_lt less)
  · exact fun fewer => lt_of_millis_lt fewer whole'.outside

/-- Whole instants come in the order of their milliseconds. -/
theorem IsWhole.compare_millis (whole : a.IsWhole) (whole' : b.IsWhole) :
    compare a.millis b.millis = compare a b := by
  rcases lt_trichotomy a.millis b.millis with less | same | more
  · rw [compare_lt_iff_lt.mpr less,
      compare_lt_iff_lt.mpr ((whole.lt_iff_millis_lt whole').mpr less)]
  · rw [compare_eq_iff_eq.mpr same, compare_eq_iff_eq.mpr (whole.eq_of_millis_eq whole' same)]
  · rw [compare_gt_iff_gt.mpr more,
      compare_gt_iff_gt.mpr ((whole'.lt_iff_millis_lt whole).mpr more)]

/-- A whole length of time after a whole instant, in range, is whole. -/
theorem IsWhole.later (whole : t.IsWhole) (length : d.IsWhole) (inRange : (t.add? d).isSome) :
    (t.later d).IsWhole := by
  obtain ⟨u, found⟩ := Option.isSome_iff_exists.mp inRange
  have outside := whole.outside
  have step : nanosPerMilli ∣ stepNanos d := by
    unfold stepNanos
    rcases Nat.le_total d.nanos maxStepNanos with short | long
    · rw [Nat.min_eq_left short]; exact length
    · rw [Nat.min_eq_right long]; exact Nat.dvd_mul_left _ _
  have sum : nanosPerMilli ∣ t.nano + stepNanos d := Nat.dvd_add whole.2 step
  rw [Instant.later, found, Option.getD_some]
  rw [add?, addNanos?, if_neg (Nat.not_le.mpr outside), ofOffset?] at found
  obtain ⟨-, nano⟩ := ofParts?_eq_some found
  constructor
  · rw [IsLeap, nano]
    simp only [nanosPerSecond]
    omega
  · rw [nano]
    simp only [nanosPerSecond, nanosPerMilli] at *
    omega

end Instant

/-- A slice whose start is whole is the one that its milliseconds stand for. -/
theorem Slice.isWhole_of_start {s : Slice} (whole : s.start.IsWhole) : s.IsWhole := by
  rw [IsWhole, ofStartMillis?, millis, whole.ofMillis?_millis]
  rfl

theorem Slice.IsWhole.start {s : Slice} (whole : s.IsWhole) : s.start.IsWhole := by
  obtain ⟨t, found, rfl⟩ := Option.map_eq_some_iff.mp whole
  exact Instant.isWhole_of_ofMillis? found

/-- The time of a trigger is whole, and so is its interval, which fits 64 bits. -/
def Trigger.IsWhole : Trigger → Prop
  | single time => time.IsWhole
  | repeating time interval _ _ =>
    time.IsWhole ∧ interval.IsWhole ∧ interval.millis < Word.size64

instance : (t : Trigger) → Decidable t.IsWhole
  | .single time => inferInstanceAs (Decidable time.IsWhole)
  | .repeating time interval _ _ => inferInstanceAs
      (Decidable (time.IsWhole ∧ interval.IsWhole ∧ interval.millis < Word.size64))

theorem Trigger.IsWhole.time {t : Trigger} (whole : t.IsWhole) : t.time.IsWhole := by
  cases t with
  | single time => exact whole
  | repeating time interval limit count => exact whole.1

/-- All the times of a call are whole, and the time until which it takes a share is in range. -/
def Operation.IsWhole (now : Instant) : Operation → Prop
  | insertJob job | updateJob job => job.trigger.IsWhole
  | addScheduled slice _ | removeScheduled slice _ | addActive slice _ | addFinished slice _
  | sliceSets slice | deleteSlice slice | initPointer slice => slice.start.IsWhole
  | movePointer expected next => expected.start.IsWhole ∧ next.start.IsWhole
  | lockShared _ _ ttl => ttl.IsWhole ∧ (now.add? ttl).isSome
  | getJob _ | deleteJob _ | listJobs | listSlices | getPointer | lockExclusive _ _
  | unlockShared _ _ | unlockExclusive _ _ | getLock _ => True

instance (now : Instant) : (op : Operation) → Decidable (op.IsWhole now)
  | .insertJob job | .updateJob job => inferInstanceAs (Decidable job.trigger.IsWhole)
  | .addScheduled slice _ | .removeScheduled slice _ | .addActive slice _ | .addFinished slice _
  | .sliceSets slice | .deleteSlice slice | .initPointer slice =>
    inferInstanceAs (Decidable slice.start.IsWhole)
  | .movePointer expected next =>
    inferInstanceAs (Decidable (expected.start.IsWhole ∧ next.start.IsWhole))
  | .lockShared _ _ ttl => inferInstanceAs (Decidable (ttl.IsWhole ∧ (now.add? ttl).isSome))
  | .getJob _ | .deleteJob _ | .listJobs | .listSlices | .getPointer | .lockExclusive _ _
  | .unlockShared _ _ | .unlockExclusive _ _ | .getLock _ => isTrue trivial

end SliceScheduler
