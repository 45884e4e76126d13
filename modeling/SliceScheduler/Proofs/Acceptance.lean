import SliceScheduler.Proofs.RepeatLimit
import SliceScheduler.Proofs.Rounding
/-!
# What is accepted as a trigger

The check of a trigger looks at whole milliseconds, while instants and lengths of time are kept to
the nanosecond.

1. `Trigger.check_eq_ok` says what exactly is accepted;
2. `Trigger.IsOnSlices` says what an accepted trigger is to be like: its time is the start of a slice,
   and its interval a number of slices. `Trigger.check_of_isOnSlices` says that the check refuses no
   such trigger, and `Trigger.check_iff_isOnSlices` that it accepts no other one in whole
   milliseconds; `Trigger.exists_repeating?_iff` says the same of a series that is built;
3. `Trigger.accepts_between` and `Trigger.accepts_subMillis` say what else it accepts: a time up to a
   millisecond after the start of a slice, and an interval shorter than a millisecond, after which
   nothing follows;
4. `Trigger.onSlices_of_after?` says that an accepted series in whole milliseconds stays on the starts
   of slices.
-/
namespace SliceScheduler

theorem Duration.nanos_dvd_iff {w interval : Duration} (whole : w.IsWhole)
    (length : interval.IsWhole) : w.nanos ∣ interval.nanos ↔ w.millis ∣ interval.millis := by
  have parts : w.millis * nanosPerMilli = w.nanos := Nat.div_mul_cancel whole
  have parts' : interval.millis * nanosPerMilli = interval.nanos := Nat.div_mul_cancel length
  rw [← parts, ← parts', Nat.mul_dvd_mul_iff_right (by decide)]

/-- The instants that are the start of their own slice. -/
theorem Slice.containing_eq_iff {t : Instant} {w : Duration} (reached : IsReached w t) :
    containing t w = ⟨t⟩ ↔ t.Starts w := by
  refine ⟨fun own => ?_, containing_of_starts⟩
  have starts := starts_containing reached
  rwa [own] at starts

namespace Trigger

variable {t u : Trigger} {time now : Instant} {interval w : Duration} {limit : Option Count}
  {count : Count}

theorem isAligned_iff : Slice.isAligned time w = true ↔ w.sliceMillis ∣ time.millis := by
  rw [Slice.isAligned, beq_iff_eq, Int.dvd_iff_emod_eq_zero]

theorem check_single_eq_ok : (single time).check w = .ok () ↔ w.sliceMillis ∣ time.millis := by
  rw [← isAligned_iff, check, Trigger.time]
  cases Slice.isAligned time w with
  | false => exact iff_of_false (fun same => (by cases same)) Bool.false_ne_true
  | true => exact iff_of_true rfl rfl

/-- A series is accepted when the whole milliseconds of its time and of its interval are multiples of
the width, the interval is not zero and leads to an instant in range, and the limit is not zero. -/
theorem check_eq_ok : (repeating time interval limit count).check w = .ok () ↔
    w.sliceMillis ∣ time.millis ∧ (interval.nanos ≠ 0 ∧ max w.millis 1 ∣ interval.millis) ∧
      (time.add? interval).isSome ∧ limit.map Count.val ≠ some 0 := by
  rw [← isAligned_iff, ← checkInterval_eq_ok, ← checkRearm_eq_ok, check, Trigger.time]
  cases Slice.isAligned time w with
  | false =>
    exact iff_of_false (fun same => (by cases same)) fun on => Bool.false_ne_true on.1
  | true =>
    cases checkInterval interval w with
    | error e => exact iff_of_false (fun same => (by cases same)) fun on => (by cases on.2.1)
    | ok _ =>
      cases checkRearm time interval with
      | error e => exact iff_of_false (fun same => (by cases same)) fun on => (by cases on.2.2.1)
      | ok _ =>
        by_cases zero : limit.map Count.val = some 0
        · simp only [zero, if_true]
          exact iff_of_false (fun same => (by cases same)) fun accepted => accepted.2.2.2 rfl
        · simp only [zero, if_false]
          exact iff_of_true rfl ⟨trivial, trivial, trivial, zero⟩

/-! ## In whole milliseconds -/

/-- The trigger occurs at the starts of slices: its time is the start of its own slice, and the
interval of a series is a number of slices that leads to an instant in range. -/
def IsOnSlices (w : Duration) : Trigger → Prop
  | single time => Slice.containing time w = ⟨time⟩
  | repeating time interval limit _ =>
    Slice.containing time w = ⟨time⟩ ∧ 0 < interval.nanos ∧ w.nanos ∣ interval.nanos ∧
      (time.add? interval).isSome ∧ limit.map Count.val ≠ some 0

theorem IsOnSlices.starts (on : t.IsOnSlices w) (reached : Slice.IsReached w t.time) :
    t.time.Starts w := by
  cases t with
  | single time => exact (Slice.containing_eq_iff reached).mp on
  | repeating time interval limit count => exact (Slice.containing_eq_iff reached).mp on.1

/-- Every trigger that occurs at the starts of slices is accepted. -/
theorem check_of_isOnSlices (whole : w.IsWhole) (pos : 0 < w.millis)
    (reached : Slice.IsReached w t.time) (on : t.IsOnSlices w) : t.check w = .ok () := by
  have starts := on.starts reached
  cases t with
  | single time => exact check_single_eq_ok.mpr starts.2
  | repeating time interval limit count =>
    obtain ⟨-, positive, slices, inRange, limited⟩ := on
    have length : interval.IsWhole := Nat.dvd_trans whole slices
    refine check_eq_ok.mpr
      ⟨starts.2, ⟨Nat.ne_of_gt positive, ?_⟩, inRange, limited⟩
    rw [Nat.max_eq_left pos]
    exact (Duration.nanos_dvd_iff whole length).mp slices

/-- A trigger in whole milliseconds is accepted exactly if it occurs at the starts of slices. -/
theorem check_iff_isOnSlices (whole : w.IsWhole) (pos : 0 < w.millis)
    (reached : Slice.IsReached w t.time) (inMillis : t.InMillis) :
    t.check w = .ok () ↔ t.IsOnSlices w := by
  refine ⟨fun accepted => ?_, check_of_isOnSlices whole pos reached⟩
  cases t with
  | single time =>
    exact (Slice.containing_eq_iff reached).mpr ⟨inMillis, check_single_eq_ok.mp accepted⟩
  | repeating time interval limit count =>
    obtain ⟨aligned, ⟨positive, slices⟩, inRange, limited⟩ := check_eq_ok.mp accepted
    rw [Nat.max_eq_left pos] at slices
    exact ⟨(Slice.containing_eq_iff reached).mpr ⟨inMillis.1, aligned⟩, Nat.pos_of_ne_zero positive,
      (Duration.nanos_dvd_iff whole inMillis.2).mpr slices, inRange, limited⟩

/-- A series of whole milliseconds is built exactly if its interval is a number of slices that leads to
an instant in range. -/
theorem exists_repeating?_iff {start : Instant} (whole : w.IsWhole) (pos : 0 < w.millis)
    (length : interval.IsWhole) : (∃ t, repeating? start interval w = .ok t) ↔
      0 < interval.nanos ∧ w.nanos ∣ interval.nanos ∧
        ((Slice.ceil start w).start.add? interval).isSome := by
  simp only [repeating?_eq_ok, checkInterval_eq_ok, Nat.max_eq_left pos,
    Duration.nanos_dvd_iff whole length, Nat.pos_iff_ne_zero, exists_and_left, exists_eq, and_true,
    and_assoc]

/-- Every occurrence of an accepted series in whole milliseconds is the start of a slice. -/
theorem onSlices_of_after? {clock : Nat → Instant} {n : Nat} (accepted : t.check w = .ok ())
    (inMillis : t.InMillis) (found : t.after? clock w n = some u) :
    Slice.containing u.time w = ⟨u.time⟩ := by
  have regular : u.Regular w ∧ u.time.Starts w := by
    induction n generalizing u with
    | zero =>
      obtain rfl := Option.some.inj found
      refine ⟨regular_of_check accepted inMillis, starts_of_check accepted ?_⟩
      cases t with
      | single time => exact inMillis
      | repeating time interval limit count => exact inMillis.1
    | succ n ih =>
      obtain ⟨before, found, next⟩ := Option.bind_eq_some_iff.mp found
      exact ⟨(ih found).1.of_next next, (ih found).1.starts_next next⟩
  exact Slice.containing_of_starts regular.2

/-! ## Between whole milliseconds -/

/-- A time less than a millisecond after the start of a slice is accepted as well. -/
theorem accepts_between {start later : Instant} {n : Nat} (starts : start.Starts w) (pos : 0 < n)
    (less : n < nanosPerMilli) (found : start.addNanos? n = some later) :
    (single later).check w = .ok () ∧ Slice.containing later w = ⟨start⟩ ∧ later ≠ start := by
  obtain ⟨outside, sum⟩ := (Instant.addNanos?_eq_some starts.1.1).mp found
  have fraction := starts.1.2
  have same : later.millis = start.millis := by
    simp only [Instant.nanos, Instant.millis, Instant.IsLeap, nanosPerMilli, nanosPerSecond] at *
    omega
  have floor : Slice.floorMillis start.millis w = start.millis := Int.ediv_mul_cancel starts.2
  refine ⟨check_single_eq_ok.mpr (same ▸ starts.2), ?_, ?_⟩
  · rw [Slice.containing, same, floor, Slice.ofStartMillis?, starts.1.ofMillis?_millis]
    rfl
  · rintro rfl
    omega

/-- An interval shorter than a millisecond is accepted, and nothing follows the first occurrence. -/
theorem accepts_subMillis (positive : interval.nanos ≠ 0) (short : interval.nanos < nanosPerMilli) :
    checkInterval interval w = .ok () ∧
      (repeating time interval limit count).next? now w = none := by
  have none : interval.millis = 0 := Nat.div_eq_of_lt short
  refine ⟨checkInterval_eq_ok.mpr ⟨positive, none ▸ Nat.dvd_zero _⟩, ?_⟩
  refine Option.eq_none_iff_forall_not_mem.mpr fun next follows => ?_
  have long := (next?_eq_some_iff.mp follows).2.1
  exact Nat.not_le_of_lt (Nat.lt_of_le_of_lt (Nat.min_le_left ..) short) long

end Trigger

end SliceScheduler
