import Mathlib.Order.Bounds.Basic
import SliceScheduler.Proofs.NextSlice
/-!
# Rounding up to the start of a slice

A series starts at the first slice that does not start before a given instant, and its interval is a
number of slices.

1. `Slice.start_containing_le` says that the slice of an instant has started, and
   `Slice.isLeast_ceil` that `Slice.ceil` is the first slice that does not start before an instant,
   as long as there is one in range;
2. `Trigger.repeating?_eq_ok` says which series are built, and `Trigger.check_of_repeating?` that
   they pass the check of a submission;
3. `Trigger.isLeast_of_repeating?` says that a series whose interval is counted from 1970 starts at
   the first multiple of the interval that is not before an instant, and
   `Trigger.exists_repeating?` that there is such a series unless its times are out of range.
-/
namespace SliceScheduler

namespace Slice

variable {t u : Instant} {w : Duration}

/-- The slices of instants since 1970 are in range. -/
theorem isReached_of_nonneg (since : 0 ≤ t.millis) (outside : ¬t.IsLeap) : IsReached w t := by
  have floor := floorMillis_le t.millis w
  have pos := le_of_lt w.sliceMillis_pos
  have nonneg : 0 ≤ floorMillis t.millis w := Int.mul_nonneg (Int.ediv_nonneg since pos) pos
  have last := t.second_le
  rw [isReached_iff]
  simp only [Instant.millis, Instant.IsLeap, minSecond, maxSecond, nanosPerMilli,
    nanosPerSecond] at *
  omega

/-- The slice of an instant has started. -/
theorem start_containing_le (reached : IsReached w t) (outside : ¬t.IsLeap) :
    (containing t w).start ≤ t := by
  have whole := (isWhole_containing reached).start
  have floor : (containing t w).start.millis ≤ t.millis := by
    rw [show (containing t w).start.millis = _ from millis_containing reached]
    exact floorMillis_le t.millis w
  -- a whole instant has the least nanosecond of its millisecond
  obtain ⟨n, parts⟩ := whole.2
  have bound := whole.outside
  rw [Instant.le_iff]
  simp only [Instant.millis, Instant.IsLeap, nanosPerMilli, nanosPerSecond] at *
  omega

/-- The slice after the one of an instant has not started. -/
theorem lt_start_next (reached : IsReached w t) (next : (containing t w).HasNext w) :
    t < ((containing t w).next w).start := by
  refine Instant.lt_of_millis_lt ?_ (isWhole_next next).outside
  rw [show ((containing t w).next w).start.millis = _ from millis_next next,
    millis_containing reached]
  exact lt_floorMillis_add t.millis w

theorem ceil_eq (t : Instant) (w : Duration) : ceil t w =
    if (containing t w).start = t then containing t w else (containing t w).next w := rfl

/-- Rounding up leads to the start of a slice. -/
theorem starts_ceil (reached : IsReached w t) : (ceil t w).start.Starts w := by
  have started := starts_containing reached
  rw [ceil_eq]
  split
  · exact started
  · exact starts_next started

/-- A whole instant is rounded up to a whole one. -/
theorem isWhole_ceil (whole : t.IsWhole) : (ceil t w).start.IsWhole := by
  by_cases reached : IsReached w t
  · exact (starts_ceil reached).1
  · rw [ceil_eq, containing_of_not_reached reached, if_pos rfl]
    exact whole

/-- The start of a slice is not rounded up. -/
theorem ceil_of_starts (starts : t.Starts w) : ceil t w = ⟨t⟩ := by
  rw [ceil_eq, containing_of_starts starts, if_pos rfl]

/-- Rounding up goes less far than the width of a slice. -/
theorem millis_ceil_le (reached : IsReached w t) :
    (ceil t w).millis ≤ t.millis + w.sliceMillis := by
  have floor := floorMillis_le t.millis w
  have pos := w.sliceMillis_pos
  rw [← millis_containing reached] at floor
  rw [ceil_eq]
  split
  · omega
  · by_cases next : (containing t w).HasNext w
    · rw [millis_next next]
      omega
    · rw [next_eq_self next]
      omega

/-- Rounding up leads to the first slice that does not start before the instant. -/
theorem isLeast_ceil (reached : IsReached w t) (outside : ¬t.IsLeap)
    (room : t.Starts w ∨ (containing t w).HasNext w) :
    IsLeast {u | t ≤ u ∧ u.Starts w} (ceil t w).start := by
  by_cases starts : t.Starts w
  · rw [ceil_of_starts starts]
    exact ⟨⟨le_refl t, starts⟩, fun u above => above.1⟩
  · have next := room.resolve_left starts
    have started := starts_containing reached
    have between : (containing t w).start ≠ t := fun same => starts (same ▸ started)
    rw [ceil_eq, if_neg between]
    refine ⟨⟨le_of_lt (lt_start_next reached next), starts_next started⟩, ?_⟩
    rintro u ⟨above, starts'⟩
    have less : (containing t w).start < u :=
      lt_of_lt_of_le (lt_of_le_of_ne (start_containing_le reached outside) between) above
    exact next_le (x := ⟨u⟩) started starts' less

end Slice

/-- A whole length of time after a whole instant. -/
theorem Instant.IsWhole.add? {t u : Instant} {d : Duration} (whole : t.IsWhole) (length : d.IsWhole)
    (found : t.add? d = some u) : u.IsWhole ∧ u.millis = t.millis + d.millis := by
  have step := (stepNanos_of_add? whole (Option.isSome_of_eq_some found)).1
  have parts : d.millis * nanosPerMilli = d.nanos := Nat.div_mul_cancel length
  rw [Instant.add?, step, ← parts, Int.natCast_mul] at found
  exact whole.addMillis found

/-- The time after a whole length is in range unless it is past the last second. -/
theorem Instant.IsWhole.isSome_add? {t : Instant} {d : Duration} (whole : t.IsWhole)
    (length : d.IsWhole) (inRange : t.millis + d.millis < (maxSecond + 1) * 1000) :
    (t.add? d).isSome := by
  have outside := whole.outside
  have first := t.second_ge
  have parts : d.millis * nanosPerMilli = d.nanos := Nat.div_mul_cancel length
  obtain ⟨n, fraction⟩ := whole.2
  rw [Instant.add?, addNanos?, if_neg (Nat.not_le.mpr outside), ofOffset?, ofParts?]
  refine Option.isSome_iff_exists.mpr ⟨_, dif_pos ?_⟩
  simp only [stepNanos, maxStepNanos, millis, minSecond, maxSecond, nanosPerSecond,
    nanosPerMilli] at *
  omega

/-- A width that is a number of slices: what starts a slice of the longer width starts one of the
shorter width. -/
theorem Duration.sliceMillis_dvd {w interval : Duration} (pos : 0 < interval.millis)
    (fits : interval.millis < Word.size63) (multiple : max w.millis 1 ∣ interval.millis) :
    w.sliceMillis ∣ interval.sliceMillis := by
  have short := Nat.le_of_dvd pos multiple
  rw [sliceMillis_of_lt fits, sliceMillis_of_lt (by omega), Nat.max_eq_left pos]
  exact Int.natCast_dvd_natCast.mpr multiple

theorem Instant.Starts.of_dvd {t : Instant} {v w : Duration} (starts : t.Starts v)
    (multiple : w.sliceMillis ∣ v.sliceMillis) : t.Starts w :=
  ⟨starts.1, Int.dvd_trans multiple starts.2⟩

namespace Trigger

variable {t : Trigger} {start time now : Instant} {interval w : Duration}

theorem checkInterval_eq_ok : checkInterval interval w = .ok () ↔
    interval.nanos ≠ 0 ∧ max w.millis 1 ∣ interval.millis := by
  unfold checkInterval
  rw [Nat.dvd_iff_mod_eq_zero]
  split
  · simp_all
  · split <;> simp_all

theorem checkRearm_eq_ok :
    checkRearm time interval = .ok () ↔ (time.add? interval).isSome := by
  unfold checkRearm
  split <;> simp_all

/-- A series is built when its interval is a number of slices and its second occurrence is in
range. -/
theorem repeating?_eq_ok : repeating? start interval w = .ok t ↔
    checkInterval interval w = .ok () ∧
      ((Slice.ceil start w).start.add? interval).isSome ∧
      t = repeating (Slice.ceil start w).start interval none Count.zero := by
  unfold repeating?
  rw [← checkRearm_eq_ok]
  cases checkInterval interval w with
  | error e => exact ⟨nofun, nofun⟩
  | ok _ =>
    show (checkRearm (Slice.ceil start w).start interval >>= fun _ => _) = _ ↔ _
    cases checkRearm (Slice.ceil start w).start interval with
    | error e => exact ⟨nofun, nofun⟩
    | ok _ =>
      exact ⟨fun same => ⟨rfl, rfl, (Except.ok.inj same).symm⟩, fun ⟨_, _, same⟩ => same ▸ rfl⟩

/-- A series that is built passes the check of a submission when it starts at the start of a
slice. -/
theorem check_of_repeating? (built : repeating? start interval w = .ok t)
    (starts : t.time.Starts w) : t.check w = .ok () := by
  obtain ⟨multiple, inRange, rfl⟩ := repeating?_eq_ok.mp built
  have aligned : Slice.isAligned (Slice.ceil start w).start w = true :=
    beq_iff_eq.mpr (Int.emod_eq_zero_of_dvd starts.2)
  unfold check
  simp only [time, aligned, Bool.not_true, Bool.false_eq_true, if_false, multiple,
    checkRearm_eq_ok.mpr inRange]
  rfl

/-- A series that starts with a slice of its own interval starts at the first multiple of the
interval that is not before the instant. -/
theorem isLeast_of_repeating? (whole : interval.IsWhole)
    (built : repeating? (Slice.ceil now interval).start interval w = .ok t)
    (reached : Slice.IsReached interval now) (outside : ¬now.IsLeap) :
    t = repeating t.time interval none Count.zero ∧ t.time.Starts w ∧
      IsLeast {u | now ≤ u ∧ u.Starts interval} t.time := by
  obtain ⟨multiple, inRange, rfl⟩ := repeating?_eq_ok.mp built
  obtain ⟨positive, slices⟩ := checkInterval_eq_ok.mp multiple
  have first := Slice.starts_ceil reached
  have parts : interval.millis * nanosPerMilli = interval.nanos := Nat.div_mul_cancel whole
  have pos : 0 < interval.millis := by
    simp only [nanosPerMilli] at parts
    omega
  have fits := (Instant.stepNanos_of_add? (Slice.isWhole_ceil first.1) inRange).2
  have starts := first.of_dvd (Duration.sliceMillis_dvd pos fits slices)
  rw [Slice.ceil_of_starts starts] at inRange ⊢
  refine ⟨rfl, starts,
    Slice.isLeast_ceil reached outside (or_iff_not_imp_left.mpr fun between => ?_)⟩
  -- without a slice to round up to, the second occurrence would be out of range
  by_contra none
  obtain ⟨second, added⟩ := Option.isSome_iff_exists.mp inRange
  obtain ⟨whole', sum⟩ := first.1.add? whole added
  have inRange := whole'.millis_inRange
  have floor : Slice.ceil now interval = Slice.containing now interval := by
    rw [Slice.ceil_eq]
    split
    · rfl
    · exact Slice.next_eq_self none
  rw [Slice.hasNext_iff, Duration.sliceMillis_of_lt fits, ← floor, Slice.millis] at none
  omega

/-- There is such a series when its interval is a number of slices, and two intervals after the
instant is in range. -/
theorem exists_repeating? (whole : interval.IsWhole) (pos : 0 < interval.millis)
    (multiple : max w.millis 1 ∣ interval.millis) (reached : Slice.IsReached interval now)
    (inRange : now.millis + 2 * interval.millis < (maxSecond + 1) * 1000) :
    ∃ t, repeating? (Slice.ceil now interval).start interval w = .ok t := by
  have first := Slice.starts_ceil reached
  have near := Slice.millis_ceil_le reached
  have parts : interval.millis * nanosPerMilli = interval.nanos := Nat.div_mul_cancel whole
  have fits : interval.millis < Word.size63 := by
    have bound := now.millis_bounds
    simp only [minSecond, maxSecond, Word.size63] at *
    omega
  have starts := first.of_dvd (Duration.sliceMillis_dvd pos fits multiple)
  refine ⟨_, repeating?_eq_ok.mpr ⟨checkInterval_eq_ok.mpr ⟨?_, multiple⟩, ?_, rfl⟩⟩
  · simp only [nanosPerMilli] at parts
    omega
  · rw [Slice.ceil_of_starts starts]
    rw [Duration.sliceMillis_of_lt fits, Nat.max_eq_left pos, Slice.millis] at near
    exact first.1.isSome_add? whole (by omega)

end Trigger

end SliceScheduler
