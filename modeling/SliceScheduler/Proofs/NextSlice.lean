import SliceScheduler.Proofs.Occurrence
import SliceScheduler.Proofs.WholeTimes
import SliceScheduler.Job.Basic
/-!
# A job that comes back does so in a later slice

`Trigger.le_slice_next` leaves room for an occurrence in the current slice itself. The times of a
job that was accepted in whole milliseconds leave none.

1. `Instant.Starts` says that an instant is the start of a slice, `Slice.containing_of_starts` that
   it is the start of its own slice, and `Slice.eq_of_lt_next` that no slice lies between a slice and
   the next one;
2. `Trigger.Regular` says that a series starts at the start of a slice and that its interval is a
   number of slices, and `Trigger.regular_of_check` that an accepted series is like that;
3. `Trigger.Regular.starts_next` says that every occurrence of a regular series starts a slice, and
   `Trigger.Regular.of_next` that the series stays regular;
4. `Trigger.Regular.lt_slice_next` and `Program.lt_slice_retryTrigger` are the results.
-/
namespace SliceScheduler

namespace Instant

variable {t u : Instant} {w : Duration}

/-- The instant is the start of a slice of the width. -/
def Starts (w : Duration) (t : Instant) : Prop := t.IsWhole ∧ w.sliceMillis ∣ t.millis

instance (w : Duration) (t : Instant) : Decidable (t.Starts w) :=
  inferInstanceAs (Decidable (_ ∧ _))

/-- A number of whole milliseconds after a whole instant. -/
theorem IsWhole.addMillis {n : Int} (whole : t.IsWhole)
    (found : t.addNanos? (n * nanosPerMilli) = some u) : u.IsWhole ∧ u.millis = t.millis + n := by
  have outside := whole.outside
  have fraction := whole.2
  rw [addNanos?, if_neg (Nat.not_le.mpr outside), ofOffset?] at found
  obtain ⟨second, nano⟩ := ofParts?_eq_some found
  simp only [IsWhole, IsLeap, millis, second, nano, nanosPerSecond, nanosPerMilli] at *
  omega

theorem Starts.addMillis {n : Int} (starts : t.Starts w) (slices : w.sliceMillis ∣ n)
    (found : t.addNanos? (n * nanosPerMilli) = some u) : u.Starts w := by
  obtain ⟨whole, sum⟩ := starts.1.addMillis found
  exact ⟨whole, sum ▸ Int.dvd_add starts.2 slices⟩

/-- The starts of two slices are a slice apart. -/
theorem Starts.add_le (starts : t.Starts w) (starts' : u.Starts w) (less : t.millis < u.millis) :
    t.millis + w.sliceMillis ≤ u.millis := by
  have apart := Int.le_of_dvd (Int.sub_pos.mpr less) (Int.dvd_sub starts'.2 starts.2)
  omega

/-- Only a length of time that is shorter than the range leads from one instant to another. -/
theorem stepNanos_of_add? {d : Duration} (whole : t.IsWhole) (inRange : (t.add? d).isSome) :
    stepNanos d = d.nanos ∧ d.millis < Word.size63 := by
  obtain ⟨u, found⟩ := Option.isSome_iff_exists.mp inRange
  have first := t.second_ge
  have last := u.second_le
  rw [add?, addNanos?, if_neg (Nat.not_le.mpr whole.outside), ofOffset?] at found
  obtain ⟨second, -⟩ := ofParts?_eq_some found
  simp only [stepNanos, maxStepNanos, Duration.millis, minSecond, maxSecond, nanosPerSecond,
    nanosPerMilli, Word.size63] at *
  omega

end Instant

/-- A width of less than `2 ^ 63` milliseconds is taken as it is, and as one at least. -/
theorem Duration.sliceMillis_of_lt {w : Duration} (fits : w.millis < Word.size63) :
    w.sliceMillis = (max w.millis 1 : Nat) := by
  have word : w.wordMillis = w.millis :=
    Int.bmod_eq_of_le (by omega) (by simp only [Word.size64, Word.size63] at *; omega)
  rw [sliceMillis, word]
  omega

namespace Slice

variable {s : Slice} {t : Instant} {w : Duration}

/-- The start of a slice is the start of its own slice. -/
theorem containing_of_starts (starts : t.Starts w) : containing t w = ⟨t⟩ := by
  have floor : floorMillis t.millis w = t.millis := Int.ediv_mul_cancel starts.2
  rw [containing, floor, ofStartMillis?, starts.1.ofMillis?_millis]
  rfl

/-- The slice of an instant starts a slice, if its start is in range. -/
theorem starts_containing (reached : IsReached w t) : (containing t w).start.Starts w := by
  refine ⟨(isWhole_containing reached).start, ?_⟩
  show w.sliceMillis ∣ (containing t w).millis
  rw [millis_containing reached]
  exact Int.dvd_mul_left ..

/-- The slice after one that starts where a slice does starts where a slice does. -/
theorem starts_next (starts : s.start.Starts w) : (s.next w).start.Starts w := by
  by_cases next : s.HasNext w
  · refine ⟨(isWhole_next next).start, ?_⟩
    show w.sliceMillis ∣ (s.next w).millis
    rw [millis_next next]
    exact Int.dvd_add starts.2 (Int.dvd_refl _)
  · rwa [next_eq_self next]

/-- Between a slice and the next one no slice starts. -/
theorem next_le {x : Slice} (starts : s.start.Starts w) (starts' : x.start.Starts w)
    (less : s < x) : s.next w ≤ x := by
  have whole := isWhole_of_start starts.1
  have whole' := isWhole_of_start starts'.1
  by_cases next : s.HasNext w
  · rw [lt_iff_millis_lt whole whole'] at less
    rw [le_iff_millis_le (isWhole_next next) whole', millis_next next]
    exact starts.add_le starts' less
  · rw [next_eq_self next]
    exact le_of_lt less

/-- The slices of instants are the starts of slices, between two slices that are. -/
theorem isReached_of_le {x : Slice} (starts : s.start.Starts w) (le : s ≤ x)
    (less : x < s.next w) (next : s.HasNext w) : IsReached w x.start := by
  by_contra fails
  have floor : floorMillis s.millis w = s.millis := Int.ediv_mul_cancel starts.2
  have mono := floorMillis_mono ((isWhole_of_start starts.1).millis_le_of_le le) w
  have first := s.start.millis_bounds
  rcases not_reached_bounds fails with ⟨-, low⟩ | ⟨-, second, leap⟩
  · simp only [millis] at *
    omega
  · -- a leap second at the end of the range is after every whole slice
    have less := Instant.lt_iff.mp less
    have last := (s.next w).start.second_le
    have outside := (isWhole_next next).outside
    omega

/-- Between a slice and the next one there is no slice of an instant. -/
theorem eq_of_lt_next {x : Slice} (starts : s.start.Starts w) (own : containing x.start w = x)
    (le : s ≤ x) (less : x < s.next w) : x = s := by
  have next : s.HasNext w := by
    by_contra none
    rw [next_eq_self none] at less
    exact not_le_of_gt less le
  have starts' := starts_containing (isReached_of_le starts le less next)
  rw [own] at starts'
  by_contra other
  exact not_le_of_gt less (next_le starts starts' (lt_of_le_of_ne le (Ne.symm other)))

/-- The slice after a slice starts in a later slice. -/
theorem lt_containing_next (next : s.HasNext w) : s < containing (s.next w).start w := by
  have floor : floorMillis (s.next w).start.millis w = floorMillis s.millis w + w.sliceMillis := by
    show floorMillis (s.next w).millis w = _
    rw [millis_next next, floorMillis, Int.add_ediv_of_dvd_right (Int.dvd_refl _),
      Int.ediv_self (ne_of_gt w.sliceMillis_pos), Int.add_mul, Int.one_mul, floorMillis]
  have later := lt_floorMillis_add s.millis w
  have reached : IsReached w (s.next w).start := by
    have below := floorMillis_le s.millis w
    have first := s.start.millis_bounds
    rw [isReached_iff, floor]
    rw [hasNext_iff] at next
    simp only [millis] at *
    omega
  refine lt_of_millis_lt ?_ (isWhole_containing reached)
  rw [millis_containing reached, floor]
  exact later

end Slice

namespace Trigger

variable {t next : Trigger} {now : Instant} {w : Duration}

/-- The times of the trigger are whole milliseconds, outside a leap second. -/
def InMillis : Trigger → Prop
  | single time => time.IsWhole
  | repeating time interval _ _ => time.IsWhole ∧ interval.IsWhole

instance : (t : Trigger) → Decidable t.InMillis
  | .single time => inferInstanceAs (Decidable time.IsWhole)
  | .repeating time interval _ _ =>
    inferInstanceAs (Decidable (time.IsWhole ∧ interval.IsWhole))

theorem starts_of_check (accepted : t.check w = .ok ()) (whole : t.time.IsWhole) :
    t.time.Starts w := by
  refine ⟨whole, ?_⟩
  unfold check at accepted
  cases aligned : Slice.isAligned t.time w with
  | false =>
    rw [aligned] at accepted
    cases accepted
  | true => exact Int.dvd_of_emod_eq_zero (by simpa [Slice.isAligned] using aligned)

/-- What is asked of the interval of an accepted series. -/
theorem checks_of_check {time : Instant} {interval : Duration} {limit : Option Count}
    {count : Count} (accepted : (repeating time interval limit count).check w = .ok ()) :
    checkInterval interval w = .ok () ∧ (time.add? interval).isSome := by
  unfold check at accepted
  cases aligned : Slice.isAligned (repeating time interval limit count).time w with
  | false =>
    rw [aligned] at accepted
    cases accepted
  | true =>
    rw [aligned, Bool.not_true, if_neg Bool.false_ne_true] at accepted
    simp only at accepted
    cases positive : checkInterval interval w with
    | error e =>
      rw [positive] at accepted
      cases accepted
    | ok _ =>
      refine ⟨rfl, ?_⟩
      by_contra beyond
      rw [positive, checkRearm, if_neg beyond] at accepted
      cases accepted

/-- The interval of an accepted series is a number of slices. -/
theorem step_of_check {time : Instant} {interval : Duration} {limit : Option Count} {count : Count}
    (accepted : (repeating time interval limit count).check w = .ok ())
    (whole : time.IsWhole) (length : interval.IsWhole) :
    Instant.stepNanos interval = interval.millis * nanosPerMilli ∧
      w.sliceMillis ∣ (interval.millis : Int) := by
  obtain ⟨multiple, inRange⟩ := checks_of_check accepted
  obtain ⟨step, short⟩ := Instant.stepNanos_of_add? whole inRange
  rw [step]
  refine ⟨(Nat.div_mul_cancel length).symm, ?_⟩
  unfold checkInterval at multiple
  split at multiple
  · cases multiple
  · rename_i positive
    split at multiple
    · cases multiple
    · rename_i slices
      have slices := Nat.dvd_of_mod_eq_zero (not_not.mp slices)
      have parts : interval.millis * nanosPerMilli = interval.nanos := Nat.div_mul_cancel length
      -- the width is no longer than the interval, so that its milliseconds fit a signed word
      have fits := Nat.le_of_dvd (by simp only [nanosPerMilli] at parts; omega) slices
      have word : w.sliceMillis = (max w.millis 1 : Nat) :=
        Duration.sliceMillis_of_lt (by omega)
      rw [word]
      exact Int.natCast_dvd_natCast.mpr slices

/-- Steps by a number of slices lead from the start of a slice to the start of a slice. -/
theorem starts_of_stepPast {current t u : Instant} {interval : Duration} {steps : Nat}
    (step : Instant.stepNanos interval = interval.millis * nanosPerMilli)
    (slices : w.sliceMillis ∣ (interval.millis : Int)) (starts : t.Starts w)
    (found : stepPast current interval steps t = some u) : u.Starts w := by
  induction steps generalizing t with
  | zero =>
    obtain rfl := Option.some.inj found
    exact starts
  | succ steps ih =>
    simp only [stepPast] at found
    split at found
    · obtain ⟨v, stepped, found⟩ := Option.bind_eq_some_iff.mp found
      refine ih (starts.addMillis slices ?_) found
      rwa [Instant.add?, step, Int.natCast_mul] at stepped
    · obtain rfl := Option.some.inj found
      exact starts

/-- The trigger occurs at the starts of slices: a series starts at one, and its interval is a number
of slices. -/
def Regular (w : Duration) : Trigger → Prop
  | single _ => True
  | repeating time interval _ _ =>
    time.Starts w ∧ Instant.stepNanos interval = interval.millis * nanosPerMilli ∧
      w.sliceMillis ∣ (interval.millis : Int)

/-- A trigger that is accepted in whole milliseconds is regular. -/
theorem regular_of_check (accepted : t.check w = .ok ()) (inMillis : t.InMillis) : t.Regular w := by
  cases t with
  | single time => trivial
  | repeating time interval limit count =>
    exact ⟨starts_of_check accepted inMillis.1, step_of_check accepted inMillis.1 inMillis.2⟩

namespace Regular

/-- Every occurrence of a regular series starts a slice, whatever slices the clock is read in. -/
theorem starts_next {v : Duration} (regular : t.Regular w) (found : t.next? now v = some next) :
    next.time.Starts w := by
  cases t with
  | single time => cases found
  | repeating time interval limit count =>
    obtain ⟨starts, step, slices⟩ := regular
    obtain ⟨-, next, found', rfl⟩ := next?_eq_some found
    obtain ⟨first, added, found⟩ := Option.bind_eq_some_iff.mp found'
    split at found
    · simp only at found
      split at found
      · cases found
      · obtain ⟨landed, jumped, found⟩ := Option.bind_eq_some_iff.mp found
        refine starts_of_stepPast step slices (starts.addMillis ?_ jumped) found
        rw [step, Nat.mul_div_cancel _ (by decide)]
        exact Int.dvd_mul_of_dvd_right slices
    · obtain rfl := Option.some.inj found
      refine starts.addMillis slices ?_
      rwa [Instant.add?, step, Int.natCast_mul] at added

/-- What comes after an occurrence of a regular series is regular. -/
theorem of_next (regular : t.Regular w) (found : t.next? now w = some next) : next.Regular w := by
  have starts := regular.starts_next found
  cases t with
  | single time => cases found
  | repeating time interval limit count =>
    obtain ⟨-, time', -, rfl⟩ := next?_eq_some found
    exact ⟨starts, regular.2⟩

/-- The next occurrence of a regular series is after the current slice. -/
theorem lt_slice_next (regular : t.Regular w) (found : t.next? now w = some next) :
    Slice.containing now w < next.slice w := by
  rw [slice, Slice.containing_of_starts (regular.starts_next found)]
  exact lt_of_next? found

end Regular

end Trigger

/-- The retry of a job is after the current slice, if there is a slice after that. -/
theorem Program.lt_slice_retryTrigger {now : Instant} {w : Duration}
    (next : (Slice.containing now w).HasNext w) (delay : Duration) :
    Slice.containing now w < (retryTrigger now delay w).slice w := by
  simp only [retryTrigger]
  split
  · exact Slice.lt_containing_next next
  · rename_i late
    exact lt_of_lt_of_le (Slice.lt_next next) (le_of_not_gt late)

end SliceScheduler
