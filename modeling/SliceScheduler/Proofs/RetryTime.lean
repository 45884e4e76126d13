import SliceScheduler.Engine.Drain
import SliceScheduler.Proofs.NextOccurrence
import SliceScheduler.Proofs.Rounding
/-!
# The time of a retry

A retry is due a delay after the failure. It is put on the first slice that does not start before
that, and that starts after the slice of the failure.

1. `Program.isLeast_retryTrigger` says that this is what `Program.retryTrigger` finds, as long as the
   slice of the failure starts in range;
2. `Program.isLeast_retryTrigger_iff` says what is needed of a failure whose slice starts before the
   first instant: a further slice has to start before the retry is due. Without one the retry is put a
   width after the failure itself, where no slice starts;
3. `Program.retryTrigger_of_add?_eq_none` puts a retry that is due past the end of time on the last
   slice;
4. `Slice.isSigned_floorMillis` and `Slice.isSigned_next` say that the products and sums on the way stay
   within the signed 64-bit words.
-/
namespace SliceScheduler

/-! ## Words -/

/-- A signed 64-bit word. -/
def Word.IsSigned (n : Int) : Prop := -(size63 : Int) ≤ n ∧ n < size63

namespace Duration

/-- The width of a slice is a word. -/
theorem isSigned_sliceMillis (w : Duration) : Word.IsSigned w.sliceMillis := by
  have pos := w.sliceMillis_pos
  have high : w.wordMillis < (Word.size64 + 1) / 2 := Int.bmod_lt (Nat.zero_lt_succ _)
  unfold sliceMillis at *
  simp only [Word.IsSigned, Word.size64, Word.size63] at *
  omega

end Duration

namespace Instant

variable {t u : Instant} {d : Duration}

/-- What is due after a delay is due outside a leap second, and not before the delay began. -/
theorem of_add?_eq_some (outside : ¬t.IsLeap) (found : t.add? d = some u) :
    ¬u.IsLeap ∧ t ≤ u := by
  rw [add?_eq outside] at found
  obtain ⟨outside', sum⟩ := ofNanos?_eq_some.mp found
  refine ⟨outside', not_lt.mp fun less => ?_⟩
  have fewer := (lt_iff_nanos_lt outside' outside).mp less
  omega

theorem later_eq (found : t.add? d = some u) : t.later d = u := by
  rw [later, found, Option.getD_some]

theorem later_eq_latest (none : t.add? d = none) : t.later d = latest := by
  rw [later, none, Option.getD_none]

/-- No instant outside a leap second is after the last one. -/
theorem le_latest (outside : ¬t.IsLeap) : t ≤ latest := by
  have last := t.second_le
  rw [le_iff]
  simp only [IsLeap, latest, maxSecond, nanosPerSecond] at *
  omega

end Instant

namespace Slice

variable {t u : Instant} {w : Duration}

/-- The slices since 1970 are counted from there. -/
theorem floorMillis_nonneg {ms : Int} (since : 0 ≤ ms) : 0 ≤ floorMillis ms w :=
  Int.mul_nonneg (Int.ediv_nonneg since (le_of_lt w.sliceMillis_pos)) (le_of_lt w.sliceMillis_pos)

/-- The start of a slice is a word, whether or not it is in range. -/
theorem isSigned_floorMillis (t : Instant) (w : Duration) :
    Word.IsSigned (floorMillis t.millis w) := by
  have bounds := t.millis_bounds
  have word := w.isSigned_sliceMillis
  have below := floorMillis_le t.millis w
  refine ⟨?_, ?_⟩
  · -- a slice that starts before 1970 starts at a negative multiple of the width
    by_cases before : t.millis < -w.sliceMillis
    · have above := lt_floorMillis_add t.millis w
      simp only [Word.IsSigned, minSecond, maxSecond, Word.size63] at *
      omega
    · have mono := floorMillis_mono (not_lt.mp before) w
      have first : floorMillis (-w.sliceMillis) w = -w.sliceMillis :=
        Int.ediv_mul_cancel (Int.dvd_neg.mpr (Int.dvd_refl _))
      simp only [Word.IsSigned, Word.size63] at *
      omega
  · simp only [minSecond, maxSecond, Word.size63] at *
    omega

/-- The start of the slice after the one of an instant is a word, whether or not it is in range. -/
theorem isSigned_next (t : Instant) (w : Duration) :
    Word.IsSigned ((containing t w).millis + w.sliceMillis) := by
  have bounds := t.millis_bounds
  have word := w.isSigned_sliceMillis
  have pos := w.sliceMillis_pos
  have below := floorMillis_le t.millis w
  have above := lt_floorMillis_add t.millis w
  -- only a width that is short of the time since 1970 is added to a positive number
  have since : 0 ≤ t.millis → 0 ≤ floorMillis t.millis w := floorMillis_nonneg
  have wide : 0 < floorMillis t.millis w → w.sliceMillis ≤ floorMillis t.millis w :=
    fun after => Int.le_of_dvd after (Int.dvd_mul_left _ _)
  by_cases reached : IsReached w t
  · rw [millis_containing reached]
    simp only [Word.IsSigned, minSecond, maxSecond, Word.size63] at *
    omega
  · have outer := not_reached_bounds reached
    rw [containing_of_not_reached reached, millis]
    simp only [Word.IsSigned, minSecond, maxSecond, Word.size63] at *
    omega

/-! ## The slices of a failure and of its retry -/

/-- The slices of the instants after one whose slice starts in range start in range. -/
theorem IsReached.of_le (reached : IsReached w t) (le : t ≤ u) (outside : ¬t.IsLeap)
    (outside' : ¬u.IsLeap) : IsReached w u := by
  have mono := floorMillis_mono (Instant.millis_le_of_le le (Nat.not_le.mp outside)) w
  by_contra fails
  rw [isReached_iff] at reached
  rcases not_reached_bounds fails with ⟨-, low⟩ | ⟨-, -, leap⟩
  · omega
  · exact outside' leap

/-- The slices before one that has a next one have a next one. -/
theorem hasNext_of_millis_le {a b : Slice} (next : b.HasNext w) (le : a.millis ≤ b.millis) :
    a.HasNext w := by
  rw [hasNext_iff] at *
  omega

/-- The start of a slice is the start of a slice in range. -/
theorem isReached_of_starts (starts : t.Starts w) : IsReached w t := by
  have floor : floorMillis t.millis w = t.millis := Int.ediv_mul_cancel starts.2
  rw [IsReached, floor, ofStartMillis?, starts.1.ofMillis?_millis]
  rfl

/-! ## A slice that starts before the first instant -/

/-- Such a slice is cut off at the instant itself, and what comes a width after that is not the start
of a slice. -/
theorem not_starts_next (fails : ¬IsReached w t) (next : (containing t w).HasNext w) :
    ¬((containing t w).next w).start.Starts w := by
  intro starts
  have multiple : w.sliceMillis ∣ ((containing t w).next w).millis := starts.2
  rw [millis_next next, containing_of_not_reached fails] at multiple
  have floor : floorMillis t.millis w = t.millis :=
    Int.ediv_mul_cancel ((Int.dvd_add_left (Int.dvd_refl _)).mp multiple)
  have first := t.millis_bounds
  rcases not_reached_bounds fails with ⟨-, low⟩ | ⟨high, -, leap⟩
  · omega
  · rw [containing_of_not_reached fails, hasNext_iff] at next
    have pos := w.sliceMillis_pos
    simp only [millis] at next
    omega

/-- The first slice in range starts after such an instant, and before a width has passed. -/
theorem exists_starts_of_not_reached (fails : ¬IsReached w t) (outside : ¬t.IsLeap)
    (next : (containing t w).HasNext w) :
    ∃ u : Instant, u.Starts w ∧ t < u ∧ u < ((containing t w).next w).start := by
  have above := lt_floorMillis_add t.millis w
  have first := t.millis_bounds.1
  have whole := isWhole_next next
  have sum := millis_next next
  rw [containing_of_not_reached fails] at next sum whole ⊢
  rw [hasNext_iff] at next
  simp only [millis] at next sum
  rcases not_reached_bounds fails with ⟨-, low⟩ | ⟨-, -, leap⟩
  · obtain ⟨u, found⟩ := Option.isSome_iff_exists.mp
      (Instant.ofMillis?_isSome.mpr
        (show minSecond * 1000 ≤ floorMillis t.millis w + w.sliceMillis ∧ _ by omega))
    have start := Instant.millis_of_ofMillis? found
    have outside' := Instant.nano_lt_of_ofMillis? found
    refine ⟨u, ⟨Instant.isWhole_of_ofMillis? found, ?_⟩, Instant.lt_of_millis_lt ?_ outside',
      Instant.lt_of_millis_lt ?_ whole.outside⟩
    · rw [start]
      exact Int.dvd_add (Int.dvd_mul_left _ _) (Int.dvd_refl _)
    · omega
    · omega
  · exact absurd leap outside

/-- The last slice starts in range. -/
theorem isReached_latest (w : Duration) : IsReached w Instant.latest :=
  isReached_of_nonneg (by decide) (by decide)

/-- The last slice has no next one. -/
theorem not_hasNext_latest (w : Duration) : ¬(containing Instant.latest w).HasNext w := by
  have reached := isReached_latest w
  have above := lt_floorMillis_add Instant.latest.millis w
  rw [hasNext_iff, millis_containing reached]
  have last : Instant.latest.millis = maxSecond * 1000 + 999 := rfl
  simp only [maxSecond] at *
  omega

/-- Rounding up stops at the last slice. -/
theorem ceil_latest (w : Duration) : ceil Instant.latest w = containing Instant.latest w := by
  rw [ceil_eq, next_eq_self (not_hasNext_latest w), ite_self]

/-- No slice starts after the last one. -/
theorem le_containing_latest {s : Slice} (starts : s.start.Starts w) :
    s ≤ containing Instant.latest w := by
  have le : s.start ≤ Instant.latest := Instant.le_latest starts.1.1
  have mono := containing_mono le (Instant.millis_le_of_le le starts.1.outside) w
  rwa [containing_of_starts starts] at mono

end Slice

namespace Program

open Slice

variable {now due : Instant} {delay w : Duration}

/-- The starts of slices that a retry may be put on: those that are not before it is due, and after
the start of the slice of the failure. -/
def retryStarts (now due : Instant) (w : Duration) : Set Instant :=
  {u | u.Starts w ∧ due ≤ u ∧ (containing now w).start < u}

theorem hasNext_containing (outside : ¬now.IsLeap) (found : now.add? delay = some due)
    (next : (containing due w).HasNext w) : (containing now w).HasNext w := by
  have le := (Instant.of_add?_eq_some outside found).2
  exact hasNext_of_millis_le next
    (millis_containing_mono (Instant.millis_le_of_le le (Nat.not_le.mp outside)) w)

theorem retryTrigger_eq (later : now.later delay = due) : retryTrigger now delay w =
    if containing (ceil due w).start w < (containing now w).next w then
      .single ((containing now w).next w).start
    else .single (ceil due w).start := by
  subst later
  rfl

/-- A retry that is due late enough is rounded up. -/
theorem retryTrigger_of_le (later : now.later delay = due) (starts : (ceil due w).start.Starts w)
    (late : (containing now w).next w ≤ ceil due w) :
    retryTrigger now delay w = .single (ceil due w).start := by
  rw [retryTrigger_eq later, containing_of_starts starts, if_neg (not_lt.mpr late)]

/-- The retry is put on the first start of a slice that it may be put on. -/
theorem isLeast_retryTrigger (outside : ¬now.IsLeap) (found : now.add? delay = some due)
    (next : (containing due w).HasNext w) (reached : IsReached w now) :
    IsLeast (retryStarts now due w) (retryTrigger now delay w).time := by
  obtain ⟨outside', le⟩ := Instant.of_add?_eq_some outside found
  have later := Instant.later_eq found
  have next' := hasNext_containing outside found next
  have first := isLeast_ceil (reached.of_le le outside outside') outside' (.inr next)
  have starts := starts_containing reached
  by_cases early : ceil due w < (containing now w).next w
  · -- the retry is due in the slice of the failure
    rw [retryTrigger_eq later, containing_of_starts first.1.2, if_pos early]
    refine ⟨⟨starts_next starts, le_trans first.1.1 (le_of_lt early), lt_next next'⟩, ?_⟩
    rintro u ⟨starts', -, after⟩
    exact next_le (x := ⟨u⟩) starts starts' after
  · have late := not_lt.mp early
    rw [retryTrigger_of_le later first.1.2 late]
    refine ⟨⟨first.1.2, first.1.1, lt_of_lt_of_le (lt_next next') late⟩, ?_⟩
    rintro u ⟨starts', above, -⟩
    exact first.2 ⟨above, starts'⟩

/-- The same for a failure whose slice starts before the first instant, if a slice starts between the
failure and the time that the retry is due. -/
theorem isLeast_retryTrigger_of_between (outside : ¬now.IsLeap)
    (found : now.add? delay = some due) (next : (containing due w).HasNext w)
    (fails : ¬IsReached w now) {u : Instant} (starts : u.Starts w) (after : now < u)
    (before : u < due) : IsLeast (retryStarts now due w) (retryTrigger now delay w).time := by
  have outside' := (Instant.of_add?_eq_some outside found).1
  have reached := (isReached_of_starts starts).of_le (le_of_lt before)
    (Nat.not_le.mpr starts.1.outside) outside'
  have first := isLeast_ceil reached outside' (.inr next)
  have next' := hasNext_containing outside found next
  -- rounding up goes on to a slice after the one between, and so a width after the failure at least
  have apart := starts.add_le first.1.2
    ((starts.1.lt_iff_millis_lt first.1.2.1).mp (lt_of_lt_of_le before first.1.1))
  have late : (containing now w).next w ≤ ceil due w := by
    have fewer := Instant.millis_le_of_le (le_of_lt after) (Nat.not_le.mp outside)
    rw [le_iff_millis_le (isWhole_next next') (isWhole_of_start first.1.2.1), millis_next next',
      containing_of_not_reached fails]
    simp only [millis] at *
    omega
  rw [retryTrigger_of_le (Instant.later_eq found) first.1.2 late]
  refine ⟨⟨first.1.2, first.1.1, ?_⟩, fun v mem => first.2 ⟨mem.2.1, mem.1⟩⟩
  rw [containing_of_not_reached fails]
  exact lt_of_lt_of_le (lt_trans after before) first.1.1

/-- The slice of a failure may start before the first instant. Then the retry is put on the first
start of a slice that it may be put on just if a slice starts after the failure and before the retry
is due. -/
theorem isLeast_retryTrigger_iff (outside : ¬now.IsLeap) (found : now.add? delay = some due)
    (next : (containing due w).HasNext w) :
    IsLeast (retryStarts now due w) (retryTrigger now delay w).time ↔
      IsReached w now ∨ ∃ u : Instant, u.Starts w ∧ now < u ∧ u < due := by
  by_cases reached : IsReached w now
  · exact iff_of_true (isLeast_retryTrigger outside found next reached) (.inl reached)
  rw [or_iff_right reached]
  refine ⟨fun least => ?_, fun ⟨u, starts, after, before⟩ =>
    isLeast_retryTrigger_of_between outside found next reached starts after before⟩
  have next' := hasNext_containing outside found next
  obtain ⟨u, starts', after, before⟩ := exists_starts_of_not_reached reached outside next'
  by_contra none
  -- otherwise the retry could be put on the first slice in range, and is put after it
  have due' : due ≤ u := not_lt.mp fun less => none ⟨u, starts', after, less⟩
  have after' : (containing now w).start < u := containing_of_not_reached reached ▸ after
  have small := least.2 ⟨starts', due', after'⟩
  have starts := least.1.1
  rw [retryTrigger_eq (Instant.later_eq found)] at starts small
  split at starts
  · exact not_starts_next reached next' starts
  · rename_i late
    rw [if_neg late] at small
    rw [containing_of_starts (show (ceil due w).start.Starts w from starts)] at late
    exact late (lt_of_le_of_lt small before)

-- Five seconds into the first slice of 61 seconds, whose start is out of range.
example : ¬(retryTrigger ⟨minSecond + 5, 0, by decide, by decide, by decide, by decide⟩ Duration.zero
    (Duration.ofSeconds 61)).time.Starts (Duration.ofSeconds 61) := by decide

/-- A retry that would be due past the end of time is put on the last slice. -/
theorem retryTrigger_of_add?_eq_none (none : now.add? delay = none) (reached : IsReached w now) :
    retryTrigger now delay w = .single (containing Instant.latest w).start := by
  have last := starts_containing (isReached_latest w)
  have early := le_containing_latest (starts_next (starts_containing reached))
  rw [← ceil_latest] at last early ⊢
  exact retryTrigger_of_le (Instant.later_eq_latest none) last early

end Program

end SliceScheduler
