import Mathlib.Tactic.SplitIfs
import SliceScheduler.Proofs.Order
import SliceScheduler.Engine.Drain
/-!
# No occurrence goes back

The slice that a job is moved to, for its next occurrence or for a retry, is not before the slice of
the clock.

1. `Instant.distance` is how far an instant has to go to a limit, and `Instant.distance_add` says
   that every step of a millisecond or more makes it shorter by as much;
2. `Trigger.lt_of_stepPast` concludes that the steps of a jump that fell short get past the limit;
3. `Trigger.le_slice_next` and `Program.le_slice_retryTrigger` are the results.

A jump falls short when it starts in a leap second: the leap second is left for the same place in
the second before, so that up to a second is lost, and another one is when the limit lies in a leap
second.
-/
namespace SliceScheduler

namespace Instant

/-- Nanoseconds since 1970, those of a leap second going on into the next minute. -/
def nanos (t : Instant) : Int := t.second * nanosPerSecond + t.nano

/-- Nanoseconds since 1970 of the place that a step out of a leap second starts from. -/
def footing (t : Instant) : Int :=
  if nanosPerSecond ≤ t.nano then t.nanos - nanosPerSecond else t.nanos

/-- How far the instant has to go to a limit. -/
def distance (limit t : Instant) : Int :=
  if t.second < limit.second then limit.nanos - t.footing else limit.nano - t.nano

end Instant

namespace OccurrenceLemmas

open Instant

variable {t u limit : Instant} {d : Duration} {n : Int}

theorem ofOffset?_eq_some {second nano : Int} (found : ofOffset? second nano = some u) :
    u.nanos = second * nanosPerSecond + nano ∧ u.nano < nanosPerSecond := by
  obtain ⟨same, same'⟩ := ofParts?_eq_some found
  simp only [nanos, same, same', nanosPerSecond]
  omega

/-- Where a step leads to: it counts on in a leap second, leaves it, or starts outside of one. -/
theorem addNanos?_cases (found : t.addNanos? n = some u) :
    (t.IsLeap ∧ u.second = t.second ∧ (u.nano : Int) = t.nano + n) ∨
      (t.IsLeap ∧ u.nanos = t.nanos - nanosPerSecond + n ∧ u.nano < nanosPerSecond ∧
        2 * nanosPerSecond ≤ t.nano + n) ∨
      u.nanos = t.nanos + n ∧ u.nano < nanosPerSecond ∧ (t.IsLeap → n ≤ -nanosPerSecond) := by
  unfold addNanos? at found
  split at found
  · rename_i leap
    split at found
    · obtain ⟨same, outside⟩ := ofOffset?_eq_some found
      refine .inr (.inl ⟨leap, ?_, outside, ‹_›⟩)
      rw [same, nanos]
      omega
    · split at found
      · obtain ⟨same, outside⟩ := ofOffset?_eq_some found
        refine .inr (.inr ⟨?_, outside, fun _ => ‹_›⟩)
        rw [same, nanos]
        simp only [nanosPerSecond]
        omega
      · obtain ⟨same, same'⟩ := ofParts?_eq_some found
        refine .inl ⟨leap, same, ?_⟩
        rw [same']
        simp only [nanosPerSecond] at *
        omega
  · obtain ⟨same, outside⟩ := ofOffset?_eq_some found
    refine .inr (.inr ⟨?_, outside, fun leap => absurd leap ‹_›⟩)
    rw [same, nanos]
    omega

theorem distance_nonneg (le : t ≤ limit) : 0 ≤ distance limit t := by
  have nano := t.nano_lt
  rw [le_iff] at le
  simp only [distance, footing, nanos, nanosPerSecond] at *
  split_ifs <;> omega

/-- A step of a millisecond or more goes past the limit or comes nearer to it by as much. -/
theorem distance_add (le : t ≤ limit) (found : t.add? d = some u)
    (long : nanosPerMilli ≤ stepNanos d) :
    limit < u ∨ distance limit u + nanosPerMilli ≤ distance limit t := by
  have nano := t.nano_lt
  have nano' := limit.nano_lt
  have reached := le_iff.mp le
  rw [lt_iff]
  rcases addNanos?_cases found with ⟨leap, second, stays⟩ | ⟨leap, left, outside, far⟩ |
    ⟨goes, outside, back⟩
  · simp only [distance, footing, nanos, IsLeap, nanosPerSecond, nanosPerMilli] at *
    split_ifs <;> omega
  · simp only [distance, footing, nanos, IsLeap, nanosPerSecond, nanosPerMilli] at *
    split_ifs <;> omega
  · simp only [distance, footing, nanos, IsLeap, nanosPerSecond, nanosPerMilli] at *
    split_ifs <;> omega

/-- A step falls short by a second at most. -/
theorem footing_addNanos? (found : t.addNanos? n = some u) :
    t.nanos + n - nanosPerSecond ≤ u.footing := by
  rcases addNanos?_cases found with ⟨-, second, stays⟩ | ⟨-, left, outside, -⟩ |
    ⟨goes, outside, -⟩
  · simp only [footing, nanos, nanosPerSecond] at *
    split_ifs <;> omega
  · simp only [footing, nanos, nanosPerSecond] at *
    split_ifs <;> omega
  · simp only [footing, nanos, nanosPerSecond] at *
    split_ifs <;> omega

theorem distance_le (le : t ≤ limit) : distance limit t ≤ limit.nanos - t.footing := by
  rw [le_iff] at le
  simp only [distance, footing, nanos, nanosPerSecond] at *
  split_ifs <;> omega

/-- A limit lies a second after the place that the time since an instant tells, at most. -/
theorem nanos_le_nanosSince (limit t : Instant) :
    limit.nanos - nanosPerSecond ≤ t.nanos + limit.nanosSince t := by
  simp only [nanosSince, nanos, IsLeap, nanosPerSecond]
  split_ifs <;> omega

/-- The jump over the occurrences that were missed goes as far as the time since the first. -/
theorem lt_jump (elapsed step : Int) (pos : 0 < step) :
    elapsed < ((elapsed.tdiv nanosPerMilli).tdiv step + 1) * step * nanosPerMilli := by
  generalize whole : elapsed.tdiv nanosPerMilli = m
  have covers : m < (m.tdiv step + 1) * step := by
    have parts := Int.tdiv_mul_add_tmod m step
    have small := Int.tmod_lt_of_pos m pos
    rw [Int.add_mul]
    omega
  have parts := Int.tdiv_mul_add_tmod elapsed nanosPerMilli
  have small := Int.tmod_lt_of_pos elapsed (b := nanosPerMilli) (by decide)
  rw [whole] at parts
  have : (m + 1) * (nanosPerMilli : Int) ≤ (m.tdiv step + 1) * step * nanosPerMilli :=
    Int.mul_le_mul_of_nonneg_right covers (by decide)
  rw [Int.add_mul] at this
  omega

end OccurrenceLemmas

open OccurrenceLemmas

namespace Trigger

/-- Steps that have a limit within reach get past it. -/
theorem lt_of_stepPast {limit t u : Instant} {interval : Duration} {steps : Nat}
    (long : nanosPerMilli ≤ Instant.stepNanos interval)
    (reach : limit < t ∨ Instant.distance limit t < steps * nanosPerMilli)
    (found : stepPast limit interval steps t = some u) : limit < u := by
  induction steps generalizing t with
  | zero =>
    obtain rfl := Option.some.inj found
    rcases reach with past | near
    · exact past
    · by_contra notPast
      have := distance_nonneg (le_of_not_gt notPast)
      omega
  | succ steps ih =>
    simp only [stepPast] at found
    split at found
    · rename_i le
      obtain ⟨v, step, found⟩ := Option.bind_eq_some_iff.mp found
      refine ih ?_ found
      rcases distance_add le step long with past | nearer
      · exact .inl past
      · rcases reach with past | near
        · exact absurd le (not_le_of_gt past)
        · refine .inr ?_
          simp only [nanosPerMilli] at *
          omega
    · rename_i past
      obtain rfl := Option.some.inj found
      exact lt_of_not_ge past

/-- The next occurrence is after the start of the current slice. -/
theorem lt_of_nextTime? {time current next : Instant} {interval : Duration}
    (long : nanosPerMilli ≤ Instant.stepNanos interval)
    (found : nextTime? time current interval = some next) : current < next := by
  obtain ⟨first, added, found⟩ := Option.bind_eq_some_iff.mp found
  split at found
  · simp only at found
    split at found
    · cases found
    · obtain ⟨landed, jumped, found⟩ := Option.bind_eq_some_iff.mp found
      refine lt_of_stepPast long ?_ found
      by_cases past : current < landed
      · exact .inl past
      · refine .inr (lt_of_le_of_lt (distance_le (le_of_not_gt past)) ?_)
        have jump := lt_jump (current.nanosSince time)
          (Instant.stepNanos interval / nanosPerMilli : Nat) ?_
        · have far := footing_addNanos? jumped
          have near := nanos_le_nanosSince current time
          simp only [Instant.millisSince, nanosPerMilli, nanosPerSecond] at *
          omega
        · simp only [nanosPerMilli] at *
          omega
  · rename_i past
    obtain rfl := Option.some.inj found
    exact lt_of_not_ge past

/-- What follows an occurrence of a series: the same series, at a later time. -/
theorem next?_eq_some {time : Instant} {interval : Duration} {limit : Option Count} {count : Count}
    {next : Trigger} {now : Instant} {width : Duration}
    (found : (repeating time interval limit count).next? now width = some next) :
    nanosPerMilli ≤ Instant.stepNanos interval ∧ ∃ time',
      nextTime? time (Slice.containing now width).start interval = some time' ∧
      next = repeating time' interval limit count.succ := by
  simp only [next?] at found
  split at found
  · cases found
  · split at found
    · cases found
    · rename_i long
      obtain ⟨time', found', rfl⟩ := Option.map_eq_some_iff.mp found
      exact ⟨Nat.le_of_not_lt long, time', found', rfl⟩

/-- The occurrence that follows is after the start of the current slice. -/
theorem lt_of_next? {t next : Trigger} {now : Instant} {width : Duration}
    (found : t.next? now width = some next) : (Slice.containing now width).start < next.time := by
  cases t with
  | single time => cases found
  | repeating time interval limit count =>
    obtain ⟨long, time', found', rfl⟩ := next?_eq_some found
    exact lt_of_nextTime? long found'

end Trigger

namespace Slice

variable {t u : Instant} {w : Duration}

/-- The start of the slice of an instant lies in that slice. -/
theorem containing_start : containing (containing t w).start w = containing t w := by
  by_cases reached : IsReached w t
  · have floor : floorMillis (containing t w).start.millis w = floorMillis t.millis w := by
      show floorMillis (containing t w).millis w = _
      rw [millis_containing reached]
      exact congrArg (· * w.sliceMillis) (Int.mul_ediv_cancel _ (ne_of_gt w.sliceMillis_pos))
    rw [containing, floor, ofStartMillis?_containing reached]
    rfl
  · rw [containing_of_not_reached reached]
    exact containing_of_not_reached reached

/-- What is not before the start of a slice is not in an earlier slice. -/
theorem containing_le_of_start_le (le : (containing t w).start ≤ u) :
    containing t w ≤ containing u w := by
  by_cases fewer : (containing t w).start.millis ≤ u.millis
  · rw [← containing_start]
    exact containing_mono le fewer w
  · -- the slice starts in a leap second, at one of the ends of the range
    have leap : ¬ IsReached w t := fun reached =>
      fewer (Instant.millis_le_of_le le (isWhole_containing reached).outside)
    rw [containing_of_not_reached leap] at le fewer ⊢
    have le : t ≤ u := le
    have less : ¬ t.millis ≤ u.millis := fewer
    have mono := floorMillis_mono (le_of_not_ge less) w
    have outside : ¬ IsReached w u := by
      rw [isReached_iff]
      rcases not_reached_bounds leap with ⟨-, low⟩ | ⟨high, second, leap⟩
      · omega
      · rw [Instant.le_iff] at le
        have last := u.second_le
        simp only [Instant.millis, nanosPerMilli] at less
        omega
    rw [containing_of_not_reached outside]
    exact le

end Slice

/-- The next occurrence of a job is not before the current slice. -/
theorem Trigger.le_slice_next {t next : Trigger} {now : Instant} {width : Duration}
    (found : t.next? now width = some next) :
    Slice.containing now width ≤ next.slice width :=
  Slice.containing_le_of_start_le (le_of_lt (lt_of_next? found))

/-- A job is retried once. -/
theorem Program.retryTrigger_single (now : Instant) (delay width : Duration) :
    ∃ time, retryTrigger now delay width = .single time := by
  simp only [retryTrigger]
  split <;> exact ⟨_, rfl⟩

/-- The retry of a job is not before the current slice. -/
theorem Program.le_slice_retryTrigger (now : Instant) (delay width : Duration) :
    Slice.containing now width ≤ (retryTrigger now delay width).slice width := by
  have next : Slice.containing now width ≤ (Slice.containing now width).next width := Slice.le_next
  simp only [retryTrigger]
  split
  · exact Slice.containing_le_of_start_le next
  · rename_i late
    exact le_trans next (le_of_not_gt late)

end SliceScheduler
