import SliceScheduler.Proofs.WholeTimes
import SliceScheduler.Maintenance.Block
/-!
# The block before a target time

`Block.bounds?` divides milliseconds and converts the quotient back. Here is what comes of it, said
without a division.

1. `Block.Precedes` says of two instants that they are the ends of the last full block that ended at
   or before a target time;
2. `Block.bounds?_eq_some` says that `Block.bounds?` finds those instants, and no others;
3. `Block.exists_precedes` says when there are such instants, and `Block.Precedes.unique` that there
   is one pair of them at most.
-/
namespace SliceScheduler.Block

variable {target start stop : Instant} {size : Duration}

/-- The time from `start` up to `stop` is the last full block of a size, counted from 1970, that
ended at or before the target time. The clock of the data has no leap seconds, so that "before" is
said of milliseconds. -/
structure Precedes (target : Instant) (size : Duration) (start stop : Instant) : Prop where
  start_whole : start.IsWhole
  stop_whole : stop.IsWhole
  length : start.millis + size.millis = stop.millis
  aligned : (size.millis : Int) ∣ stop.millis
  ended : stop.millis ≤ target.millis
  last : target.millis < stop.millis + size.millis

namespace Precedes

/-- A block has a length. -/
theorem size_pos (precedes : Precedes target size start stop) : 0 < size.millis := by
  have ended := precedes.ended
  have last := precedes.last
  omega

/-- No block is longer than the range of instants. -/
theorem size_le (precedes : Precedes target size start stop) : size.millis ≤ Text.maxInt64 := by
  have length := precedes.length
  have first := start.millis_bounds
  have last := stop.millis_bounds
  simp only [minSecond, maxSecond, Text.maxInt64] at *
  omega

/-- The end of the block is the target time rounded down. -/
theorem stop_millis (precedes : Precedes target size start stop) :
    stop.millis = target.millis / size.millis * size.millis := by
  obtain ⟨n, multiple⟩ := precedes.aligned
  have pos : (0 : Int) < size.millis := Int.natCast_pos.mpr precedes.size_pos
  have quotient : target.millis / size.millis = n := by
    refine Int.le_antisymm ?_ ?_
    · refine Int.le_of_lt_add_one (Int.ediv_lt_of_lt_mul pos ?_)
      rw [Int.add_mul, Int.one_mul, Int.mul_comm, ← multiple]
      exact precedes.last
    · refine Int.le_ediv_of_mul_le pos ?_
      rw [Int.mul_comm, ← multiple]
      exact precedes.ended
  rw [quotient, multiple, Int.mul_comm]

/-- One block precedes a target time at most. -/
theorem unique {start' stop' : Instant} (precedes : Precedes target size start stop)
    (precedes' : Precedes target size start' stop') : start' = start ∧ stop' = stop := by
  have stops : stop'.millis = stop.millis := by rw [precedes'.stop_millis, precedes.stop_millis]
  have starts : start'.millis = start.millis := by
    have length := precedes.length
    have length' := precedes'.length
    omega
  exact ⟨precedes'.start_whole.eq_of_millis_eq precedes.start_whole starts,
    precedes'.stop_whole.eq_of_millis_eq precedes.stop_whole stops⟩

end Precedes

/-- A block is found exactly when its ends are in range. -/
theorem bounds?_eq_some_iff_ofMillis? : bounds? target size = some (start, stop) ↔
    0 < size.millis ∧ size.millis ≤ Text.maxInt64 ∧
      Instant.ofMillis? (target.millis / size.millis * size.millis - size.millis) = some start ∧
      Instant.ofMillis? (target.millis / size.millis * size.millis) = some stop := by
  unfold bounds?
  split
  · simp only [reduceCtorEq, false_iff]
    omega
  · simp only [Option.bind_eq_bind, Option.bind_eq_some_iff, Option.pure_def, Option.some.injEq,
      Prod.mk.injEq]
    constructor
    · rintro ⟨start, found, stop, found', rfl, rfl⟩
      exact ⟨by omega, by omega, found, found'⟩
    · rintro ⟨-, -, found, found'⟩
      exact ⟨start, found, stop, found', rfl, rfl⟩

/-- The ends that are found are those of the last full block, and the last full block is found. -/
theorem bounds?_eq_some :
    bounds? target size = some (start, stop) ↔ Precedes target size start stop := by
  rw [bounds?_eq_some_iff_ofMillis?]
  constructor
  · rintro ⟨pos, -, found, found'⟩
    have pos : (0 : Int) < size.millis := Int.natCast_pos.mpr pos
    have millis := Instant.millis_of_ofMillis? found
    have millis' := Instant.millis_of_ofMillis? found'
    exact {
      start_whole := Instant.isWhole_of_ofMillis? found
      stop_whole := Instant.isWhole_of_ofMillis? found'
      length := by omega
      aligned := millis' ▸ Int.dvd_mul_left ..
      ended := millis' ▸ Int.ediv_mul_le _ (ne_of_gt pos)
      last := by
        have after := Int.lt_ediv_add_one_mul_self target.millis pos
        rw [Int.add_mul, Int.one_mul] at after
        rwa [millis'] }
  · intro precedes
    have length := precedes.length
    rw [← precedes.stop_millis, show stop.millis - size.millis = start.millis by omega]
    exact ⟨precedes.size_pos, precedes.size_le, precedes.start_whole.ofMillis?_millis,
      precedes.stop_whole.ofMillis?_millis⟩

/-- No ends are found exactly when no block precedes the target time. -/
theorem bounds?_eq_none :
    bounds? target size = none ↔ ∀ start stop, ¬Precedes target size start stop := by
  rw [Option.eq_none_iff_forall_ne_some]
  constructor
  · exact fun none start stop precedes => none (start, stop) (bounds?_eq_some.mpr precedes)
  · exact fun none bounds found => none bounds.1 bounds.2 (bounds?_eq_some.mp found)

/-- A block precedes a target time exactly when the size has a millisecond and the block does not
start before the range of instants. A target time in range is not before its block. -/
theorem exists_precedes : (∃ start stop, Precedes target size start stop) ↔
    0 < size.millis ∧
      minSecond * 1000 ≤ target.millis / size.millis * size.millis - size.millis ∧
      target.millis / size.millis * size.millis < (maxSecond + 1) * 1000 := by
  constructor
  · rintro ⟨start, stop, precedes⟩
    have length := precedes.length
    have inRange := precedes.start_whole.millis_inRange
    have inRange' := precedes.stop_whole.millis_inRange
    rw [← precedes.stop_millis]
    exact ⟨precedes.size_pos, by omega, inRange'.2⟩
  · rintro ⟨pos, first, last⟩
    have short : size.millis ≤ Text.maxInt64 := by
      simp only [minSecond, maxSecond, Text.maxInt64] at *
      omega
    obtain ⟨start, found⟩ := Option.isSome_iff_exists.mp
      (Instant.ofMillis?_isSome.mpr ⟨first, by omega⟩)
    obtain ⟨stop, found'⟩ := Option.isSome_iff_exists.mp
      (Instant.ofMillis?_isSome.mpr ⟨by omega, last⟩)
    exact ⟨start, stop, bounds?_eq_some.mp
      (bounds?_eq_some_iff_ofMillis?.mpr ⟨pos, short, found, found'⟩)⟩

end SliceScheduler.Block
