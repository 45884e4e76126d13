import Mathlib.Order.Bounds.Basic
import SliceScheduler.Proofs.Occurrence
import SliceScheduler.Proofs.WholeTimes
/-!
# The next occurrence of a series

The occurrences of a series lie at whole numbers of intervals after its time. The next one, seen from
the clock, is the first that comes after the start of the current slice.

1. `Instant.addNanos?_eq_some` says what a step leads to outside leap seconds, and
   `Instant.lt_iff_nanos_lt` that instants outside leap seconds are ordered by their nanoseconds;
2. `Trigger.jumpMillis` is the jump over the occurrences that were missed, and
   `Trigger.jump_between` says that it leads past what has elapsed, by an interval at most;
3. `Trigger.intervalsPast` are the numbers of intervals that lead past an instant:
   `Trigger.jumpMillis_eq` says that the jump takes the least of them, and
   `Trigger.stepPast_landed` that no step is left after it;
4. `Trigger.next?_isLeast` is the result.

The numbers of intervals are counted in nanoseconds since 1970, so that an occurrence that is out of
range counts as well.
-/
namespace SliceScheduler

namespace Instant

variable {a b t u : Instant} {d : Duration} {n : Int}

/-! ## Outside leap seconds -/

theorem ofParts?_eq_some_iff {second : Int} {nano : Nat} :
    ofParts? second nano = some t ↔ t.second = second ∧ t.nano = nano := by
  refine ⟨ofParts?_eq_some, ?_⟩
  rintro ⟨rfl, rfl⟩
  exact dif_pos ⟨t.second_ge, t.second_le, t.nano_lt, t.leap_ends_minute⟩

/-- The instant of a number of nanoseconds since 1970, outside a leap second, if it is in range. -/
def ofNanos? (n : Int) : Option Instant := ofOffset? 0 n

theorem ofOffset?_eq_some_iff {second nano : Int} :
    ofOffset? second nano = some u ↔ ¬u.IsLeap ∧ u.nanos = second * nanosPerSecond + nano := by
  rw [ofOffset?, ofParts?_eq_some_iff]
  simp only [IsLeap, nanos, nanosPerSecond]
  omega

theorem ofNanos?_eq_some : ofNanos? n = some u ↔ ¬u.IsLeap ∧ u.nanos = n := by
  rw [ofNanos?, ofOffset?_eq_some_iff, Int.zero_mul, Int.zero_add]

theorem addNanos?_eq (outside : ¬t.IsLeap) : t.addNanos? n = ofNanos? (t.nanos + n) := by
  have leaves : t.addNanos? n = ofOffset? t.second (t.nano + n) := if_neg outside
  refine Option.ext fun u => ?_
  rw [leaves, ofOffset?_eq_some_iff, ofNanos?_eq_some, ← Int.add_assoc]
  rfl

theorem exists_ofNanos? (first : minSecond * nanosPerSecond ≤ n)
    (last : n < (maxSecond + 1) * nanosPerSecond) : ∃ u, ofNanos? n = some u := by
  simp only [minSecond, maxSecond, nanosPerSecond] at first last
  refine ⟨⟨n / nanosPerSecond, (n % nanosPerSecond).toNat, ?_, ?_, ?_, ?_⟩, ?_⟩
  case refine_5 =>
    rw [ofNanos?_eq_some]
    simp only [IsLeap, nanos, nanosPerSecond]
    omega
  all_goals simp only [minSecond, maxSecond, nanosPerSecond]; omega

/-- A step from outside a leap second leads outside of one, by as many nanoseconds. -/
theorem addNanos?_eq_some (outside : ¬t.IsLeap) :
    t.addNanos? n = some u ↔ ¬u.IsLeap ∧ u.nanos = t.nanos + n := by
  rw [addNanos?_eq outside, ofNanos?_eq_some]

theorem nanos_bounds (t : Instant) :
    minSecond * nanosPerSecond ≤ t.nanos ∧
      t.nanos < (maxSecond + 1) * nanosPerSecond + nanosPerSecond := by
  have first := t.second_ge
  have last := t.second_le
  have nano := t.nano_lt
  simp only [nanos, minSecond, maxSecond, nanosPerSecond] at *
  omega

/-- A length of time leads as far as it is long: one that is too long for a step leads out of
range. -/
theorem add?_eq (outside : ¬t.IsLeap) : t.add? d = ofNanos? (t.nanos + d.nanos) := by
  rw [add?, addNanos?_eq outside]
  rcases Nat.le_total d.nanos maxStepNanos with short | long
  · rw [stepNanos, Nat.min_eq_left short]
  · rw [stepNanos, Nat.min_eq_right long]
    -- both ways the instant would be past the end of the range
    have far (n : Nat) (long : maxStepNanos ≤ n) : ofNanos? (t.nanos + n) = none := by
      refine Option.eq_none_iff_forall_not_mem.mpr fun u found => ?_
      have sum := (ofNanos?_eq_some.mp found).2
      have first := t.nanos_bounds.1
      have last := u.nanos_bounds.2
      simp only [maxStepNanos, minSecond, maxSecond, nanosPerSecond, nanosPerMilli] at *
      omega
    rw [far _ (Nat.le_refl _), far _ long]

theorem nanos_lt (outside : ¬t.IsLeap) : t.nanos < (maxSecond + 1) * nanosPerSecond := by
  have last := t.second_le
  simp only [IsLeap, nanos, maxSecond, nanosPerSecond] at *
  omega

/-- Instants outside leap seconds are ordered by their nanoseconds. -/
theorem lt_iff_nanos_lt (outside : ¬a.IsLeap) (outside' : ¬b.IsLeap) :
    a < b ↔ a.nanos < b.nanos := by
  rw [lt_iff]
  simp only [IsLeap, nanos, nanosPerSecond] at *
  omega

theorem nanosSince_eq (outside : ¬a.IsLeap) (outside' : ¬b.IsLeap) :
    a.nanosSince b = a.nanos - b.nanos := by
  simp only [nanosSince, if_neg outside, if_neg outside', nanos]
  split_ifs <;> ring

end Instant

/-- The slice of an instant outside a leap second starts outside of one. -/
theorem Slice.outside_containing {now : Instant} (outside : ¬now.IsLeap) (w : Duration) :
    ¬(containing now w).start.IsLeap := by
  by_cases reached : IsReached w now
  · exact Nat.not_le.mpr (isWhole_containing reached).outside
  · rw [containing_of_not_reached reached]
    exact outside

open OccurrenceLemmas

namespace Trigger

variable {time current now : Instant} {interval w : Duration} {limit : Option Count} {count : Count}

/-! ## The jump over the occurrences that were missed -/

/-- How far the jump over the occurrences that were missed goes, in milliseconds. -/
def jumpMillis (time current : Instant) (interval : Duration) : Int :=
  let step : Int := (Instant.stepNanos interval / nanosPerMilli : Nat)
  ((current.millisSince time).tdiv step + 1) * step

/-- The next occurrence is an interval later, or is found by the jump and the steps after it. -/
theorem nextTime?_eq (time current : Instant) (interval : Duration) :
    nextTime? time current interval = (time.add? interval).bind fun first =>
      if first ≤ current then
        if Text.maxInt64 < jumpMillis time current interval then none
        else (time.addNanos? (jumpMillis time current interval * nanosPerMilli)).bind
          (stepPast current interval 2000)
      else some first := rfl

/-- A length of whole milliseconds, of one at least, is a step of a millisecond at least. -/
theorem le_stepNanos (whole : interval.IsWhole) (pos : 0 < interval.millis) :
    0 < interval.nanos ∧ nanosPerMilli ≤ Instant.stepNanos interval := by
  have parts : interval.millis * nanosPerMilli = interval.nanos := Nat.div_mul_cancel whole
  simp only [Instant.stepNanos, Instant.maxStepNanos, nanosPerMilli] at *
  omega

/-- An interval of whole milliseconds that can be taken as a step. -/
structure Steps (interval : Duration) : Prop where
  whole : interval.IsWhole
  pos : 0 < interval.millis
  short : interval.nanos ≤ Instant.maxStepNanos

theorem Steps.nanos_eq (steps : Steps interval) :
    interval.nanos = interval.millis * nanosPerMilli :=
  (Nat.div_mul_cancel steps.whole).symm

theorem Steps.stepNanos_eq (steps : Steps interval) : Instant.stepNanos interval = interval.nanos :=
  Nat.min_eq_left steps.short

/-- The jump is a number of intervals. -/
theorem exists_jump (steps : Steps interval) (time current : Instant) : ∃ j : Int,
    jumpMillis time current interval = j * interval.millis ∧
      j = ((current.nanosSince time).tdiv nanosPerMilli).tdiv interval.millis + 1 := by
  have step : Instant.stepNanos interval / nanosPerMilli = interval.millis := by
    rw [steps.stepNanos_eq, Duration.millis]
  refine ⟨_, ?_, rfl⟩
  simp only [jumpMillis, step]
  rfl

/-- Rounding toward zero comes nearer to zero. -/
theorem tdiv_mul_between (a : Int) {b : Int} (pos : 0 < b) :
    min a 0 ≤ a.tdiv b * b ∧ a.tdiv b * b ≤ max a 0 := by
  have parts := Int.tdiv_mul_add_tmod a b
  rcases Int.le_total 0 a with up | down
  · have rest := Int.tmod_nonneg b up
    have quotient := Int.mul_nonneg (Int.tdiv_nonneg up (Int.le_of_lt pos)) (Int.le_of_lt pos)
    omega
  · have rest : a.tmod b ≤ 0 := by
      have := Int.tmod_nonneg b (Int.neg_nonneg_of_nonpos down)
      rw [Int.neg_tmod] at this
      omega
    have quotient : a.tdiv b * b ≤ 0 := by
      have := Int.mul_nonneg (Int.tdiv_nonneg (Int.neg_nonneg_of_nonpos down) (Int.le_of_lt pos))
        (Int.le_of_lt pos)
      rw [Int.neg_tdiv, Int.neg_mul] at this
      omega
    omega

/-! ## How far the jump goes -/

/-- The jump leads past what has elapsed, by an interval at most. -/
theorem jump_between (steps : Steps interval) {j : Int}
    (jump : j = ((current.nanosSince time).tdiv nanosPerMilli).tdiv interval.millis + 1) :
    current.nanosSince time < j * interval.nanos ∧
      min (current.nanosSince time) 0 + interval.nanos ≤ j * interval.nanos ∧
      j * interval.nanos ≤ max (current.nanosSince time) 0 + interval.nanos := by
  have pos : (0 : Int) < interval.millis := Int.natCast_pos.mpr steps.pos
  have past := lt_jump (current.nanosSince time) interval.millis pos
  rw [← jump] at past
  generalize current.nanosSince time = elapsed at jump past ⊢
  -- rounded to whole milliseconds first, and then to whole intervals
  have millis := tdiv_mul_between elapsed (b := nanosPerMilli) (by decide)
  have intervals := tdiv_mul_between (elapsed.tdiv nanosPerMilli) pos
  have parts : j * interval.millis =
      (elapsed.tdiv nanosPerMilli).tdiv interval.millis * interval.millis + interval.millis := by
    rw [jump, Int.add_mul, Int.one_mul]
  have nanos : j * interval.nanos = j * interval.millis * nanosPerMilli := by
    rw [steps.nanos_eq, Int.natCast_mul, Int.mul_assoc]
  rw [nanos, steps.nanos_eq]
  simp only [nanosPerMilli] at *
  omega

theorem stepPast_of_lt {landed : Instant} (past : current < landed) (steps : Nat) :
    stepPast current interval steps landed = some landed := by
  cases steps with
  | zero => rfl
  | succ steps => exact if_neg (not_le_of_gt past)

/-- An interval that leads to an instant in range can be taken as a step. -/
theorem steps_of_add? {first : Instant} (outside : ¬time.IsLeap) (outside' : ¬current.IsLeap)
    (whole : interval.IsWhole) (pos : 0 < interval.millis) (found : time.add? interval = some first)
    (le : first ≤ current) :
    Steps interval ∧ time.nanos + interval.nanos ≤ current.nanos := by
  rw [Instant.add?_eq outside, Instant.ofNanos?_eq_some] at found
  have range := time.nanos_bounds.1
  have range' := first.nanos_lt found.1
  have before := (Instant.lt_iff_nanos_lt outside' found.1).not.mp (not_lt_of_ge le)
  refine ⟨⟨whole, pos, ?_⟩, by omega⟩
  simp only [Instant.maxStepNanos, minSecond, maxSecond, nanosPerSecond, nanosPerMilli] at *
  omega

/-! ## The least number of intervals -/

/-- The numbers of intervals, of one at least, that lead from `time` past `current`. -/
def intervalsPast (time current : Instant) (interval : Duration) : Set Nat :=
  {k | 1 ≤ k ∧ current.nanos < time.nanos + k * interval.nanos}

theorem exists_isLeast_intervalsPast (long : 0 < interval.nanos) (time current : Instant) :
    ∃ k, IsLeast (intervalsPast time current interval) k := by
  have some : ∃ k, k ∈ intervalsPast time current interval := by
    refine ⟨(current.nanos - time.nanos).toNat + 1, Nat.le_add_left .., ?_⟩
    have more := Int.ofNat_le.mpr
      (Nat.le_mul_of_pos_right ((current.nanos - time.nanos).toNat + 1) long)
    rw [Int.natCast_mul] at more
    have covers := Int.self_le_toNat (current.nanos - time.nanos)
    refine lt_of_lt_of_le ?_ (Int.add_le_add_left more _)
    omega
  classical
  exact ⟨Nat.find some, Nat.find_spec some, fun _ enough => Nat.find_min' some enough⟩

section

variable {k : Nat} (outside : ¬time.IsLeap) (outside' : ¬current.IsLeap)
  (least : IsLeast (intervalsPast time current interval) k)
include outside outside' least

omit outside outside' in
/-- One interval less does not lead past. -/
theorem le_of_isLeast (passed : time.nanos + interval.nanos ≤ current.nanos) :
    time.nanos + k * interval.nanos ≤ current.nanos + interval.nanos := by
  by_contra beyond
  have fewer : ((k - 1 : Nat) : Int) * interval.nanos = k * interval.nanos - interval.nanos := by
    rw [Int.natCast_sub least.1.1, Int.sub_mul, Nat.cast_one, Int.one_mul]
  rcases Nat.eq_or_lt_of_le least.1.1 with one | more
  · rw [← one, Nat.cast_one, Int.one_mul] at beyond
    omega
  · have enough : k - 1 ∈ intervalsPast time current interval := ⟨by omega, by omega⟩
    have := least.2 enough
    omega

/-- When the occurrence after an interval has passed, the jump takes the least number of intervals
that leads past the start of the slice. -/
theorem jumpMillis_eq (steps : Steps interval)
    (passed : time.nanos + interval.nanos ≤ current.nanos) :
    jumpMillis time current interval = k * interval.millis := by
  obtain ⟨j, jump, is⟩ := exists_jump steps time current
  have long := (le_stepNanos steps.whole steps.pos).1
  obtain ⟨past, -, near⟩ := jump_between steps is
  rw [Instant.nanosSince_eq outside' outside] at past near
  rw [jump]
  congr 1
  have up : 0 < j := by
    by_contra down
    have := Int.mul_nonpos_of_nonpos_of_nonneg (Int.not_lt.mp down)
      (Int.natCast_nonneg interval.nanos)
    omega
  obtain ⟨m, rfl⟩ := Int.eq_ofNat_of_zero_le (Int.le_of_lt up)
  congr 1
  refine le_antisymm ?_ (least.2 ⟨Int.ofNat_lt.mp up, by omega⟩)
  -- an interval less than the jump does not lead past
  by_contra more
  have fewer : (k : Int) * interval.nanos ≤ (m - 1) * interval.nanos :=
    Int.mul_le_mul_of_nonneg_right (by omega) (Int.natCast_nonneg _)
  rw [Int.sub_mul, Int.one_mul] at fewer
  have enough := least.1.2
  omega

/-- The next occurrence is found the least number of intervals later that leads past the start of the
slice, if that is in range. -/
theorem nextTime?_eq_of_isLeast (whole : interval.IsWhole) (pos : 0 < interval.millis) :
    nextTime? time current interval = Instant.ofNanos? (time.nanos + k * interval.nanos) := by
  rw [nextTime?_eq, Instant.add?_eq outside]
  by_cases passed : time.nanos + interval.nanos ≤ current.nanos
  · have range := time.nanos_bounds.1
    have range' := current.nanos_lt outside'
    obtain ⟨first, found⟩ := Instant.exists_ofNanos? (n := time.nanos + interval.nanos)
      (by omega) (by omega)
    obtain ⟨outsideFirst, at'⟩ := Instant.ofNanos?_eq_some.mp found
    have le : first ≤ current :=
      le_of_not_gt fun less => by
        have := (Instant.lt_iff_nanos_lt outside' outsideFirst).mp less
        omega
    have steps : Steps interval := ⟨whole, pos, by
      simp only [Instant.maxStepNanos, minSecond, maxSecond, nanosPerSecond, nanosPerMilli] at *
      omega⟩
    have jump := jumpMillis_eq outside outside' least steps passed
    have nanos : (k * interval.millis * nanosPerMilli : Int) = k * interval.nanos := by
      rw [steps.nanos_eq, Int.natCast_mul, Int.mul_assoc]
    have near := le_of_isLeast least passed
    rw [found, Option.bind_some, if_pos le, jump, if_neg ?_, nanos, Instant.addNanos?_eq outside]
    · refine (Option.bind_congr fun landed found => stepPast_of_lt ?_ _).trans
        (Option.bind_fun_some _)
      obtain ⟨outsideLanded, at'⟩ := Instant.ofNanos?_eq_some.mp found
      rw [Instant.lt_iff_nanos_lt outside' outsideLanded, at']
      exact least.1.2
    · simp only [Text.maxInt64, minSecond, maxSecond, nanosPerSecond, nanosPerMilli] at *
      omega
  · -- an interval is enough
    have one : k = 1 := le_antisymm (least.2 ⟨le_rfl, by omega⟩) least.1.1
    rw [one, Nat.cast_one, Int.one_mul]
    refine (Option.bind_congr fun first found => if_neg ?_).trans (Option.bind_fun_some _)
    obtain ⟨outsideFirst, at'⟩ := Instant.ofNanos?_eq_some.mp found
    refine not_le_of_gt ((Instant.lt_iff_nanos_lt outside' outsideFirst).mpr ?_)
    omega

/-- After the jump there is nothing left to step over. -/
theorem stepPast_landed (steps : Steps interval)
    (passed : time.nanos + interval.nanos ≤ current.nanos) {landed : Instant}
    (found : time.addNanos? (jumpMillis time current interval * nanosPerMilli) = some landed)
    (n : Nat) : stepPast current interval n landed = some landed := by
  obtain ⟨outsideLanded, at'⟩ := (Instant.addNanos?_eq_some outside).mp found
  refine stepPast_of_lt ((Instant.lt_iff_nanos_lt outside' outsideLanded).mpr ?_) n
  rw [at', jumpMillis_eq outside outside' least steps passed, Int.mul_assoc,
    ← Int.natCast_mul, ← steps.nanos_eq]
  exact least.1.2

end

/-- An occurrence follows unless the limit is reached, the interval is too short or time runs out. -/
theorem next?_eq_some_iff {next : Trigger} :
    (repeating time interval limit count).next? now w = some next ↔
      (∀ l ∈ limit, count.succ.val < l.val) ∧ nanosPerMilli ≤ Instant.stepNanos interval ∧
        ∃ later, nextTime? time (Slice.containing now w).start interval = some later ∧
          next = repeating later interval limit count.succ := by
  have reached : ((limit.map fun l => decide (l.val ≤ count.succ.val)).getD false) = true ↔
      ¬∀ l ∈ limit, count.succ.val < l.val := by
    cases limit with
    | none => simp
    | some l => simp
  by_cases more : ∀ l ∈ limit, count.succ.val < l.val
  · by_cases long : nanosPerMilli ≤ Instant.stepNanos interval
    · rw [next?, if_neg fun spent => reached.mp spent more, if_neg (Nat.not_lt.mpr long),
        Option.map_eq_some_iff]
      simp only [eq_true more, eq_true long, true_and, eq_comm]
    · rw [next?, if_neg fun spent => reached.mp spent more, if_pos (Nat.lt_of_not_le long)]
      exact iff_of_false (Option.some_ne_none _).symm fun found => long found.2.1
  · rw [next?, if_pos (reached.mpr more)]
    exact iff_of_false (Option.some_ne_none _).symm fun found => more found.1

/-- The next occurrence lies the least number of intervals after the time of the series, of one at
least, that leads past the start of the current slice. It follows if the limit is not reached and the
occurrence is in range, with the count increased, and nothing follows otherwise. -/
theorem next?_isLeast (outside : ¬time.IsLeap) (outsideClock : ¬now.IsLeap)
    (whole : interval.IsWhole) (pos : 0 < interval.millis) (limit : Option Count) (count : Count)
    (w : Duration) :
    ∃ k : Nat,
      IsLeast {k : Nat | 1 ≤ k ∧
        (Slice.containing now w).start.nanos < time.nanos + k * interval.nanos} k ∧
      (∀ next, (repeating time interval limit count).next? now w = some next ↔
        (∀ l ∈ limit, count.succ.val < l.val) ∧
          ∃ later : Instant, ¬later.IsLeap ∧ later.nanos = time.nanos + k * interval.nanos ∧
            next = repeating later interval limit count.succ) ∧
      ∀ first, time.add? interval = some first → first ≤ (Slice.containing now w).start →
        jumpMillis time (Slice.containing now w).start interval = k * interval.millis ∧
        ∀ landed, time.addNanos? (k * interval.nanos) = some landed →
          ∀ n, stepPast (Slice.containing now w).start interval n landed = some landed := by
  have outside' := Slice.outside_containing outsideClock w
  obtain ⟨positive, long⟩ := le_stepNanos whole pos
  obtain ⟨k, least⟩ :=
    exists_isLeast_intervalsPast positive time (Slice.containing now w).start
  refine ⟨k, least, fun next => ?_, fun first found le => ?_⟩
  · rw [next?_eq_some_iff, nextTime?_eq_of_isLeast outside outside' least whole pos]
    simp only [Instant.ofNanos?_eq_some, eq_true long, true_and, and_assoc]
  · obtain ⟨steps, passed⟩ := steps_of_add? outside outside' whole pos found le
    have jump := jumpMillis_eq outside outside' least steps passed
    refine ⟨jump, fun landed landing => stepPast_landed outside outside' least steps passed ?_⟩
    rwa [jump, Int.mul_assoc, ← Int.natCast_mul, ← steps.nanos_eq]

/-- The next four occurrences of a series of every minute have passed, and its time has a fraction
of a millisecond. -/
theorem next?_isLeast_missed :
    let first : Instant := ⟨1704067200, 1, by decide, by decide, by decide, by decide⟩
    let fifth : Instant := ⟨1704067500, 1, by decide, by decide, by decide, by decide⟩
    let late : Instant := ⟨1704067530, 0, by decide, by decide, by decide, by decide⟩
    (repeating first (.ofSeconds 60) none .zero).next? late (.ofSeconds 60) =
      some (repeating fifth (.ofSeconds 60) none Count.zero.succ) := by
  intro first fifth late
  obtain ⟨k, least, found, -⟩ := next?_isLeast (show ¬first.IsLeap by decide)
    (show ¬late.IsLeap by decide) (show (Duration.ofSeconds 60).IsWhole by decide) (by decide) none
    .zero (.ofSeconds 60)
  have slice : (Slice.containing late (.ofSeconds 60)).start.nanos = 1704067500000000000 := by
    decide
  have five : k = 5 := by
    rw [slice] at least
    have length : (Duration.ofSeconds 60).nanos = 60000000000 := by decide
    have at' : first.nanos = 1704067200000000001 := by decide
    rw [length, at'] at least
    refine le_antisymm (least.2 ⟨by decide, by decide⟩) ?_
    have := least.1.2
    omega
  exact (found _).mpr ⟨by decide, fifth, by decide, by rw [five]; decide, rfl⟩

end Trigger

end SliceScheduler
