import SliceScheduler.Proofs.NextOccurrence
/-!
# A repeat limit bounds the series exactly

A series with a limit comes to its end after as many occurrences as the limit leaves, whatever the
clock reads in between, and one without a limit never does.

1. `Instant.Forward` are the steps that lead forward, from leap seconds as well:
   `Instant.addNanos?_eq_some_iff` says where they lead to, `Instant.isSome_addNanos?` when that is in
   range, and `Instant.addNanos?_add` that two steps are one;
2. `Trigger.isSome_stepPast` says that steps come to their end when some number of them leads past
   the limit, and `Trigger.isSome_nextTime?` concludes that an occurrence follows when some number of
   intervals leads past the start of the slice;
3. `Trigger.after?` are the triggers that follow each other, each seen from its own reading of the
   clock, and `Trigger.after?_eq_some` says what they share;
4. `Trigger.repeats_exactly` is the result.

A jump from a leap second may start behind it, and one to a leap second may go a second too far.
-/
namespace SliceScheduler

namespace Instant

variable {t u v current : Instant} {a b n : Int}

/-! ## Steps forward -/

/-- The step does not lead back, nor out of a leap second into the second before it. -/
def Forward (t : Instant) (n : Int) : Prop :=
  (t.IsLeap → nanosPerSecond ≤ t.nano + n) ∧ (¬t.IsLeap → 0 ≤ n)

theorem forward_of_nonneg (nonneg : 0 ≤ n) : t.Forward n := by
  refine ⟨fun leap => ?_, fun _ => nonneg⟩
  simp only [IsLeap] at leap
  omega

/-- A step forward counts on from the footing, and stays in a leap second that it does not get out
of. -/
theorem addNanos?_eq_some_iff (forward : t.Forward n) : t.addNanos? n = some u ↔
    u.footing = t.footing + n ∧ (u.IsLeap ↔ t.IsLeap ∧ t.nano + n < 2 * nanosPerSecond) := by
  have nano := t.nano_lt
  have nano' := u.nano_lt
  obtain ⟨onward, onward'⟩ := forward
  unfold addNanos?
  split_ifs with leap out back
  · rw [ofOffset?_eq_some_iff]
    simp only [footing, nanos, IsLeap, nanosPerSecond] at *
    split_ifs <;> omega
  · have := onward leap
    simp only [nanosPerSecond] at *
    omega
  · rw [ofParts?_eq_some_iff]
    simp only [footing, nanos, IsLeap, nanosPerSecond] at *
    split_ifs <;> omega
  · rw [ofOffset?_eq_some_iff]
    simp only [footing, nanos, IsLeap, nanosPerSecond] at *
    split_ifs <;> omega

theorem footing_bounds (t : Instant) :
    minSecond * nanosPerSecond ≤ t.footing ∧ t.footing < (maxSecond + 1) * nanosPerSecond := by
  have first := t.second_ge
  have last := t.second_le
  have nano := t.nano_lt
  simp only [footing, nanos, minSecond, maxSecond, nanosPerSecond] at *
  split_ifs <;> omega

/-- A step forward leads to an instant in range if the footing stays below the end. -/
theorem isSome_addNanos? (forward : t.Forward n) :
    (t.addNanos? n).isSome ↔ t.footing + n < (maxSecond + 1) * nanosPerSecond := by
  constructor
  · intro inRange
    obtain ⟨u, found⟩ := Option.isSome_iff_exists.mp inRange
    rw [← ((addNanos?_eq_some_iff forward).mp found).1]
    exact u.footing_bounds.2
  · intro below
    have range := t.footing_bounds.1
    obtain ⟨onward, onward'⟩ := forward
    have leapEnds := t.leap_ends_minute
    have first := t.second_ge
    have last := t.second_le
    have nano := t.nano_lt
    unfold addNanos? ofOffset? ofParts?
    simp only [footing, nanos, IsLeap, minSecond, maxSecond, nanosPerSecond] at *
    split_ifs at * <;> first | rfl | omega

/-- A step forward and another one are one step. -/
theorem addNanos?_add (forward : t.Forward a) (found : t.addNanos? a = some v) (onward : 0 ≤ b) :
    v.addNanos? b = t.addNanos? (a + b) := by
  have both : t.Forward (a + b) := by
    refine ⟨fun leap => ?_, fun outside => Int.add_nonneg (forward.2 outside) onward⟩
    have := forward.1 leap
    omega
  refine Option.ext fun u => ?_
  rw [addNanos?_eq_some_iff (forward_of_nonneg onward), addNanos?_eq_some_iff both]
  obtain ⟨sum, stays⟩ := (addNanos?_eq_some_iff forward).mp found
  rw [sum, Int.add_assoc]
  refine and_congr_right fun _ => iff_congr Iff.rfl ?_
  -- the second step stays in the leap second if the two together do
  have stay := forward.1
  have nano := t.nano_lt
  have nano' := v.nano_lt
  simp only [footing, nanos, IsLeap, nanosPerSecond] at *
  split_ifs at * <;> omega

theorem lt_of_addNanos? (pos : 0 < n) (found : t.addNanos? n = some u) : t < u := by
  obtain ⟨sum, stays⟩ := (addNanos?_eq_some_iff (forward_of_nonneg (Int.le_of_lt pos))).mp found
  have nano := t.nano_lt
  have nano' := u.nano_lt
  rw [lt_iff]
  simp only [footing, nanos, IsLeap, nanosPerSecond] at *
  split_ifs at * <;> omega

/-- Some number of steps leads past the limit, and is in range. -/
def Passes (t current : Instant) (step : Nat) : Prop :=
  ∃ (k : Nat) (u : Instant), t.addNanos? (k * step) = some u ∧ current < u

theorem addNanos?_zero (t : Instant) : t.addNanos? 0 = some t := by
  rw [addNanos?_eq_some_iff (forward_of_nonneg (Int.le_refl 0))]
  have nano := t.nano_lt
  simp only [footing, nanos, IsLeap, nanosPerSecond] at *
  split_ifs <;> omega

end Instant

namespace Trigger

variable {time current now landed : Instant} {interval w : Duration} {limit : Option Count}
  {count : Count} {t u : Trigger}

open Instant

/-! ## The next occurrence, leap seconds included -/

/-- A step leads to an instant in range if more of them do. -/
theorem exists_add? {k : Nat} (short : interval.nanos ≤ maxStepNanos)
    (found : (time.addNanos? ((k + 1 : Nat) * interval.nanos)).isSome) :
    ∃ first, time.add? interval = some first ∧
      first.addNanos? (k * interval.nanos) = time.addNanos? ((k + 1 : Nat) * interval.nanos) := by
  have parts : ((k + 1 : Nat) * interval.nanos : Int) = interval.nanos + k * interval.nanos := by
    push_cast
    ring
  have more : (0 : Int) ≤ k * interval.nanos :=
    Int.mul_nonneg (Int.natCast_nonneg _) (Int.natCast_nonneg _)
  have forward : time.Forward interval.nanos := forward_of_nonneg (Int.natCast_nonneg _)
  have forward' : time.Forward (interval.nanos + k * interval.nanos) :=
    forward_of_nonneg (Int.add_nonneg (Int.natCast_nonneg _) more)
  rw [parts] at found ⊢
  have below := (isSome_addNanos? forward').mp found
  obtain ⟨first, found⟩ := Option.isSome_iff_exists.mp ((isSome_addNanos? forward).mpr (by omega))
  rw [add?, stepNanos, Nat.min_eq_left short]
  exact ⟨first, found, addNanos?_add forward found more⟩

/-- Steps come to their end when some number of them leads past the limit. -/
theorem isSome_stepPast {steps : Nat} (short : interval.nanos ≤ maxStepNanos)
    (passes : landed.Passes current interval.nanos) :
    (stepPast current interval steps landed).isSome := by
  induction steps generalizing landed with
  | zero => rfl
  | succ steps ih =>
    rw [stepPast]
    split_ifs with le
    · obtain ⟨k, last, found, past⟩ := passes
      cases k with
      | zero =>
        rw [Nat.cast_zero, Int.zero_mul, addNanos?_zero] at found
        cases found
        exact absurd le (not_le_of_gt past)
      | succ k =>
        obtain ⟨next, step, rest⟩ := exists_add? short (Option.isSome_of_eq_some found)
        rw [step]
        exact ih ⟨k, last, rest.trans found, past⟩
    · rfl

/-- The time that has elapsed leads forward, and a second too far at most. -/
theorem nanosSince_between (less : time < current) :
    time.Forward (current.nanosSince time) ∧
      time.footing + current.nanosSince time ≤ current.nanos := by
  have nano := time.nano_lt
  have nano' := current.nano_lt
  rw [lt_iff] at less
  simp only [Forward, nanosSince, secondOfDay, footing, nanos, IsLeap, nanosPerSecond] at *
  split_ifs <;> omega

/-- What has elapsed until the start of a slice is less than what leads past it, unless the slice
starts in a leap second before 1970. -/
theorem nanosSince_lt {later : Instant} {n : Int} (pos : 0 < n)
    (found : time.addNanos? n = some later) (past : current < later)
    (start : ¬current.IsLeap ∨ current.second = maxSecond) : current.nanosSince time < n := by
  obtain ⟨sum, stays⟩ := (addNanos?_eq_some_iff (forward_of_nonneg (Int.le_of_lt pos))).mp found
  have last := later.second_le
  have nano := time.nano_lt
  have nano' := current.nano_lt
  have nano'' := later.nano_lt
  rw [lt_iff] at past
  simp only [nanosSince, secondOfDay, footing, nanos, IsLeap, nanosPerSecond, maxSecond] at *
  split_ifs at * <;> omega

/-- Where the start of a slice lies: it is no leap second between 1970 and the end of the range. -/
theorem start_containing (now : Instant) (w : Duration) :
    (¬(Slice.containing now w).start.IsLeap ∨ (Slice.containing now w).start.second = maxSecond) ∨
      (Slice.containing now w).start.second < 0 := by
  by_cases reached : Slice.IsReached w now
  · exact .inl (.inl (Nat.not_le.mpr (Slice.isWhole_containing reached).outside))
  · rw [Slice.containing_of_not_reached reached]
    rcases Slice.not_reached_bounds reached with ⟨-, low⟩ | ⟨-, second, -⟩
    · refine .inr (Int.not_le.mp fun since : 0 ≤ now.second => ?_)
      have millis : 0 ≤ now.millis := by
        simp only [millis, nanosPerMilli]
        omega
      have floor : 0 ≤ Slice.floorMillis now.millis w :=
        Int.mul_nonneg (Int.ediv_nonneg millis (Int.le_of_lt w.sliceMillis_pos))
          (Int.le_of_lt w.sliceMillis_pos)
      simp only [minSecond] at low
      omega
    · exact .inl (.inr second)

/-- The jump over the occurrences that were missed lands where some number of steps leads past the
start of the slice. -/
theorem passes_jump {j : Int} {k : Nat} {later : Instant} (steps : Steps interval)
    (is : j = ((current.nanosSince time).tdiv nanosPerMilli).tdiv interval.millis + 1)
    (less : time < current) (many : 1 < k)
    (found : time.addNanos? (k * interval.nanos) = some later) (past : current < later)
    (start : (¬current.IsLeap ∨ current.second = maxSecond) ∨ current.second < 0) :
    ∃ landed, time.addNanos? (j * interval.nanos) = some landed ∧
      landed.Passes current interval.nanos := by
  obtain ⟨beyond, after, near⟩ := jump_between steps is
  obtain ⟨forward, upTo⟩ := nanosSince_between less
  have long : 0 < interval.nanos := (le_stepNanos steps.whole steps.pos).1
  have onward : time.Forward (j * interval.nanos) := by
    refine ⟨fun leap => ?_, fun outside => ?_⟩
    · have := forward.1 leap
      omega
    · have := forward.2 outside
      omega
  have positive : (0 : Int) < k * interval.nanos :=
    Int.mul_pos (by omega) (Int.natCast_pos.mpr long)
  have inRange := (isSome_addNanos? (forward_of_nonneg (Int.le_of_lt positive))).mp
    (Option.isSome_of_eq_some found)
  by_cases reach : current.nanosSince time < k * interval.nanos
  · -- the jump takes as many intervals at most
    have fewer : j ≤ k := by
      by_contra more
      have := Int.mul_le_mul_of_nonneg_right (show (k : Int) + 1 ≤ j by omega)
        (Int.natCast_nonneg interval.nanos)
      rw [Int.add_mul, Int.one_mul] at this
      omega
    have le := Int.mul_le_mul_of_nonneg_right fewer (Int.natCast_nonneg interval.nanos)
    obtain ⟨landed, landing⟩ :=
      Option.isSome_iff_exists.mp ((isSome_addNanos? onward).mpr (by omega))
    refine ⟨landed, landing, (k - j).toNat, later, ?_, past⟩
    have rest : ((k - j).toNat * interval.nanos : Int) =
        k * interval.nanos - j * interval.nanos := by
      rw [Int.toNat_of_nonneg (Int.sub_nonneg.mpr fewer), Int.sub_mul]
    rw [rest, addNanos?_add onward landing (Int.sub_nonneg.mpr le),
      add_sub_cancel, found]
  · -- the jump takes more of them, and is in range still
    have early : current.second < 0 :=
      start.resolve_left fun start => reach (nanosSince_lt positive found past start)
    have twice := Int.mul_le_mul_of_nonneg_right (show (2 : Int) ≤ k by omega)
      (Int.natCast_nonneg interval.nanos)
    have first := time.footing_bounds.1
    have nano := current.nano_lt
    obtain ⟨landed, landing⟩ : ∃ landed, time.addNanos? (j * interval.nanos) = some landed := by
      refine Option.isSome_iff_exists.mp ((isSome_addNanos? onward).mpr ?_)
      simp only [nanos, minSecond, maxSecond, nanosPerSecond] at *
      omega
    refine ⟨landed, landing, 0, landed, ?_, lt_trans past ?_⟩
    · rw [Nat.cast_zero, Int.zero_mul, addNanos?_zero]
    · refine lt_of_addNanos? (n := j * interval.nanos - k * interval.nanos) (by omega) ?_
      rw [addNanos?_add (forward_of_nonneg (Int.le_of_lt positive)) found (by omega),
        add_sub_cancel, landing]

/-- An occurrence follows when some number of intervals leads past the start of the slice. -/
theorem isSome_nextTime? {k : Nat} {later : Instant} (whole : interval.IsWhole)
    (pos : 0 < interval.millis) (more : 0 < k)
    (found : time.addNanos? (k * interval.nanos) = some later)
    (past : (Slice.containing now w).start < later) :
    (nextTime? time (Slice.containing now w).start interval).isSome := by
  have start := start_containing now w
  generalize (Slice.containing now w).start = current at past start
  have long := (le_stepNanos whole pos).1
  have inRange := (isSome_addNanos? (forward_of_nonneg
    (Int.mul_nonneg (Int.natCast_nonneg k) (Int.natCast_nonneg interval.nanos)))).mp
    (Option.isSome_of_eq_some found)
  have once := Int.mul_le_mul_of_nonneg_right (show (1 : Int) ≤ k by omega)
    (Int.natCast_nonneg interval.nanos)
  have range := time.footing_bounds.1
  have short : interval.nanos ≤ maxStepNanos := by
    simp only [maxStepNanos, minSecond, maxSecond, nanosPerSecond, nanosPerMilli] at *
    omega
  have steps : Steps interval := ⟨whole, pos, short⟩
  obtain ⟨m, rfl⟩ := Nat.exists_eq_succ_of_ne_zero (Nat.ne_of_gt more)
  obtain ⟨first, added, rest⟩ := exists_add? short (Option.isSome_of_eq_some found)
  rw [nextTime?_eq, added, Option.bind_some]
  split_ifs with le full
  all_goals try rfl
  all_goals
    have less : time < current := by
      rw [add?, steps.stepNanos_eq] at added
      exact lt_of_lt_of_le (lt_of_addNanos? (by omega) added) le
    obtain ⟨j, jump, is⟩ := exists_jump steps time current
    have nanos : j * interval.millis * nanosPerMilli = j * interval.nanos := by
      rw [steps.nanos_eq, Int.natCast_mul, Int.mul_assoc]
  · -- the range is too short for a jump that does not fit 64 bits
    have near := (jump_between steps is).2.2
    have upTo := (nanosSince_between less).2
    have last := current.nanos_bounds.2
    rw [jump] at full
    simp only [Text.maxInt64, minSecond, maxSecond, nanosPerSecond, nanosPerMilli] at *
    omega
  · have many : 1 < m + 1 := by
      by_contra one
      obtain rfl : m = 0 := by omega
      rw [found, Nat.cast_zero, Int.zero_mul, addNanos?_zero] at rest
      cases rest
      exact absurd le (not_le_of_gt past)
    obtain ⟨landed, landing, passes⟩ := passes_jump steps is less many found past start
    rw [jump, nanos, landing, Option.bind_some]
    exact isSome_stepPast short passes

/-- Some number of intervals after the time of the series is in range, and after `current`. -/
def HasRoom (current : Instant) : Trigger → Prop
  | single _ => False
  | repeating time interval _ _ => ∃ k : Nat, 0 < k ∧
      ∃ later, time.addNanos? (k * interval.nanos) = some later ∧ current < later

theorem isSome_next? (whole : interval.IsWhole) (pos : 0 < interval.millis)
    (more : ∀ l ∈ limit, count.succ.val < l.val)
    (room : (repeating time interval limit count).HasRoom (Slice.containing now w).start) :
    ((repeating time interval limit count).next? now w).isSome := by
  obtain ⟨k, some, later, found, past⟩ := room
  obtain ⟨next, follows⟩ :=
    Option.isSome_iff_exists.mp (isSome_nextTime? whole pos some found past)
  exact Option.isSome_iff_exists.mpr
    ⟨_, next?_eq_some_iff.mpr ⟨more, (le_stepNanos whole pos).2, next, follows, rfl⟩⟩

/-- An occurrence is after the one before it. -/
theorem time_lt_of_next? (found : t.next? now w = some u) : t.time < u.time := by
  cases t with
  | single time => cases found
  | repeating time interval limit count =>
    obtain ⟨long, next, follows, rfl⟩ := next?_eq_some found
    have past := lt_of_nextTime? long follows
    obtain ⟨first, added, follows⟩ := Option.bind_eq_some_iff.mp follows
    have less : time < first := lt_of_addNanos? (by simp only [nanosPerMilli] at long; omega) added
    split_ifs at follows with le
    · exact lt_of_lt_of_le less (le_of_lt (lt_of_le_of_lt le past))
    · cases follows
      exact less

/-! ## The triggers that follow each other -/

/-- The trigger after a number of occurrences, the next of which is asked for whenever the clock is
read. -/
def after? (t : Trigger) (clock : Nat → Instant) (w : Duration) : Nat → Option Trigger
  | 0 => some t
  | n + 1 => (t.after? clock w n).bind (·.next? (clock n) w)

variable {clock : Nat → Instant} {m n : Nat}

/-- A series keeps its interval and its limit, and counts its occurrences: below the limit, and up to
the greatest count. -/
theorem after?_eq_some (found : (repeating time interval limit count).after? clock w n = some t) :
    ∃ later reached, t = repeating later interval limit reached ∧
      reached.val = min (count.val + n) Count.full.val ∧
      ∀ l ∈ limit, n ≠ 0 → count.val + n < l.val := by
  induction n generalizing t with
  | zero =>
    obtain rfl := Option.some.inj found
    exact ⟨time, count, rfl, (Nat.min_eq_left count.val_le).symm, fun _ _ same => absurd rfl same⟩
  | succ n ih =>
    obtain ⟨before, found, next⟩ := Option.bind_eq_some_iff.mp found
    obtain ⟨earlier, reached, rfl, counted, -⟩ := ih found
    obtain ⟨below, -, later, -, rfl⟩ := next?_eq_some_iff.mp next
    have full : Count.full.val = 4294967295 := rfl
    rw [full] at counted ⊢
    refine ⟨later, reached.succ, rfl, ?_, fun l there _ => ?_⟩
    · rw [Count.val_succ, counted]
      omega
    · have less := below l there
      have := l.val_le
      rw [Count.val_succ, counted] at less
      omega

theorem time_lt_of_after? (found : t.after? clock w m = some u) (less : m < n) {v : Trigger}
    (found' : t.after? clock w n = some v) : u.time < v.time := by
  induction n generalizing v with
  | zero => exact absurd less (Nat.not_lt_zero m)
  | succ n ih =>
    obtain ⟨before, reached, next⟩ := Option.bind_eq_some_iff.mp found'
    rcases Nat.lt_succ_iff_lt_or_eq.mp less with less | rfl
    · exact lt_trans (ih less reached) (time_lt_of_next? next)
    · rw [found] at reached
      cases reached
      exact time_lt_of_next? next

/-- Of a series whose next occurrences are in range whenever there is one left, as many follow as the
limit leaves, and without a limit there is always another one. Each is at a later time, with the count
increased, and with the same interval and limit. -/
theorem repeats_exactly (whole : interval.IsWhole) (pos : 0 < interval.millis)
    (room : ∀ n t, (repeating time interval limit count).after? clock w n = some t →
      (∀ l ∈ limit, n < l.val - count.val - 1) →
      t.HasRoom (Slice.containing (clock n) w).start) :
    (∀ n, ((repeating time interval limit count).after? clock w n).isSome ↔
      ∀ l ∈ limit, n ≤ l.val - count.val - 1) ∧
    (∀ n t, (repeating time interval limit count).after? clock w n = some t →
      ∃ later reached, t = repeating later interval limit reached ∧
        reached.val = min (count.val + n) Count.full.val ∧
        (limit.isSome → reached.val = count.val + n)) ∧
    ∀ m n t u, m < n → (repeating time interval limit count).after? clock w m = some t →
      (repeating time interval limit count).after? clock w n = some u → t.time < u.time := by
  refine ⟨fun n => ⟨fun there l bound => ?_, fun left => ?_⟩, fun n t found => ?_,
    fun m n t u less found found' => time_lt_of_after? found less found'⟩
  · obtain ⟨t, found⟩ := Option.isSome_iff_exists.mp there
    obtain ⟨-, -, -, -, below⟩ := after?_eq_some found
    have := below l bound
    omega
  · induction n with
    | zero => rfl
    | succ n ih =>
      have fewer : ∀ l ∈ limit, n < l.val - count.val - 1 := fun l bound => left l bound
      obtain ⟨t, found⟩ := Option.isSome_iff_exists.mp
        (ih fun l bound => Nat.le_of_lt (fewer l bound))
      obtain ⟨later, reached, rfl, counted, -⟩ := after?_eq_some found
      rw [after?, found, Option.bind_some]
      refine isSome_next? whole pos (fun l bound => ?_) (room n _ found fewer)
      have := fewer l bound
      have full : Count.full.val = 4294967295 := rfl
      rw [Count.val_succ, counted]
      omega
  · obtain ⟨later, reached, same, counted, below⟩ := after?_eq_some found
    refine ⟨later, reached, same, counted, fun bounded => ?_⟩
    obtain ⟨l, there⟩ := Option.isSome_iff_exists.mp bounded
    have := below l there
    have := count.val_le
    have := l.val_le
    have full : Count.full.val = 4294967295 := rfl
    rw [counted]
    omega

/-- A series of three is over after two more occurrences, although the clock goes back in between. -/
theorem repeats_exactly_thrice :
    let noon : Instant := ⟨1704110400, 0, by decide, by decide, by decide, by decide⟩
    let at' (minute : Nat) : Instant := noon.later (.ofSeconds (minute * 60))
    let series := repeating (at' 0) (.ofSeconds 60) (some ⟨3, by decide⟩) .zero
    let clock (n : Nat) : Instant := if n = 0 then at' 5 else at' 2
    (series.after? clock (.ofSeconds 60) 2).isSome ∧
      series.after? clock (.ofSeconds 60) 3 = none := by
  intro noon at' series clock
  have second : series.after? clock (.ofSeconds 60) 1 =
      some (repeating (at' 6) (.ofSeconds 60) (some ⟨3, by decide⟩) Count.zero.succ) := by decide
  have room : ∀ n t, series.after? clock (.ofSeconds 60) n = some t →
      (∀ l ∈ some (⟨3, by decide⟩ : Count), n < l.val - Count.zero.val - 1) →
      t.HasRoom (Slice.containing (clock n) (.ofSeconds 60)).start := by
    intro n t found left
    obtain rfl | rfl : n = 0 ∨ n = 1 := by
      have few := left _ rfl
      simp only [Count.zero] at few
      omega
    · rw [← Option.some.inj found]
      exact ⟨6, by decide, at' 6, by decide, by decide⟩
    · rw [← Option.some.inj (second.symm.trans found)]
      exact ⟨1, by decide, at' 7, by decide, by decide⟩
  obtain ⟨ends, -, -⟩ := repeats_exactly (show (Duration.ofSeconds 60).IsWhole by decide)
    (by decide) room
  refine ⟨(ends 2).mpr fun l there => ?_, Option.not_isSome_iff_eq_none.mp fun more => ?_⟩
  · cases there
    decide
  · exact absurd ((ends 3).mp more _ rfl) (by decide)

end Trigger

end SliceScheduler
