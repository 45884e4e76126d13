import Mathlib.Order.Lattice
import Mathlib.Tactic.Ring
import SliceScheduler.Time.Slice
/-!
# The order of instants and slices

Instants are ordered by second and then by nanosecond, slices by their start. Counting in
milliseconds nearly agrees with this order: only a leap second goes on past the milliseconds of the
second after it.

1. instants and slices are linear orders;
2. `Instant.lt_of_millis_lt` and `Instant.millis_le_of_le` compare an instant outside a leap second
   by its milliseconds;
3. `Slice.IsWhole` says that a slice starts at a whole millisecond outside a leap second, and
   `Slice.le_iff_millis_le` that such slices are ordered by their milliseconds;
4. `Slice.HasNext` says that the slice after a slice is in range: `Slice.millis_next` and
   `Slice.lt_next` hold for those slices;
5. `Slice.containing_mono` says that the current slice keeps up with the clock.
-/
namespace SliceScheduler

namespace Instant

variable {a b : Instant}

theorem lt_iff : a < b ↔ a.second < b.second ∨ a.second = b.second ∧ a.nano < b.nano := by
  show compare a b = .lt ↔ _
  rw [compare_eq, Ordering.then_eq_lt, Std.compare_eq_lt, Std.compare_eq_lt,
    Std.LawfulEqOrd.compare_eq_iff_eq]

theorem le_iff : a ≤ b ↔ a.second < b.second ∨ a.second = b.second ∧ a.nano ≤ b.nano := by
  show compare a b ≠ .gt ↔ _
  rw [compare_eq, ne_eq, Ordering.then_eq_gt, Std.compare_eq_gt, Std.compare_eq_gt,
    Std.LawfulEqOrd.compare_eq_iff_eq]
  omega

theorem eq_of_parts (second : a.second = b.second) (nano : a.nano = b.nano) : a = b := by
  cases a; cases b
  simp only at second nano
  subst second nano
  rfl

instance : LinearOrder Instant where
  le_refl a := by rw [le_iff]; omega
  le_trans a b c := by rw [le_iff, le_iff, le_iff]; omega
  lt_iff_le_not_ge a b := by rw [lt_iff, le_iff, le_iff]; omega
  le_antisymm a b := by
    rw [le_iff, le_iff]
    intro le ge
    exact eq_of_parts (by omega) (by omega)
  le_total a b := by rw [le_iff, le_iff]; omega
  toDecidableLE := fun a b => inferInstance
  toDecidableLT := fun a b => inferInstance
  toDecidableEq := inferInstance
  compare := compare
  compare_eq_compareOfLessAndEq a b := by
    unfold compareOfLessAndEq
    split
    · rename_i less; exact less
    · split
      · rename_i equal; subst equal; exact Std.ReflCmp.compare_self
      · rename_i notLess notEqual
        have notEq : compare a b ≠ .eq := fun h => notEqual (Std.LawfulEqOrd.eq_of_compare h)
        have notLt : compare a b ≠ .lt := notLess
        cases h : compare a b <;> simp_all

/-- An instant outside a leap second comes after every instant of fewer milliseconds. -/
theorem lt_of_millis_lt (fewer : a.millis < b.millis) (outside : b.nano < nanosPerSecond) :
    a < b := by
  rw [lt_iff]
  simp only [millis, nanosPerMilli, nanosPerSecond] at fewer outside
  omega

/-- An instant outside a leap second has at most the milliseconds of the instants after it. -/
theorem millis_le_of_le (le : a ≤ b) (outside : a.nano < nanosPerSecond) :
    a.millis ≤ b.millis := by
  rw [le_iff] at le
  simp only [millis, nanosPerMilli, nanosPerSecond] at *
  omega

/-- The milliseconds of an instant are in range, up to a leap second at the end. -/
theorem millis_bounds (t : Instant) :
    minSecond * 1000 ≤ t.millis ∧ t.millis < (maxSecond + 1) * 1000 + 1000 := by
  have := t.second_ge
  have := t.second_le
  have := t.nano_lt
  simp only [millis, nanosPerMilli, nanosPerSecond] at *
  omega

theorem ofParts?_eq_some {second : Int} {nano : Nat} {t : Instant}
    (found : ofParts? second nano = some t) : t.second = second ∧ t.nano = nano := by
  unfold ofParts? at found
  split at found
  · simp only [Option.some.injEq] at found
    subst found
    exact ⟨rfl, rfl⟩
  · cases found

theorem ofMillis?_isSome {ms : Int} :
    (ofMillis? ms).isSome ↔ minSecond * 1000 ≤ ms ∧ ms < (maxSecond + 1) * 1000 := by
  simp only [ofMillis?, ofParts?, nanosPerMilli, nanosPerSecond, minSecond, maxSecond]
  split
  · simp only [Option.isSome_some, true_iff]
    omega
  · simp only [Option.isSome_none, Bool.false_eq_true, false_iff]
    omega

theorem millis_of_ofMillis? {ms : Int} {t : Instant} (found : ofMillis? ms = some t) :
    t.millis = ms := by
  obtain ⟨second, nano⟩ := ofParts?_eq_some found
  simp only [millis, second, nano, nanosPerMilli]
  omega

theorem nano_lt_of_ofMillis? {ms : Int} {t : Instant} (found : ofMillis? ms = some t) :
    t.nano < nanosPerSecond := by
  obtain ⟨-, nano⟩ := ofParts?_eq_some found
  simp only [nano, nanosPerMilli, nanosPerSecond]
  omega

end Instant

theorem Duration.sliceMillis_pos (w : Duration) : 0 < w.sliceMillis := by
  unfold sliceMillis
  omega

namespace Slice

variable {a b s : Slice} {w : Duration}

theorem eq_of_start (start : a.start = b.start) : a = b := by
  cases a; cases b
  simp only at start
  subst start
  rfl

instance : LinearOrder Slice where
  le_refl a := le_refl a.start
  le_trans _ _ _ := fun h h' => le_trans (α := Instant) h h'
  lt_iff_le_not_ge a b := lt_iff_le_not_ge (a := a.start) (b := b.start)
  le_antisymm a b := fun h h' => eq_of_start (le_antisymm (α := Instant) h h')
  le_total a b := le_total a.start b.start
  toDecidableLE := fun a b => inferInstance
  toDecidableLT := fun a b => inferInstance
  toDecidableEq := inferInstance
  compare := compare
  compare_eq_compareOfLessAndEq a b := by
    show compare a.start b.start = compareOfLessAndEq a b
    rw [LinearOrder.compare_eq_compareOfLessAndEq a.start b.start]
    unfold compareOfLessAndEq
    have equal : a = b ↔ a.start = b.start := ⟨congrArg start, eq_of_start⟩
    simp only [equal]
    rfl

theorem le_iff_start : a ≤ b ↔ a.start ≤ b.start := Iff.rfl

/-- The slice starts at a whole millisecond outside a leap second. -/
def IsWhole (s : Slice) : Prop := ofStartMillis? s.millis = some s

theorem isWhole_of_ofStartMillis? {ms : Int} (found : ofStartMillis? ms = some s) :
    s.IsWhole ∧ s.millis = ms := by
  obtain ⟨t, instant, rfl⟩ := Option.map_eq_some_iff.mp found
  have millis : millis ⟨t⟩ = ms := Instant.millis_of_ofMillis? instant
  refine ⟨?_, millis⟩
  rw [IsWhole, millis]
  exact found

theorem ofStartMillis?_isSome {ms : Int} :
    (ofStartMillis? ms).isSome ↔ minSecond * 1000 ≤ ms ∧ ms < (maxSecond + 1) * 1000 := by
  rw [ofStartMillis?, Option.isSome_map, Instant.ofMillis?_isSome]

theorem IsWhole.outside (whole : s.IsWhole) : s.start.nano < nanosPerSecond := by
  obtain ⟨t, instant, rfl⟩ := Option.map_eq_some_iff.mp whole
  exact Instant.nano_lt_of_ofMillis? instant

theorem IsWhole.eq_of_millis_eq (whole : a.IsWhole) (whole' : b.IsWhole)
    (equal : a.millis = b.millis) : a = b := by
  have found : ofStartMillis? a.millis = some a := whole
  rw [equal, whole'] at found
  exact (Option.some.inj found).symm

theorem lt_of_millis_lt (fewer : a.millis < b.millis) (whole : b.IsWhole) : a < b :=
  Instant.lt_of_millis_lt fewer whole.outside

theorem IsWhole.millis_le_of_le (whole : a.IsWhole) (le : a ≤ b) : a.millis ≤ b.millis :=
  Instant.millis_le_of_le le whole.outside

/-- Slices at whole milliseconds are ordered by them. -/
theorem le_iff_millis_le (whole : a.IsWhole) (whole' : b.IsWhole) :
    a ≤ b ↔ a.millis ≤ b.millis := by
  constructor
  · exact whole.millis_le_of_le
  · intro fewer
    rcases lt_or_eq_of_le fewer with fewer | equal
    · exact le_of_lt (lt_of_millis_lt fewer whole')
    · exact le_of_eq (whole.eq_of_millis_eq whole' equal)

theorem lt_iff_millis_lt (whole : a.IsWhole) (whole' : b.IsWhole) :
    a < b ↔ a.millis < b.millis := by
  rw [lt_iff_not_ge, le_iff_millis_le whole' whole, not_le]

/-! ## The slice after a slice -/

/-- The slice after this one is in range. -/
def HasNext (w : Duration) (s : Slice) : Prop :=
  (ofStartMillis? (s.millis + w.sliceMillis)).isSome

instance (w : Duration) (s : Slice) : Decidable (s.HasNext w) :=
  inferInstanceAs (Decidable (_ = true))

/-- A slice has a next one unless that would be past the latest second. -/
theorem hasNext_iff : s.HasNext w ↔ s.millis + w.sliceMillis < (maxSecond + 1) * 1000 := by
  rw [HasNext, ofStartMillis?_isSome]
  have := s.start.millis_bounds
  have := w.sliceMillis_pos
  simp only [millis] at *
  omega

theorem ofStartMillis?_next (next : s.HasNext w) :
    ofStartMillis? (s.millis + w.sliceMillis) = some (s.next w) := by
  obtain ⟨t, found⟩ := Option.isSome_iff_exists.mp next
  rw [Slice.next, offset, one_mul, found]
  rfl

theorem next_eq_self (none : ¬ s.HasNext w) : s.next w = s := by
  rw [HasNext, Option.not_isSome_iff_eq_none] at none
  rw [Slice.next, offset, one_mul, none]
  rfl

theorem isWhole_next (next : s.HasNext w) : (s.next w).IsWhole :=
  (isWhole_of_ofStartMillis? (ofStartMillis?_next next)).1

theorem millis_next (next : s.HasNext w) : (s.next w).millis = s.millis + w.sliceMillis :=
  (isWhole_of_ofStartMillis? (ofStartMillis?_next next)).2

theorem lt_next (next : s.HasNext w) : s < s.next w := by
  apply lt_of_millis_lt _ (isWhole_next next)
  rw [millis_next next]
  have := w.sliceMillis_pos
  omega

theorem le_next : s ≤ s.next w := by
  by_cases next : s.HasNext w
  · exact le_of_lt (lt_next next)
  · rw [next_eq_self next]

/-- A slice that has a slice after it cannot be the one that has none. -/
theorem hasNext_of_next (next : (s.next w).HasNext w) : s.HasNext w := by
  by_contra none
  rw [next_eq_self none] at next
  exact none next

/-! ## The slice of an instant -/

/-- The start of the slice of an instant is in range. -/
def IsReached (w : Duration) (t : Instant) : Prop :=
  (ofStartMillis? (floorMillis t.millis w)).isSome

instance (w : Duration) (t : Instant) : Decidable (IsReached w t) :=
  inferInstanceAs (Decidable (_ = true))

theorem floorMillis_le (ms : Int) (w : Duration) : floorMillis ms w ≤ ms :=
  Int.ediv_mul_le ms (ne_of_gt w.sliceMillis_pos)

theorem lt_floorMillis_add (ms : Int) (w : Duration) :
    ms < floorMillis ms w + w.sliceMillis :=
  Int.lt_ediv_add_one_mul_self ms w.sliceMillis_pos |>.trans_eq (by rw [floorMillis]; ring)

theorem floorMillis_mono {a b : Int} (le : a ≤ b) (w : Duration) :
    floorMillis a w ≤ floorMillis b w := by
  have pos := w.sliceMillis_pos
  exact Int.mul_le_mul_of_nonneg_right (Int.ediv_le_ediv pos le) (le_of_lt pos)

/-- Two slices of different starts are a width apart. -/
theorem floorMillis_add_le {a b : Int} {w : Duration} (less : floorMillis a w < floorMillis b w) :
    floorMillis a w + w.sliceMillis ≤ floorMillis b w := by
  have quotients := Int.lt_of_mul_lt_mul_right less (le_of_lt w.sliceMillis_pos)
  have grown := Int.mul_le_mul_of_nonneg_right (Int.add_one_le_of_lt quotients)
    (le_of_lt w.sliceMillis_pos)
  rw [add_mul, one_mul] at grown
  exact grown

theorem ofStartMillis?_containing {t : Instant} (reached : IsReached w t) :
    ofStartMillis? (floorMillis t.millis w) = some (containing t w) := by
  obtain ⟨u, found⟩ := Option.isSome_iff_exists.mp reached
  rw [containing, found]
  rfl

theorem containing_of_not_reached {t : Instant} (fails : ¬ IsReached w t) :
    containing t w = ⟨t⟩ := by
  rw [IsReached, Option.not_isSome_iff_eq_none] at fails
  rw [containing, fails]
  rfl

theorem isWhole_containing {t : Instant} (reached : IsReached w t) : (containing t w).IsWhole :=
  (isWhole_of_ofStartMillis? (ofStartMillis?_containing reached)).1

theorem millis_containing {t : Instant} (reached : IsReached w t) :
    (containing t w).millis = floorMillis t.millis w :=
  (isWhole_of_ofStartMillis? (ofStartMillis?_containing reached)).2

theorem isReached_iff {t : Instant} : IsReached w t ↔
    minSecond * 1000 ≤ floorMillis t.millis w ∧
      floorMillis t.millis w < (maxSecond + 1) * 1000 :=
  ofStartMillis?_isSome

/-- A slice out of range is at the end or the beginning of time. -/
theorem not_reached_bounds {t : Instant} (fails : ¬ IsReached w t) :
    t.millis < minSecond * 1000 + w.sliceMillis ∧ floorMillis t.millis w < minSecond * 1000 ∨
      (maxSecond + 1) * 1000 ≤ floorMillis t.millis w ∧ t.second = maxSecond ∧
        nanosPerSecond ≤ t.nano := by
  have below := floorMillis_le t.millis w
  have above := lt_floorMillis_add t.millis w
  have last := t.second_le
  have nano := t.nano_lt
  rw [isReached_iff] at fails
  simp only [Instant.millis, nanosPerMilli, nanosPerSecond] at *
  omega

/-- The current slice does not go back while the milliseconds do not. -/
theorem millis_containing_mono {t u : Instant} (le : t.millis ≤ u.millis) (w : Duration) :
    (containing t w).millis ≤ (containing u w).millis := by
  have mono := floorMillis_mono le w
  by_cases reached : IsReached w t
  · rw [millis_containing reached]
    by_cases reached' : IsReached w u
    · rw [millis_containing reached']
      exact mono
    · rw [containing_of_not_reached reached']
      exact le_trans (floorMillis_le ..) le
  · rw [containing_of_not_reached reached]
    by_cases reached' : IsReached w u
    · -- the earlier slice starts out of range, so that a whole slice lies in between
      rw [millis_containing reached']
      rw [isReached_iff] at reached reached'
      have apart := floorMillis_add_le (a := t.millis) (b := u.millis) (w := w) (by omega)
      exact le_trans (le_of_lt (lt_floorMillis_add t.millis w)) apart
    · rw [containing_of_not_reached reached']
      exact le

/-- The current slice does not go back while neither the clock nor its milliseconds do. -/
theorem containing_mono {t u : Instant} (le : t ≤ u) (fewer : t.millis ≤ u.millis)
    (w : Duration) : containing t w ≤ containing u w := by
  have mono := floorMillis_mono fewer w
  by_cases reached : IsReached w t
  · by_cases reached' : IsReached w u
    · rw [le_iff_millis_le (isWhole_containing reached) (isWhole_containing reached'),
        millis_containing reached, millis_containing reached']
      exact mono
    · have whole := (isWhole_containing reached).outside
      have last := (containing t w).start.second_le
      rw [containing_of_not_reached reached', le_iff_start, Instant.le_iff]
      rw [isReached_iff] at reached
      rcases not_reached_bounds reached' with ⟨-, low⟩ | ⟨-, second, leap⟩
      · omega
      · simp only [second]
        omega
  · rw [containing_of_not_reached reached]
    by_cases reached' : IsReached w u
    · apply le_of_lt
      apply lt_of_millis_lt _ (isWhole_containing reached')
      have up := lt_floorMillis_add t.millis w
      rw [millis_containing reached']
      rw [isReached_iff] at reached reached'
      have apart := floorMillis_add_le (a := t.millis) (b := u.millis) (w := w) (by omega)
      exact lt_of_lt_of_le up apart
    · rw [containing_of_not_reached reached']
      exact le

end Slice

end SliceScheduler
