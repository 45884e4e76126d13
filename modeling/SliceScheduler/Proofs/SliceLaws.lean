import SliceScheduler.Proofs.RetryTime
/-!
# The laws of slices

Slices are found by whole milliseconds, while instants are kept to the nanosecond and compared as they
are. All numbers on the way are signed 64-bit words.

1. `Slice.lt_next_iff` says that the slice of an instant is the only one that the instant lies in;
2. `Slice.ceil_mono` says that rounding up keeps the order of instants, also where slices start out of
   range;
3. `Slice.offset_offset` says that walks from slice to slice add up, and `Slice.prev_next` that one
   place back undoes one place forward;
4. `Slice.containingWords?`, `Slice.ceilWords?` and `Slice.offsetWords?` do the same in words, and
   stop at an overflow. There is none: `Slice.containingWords?_eq`, `Slice.ceilWords?_eq` and
   `Slice.nextWords?_eq`;
5. `Slice.lawful` puts the laws together.
-/
namespace SliceScheduler

namespace Slice

variable {s : Slice} {t u : Instant} {w : Duration} {m n : Int}

/-! ## The slice that an instant lies in -/

/-- An instant lies in its slice, and in no other one. -/
theorem lt_next_iff (reached : IsReached w t) (outside : ¬t.IsLeap)
    (next : (containing t w).HasNext w) :
    s.start.Starts w ∧ s.start ≤ t ∧ t < (s.next w).start ↔ s = containing t w := by
  have starts := starts_containing reached
  have started := start_containing_le reached outside
  have ends := lt_start_next reached next
  constructor
  · rintro ⟨starts', started', ends'⟩
    -- of two slices the earlier one would be over before the later one starts
    rcases lt_trichotomy s (containing t w) with less | same | more
    · have ended := next_le starts' starts less
      exact absurd (lt_of_lt_of_le ends' ended) (not_lt.mpr started)
    · exact same
    · have ended := next_le starts starts' more
      exact absurd (lt_of_lt_of_le ends ended) (not_lt.mpr started')
  · rintro rfl
    exact ⟨starts, started, ends⟩

/-- Rounding up does not go back while the instants do not. -/
theorem ceil_mono (outside : ¬t.IsLeap) (outside' : ¬u.IsLeap) (le : t ≤ u) :
    ceil t w ≤ ceil u w := by
  have mono := containing_mono le (Instant.millis_le_of_le le (Nat.not_le.mp outside)) w
  have up : containing u w ≤ ceil u w := by
    rw [ceil_eq]
    split
    · exact le_rfl
    · exact le_next
  by_cases own : (containing t w).start = t
  · rw [ceil_eq t, if_pos own]
    exact le_trans mono up
  · have reached : IsReached w t := by
      by_contra fails
      exact own (by rw [containing_of_not_reached fails])
    have starts := starts_containing reached
    have starts' := starts_containing (reached.of_le le outside outside')
    rw [ceil_eq t, if_neg own]
    rcases lt_or_eq_of_le mono with less | same
    · exact le_trans (next_le starts starts' less) up
    · -- the later instant lies in the same slice, and not at its start
      have between : (containing u w).start ≠ u := by
        intro own'
        have back : u ≤ t := by
          rw [← own', ← same]
          exact start_containing_le reached outside
        exact own (by rw [same, own', le_antisymm le back])
      rw [ceil_eq u, if_neg between, same]

/-! ## Walks -/

/-- The slice `n` places further on is in range. -/
def HasOffset (w : Duration) (n : Int) (s : Slice) : Prop :=
  (ofStartMillis? (s.millis + n * w.sliceMillis)).isSome

instance (w : Duration) (n : Int) (s : Slice) : Decidable (s.HasOffset w n) :=
  inferInstanceAs (Decidable (_ = true))

theorem hasOffset_one : s.HasOffset w 1 ↔ s.HasNext w := by
  rw [HasOffset, one_mul, HasNext]

theorem ofStartMillis?_offset (there : s.HasOffset w n) :
    ofStartMillis? (s.millis + n * w.sliceMillis) = some (s.offset w n) := by
  obtain ⟨x, found⟩ := Option.isSome_iff_exists.mp there
  rw [offset, found]
  rfl

theorem millis_offset (there : s.HasOffset w n) :
    (s.offset w n).millis = s.millis + n * w.sliceMillis :=
  (isWhole_of_ofStartMillis? (ofStartMillis?_offset there)).2

theorem offset_zero (whole : s.IsWhole) : s.offset w 0 = s := by
  rw [offset, zero_mul, add_zero, whole]
  rfl

/-- Walks add up. -/
theorem offset_offset (first : s.HasOffset w m) (both : s.HasOffset w (m + n)) :
    (s.offset w m).offset w n = s.offset w (m + n) := by
  have sum : s.millis + m * w.sliceMillis + n * w.sliceMillis
      = s.millis + (m + n) * w.sliceMillis := by ring
  rw [offset, millis_offset first, sum, ofStartMillis?_offset both]
  rfl

/-- One place back undoes one place forward. -/
theorem prev_next (whole : s.IsWhole) (next : s.HasNext w) : (s.next w).prev w = s := by
  have here : s.HasOffset w (1 + -1) := by
    rw [HasOffset, Int.add_right_neg, zero_mul, add_zero, whole]
    rfl
  rw [Slice.next, prev, offset_offset (hasOffset_one.mpr next) here, Int.add_right_neg,
    offset_zero whole]

end Slice

/-! ## In words -/

namespace Word

instance (n : Int) : Decidable (IsSigned n) := inferInstanceAs (Decidable (_ ∧ _))

/-- A number as a signed 64-bit word, if it does not overflow. -/
def signed? (n : Int) : Option Int := if IsSigned n then some n else none

theorem signed?_eq {n : Int} (word : IsSigned n) : signed? n = some n := if_pos word

end Word

/-- The milliseconds of an instant are a word. -/
theorem Instant.isSigned_millis (t : Instant) : Word.IsSigned t.millis := by
  have bounds := t.millis_bounds
  simp only [Word.IsSigned, Word.size63, minSecond, maxSecond] at *
  omega

namespace Slice

variable {s : Slice} {t : Instant} {w : Duration}

/-- The slice that an instant lies in, with every number a word. -/
def containingWords? (t : Instant) (w : Duration) : Option Slice := do
  let ms ← Word.signed? t.millis
  let quotient ← Word.signed? (ms / w.sliceMillis)
  let floor ← Word.signed? (quotient * w.sliceMillis)
  return (ofStartMillis? floor).getD ⟨t⟩

/-- The slice `n` places further on, with every number a word. -/
def offsetWords? (s : Slice) (w : Duration) (n : Int) : Option Slice := do
  let ms ← Word.signed? s.millis
  let step ← Word.signed? (n * w.sliceMillis)
  let sum ← Word.signed? (ms + step)
  return (ofStartMillis? sum).getD s

/-- The first slice that does not start before an instant, with every number a word. -/
def ceilWords? (t : Instant) (w : Duration) : Option Slice := do
  let floor ← containingWords? t w
  if floor.start = t then return floor else floor.offsetWords? w 1

/-- A quotient by the width is no further from zero than what is divided. -/
theorem isSigned_quotient (t : Instant) (w : Duration) :
    Word.IsSigned (t.millis / w.sliceMillis) := by
  have pos := w.sliceMillis_pos
  have word := t.isSigned_millis
  rw [Word.IsSigned] at *
  refine ⟨Int.le_ediv_of_mul_le pos ?_, Int.ediv_lt_of_lt_mul pos ?_⟩
  · have less : -(Word.size63 : Int) * w.sliceMillis ≤ -(Word.size63 : Int) * 1 :=
      Int.mul_le_mul_of_nonpos_left (by decide) pos
    omega
  · have more : (Word.size63 : Int) * 1 ≤ Word.size63 * w.sliceMillis :=
      Int.mul_le_mul_of_nonneg_left pos (by decide)
    omega

theorem containingWords?_eq (t : Instant) (w : Duration) :
    containingWords? t w = some (containing t w) := by
  have product : Word.IsSigned (t.millis / w.sliceMillis * w.sliceMillis) :=
    isSigned_floorMillis t w
  rw [containingWords?, Word.signed?_eq t.isSigned_millis, Option.bind_eq_bind, Option.bind_some,
    Word.signed?_eq (isSigned_quotient t w), Option.bind_some, Word.signed?_eq product]
  rfl

theorem offsetWords?_one (sum : Word.IsSigned (s.millis + w.sliceMillis)) :
    s.offsetWords? w 1 = some (s.next w) := by
  have ms : Word.IsSigned s.millis := s.start.isSigned_millis
  rw [offsetWords?, one_mul, Word.signed?_eq ms, Word.signed?_eq w.isSigned_sliceMillis,
    Option.bind_eq_bind, Option.bind_some, Option.bind_some, Word.signed?_eq sum]
  rw [Slice.next, offset, one_mul]
  rfl

/-- The slice after a slice is found in words, whether or not it is in range. -/
theorem nextWords?_eq (starts : s.start.Starts w) : s.offsetWords? w 1 = some (s.next w) := by
  apply offsetWords?_one
  have sum := isSigned_next s.start w
  rwa [containing_of_starts starts] at sum

theorem ceilWords?_eq (t : Instant) (w : Duration) : ceilWords? t w = some (ceil t w) := by
  rw [ceilWords?, containingWords?_eq, Option.bind_eq_bind, Option.bind_some, ceil_eq]
  split
  · rfl
  · exact offsetWords?_one (isSigned_next t w)

/-! ## All laws -/

/-- The slice starts at a multiple of the width, in whole milliseconds since 1970. -/
def IsMultiple (w : Duration) (s : Slice) : Prop :=
  s.start.IsWhole ∧ (w.millis : Int) ∣ s.millis

theorem isMultiple_iff (pos : 1 ≤ w.millis) (fits : w.millis < Word.size63) :
    s.IsMultiple w ↔ s.start.Starts w := by
  have width : w.sliceMillis = w.millis := by
    rw [Duration.sliceMillis_of_lt fits, Nat.max_eq_left pos]
  rw [IsMultiple, Instant.Starts, width]
  rfl

/-- The laws of the slices of a width, whenever the slices that they speak of are in range. -/
structure Lawful (w : Duration) : Prop where
  /-- The slice of an instant is the only multiple of the width that the instant lies in. -/
  containing_iff : ∀ (t : Instant) (s : Slice), ¬t.IsLeap → IsReached w t →
    (containing t w).HasNext w →
    (s.IsMultiple w ∧ s.start ≤ t ∧ t < (s.next w).start ↔ s = containing t w)
  /-- Rounding up leads to the least multiple of the width that is not before the instant. -/
  ceil_least : ∀ t : Instant, ¬t.IsLeap → IsReached w t →
    ((⟨t⟩ : Slice).IsMultiple w ∨ (containing t w).HasNext w) →
    IsLeast {s : Slice | t ≤ s.start ∧ s.IsMultiple w} (ceil t w)
  monotone : ∀ t u : Instant, ¬t.IsLeap → ¬u.IsLeap → t ≤ u →
    containing t w ≤ containing u w ∧ ceil t w ≤ ceil u w
  /-- The start of a slice is not rounded. -/
  fixed : ∀ s : Slice, s.IsMultiple w → containing s.start w = s ∧ ceil s.start w = s
  ceil_near : ∀ t : Instant, ceil t w = containing t w ∨ ceil t w = (containing t w).next w
  /-- A walk of `n` places is one of `n` widths. -/
  offset_millis : ∀ (s : Slice) (n : Int), s.HasOffset w n →
    (s.offset w n).millis = s.millis + n * w.millis
  offset_add : ∀ (s : Slice) (m n : Int), s.HasOffset w m → s.HasOffset w (m + n) →
    (s.offset w m).offset w n = s.offset w (m + n)
  prev_undoes_next : ∀ s : Slice, s.start.IsWhole → s.HasNext w → (s.next w).prev w = s
  /-- No number on the way overflows a word, in range or not. -/
  words : ∀ t : Instant, containingWords? t w = some (containing t w) ∧
    ceilWords? t w = some (ceil t w)
  next_words : ∀ s : Slice, s.IsMultiple w → s.offsetWords? w 1 = some (s.next w)

/-- Slices keep to their laws, whatever their width from a millisecond up to the longest that a word
holds. -/
theorem lawful (pos : 1 ≤ w.millis) (fits : w.millis < Word.size63) : Lawful w where
  containing_iff t s outside reached next := by
    rw [isMultiple_iff pos fits]
    exact lt_next_iff reached outside next
  ceil_least t outside reached room := by
    rw [isMultiple_iff pos fits] at room
    obtain ⟨⟨above, starts⟩, least⟩ := isLeast_ceil reached outside room
    refine ⟨⟨above, (isMultiple_iff pos fits).mpr starts⟩, fun s ⟨above', multiple⟩ => ?_⟩
    exact least ⟨above', (isMultiple_iff pos fits).mp multiple⟩
  monotone t u outside outside' le :=
    ⟨containing_mono le (Instant.millis_le_of_le le (Nat.not_le.mp outside)) w,
      ceil_mono outside outside' le⟩
  fixed s multiple := by
    have starts := (isMultiple_iff pos fits).mp multiple
    exact ⟨containing_of_starts starts, ceil_of_starts starts⟩
  ceil_near t := by
    rw [ceil_eq]
    exact ite_eq_or_eq _ _ _
  offset_millis s n there := by
    rw [millis_offset there, Duration.sliceMillis_of_lt fits, Nat.max_eq_left pos]
  offset_add s m n := offset_offset
  prev_undoes_next s whole := prev_next (isWhole_of_start whole)
  words t := ⟨containingWords?_eq t w, ceilWords?_eq t w⟩
  next_words s multiple := nextWords?_eq ((isMultiple_iff pos fits).mp multiple)

/-- The last nanosecond before 1970. -/
def eveOf1970 : Instant :=
  ⟨-1, 999999999, by decide, by decide, by decide, by decide⟩

/-- The last nanosecond before 1970 lies in the week that is over with it, and is rounded up to the
next one. -/
theorem lawful_weeks :
    1 ≤ (Duration.ofSeconds 604800).millis ∧ (Duration.ofSeconds 604800).millis < Word.size63 ∧
      ¬eveOf1970.IsLeap ∧ IsReached (.ofSeconds 604800) eveOf1970 ∧
      (containing eveOf1970 (.ofSeconds 604800)).HasNext (.ofSeconds 604800) ∧
      (containing eveOf1970 (.ofSeconds 604800)).millis = -604800000 ∧
      (ceil eveOf1970 (.ofSeconds 604800)).millis = 0 ∧ Lawful (.ofSeconds 604800) := by
  have pos : 1 ≤ (Duration.ofSeconds 604800).millis := by decide
  have fits : (Duration.ofSeconds 604800).millis < Word.size63 := by decide
  exact ⟨pos, fits, by decide, by decide, by decide, by decide, by decide, lawful pos fits⟩

end Slice

end SliceScheduler
