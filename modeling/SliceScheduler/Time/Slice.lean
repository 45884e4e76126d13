import SliceScheduler.Time.Timestamp
/-!
# Time slices

Time is cut into slices of one width, counted from 1970. A slice is named by its start.

1. `Slice.containing` is the slice that an instant lies in, `Slice.ceil` the first slice that does
   not start before it;
2. `Slice.offset` walks from slice to slice, `next` and `prev` by one;
3. the width is a length of time taken in whole milliseconds, and at least one.

Near the ends of the range of instants a slice may start out of range. `containing` then falls back
on the instant itself and `offset` stays where it is.
-/
namespace SliceScheduler

/-- Milliseconds in a slice of a width: a signed 64-bit word, and at least one. -/
def Duration.sliceMillis (width : Duration) : Int :=
  max width.wordMillis 1

/-- A slice of time, named by its start. -/
structure Slice where
  start : Instant
deriving DecidableEq, Repr

namespace Slice

instance : Inhabited Slice := ⟨⟨default⟩⟩

instance : Ord Slice := ⟨compareOn Slice.start⟩
instance : LT Slice := ⟨fun a b => a.start < b.start⟩
instance : LE Slice := ⟨fun a b => a.start ≤ b.start⟩
instance (a b : Slice) : Decidable (a < b) := inferInstanceAs (Decidable (a.start < b.start))
instance (a b : Slice) : Decidable (a ≤ b) := inferInstanceAs (Decidable (a.start ≤ b.start))

instance : Std.TransOrd Slice :=
  inferInstanceAs (Std.TransCmp (compareOn Slice.start))

instance : Std.LawfulEqOrd Slice where
  eq_of_compare := by
    intro a b h
    have h' : compare a.start b.start = .eq := h
    cases a; cases b; simp_all

/-- The start in milliseconds since 1970. -/
def millis (s : Slice) : Int := s.start.millis

/-- The slice that starts at a number of milliseconds. -/
def ofStartMillis? (ms : Int) : Option Slice :=
  (Instant.ofMillis? ms).map Slice.mk

/-- The greatest multiple of the width that is not after a number of milliseconds. -/
def floorMillis (ms : Int) (width : Duration) : Int :=
  ms / width.sliceMillis * width.sliceMillis

/-- The slice that an instant lies in. -/
def containing (t : Instant) (width : Duration) : Slice :=
  (ofStartMillis? (floorMillis t.millis width)).getD ⟨t⟩

/-- The slice that contains a number of milliseconds. -/
def ofMillis? (ms : Int) (width : Duration) : Option Slice :=
  (Instant.ofMillis? ms).map (containing · width)

/-- The slice `n` places further on, or the slice itself if that is out of range. -/
def offset (s : Slice) (width : Duration) (n : Int) : Slice :=
  (ofStartMillis? (s.millis + n * width.sliceMillis)).getD s

/-- The slice after this one. -/
def next (s : Slice) (width : Duration) : Slice := s.offset width 1

/-- The slice before this one. -/
def prev (s : Slice) (width : Duration) : Slice := s.offset width (-1)

/-- The first slice that does not start before an instant. -/
def ceil (t : Instant) (width : Duration) : Slice :=
  let floor := containing t width
  if floor.start = t then floor else floor.next width

/-- The milliseconds of an instant are a multiple of the width. -/
def isAligned (t : Instant) (width : Duration) : Bool :=
  t.millis % width.sliceMillis == 0

/-- The form that messages show, to the second. -/
def display (s : Slice) : String :=
  String.ofList (s.start.dateChars ++ 'T' :: s.start.clockChars ++ ['Z'])

/-- The name of the cluster-wide lock that guards a slice. -/
def advanceLock (s : Slice) : String :=
  "slicer.advance." ++ Text.integerText s.millis

end Slice

end SliceScheduler
