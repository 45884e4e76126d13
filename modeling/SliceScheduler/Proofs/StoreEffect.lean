import SliceScheduler.Store.Memory
/-!
# What calls do to a store

1. `MemoryStore.attempt` is a call that may be made to fail;
2. `MemoryStore.perform_locks` says that the calls about locks change nothing but locks;
3. `MemoryStore.pointer_cases` says which calls change the pointer, and
   `MemoryStore.pointer_attempt` that a pointer stays as it is unless a call moves it.
-/
namespace SliceScheduler

namespace Operation

/-- The call is about a lock. -/
def isLock : Operation → Bool
  | lockExclusive .. | lockShared .. | unlockShared .. | unlockExclusive .. => true
  | _ => false

/-- The call moves the pointer. -/
def isMove : Operation → Bool
  | movePointer .. => true
  | _ => false

end Operation

namespace MemoryStore

/-- Makes a call. A call that is made to fail leaves the store as it is. -/
def attempt (s : MemoryStore) (now : Instant) (fault : Option StoreError) (op : Operation) :
    op.Result × MemoryStore :=
  match fault with
  | some e => (.error e, s)
  | none => s.perform now op

variable {s s' : MemoryStore} {now : Instant} {fault : Option StoreError} {op : Operation}

/-- After a call the store is as before, or as a call leaves it that does not fail. -/
theorem attempt_cases {answer : op.Result} (made : s.attempt now fault op = (answer, s')) :
    (∃ e, fault = some e ∧ answer = .error e ∧ s' = s) ∨
      fault = none ∧ s.perform now op = (answer, s') := by
  cases fault with
  | some e =>
    simp only [attempt, Prod.mk.injEq] at made
    exact .inl ⟨e, rfl, made.1.symm, made.2.symm⟩
  | none => exact .inr ⟨rfl, made⟩

/-! ## Locks -/

theorem settleLock_locks (s : MemoryStore) (name : String) (e : LockEntry) :
    ∃ locks, s.settleLock name e = { s with locks } := by
  unfold settleLock putLock
  split <;> exact ⟨_, rfl⟩

/-- A call about a lock changes nothing but locks. -/
theorem perform_locks (s : MemoryStore) (now : Instant) {op : Operation}
    (lock : op.isLock = true) : ∃ locks, (s.perform now op).2 = { s with locks } := by
  cases op with
  | lockExclusive name owner =>
    simp only [perform, lockExclusive, putLock]
    split
    · exact ⟨_, rfl⟩
    · split <;> exact ⟨_, rfl⟩
  | lockShared name owner ttl =>
    simp only [perform, lockShared, putLock]
    split <;> exact ⟨_, rfl⟩
  | unlockShared name owner =>
    simp only [perform, unlockShared]
    split
    · split <;> exact settleLock_locks ..
    · exact ⟨_, rfl⟩
  | unlockExclusive name owner =>
    simp only [perform, unlockExclusive]
    split
    · split <;> exact settleLock_locks ..
    · exact ⟨_, rfl⟩
  | _ => cases lock

/-! ## The pointer -/

/-- The pointer changes by the call that sets it and by the one that moves it. -/
theorem pointer_cases {answer : op.Result} (made : s.attempt now fault op = (answer, s')) :
    s'.pointer = s.pointer ∨
      (∃ expected next, op = .movePointer expected next ∧ s.pointer = some expected ∧
        s'.pointer = some next) ∨
      ∃ slice, op = .initPointer slice ∧ s.pointer = none ∧ s'.pointer = some slice := by
  rcases attempt_cases made with ⟨e, -, -, rfl⟩ | ⟨-, made⟩
  · exact .inl rfl
  · obtain rfl : (s.perform now op).2 = s' := congrArg Prod.snd made
    by_cases lock : op.isLock = true
    · obtain ⟨locks, same⟩ := perform_locks s now lock
      rw [same]
      exact .inl rfl
    · cases op with
      | initPointer slice =>
        cases set : s.pointer with
        | none => exact .inr (.inr ⟨slice, rfl, rfl, by simp [perform, set]⟩)
        | some pointer => exact .inl (by simp [perform, set])
      | movePointer expected next =>
        by_cases there : s.pointer = some expected
        · exact .inr (.inl ⟨expected, next, rfl, there, by simp [perform, there]⟩)
        · exact .inl (by simp [perform, there])
      | lockExclusive name owner => exact absurd rfl lock
      | lockShared name owner ttl => exact absurd rfl lock
      | unlockShared name owner => exact absurd rfl lock
      | unlockExclusive name owner => exact absurd rfl lock
      | getJob id | insertJob job | updateJob job | deleteJob id | removeScheduled slice id =>
        simp only [perform]
        split <;> exact .inl rfl
      | _ => exact .inl rfl

/-- A pointer stays as it is unless a call moves it. -/
theorem pointer_attempt {answer : op.Result} {pointer : Slice}
    (made : s.attempt now fault op = (answer, s')) (stays : op.isMove = false)
    (set : s.pointer = some pointer) : s'.pointer = some pointer := by
  rcases pointer_cases made with same | ⟨expected, next, rfl, -⟩ | ⟨slice, -, none, -⟩
  · rw [same, set]
  · cases stays
  · rw [set] at none
    cases none

/-- The answer of a call that reads the pointer. -/
theorem getPointer_attempt {answer : Except StoreError (Option Slice)}
    (made : s.attempt now fault .getPointer = (answer, s')) :
    s' = s ∧ ∀ found, answer = .ok found → s.pointer = found := by
  rcases attempt_cases made with ⟨e, -, rfl, rfl⟩ | ⟨-, made⟩
  · exact ⟨rfl, fun found same => by cases same⟩
  · obtain ⟨rfl, rfl⟩ := Prod.mk.inj made
    exact ⟨rfl, fun found same => Except.ok.inj same⟩

/-- A call that sets the pointer says whether there was none. -/
theorem initPointer_attempt {slice : Slice} {answer : Except StoreError Bool}
    (made : s.attempt now fault (.initPointer slice) = (answer, s')) :
    (answer = .ok true ∧ s'.pointer = some slice) ∨ answer ≠ .ok true ∧ s' = s := by
  rcases attempt_cases made with ⟨e, -, rfl, rfl⟩ | ⟨-, made⟩
  · exact .inr ⟨nofun, rfl⟩
  · simp only [perform] at made
    split at made
    · obtain ⟨rfl, rfl⟩ := Prod.mk.inj made
      exact .inr ⟨nofun, rfl⟩
    · obtain ⟨rfl, rfl⟩ := Prod.mk.inj made
      exact .inl ⟨rfl, rfl⟩

/-- A call that moves the pointer says whether it was where it was expected. -/
theorem movePointer_attempt {expected next : Slice} {answer : Except StoreError Bool}
    (made : s.attempt now fault (.movePointer expected next) = (answer, s')) :
    (answer = .ok true ∧ s.pointer = some expected ∧ s'.pointer = some next) ∨
      answer ≠ .ok true ∧ s' = s := by
  rcases attempt_cases made with ⟨e, -, rfl, rfl⟩ | ⟨-, made⟩
  · exact .inr ⟨nofun, rfl⟩
  · simp only [perform] at made
    split at made
    · rename_i there
      obtain ⟨rfl, rfl⟩ := Prod.mk.inj made
      exact .inl ⟨rfl, there, rfl⟩
    · obtain ⟨rfl, rfl⟩ := Prod.mk.inj made
      exact .inr ⟨nofun, rfl⟩

/-- A call that moves the pointer from where it is does not find it elsewhere. -/
theorem movePointer_there {expected next : Slice} {answer : Except StoreError Bool}
    (made : s.attempt now fault (.movePointer expected next) = (answer, s'))
    (there : s.pointer = some expected) : answer ≠ .ok false := by
  rcases attempt_cases made with ⟨e, -, rfl, rfl⟩ | ⟨-, made⟩
  · nofun
  · rw [perform, if_pos there] at made
    obtain ⟨rfl, -⟩ := Prod.mk.inj made
    nofun

end MemoryStore

end SliceScheduler
