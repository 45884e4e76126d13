import SliceScheduler.Proofs.Numerals
import SliceScheduler.Proofs.StoreEffect
import SliceScheduler.Time.Slice
/-!
# The owners of locks

1. `MemoryStore.owner` is the owner of the lock of a name;
2. `MemoryStore.owner_cases` says how a call changes it: a lock is taken that had no owner, or given
   back by its owner;
3. `MemoryStore.owner_of_taken` says that who takes a lock owns it, and
   `MemoryStore.owner_of_returned` that a lock that is given back has no owner;
4. `MemoryStore.Shares` is a share of a lock, and `MemoryStore.shares_attempt` says that only a call
   that takes a share brings one about, and `MemoryStore.not_shares_of_taken` that nobody has a share
   of a lock that was taken for one owner;
5. `Slice.millis_of_advanceLock` says that the lock of a slice belongs to its milliseconds alone.
-/
namespace SliceScheduler

/-! ## Names of locks -/

theorem Slice.millis_of_advanceLock {a b : Slice} (same : a.advanceLock = b.advanceLock) :
    a.millis = b.millis := by
  unfold advanceLock at same
  have texts := (String.append_right_inj _).mp same
  exact Text.integerChars_inj (String.ofList_injective texts)

/-! ## Owners -/

/-- A lock that is not shown has no owner. -/
theorem LockView.owner_shown (l : LockView) :
    (if l.isFree then none else some l).bind (·.owner) = l.owner := by
  split
  · rename_i free
    simp only [LockView.isFree, Bool.and_eq_true, Option.isNone_iff_eq_none] at free
    exact free.1.symm
  · rfl

namespace MemoryStore

/-- The owner of the lock of a name. -/
def owner (s : MemoryStore) (name : String) : Option String := (s.locks.getD name .free).owner

variable {s s' : MemoryStore} {now : Instant} {name : String} {n o : String}

/-- The owner is the one that the store shows at any time. -/
theorem owner_viewLock (s : MemoryStore) (now : Instant) (name : String) :
    (s.viewLock now name).bind (·.owner) = s.owner name :=
  LockView.owner_shown _

theorem getD_putLock (s : MemoryStore) (name : String) (e : LockEntry) (n : String) :
    (s.putLock name e).locks.getD n .free = if name = n then e else s.locks.getD n .free := by
  rw [putLock, Std.ExtTreeMap.getD_insert]
  simp only [Std.LawfulEqCmp.compare_eq_iff_eq]

/-- A lock that is dropped is free. -/
theorem getD_settleLock (s : MemoryStore) (name : String) (e : LockEntry) (n : String) :
    (s.settleLock name e).locks.getD n .free = if name = n then e else s.locks.getD n .free := by
  rw [settleLock]
  split
  case isTrue isFree =>
    have free : e = .free := by
      obtain ⟨owner, shared⟩ := e
      simp only [LockEntry.isFree, Bool.and_eq_true, Option.isNone_iff_eq_none,
        Std.ExtTreeMap.isEmpty_iff] at isFree
      rw [isFree.1, isFree.2]
      rfl
    rw [Std.ExtTreeMap.getD_erase, free]
    simp only [Std.LawfulEqCmp.compare_eq_iff_eq]
  case isFalse => exact getD_putLock s name e n

theorem owner_putLock (s : MemoryStore) (name : String) (e : LockEntry) (n : String) :
    (s.putLock name e).owner n = if name = n then e.owner else s.owner n := by
  rw [owner, getD_putLock]
  split <;> rfl

theorem owner_settleLock (s : MemoryStore) (name : String) (e : LockEntry) (n : String) :
    (s.settleLock name e).owner n = if name = n then e.owner else s.owner n := by
  rw [owner, getD_settleLock]
  split <;> rfl

theorem owner_lockAt (s : MemoryStore) (now : Instant) (name : String) :
    (s.lockAt now name).owner = s.owner name := rfl

/-- Who takes a lock owns it, and it had no other owner. -/
theorem owner_lockExclusive (s : MemoryStore) (now : Instant) (name o : String) :
    ((s.lockExclusive now name o).1 = true → (s.lockExclusive now name o).2.owner name = some o) ∧
      ∀ n, (s.lockExclusive now name o).2.owner n = s.owner n ∨
        n = name ∧ s.owner n = none ∧ (s.lockExclusive now name o).2.owner n = some o := by
  have kept (n : String) : (s.putLock name (s.lockAt now name)).owner n = s.owner n := by
    rw [owner_putLock, owner_lockAt]
    split
    · rename_i same
      rw [same]
    · rfl
  unfold lockExclusive
  simp only
  split
  · exact ⟨nofun, fun n => .inl (kept n)⟩
  · split
    · rename_i free
      rw [owner_lockAt] at free
      refine ⟨fun _ => ?_, fun n => ?_⟩
      · rw [owner_putLock, if_pos rfl]
      · rw [owner_putLock]
        split
        · rename_i same
          exact .inr ⟨same.symm, same ▸ free, rfl⟩
        · exact .inl rfl
    · rename_i current held
      rw [owner_lockAt] at held
      refine ⟨fun same => ?_, fun n => .inl (kept n)⟩
      rw [kept, held, beq_iff_eq.mp same]

/-- Only its owner gives back a lock. -/
theorem owner_unlockExclusive (s : MemoryStore) (now : Instant) (name o n : String) :
    (s.unlockExclusive now name o).2.owner n = s.owner n ∨ n = name ∧ s.owner n = some o := by
  unfold unlockExclusive
  split
  · simp only
    split
    · rename_i mine
      rw [owner_lockAt] at mine
      rw [owner_settleLock]
      split
      · rename_i same
        exact .inr ⟨same.symm, same ▸ mine⟩
      · exact .inl rfl
    · rw [owner_settleLock, owner_lockAt]
      split
      · rename_i same
        exact .inl (by rw [same])
      · exact .inl rfl
  · exact .inl rfl

theorem owner_lockShared (s : MemoryStore) (now : Instant) (name o : String) (ttl : Duration)
    (n : String) : (s.lockShared now name o ttl).2.owner n = s.owner n := by
  unfold lockShared
  simp only
  split <;>
  · rw [owner_putLock]
    split
    · rename_i same
      rw [← same, ← owner_lockAt s now name]
    · rfl

theorem owner_unlockShared (s : MemoryStore) (now : Instant) (name o n : String) :
    (s.unlockShared now name o).2.owner n = s.owner n := by
  unfold unlockShared
  simp only
  split
  · split <;>
    · rw [owner_settleLock]
      split
      · rename_i same
        rw [← same, ← owner_lockAt s now name]
      · rfl
  · rfl

/-- How a call changes the owner of a lock. -/
theorem owner_cases {fault : Option StoreError} {op : Operation} {answer : op.Result}
    (made : s.attempt now fault op = (answer, s')) (n : String) :
    s'.owner n = s.owner n ∨
      (∃ o, op = .lockExclusive n o ∧ s.owner n = none ∧ s'.owner n = some o) ∨
      ∃ o, op = .unlockExclusive n o ∧ s.owner n = some o := by
  rcases attempt_cases made with ⟨e, -, -, rfl⟩ | ⟨-, made⟩
  · exact .inl rfl
  · obtain rfl : (s.perform now op).2 = s' := congrArg Prod.snd made
    cases op with
    | lockExclusive name o =>
      rcases (owner_lockExclusive s now name o).2 n with same | ⟨rfl, free, taken⟩
      · exact .inl same
      · exact .inr (.inl ⟨o, rfl, free, taken⟩)
    | unlockExclusive name o =>
      rcases owner_unlockExclusive s now name o n with same | ⟨rfl, held⟩
      · exact .inl same
      · exact .inr (.inr ⟨o, rfl, held⟩)
    | lockShared name o ttl => exact .inl (owner_lockShared s now name o ttl n)
    | unlockShared name o => exact .inl (owner_unlockShared s now name o n)
    | getJob id | insertJob job | updateJob job | deleteJob id | removeScheduled slice id
    | initPointer slice | movePointer expected next =>
      simp only [perform]
      split <;> exact .inl rfl
    | _ => exact .inl rfl

/-- A call that takes a lock says who owns it. -/
theorem owner_of_taken {fault : Option StoreError} {answer : Except StoreError Bool}
    (made : s.attempt now fault (.lockExclusive name o) = (answer, s'))
    (taken : answer = .ok true) : s'.owner name = some o := by
  rcases attempt_cases made with ⟨e, -, rfl, -⟩ | ⟨-, made⟩
  · cases taken
  · have owns := (owner_lockExclusive s now name o).1
    obtain ⟨same, rfl⟩ := Prod.mk.inj made
    exact owns (Except.ok.inj (same.trans taken))

/-- Who comes to own a lock is told so. -/
theorem taken_of_owner {fault : Option StoreError} {answer : Except StoreError Bool}
    (made : s.attempt now fault (.lockExclusive name o) = (answer, s'))
    (free : s.owner name = none) (owned : s'.owner name ≠ none) : answer = .ok true := by
  rcases attempt_cases made with ⟨e, -, -, rfl⟩ | ⟨-, made⟩
  · exact absurd free owned
  · have told : (s.lockExclusive now name o).2.owner name ≠ none →
        (s.lockExclusive now name o).1 = true := by
      intro owned
      have free' : (s.lockAt now name).owner = none := free
      unfold lockExclusive at owned ⊢
      simp only [free'] at owned ⊢
      split at owned
      · rw [owner_putLock, if_pos rfl, free'] at owned
        exact absurd rfl owned
      · rename_i unshared
        rw [if_neg unshared]
    obtain ⟨same, rfl⟩ := Prod.mk.inj made
    exact same.symm.trans (congrArg Except.ok (told owned))

/-- A lock that its owner gives back has no owner. -/
theorem owner_of_returned {answer : Except StoreError Bool}
    (made : s.attempt now none (.unlockExclusive name o) = (answer, s'))
    (mine : s.owner name = some o) : s'.owner name = none := by
  have there : s.locks.contains name = true := by
    by_contra absent
    rw [owner, Std.ExtTreeMap.getD_eq_fallback_of_contains_eq_false
      (Bool.eq_false_iff.mpr absent)] at mine
    cases mine
  have mine' : (s.lockAt now name).owner = some o := mine
  have returned : (s.unlockExclusive now name o).2.owner name = none := by
    unfold unlockExclusive
    rw [if_pos there]
    simp only [mine', if_true]
    rw [owner_settleLock, if_pos rfl]
  obtain ⟨-, rfl⟩ := Prod.mk.inj made
  exact returned

/-- Who comes to own a lock has taken it, and nobody owned it before. -/
theorem taken_of_owner_ne {fault : Option StoreError} {op : Operation} {answer : op.Result}
    (made : s.attempt now fault op = (answer, s')) (owned : s'.owner name = some o)
    (differs : s.owner name ≠ some o) :
    op = .lockExclusive name o ∧ s.owner name = none := by
  rcases owner_cases made name with same | ⟨o', rfl, free, taken⟩ | ⟨o', rfl, mine⟩
  · exact absurd (same ▸ owned) differs
  · exact ⟨Option.some.inj (owned.symm.trans taken) ▸ rfl, free⟩
  · rcases attempt_cases made with ⟨e, -, -, rfl⟩ | ⟨rfl, -⟩
    · exact absurd owned differs
    · cases owned.symm.trans (owner_of_returned made mine)

/-! ## Shares of locks -/

variable {node : String}

/-- The name has a share of the lock that was not taken back, whether its time is up or not. -/
def Shares (s : MemoryStore) (node name : String) : Prop :=
  node ∈ (s.locks.getD name .free).shared

/-- The name owns the lock, alone or with others. -/
def Owns (s : MemoryStore) (node name : String) : Prop :=
  s.owner name = some node ∨ s.Shares node name

theorem shares_of_lockAt (mem : node ∈ (s.lockAt now n).shared) : s.Shares node n :=
  (Std.ExtTreeMap.mem_filter.mp mem).1

/-- A lock is kept that has no new shares. -/
theorem shares_putLock {e : LockEntry} (sub : node ∈ e.shared → s.Shares node n)
    (shares : (s.putLock n e).Shares node name) : s.Shares node name := by
  unfold Shares at shares
  rw [getD_putLock] at shares
  split at shares
  · rename_i same
    exact same ▸ sub shares
  · exact shares

/-- A lock that has no new shares is kept or dropped. -/
theorem shares_settleLock {e : LockEntry} (sub : node ∈ e.shared → s.Shares node n)
    (shares : (s.settleLock n e).Shares node name) : s.Shares node name := by
  unfold Shares at shares
  rw [getD_settleLock] at shares
  split at shares
  · rename_i same
    exact same ▸ sub shares
  · exact shares

theorem shares_lockExclusive (shares : (s.lockExclusive now n o).2.Shares node name) :
    s.Shares node name := by
  unfold lockExclusive at shares
  simp only at shares
  split at shares
  · exact shares_putLock (fun there => shares_of_lockAt there) shares
  · split at shares
    · refine shares_putLock (fun there => ?_) shares
      exact shares_of_lockAt there
    · exact shares_putLock (fun there => shares_of_lockAt there) shares

/-- Nobody has a share of a lock that was taken for one owner. -/
theorem not_shares_of_taken {fault : Option StoreError} {answer : Except StoreError Bool}
    (made : s.attempt now fault (.lockExclusive name o) = (answer, s'))
    (taken : answer = .ok true) : ¬ s'.Shares node name := by
  rcases attempt_cases made with ⟨e, -, rfl, -⟩ | ⟨-, made⟩
  · cases taken
  · obtain ⟨same, rfl⟩ := Prod.mk.inj made
    have told : (s.lockExclusive now name o).1 = true := Except.ok.inj (same.trans taken)
    show ¬ (s.lockExclusive now name o).2.Shares node name
    unfold lockExclusive at told ⊢
    simp only at told ⊢
    split at told
    · cases told
    · rename_i unshared
      have empty : (s.lockAt now name).shared = ∅ := by
        simpa using unshared
      rw [if_neg unshared]
      split <;>
      · rw [Shares, getD_putLock, if_pos rfl, empty]
        exact Std.ExtTreeMap.not_mem_empty

theorem shares_unlockShared (shares : (s.unlockShared now n o).2.Shares node name) :
    s.Shares node name := by
  unfold unlockShared at shares
  split at shares
  · simp only at shares
    split at shares
    · refine shares_settleLock (fun rest => ?_) shares
      exact shares_of_lockAt (Std.ExtTreeMap.mem_of_mem_erase rest)
    · exact shares_settleLock (fun there => shares_of_lockAt there) shares
  · exact shares

theorem shares_unlockExclusive (shares : (s.unlockExclusive now n o).2.Shares node name) :
    s.Shares node name := by
  unfold unlockExclusive at shares
  split at shares
  · simp only at shares
    split at shares
    · refine shares_settleLock (fun there => ?_) shares
      exact shares_of_lockAt there
    · exact shares_settleLock (fun there => shares_of_lockAt there) shares
  · exact shares

/-- Nobody comes to have a share of a lock unless a call takes one. -/
theorem shares_attempt {fault : Option StoreError} {op : Operation} {answer : op.Result}
    (made : s.attempt now fault op = (answer, s')) (other : ∀ n o ttl, op ≠ .lockShared n o ttl)
    (shares : s'.Shares node name) : s.Shares node name := by
  rcases attempt_cases made with ⟨e, -, -, rfl⟩ | ⟨-, made⟩
  · exact shares
  · obtain rfl : (s.perform now op).2 = s' := congrArg Prod.snd made
    cases op with
    | lockShared n o ttl => exact absurd rfl (other n o ttl)
    | lockExclusive n o => exact shares_lockExclusive shares
    | unlockShared n o => exact shares_unlockShared shares
    | unlockExclusive n o => exact shares_unlockExclusive shares
    | getJob id | insertJob job | updateJob job | deleteJob id | removeScheduled slice id
    | initPointer slice | movePointer expected next =>
      simp only [perform] at shares
      split at shares <;> exact shares
    | _ => exact shares

end MemoryStore

end SliceScheduler
