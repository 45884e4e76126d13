import SliceScheduler.Lock.Holder
import SliceScheduler.Proofs.LockModes
import SliceScheduler.Proofs.StoredRow
/-!
# The rules of locks

Both stores keep locks by one set of rules, which speak of a lock as it is shown at the instant of a
call. Shares whose time is up do not count, whether they are kept or not.

1. `LockView.takenBy`, `LockView.givenUpBy` and `LockView.SharedBy` are the rules;
2. `MemoryStore.liveLock` and `TableStore.liveLock` are the locks that count, each with lemmas on
   what a call makes of them;
3. `Backend.perform_lockExclusive`, `Backend.perform_lockShared` and the like say that both stores
   keep to the rules, as long as no lock has an owner as well as live shares.
-/
namespace SliceScheduler

/-! ## The rules -/

namespace LockView

variable {v : LockView} {o : String}

/-- The lock has an owner or shares, but not both. -/
def OneMode (v : LockView) : Prop := v.owner = none ∨ v.shared = ∅

/-- The answer to an owner who takes the lock, and the lock after it. -/
def takenBy (v : LockView) (o : String) : Bool × LockView :=
  if v.shared.isEmpty ∧ (v.owner = none ∨ v.owner = some o) then (true, { v with owner := some o })
  else (false, v)

/-- The answer to an owner who gives up the lock or a share of it, and the lock after it. -/
def givenUpBy (v : LockView) (o : String) : LockMode → Bool × LockView
  | .exclusive => if v.owner = some o then (true, { v with owner := none }) else (false, v)
  | .shared =>
    if v.owner = none ∧ v.shared.contains o then (true, { v with shared := v.shared.erase o })
    else (false, v)

/-- The lock after one more owner has asked for a share of it, which was granted or not. -/
structure SharedBy (v : LockView) (o : String) (granted : Bool) (v' : LockView) : Prop where
  answer : granted = v.owner.isNone
  owner : v'.owner = v.owner
  others : ∀ p, p ≠ o → v'.shared[p]? = v.shared[p]?
  refused : granted = false → v' = v

/-- The owner of a lock may take it again. -/
theorem takenBy_again (one : v.OneMode) (mine : v.owner = some o) : (v.takenBy o).1 = true := by
  have unshared := one.resolve_left (mine ▸ Option.some_ne_none o)
  rw [takenBy, if_pos ⟨Std.ExtTreeMap.isEmpty_iff.mpr unshared, .inr mine⟩]

end LockView

/-! ## In memory -/

namespace MemoryStore

variable {s s' : MemoryStore} {now : Instant} {name : String} {e : LockEntry}

/-- The lock of a name with the shares that are live, free if there is no such lock. -/
def liveLock (s : MemoryStore) (now : Instant) (name : String) : LockView :=
  ⟨(s.lockAt now name).owner, (s.lockAt now name).shared⟩

@[simp] theorem owner_liveLock : (s.liveLock now name).owner = (s.lockAt now name).owner := rfl

@[simp] theorem shared_liveLock : (s.liveLock now name).shared = (s.lockAt now name).shared := rfl

/-- The lock that is kept in place of another. -/
theorem liveLock_of_entries
    (entries : ∀ n, s'.locks.getD n .free = if name = n then e else s.locks.getD n .free) :
    s'.liveLock now = Function.update (s.liveLock now) name ⟨e.owner, (e.expire now).shared⟩ := by
  funext n
  rw [liveLock, lockAt, entries, Function.update_apply]
  simp only [eq_comm (a := n)]
  split <;> rfl

/-- Shares that are live are not dropped again. -/
theorem shared_expire_lockAt (s : MemoryStore) (now : Instant) (name : String)
    (owner : Option String) :
    ({ s.lockAt now name with owner }.expire now).shared = (s.lockAt now name).shared := by
  apply Std.ExtTreeMap.ext_getElem?
  intro p
  show ((s.lockAt now name).expire now).shared[p]? = _
  rw [lockAt, RowsOfLock.getElem?_expire, RowsOfLock.live?_expire, RowsOfLock.getElem?_expire]

/-- A lock that is kept with another owner, or with none. -/
theorem liveLock_of_owner {owner : Option String}
    (entries : ∀ n, s'.locks.getD n .free =
      if name = n then { s.lockAt now name with owner } else s.locks.getD n .free) :
    s'.liveLock now =
      Function.update (s.liveLock now) name ⟨owner, (s.lockAt now name).shared⟩ := by
  rw [liveLock_of_entries entries, shared_expire_lockAt]

/-- A lock of which only the shares whose time is up are dropped. -/
theorem liveLock_of_same
    (entries : ∀ n, s'.locks.getD n .free =
      if name = n then s.lockAt now name else s.locks.getD n .free) :
    s'.liveLock now = s.liveLock now := by
  rw [liveLock_of_owner entries]
  exact Function.update_eq_self name _

/-- A lock that is kept without a share. -/
theorem liveLock_of_erase {o : String}
    (entries : ∀ n, s'.locks.getD n .free =
      if name = n then { s.lockAt now name with shared := (s.lockAt now name).shared.erase o }
      else s.locks.getD n .free) :
    s'.liveLock now = Function.update (s.liveLock now) name
      ⟨(s.lockAt now name).owner, (s.lockAt now name).shared.erase o⟩ := by
  rw [liveLock_of_entries entries]
  congr 2
  apply Std.ExtTreeMap.ext_getElem?
  intro p
  rw [RowsOfLock.getElem?_expire, LockEntry.live?]
  simp only [Std.ExtTreeMap.getElem?_erase]
  split
  · rfl
  · show (s.lockAt now name).live? now p = _
    rw [← RowsOfLock.getElem?_expire, shared_expire_lockAt]

theorem liveLock_lockExclusive (s : MemoryStore) (now : Instant) (name o : String) :
    (s.lockExclusive now name o).1 = ((s.liveLock now name).takenBy o).1 ∧
      (s.lockExclusive now name o).2.liveLock now =
        Function.update (s.liveLock now) name ((s.liveLock now name).takenBy o).2 := by
  have kept := liveLock_of_same (s.getD_putLock name (s.lockAt now name))
  have taken := liveLock_of_owner
    (s.getD_putLock name { s.lockAt now name with owner := some o })
  rw [LockView.takenBy, lockExclusive]
  by_cases unshared : (s.lockAt now name).shared.isEmpty
  · cases held : (s.lockAt now name).owner with
    | none => simpa [unshared, held] using taken
    | some current =>
      by_cases mine : current = o
      · -- the owner is put down once more
        have same : Function.update (s.liveLock now) name ⟨some o, (s.lockAt now name).shared⟩
            = s.liveLock now := by
          rw [← mine, ← held]
          exact Function.update_eq_self name _
        simpa [unshared, held, mine, same] using kept
      · simpa [unshared, held, mine] using kept
  · simpa [unshared] using kept

theorem liveLock_unlockExclusive (s : MemoryStore) (now : Instant) (name o : String) :
    (s.unlockExclusive now name o).1 = ((s.liveLock now name).givenUpBy o .exclusive).1 ∧
      (s.unlockExclusive now name o).2.liveLock now = Function.update (s.liveLock now) name
        ((s.liveLock now name).givenUpBy o .exclusive).2 := by
  have kept := liveLock_of_same (s.getD_settleLock name (s.lockAt now name))
  have released := liveLock_of_owner
    (s.getD_settleLock name { s.lockAt now name with owner := none })
  rw [LockView.givenUpBy, unlockExclusive]
  by_cases known : s.locks.contains name
  · by_cases mine : (s.lockAt now name).owner = some o
    · simpa [known, mine] using released
    · simpa [known, mine] using kept
  · simp [known, RowsOfLocks.lockAt_absent name known, LockEntry.free]

theorem liveLock_unlockShared (s : MemoryStore) (now : Instant) (name o : String) :
    (s.unlockShared now name o).1 = ((s.liveLock now name).givenUpBy o .shared).1 ∧
      (s.unlockShared now name o).2.liveLock now = Function.update (s.liveLock now) name
        ((s.liveLock now name).givenUpBy o .shared).2 := by
  have kept := liveLock_of_same (s.getD_settleLock name (s.lockAt now name))
  have released := liveLock_of_erase (o := o) (s.getD_settleLock name
    { s.lockAt now name with shared := (s.lockAt now name).shared.erase o })
  rw [LockView.givenUpBy, unlockShared]
  by_cases known : s.locks.contains name
  · by_cases mine : (s.lockAt now name).owner = none ∧ (s.lockAt now name).shared.contains o
    · simpa [known, mine] using released
    · have other :
          ¬((s.lockAt now name).owner.isNone && (s.lockAt now name).shared.contains o) := by
        rwa [Bool.and_eq_true, Option.isNone_iff_eq_none]
      rw [if_pos known]
      dsimp only
      rw [if_neg other, owner_liveLock, shared_liveLock, if_neg mine]
      exact ⟨rfl, kept.trans (Function.update_eq_self name _).symm⟩
  · simp [known, RowsOfLocks.lockAt_absent name known, LockEntry.free]

theorem liveLock_lockShared (s : MemoryStore) (now : Instant) (name o : String) (ttl : Duration) :
    ∃ v, (s.liveLock now name).SharedBy o (s.lockShared now name o ttl).1 v ∧
      (s.lockShared now name o ttl).2.liveLock now = Function.update (s.liveLock now) name v := by
  by_cases held : (s.lockAt now name).owner.isSome
  · have refused : s.lockShared now name o ttl = (false, s.putLock name (s.lockAt now name)) :=
      if_pos held
    have kept := liveLock_of_same (s.getD_putLock name (s.lockAt now name))
    rw [refused]
    refine ⟨s.liveLock now name, ⟨?_, rfl, fun p other => rfl, fun refused => rfl⟩,
      kept.trans (Function.update_eq_self name _).symm⟩
    rw [owner_liveLock, ← Option.not_isSome, held]
    rfl
  · have granted : s.lockShared now name o ttl = (true, s.putLock name { s.lockAt now name with
        shared := (s.lockAt now name).shared.insert o (now.later ttl) }) := if_neg held
    rw [granted]
    refine ⟨_, ?_, liveLock_of_entries (s.getD_putLock name _)⟩
    refine ⟨?_, rfl, fun p other => ?_, nofun⟩
    · rw [owner_liveLock, ← Option.not_isSome]
      simpa using held
    · rw [RowsOfLock.getElem?_expire, LockEntry.live?]
      simp only [Std.ExtTreeMap.getElem?_insert, Std.LawfulEqCmp.compare_eq_iff_eq,
        Ne.symm other, if_false]
      rw [← LockEntry.live?, ← RowsOfLock.getElem?_expire]
      exact congrArg (·[p]?) (s.shared_expire_lockAt now name _)

end MemoryStore

/-! ## In tables -/

namespace TableStore

variable {s s' : TableStore} {now : Int} {name : String} {owner : Option String}
  {shares : Std.ExtTreeMap String Int}

/-- The expiries of the shares that are live, as they are shown. -/
def liveExpiries (now : Int) (shares : Std.ExtTreeMap String Int) : Std.ExtTreeMap String Instant :=
  (shares.filter fun _ expiry => now < expiry).map fun _ expiry => decodeExpiry expiry

theorem getElem?_liveExpiries (p : String) :
    (liveExpiries now shares)[p]? = (shares[p]?.filter (now < ·)).map decodeExpiry := by
  rw [liveExpiries, Std.ExtTreeMap.getElem?_map, RowsOfLock.getElem?_filter_live]

/-- The lock of a name with the shares that are live, free if there are no rows of it. -/
def liveLock (s : TableStore) (now : Int) (name : String) : LockView :=
  ⟨s.owner? name, liveExpiries now (s.sharesOf name)⟩

@[simp] theorem owner_liveLock : (s.liveLock now name).owner = s.owner? name := rfl

theorem contains_liveLock (o : String) :
    (s.liveLock now name).shared.contains o = (s.liveShares now name).contains o :=
  Std.ExtTreeMap.contains_map

theorem isEmpty_liveLock :
    (s.liveLock now name).shared.isEmpty = (s.liveShares now name).isEmpty := by
  rw [Bool.eq_iff_iff, Std.ExtTreeMap.isEmpty_iff, Std.ExtTreeMap.isEmpty_iff, liveLock,
    liveExpiries, Std.ExtTreeMap.map_eq_empty_iff]
  rfl

/-- The rows that are kept in place of others. -/
theorem liveLock_of_rows
    (owners : ∀ n, s'.owner? n = if name = n then owner else s.owner? n)
    (rows : ∀ n, s'.sharesOf n = if name = n then shares else s.sharesOf n) :
    s'.liveLock now =
      Function.update (s.liveLock now) name ⟨owner, liveExpiries now shares⟩ := by
  funext n
  rw [liveLock, owners, rows, Function.update_apply]
  simp only [eq_comm (a := n)]
  split <;> rfl

theorem liveLock_putShares (s : TableStore) (now : Int) (name : String)
    (shares : Std.ExtTreeMap String Int) : (s.putShares name shares).liveLock now =
      Function.update (s.liveLock now) name ⟨s.owner? name, liveExpiries now shares⟩ :=
  liveLock_of_rows (RowsOfLocks.same_owner s name) (s.sharesOf_putShares name shares)

/-- Rows of shares that are over are not shown before they are dropped. -/
theorem liveExpiries_liveShares (s : TableStore) (now : Int) (name : String) :
    liveExpiries now (s.liveShares now name) = (s.liveLock now name).shared := by
  apply Std.ExtTreeMap.ext_getElem?
  intro p
  rw [getElem?_liveExpiries, liveShares, RowsOfLock.getElem?_filter_live, Option.filter_filter,
    liveLock, getElem?_liveExpiries]
  simp only [Bool.and_self]

/-- An owner that is put down in place of another. -/
theorem liveLock_of_owner (owners : ∀ n, s'.owner? n = if name = n then owner else s.owner? n)
    (rows : ∀ n, s'.sharesOf n = s.sharesOf n) :
    s'.liveLock now =
      Function.update (s.liveLock now) name ⟨owner, (s.liveLock now name).shared⟩ := by
  refine liveLock_of_rows owners fun n => ?_
  rw [rows]
  exact RowsOfLocks.same_shares s name n

theorem liveLock_lockExclusive (s : TableStore) (now : Int) (name o : String) :
    (s.lockExclusive now name o).1 = ((s.liveLock now name).takenBy o).1 ∧
      (s.lockExclusive now name o).2.liveLock now =
        Function.update (s.liveLock now) name ((s.liveLock now name).takenBy o).2 := by
  rw [LockView.takenBy, isEmpty_liveLock, owner_liveLock, lockExclusive]
  split
  · exact ⟨rfl, liveLock_of_owner (s.owner?_insert name (some o)) fun n => rfl⟩
  · exact ⟨rfl, (Function.update_eq_self name (s.liveLock now)).symm⟩

theorem liveLock_unlockExclusive (s : TableStore) (now : Int) (name o : String) :
    (s.unlockExclusive name o).1 = ((s.liveLock now name).givenUpBy o .exclusive).1 ∧
      (s.unlockExclusive name o).2.liveLock now = Function.update (s.liveLock now) name
        ((s.liveLock now name).givenUpBy o .exclusive).2 := by
  rw [LockView.givenUpBy, owner_liveLock, unlockExclusive]
  split
  · exact ⟨rfl, liveLock_of_owner (s.owner?_insert name none) fun n => rfl⟩
  · exact ⟨rfl, (Function.update_eq_self name (s.liveLock now)).symm⟩

theorem liveLock_unlockShared (s : TableStore) (now : Int) (name o : String) :
    (s.unlockShared now name o).1 = ((s.liveLock now name).givenUpBy o .shared).1 ∧
      (s.unlockShared now name o).2.liveLock now = Function.update (s.liveLock now) name
        ((s.liveLock now name).givenUpBy o .shared).2 := by
  rw [LockView.givenUpBy, contains_liveLock, owner_liveLock, unlockShared]
  by_cases mine : s.owner? name = none ∧ (s.liveShares now name).contains o
  · rw [if_pos mine, if_pos ⟨mine.2, Option.isNone_iff_eq_none.mpr mine.1⟩]
    refine ⟨rfl, (s.liveLock_putShares now name _).trans ?_⟩
    congr 2
    apply Std.ExtTreeMap.ext_getElem?
    intro p
    simp only [getElem?_liveExpiries, Std.ExtTreeMap.getElem?_erase, liveLock]
    split <;> rfl
  · rw [if_neg mine, if_neg fun both => mine ⟨Option.isNone_iff_eq_none.mp both.2, both.1⟩]
    exact ⟨rfl, (Function.update_eq_self name (s.liveLock now)).symm⟩

theorem liveLock_lockShared (s : TableStore) (now : Int) (name o : String) (expiry : Int) :
    ∃ v, (s.liveLock now name).SharedBy o (s.lockShared now name o expiry).1 v ∧
      (s.lockShared now name o expiry).2.liveLock now =
        Function.update (s.liveLock now) name v := by
  by_cases free : (s.owner? name).isNone
  · have granted : s.lockShared now name o expiry
        = (true, s.putShares name ((s.liveShares now name).insert o expiry)) := if_pos free
    rw [granted]
    refine ⟨_, ?_, s.liveLock_putShares now name _⟩
    refine ⟨free.symm, rfl, fun p other => ?_, nofun⟩
    rw [← liveExpiries_liveShares]
    simp only [getElem?_liveExpiries, Std.ExtTreeMap.getElem?_insert,
      Std.LawfulEqCmp.compare_eq_iff_eq, Ne.symm other, if_false]
  · have refused : s.lockShared now name o expiry
        = (false, s.putShares name (s.liveShares now name)) := if_neg free
    have kept := s.liveLock_putShares now name (s.liveShares now name)
    rw [liveExpiries_liveShares] at kept
    rw [refused]
    exact ⟨s.liveLock now name, ⟨(Bool.eq_false_iff.mpr free).symm, rfl, fun p other => rfl,
      fun refused => rfl⟩, kept⟩

theorem closed_performOpen (s : TableStore) (now : Instant) (op : Operation) :
    (s.performOpen now op).2.closed = s.closed := by
  cases op with
  | lockExclusive name o | lockShared name o ttl | unlockShared name o | unlockExclusive name o =>
    simp only [performOpen, lockExclusive, lockShared, unlockShared, unlockExclusive]
    split <;> rfl
  | getJob id | insertJob job | updateJob job | deleteJob id | removeScheduled slice id
  | initPointer slice | movePointer expected next =>
    simp only [performOpen]
    split <;> rfl
  | _ => rfl

end TableStore

/-! ## In either store -/

namespace Backend

variable {s : Backend} {now : Instant}

/-- The lock of a name with the shares that are live, free if there is no such lock. -/
def liveLock : Backend → Instant → String → LockView
  | memory s, now => s.liveLock now
  | tables s, now => s.liveLock now.millis

/-- Calls reach the store, and no lock has an owner as well as live shares. -/
def KeepsModes : Backend → Instant → Prop
  | memory s, _ => s.OneMode
  | tables s, now => s.closed = false ∧ s.OneMode now.millis

theorem KeepsModes.liveLock (keeps : s.KeepsModes now) (name : String) :
    (s.liveLock now name).OneMode := by
  cases s with
  | memory s => exact MemoryStore.OneMode.lockAt keeps now name
  | tables s =>
    refine (keeps.2 name).imp id fun unshared => ?_
    rw [← Std.ExtTreeMap.isEmpty_iff]
    exact TableStore.isEmpty_liveLock.trans unshared

theorem KeepsModes.perform (keeps : s.KeepsModes now) (op : Operation) :
    (s.perform now op).2.KeepsModes now := by
  cases s with
  | memory s => exact MemoryStore.OneMode.perform keeps now op
  | tables s =>
    rw [perform_open keeps.1]
    exact ⟨(s.closed_performOpen now op).trans keeps.1, keeps.2.performOpen op⟩

/-- A store that shows no lock has none with both an owner and live shares. -/
theorem keepsModes_of_unlocked (unlocked : ∀ name, (s.perform now (.getLock name)).1 = .ok none) :
    s.KeepsModes now := by
  cases s with
  | memory s => exact fun name => .inl (owner?_eq (unlocked name)).symm
  | tables s =>
    exact ⟨isOpen_of_ok (unlocked ""), fun name => .inl (owner?_eq (unlocked name)).symm⟩

/-- What a store shows of a lock. -/
theorem perform_getLock (keeps : s.KeepsModes now) (name : String) :
    (s.perform now (.getLock name)).1 = .ok
      (if (s.liveLock now name).isFree then none else some (s.liveLock now name)) := by
  cases s with
  | memory s => rfl
  | tables s =>
    rw [perform_open keeps.1]
    rfl

/-! ### Calls -/

theorem perform_lockExclusive (keeps : s.KeepsModes now) (name o : String) :
    (s.perform now (.lockExclusive name o)).1 = .ok ((s.liveLock now name).takenBy o).1 ∧
      (s.perform now (.lockExclusive name o)).2.liveLock now =
        Function.update (s.liveLock now) name ((s.liveLock now name).takenBy o).2 := by
  cases s with
  | memory s => exact (s.liveLock_lockExclusive now name o).imp_left (congrArg Except.ok)
  | tables s =>
    rw [perform_open keeps.1]
    exact (s.liveLock_lockExclusive now.millis name o).imp_left (congrArg Except.ok)

theorem perform_unlockExclusive (keeps : s.KeepsModes now) (name o : String) :
    (s.perform now (.unlockExclusive name o)).1
        = .ok ((s.liveLock now name).givenUpBy o .exclusive).1 ∧
      (s.perform now (.unlockExclusive name o)).2.liveLock now = Function.update (s.liveLock now)
        name ((s.liveLock now name).givenUpBy o .exclusive).2 := by
  cases s with
  | memory s => exact (s.liveLock_unlockExclusive now name o).imp_left (congrArg Except.ok)
  | tables s =>
    rw [perform_open keeps.1]
    exact (s.liveLock_unlockExclusive now.millis name o).imp_left (congrArg Except.ok)

theorem perform_unlockShared (keeps : s.KeepsModes now) (name o : String) :
    (s.perform now (.unlockShared name o)).1 = .ok ((s.liveLock now name).givenUpBy o .shared).1 ∧
      (s.perform now (.unlockShared name o)).2.liveLock now = Function.update (s.liveLock now)
        name ((s.liveLock now name).givenUpBy o .shared).2 := by
  cases s with
  | memory s => exact (s.liveLock_unlockShared now name o).imp_left (congrArg Except.ok)
  | tables s =>
    rw [perform_open keeps.1]
    exact (s.liveLock_unlockShared now.millis name o).imp_left (congrArg Except.ok)

theorem perform_lockShared (keeps : s.KeepsModes now) (name o : String) (ttl : Duration) :
    ∃ granted v, (s.perform now (.lockShared name o ttl)).1 = .ok granted ∧
      (s.liveLock now name).SharedBy o granted v ∧
      (s.perform now (.lockShared name o ttl)).2.liveLock now =
        Function.update (s.liveLock now) name v := by
  cases s with
  | memory s =>
    obtain ⟨v, shared, update⟩ := s.liveLock_lockShared now name o ttl
    exact ⟨_, v, rfl, shared, update⟩
  | tables s =>
    obtain ⟨v, shared, update⟩ :=
      s.liveLock_lockShared now.millis name o (now.later ttl).millis
    rw [perform_open keeps.1]
    exact ⟨_, v, rfl, shared, update⟩

end Backend

end SliceScheduler
