import SliceScheduler.Proofs.Ownership
import SliceScheduler.Proofs.WholeTimes
import SliceScheduler.Store.Table
/-!
# Rows that stand for locks

The store in memory drops a share whose time is up when the lock is next taken or released; the
tables keep its row, and look at rows whose time is not up only. Free locks are dropped from memory
and keep a row without an owner.

1. `RowsOfLock` says that the rows of a lock stand for its entry at an instant: they have the same
   owner and the same shares whose time is not up;
2. `RowsOfLock.later` says that they do so at all later instants;
3. `RowsOfLocks` says so for all locks, with a lemma for each of the calls.
-/
namespace SliceScheduler

open Std

/-! ## Rows after a change -/

namespace TableStore

theorem owner?_insert (t : TableStore) (name : String) (owner : Option String) (n : String) :
    ({ t with locks := t.locks.insert name owner } : TableStore).owner? n
      = if name = n then owner else t.owner? n := by
  rw [owner?, ExtTreeMap.getD_insert]
  simp only [LawfulEqCmp.compare_eq_iff_eq]
  rfl

theorem sharesOf_putShares (t : TableStore) (name : String) (shares : ExtTreeMap String Int)
    (n : String) :
    (t.putShares name shares).sharesOf n = if name = n then shares else t.sharesOf n := by
  rw [sharesOf, putShares, ExtTreeMap.getD_insert]
  simp only [LawfulEqCmp.compare_eq_iff_eq]
  rfl

end TableStore

variable {now : Instant} {e : LockEntry} {owner : Option String}
  {shares : ExtTreeMap String Int} {name o : String}

/-! ## One lock -/

/-- The share of an owner whose time is not up. -/
def LockEntry.live? (e : LockEntry) (now : Instant) (o : String) : Option Instant :=
  e.shared[o]?.filter (now < ·)

/-- The rows of a lock stand for its entry. -/
structure RowsOfLock (now : Instant) (e : LockEntry) (owner : Option String)
    (shares : ExtTreeMap String Int) : Prop where
  owner : owner = e.owner
  live : ∀ o, shares[o]?.filter (now.millis < ·) = (e.live? now o).map Instant.millis
  whole : ∀ (o : String) (t : Instant), e.shared[o]? = some t → t.IsWhole

namespace RowsOfLock

theorem getElem?_expire (e : LockEntry) (now : Instant) (o : String) :
    (e.expire now).shared[o]? = e.live? now o := by
  rw [LockEntry.expire, ExtTreeMap.getElem?_filter, Option.pfilter_eq_filter]
  rfl

theorem getElem?_filter_live (shares : ExtTreeMap String Int) (now : Int) (o : String) :
    (shares.filter fun _ expiry => now < expiry)[o]? = shares[o]?.filter (now < ·) := by
  rw [ExtTreeMap.getElem?_filter, Option.pfilter_eq_filter]

theorem live?_expire (e : LockEntry) (now : Instant) (o : String) :
    (e.expire now).live? now o = e.live? now o := by
  rw [LockEntry.live?, getElem?_expire, LockEntry.live?, Option.filter_filter]
  simp

theorem later {now' : Instant} (h : RowsOfLock now e owner shares) (whole : now.IsWhole)
    (whole' : now'.IsWhole) (le : now ≤ now') : RowsOfLock now' e owner shares where
  owner := h.owner
  whole := h.whole
  live o := by
    -- a share that is live at the later instant is live at the earlier one, on both sides
    have rows : shares[o]?.filter (now'.millis < ·)
        = (shares[o]?.filter (now.millis < ·)).filter (now'.millis < ·) := by
      have passed := Instant.millis_le_of_le le whole.outside
      cases shares[o]? <;> grind
    have entry : e.live? now' o = (e.live? now o).filter (now' < ·) := by
      rw [LockEntry.live?, LockEntry.live?]
      cases e.shared[o]? <;> grind
    rw [rows, h.live, entry]
    cases found : e.live? now o with
    | none => rfl
    | some t =>
      have known := h.whole o t (Option.eq_some_of_filter_eq_some found)
      have same := whole'.lt_iff_millis_lt known
      simp only [Option.map_some, Option.filter_some, same]
      split <;> rfl

/-- Shares whose time is up may be dropped. -/
theorem expire (h : RowsOfLock now e owner shares) : RowsOfLock now (e.expire now) owner shares where
  owner := h.owner
  live o := by rw [live?_expire]; exact h.live o
  whole o t found := by
    rw [getElem?_expire] at found
    exact h.whole o t (Option.eq_some_of_filter_eq_some found)

theorem dropRows (h : RowsOfLock now e owner shares) :
    RowsOfLock now e owner (shares.filter fun _ expiry => now.millis < expiry) where
  owner := h.owner
  live o := by
    rw [getElem?_filter_live, Option.filter_filter, ← h.live]
    simp
  whole := h.whole

theorem own (h : RowsOfLock now e owner shares) (owner' : Option String) :
    RowsOfLock now { e with owner := owner' } owner' shares :=
  ⟨rfl, h.live, h.whole⟩

theorem insert (h : RowsOfLock now e owner shares) {t : Instant} (whole : t.IsWhole)
    (now_whole : now.IsWhole) (o : String) :
    RowsOfLock now { e with shared := e.shared.insert o t } owner (shares.insert o t.millis) where
  owner := h.owner
  live other := by
    rw [LockEntry.live?, ExtTreeMap.getElem?_insert, ExtTreeMap.getElem?_insert]
    split
    case isTrue =>
      simp only [Option.filter_some, now_whole.lt_iff_millis_lt whole]
      split <;> rfl
    case isFalse => exact h.live other
  whole other t' found := by
    rw [ExtTreeMap.getElem?_insert] at found
    split at found
    case isTrue =>
      cases found
      exact whole
    case isFalse => exact h.whole other t' found

theorem erase (h : RowsOfLock now e owner shares) (o : String) :
    RowsOfLock now { e with shared := e.shared.erase o } owner (shares.erase o) where
  owner := h.owner
  live other := by
    rw [LockEntry.live?, ExtTreeMap.getElem?_erase, ExtTreeMap.getElem?_erase]
    split
    case isTrue => rfl
    case isFalse => exact h.live other
  whole other t' found := by
    rw [ExtTreeMap.getElem?_erase] at found
    split at found
    case isTrue => cases found
    case isFalse => exact h.whole other t' found

/-- The rows whose time is not up are the shares that the entry shows. -/
theorem getElem?_live (h : RowsOfLock now e owner shares) (o : String) :
    (shares.filter fun _ expiry => now.millis < expiry)[o]?
      = (e.expire now).shared[o]?.map Instant.millis := by
  rw [getElem?_filter_live, h.live, getElem?_expire]

theorem contains (h : RowsOfLock now e owner shares) (o : String) :
    (shares.filter fun _ expiry => now.millis < expiry).contains o
      = (e.expire now).shared.contains o := by
  rw [← ExtTreeMap.isSome_getElem?_eq_contains, h.getElem?_live, Option.isSome_map,
    ExtTreeMap.isSome_getElem?_eq_contains]

theorem isEmpty (h : RowsOfLock now e owner shares) :
    (shares.filter fun _ expiry => now.millis < expiry).isEmpty
      = (e.expire now).shared.isEmpty := by
  rw [Bool.eq_iff_iff, ExtTreeMap.isEmpty_iff, ExtTreeMap.isEmpty_iff,
    ExtTreeMap.eq_empty_iff_forall_contains, ExtTreeMap.eq_empty_iff_forall_contains]
  simp only [h.contains]

theorem decode (h : RowsOfLock now e owner shares) :
    (shares.filter fun _ expiry => now.millis < expiry).map
        (fun _ expiry => TableStore.decodeExpiry expiry) = (e.expire now).shared := by
  apply ExtTreeMap.ext_getElem?
  intro o
  rw [ExtTreeMap.getElem?_map, h.getElem?_live]
  cases found : (e.expire now).shared[o]? with
  | none => rfl
  | some t =>
    have whole : t.IsWhole := h.expire.whole o t found
    simp [TableStore.decodeExpiry, whole.ofMillis?_millis]

end RowsOfLock

/-! ## All locks -/

/-- The rows of each lock stand for its entry. -/
def RowsOfLocks (now : Instant) (t : TableStore) (m : MemoryStore) : Prop :=
  ∀ name, RowsOfLock now (m.locks.getD name .free) (t.owner? name) (t.sharesOf name)

namespace RowsOfLocks

variable {t t' : TableStore} {m m' : MemoryStore}

theorem empty : RowsOfLocks now .empty .empty := by
  intro name
  have entry : MemoryStore.empty.locks.getD name .free = .free := ExtTreeMap.getD_empty
  rw [entry]
  exact ⟨rfl, fun o => rfl, fun o t found => by simp [LockEntry.free] at found⟩

theorem later {now' : Instant} (h : RowsOfLocks now t m) (whole : now.IsWhole)
    (whole' : now'.IsWhole) (le : now ≤ now') : RowsOfLocks now' t m :=
  fun name => (h name).later whole whole' le

/-- Only the lock of one name is changed. -/
theorem change (h : RowsOfLocks now t m) (holds : RowsOfLock now e owner shares)
    (entries : ∀ n, m'.locks.getD n .free = if name = n then e else m.locks.getD n .free)
    (owners : ∀ n, t'.owner? n = if name = n then owner else t.owner? n)
    (rows : ∀ n, t'.sharesOf n = if name = n then shares else t.sharesOf n) :
    RowsOfLocks now t' m' := by
  intro n
  rw [entries, owners, rows]
  split
  · exact holds
  · exact h n

theorem same_owner (t : TableStore) (name n : String) :
    t.owner? n = if name = n then t.owner? name else t.owner? n := by
  split
  case isTrue same => rw [same]
  case isFalse => rfl

theorem same_shares (t : TableStore) (name n : String) :
    t.sharesOf n = if name = n then t.sharesOf name else t.sharesOf n := by
  split
  case isTrue same => rw [same]
  case isFalse => rfl

/-! ### Calls -/

/-- Memory drops the shares of a lock whose time is up; the tables stay as they are. -/
theorem putLock (h : RowsOfLocks now t m) (name : String) :
    RowsOfLocks now t (m.putLock name (m.lockAt now name)) :=
  h.change (h name).expire (m.getD_putLock name _) (same_owner t name) (same_shares t name)

theorem settleLock (h : RowsOfLocks now t m) (name : String) :
    RowsOfLocks now t (m.settleLock name (m.lockAt now name)) :=
  h.change (h name).expire (m.getD_settleLock name _) (same_owner t name) (same_shares t name)

section

variable (h : RowsOfLocks now t m) (name o : String)

include h

theorem isEmpty_liveShares :
    (t.liveShares now.millis name).isEmpty = (m.lockAt now name).shared.isEmpty :=
  (h name).isEmpty

theorem contains_liveShares :
    (t.liveShares now.millis name).contains o = (m.lockAt now name).shared.contains o :=
  (h name).contains o

theorem owner?_eq : t.owner? name = (m.lockAt now name).owner := (h name).owner

theorem lockExclusive :
    (t.lockExclusive now.millis name o).1 = (m.lockExclusive now name o).1 ∧
      RowsOfLocks now (t.lockExclusive now.millis name o).2 (m.lockExclusive now name o).2 := by
  have dropped := h.putLock name
  have taken (owner' : Option String) : RowsOfLocks now
      { t with locks := t.locks.insert name owner' }
      (m.putLock name { m.lockAt now name with owner := owner' }) :=
    h.change ((h name).expire.own owner') (m.getD_putLock name _) (t.owner?_insert name owner')
      (same_shares t name)
  rw [TableStore.lockExclusive, MemoryStore.lockExclusive, h.isEmpty_liveShares, h.owner?_eq]
  by_cases shared : (m.lockAt now name).shared.isEmpty
  · cases held : (m.lockAt now name).owner with
    | none => simpa [shared, held] using taken (some o)
    | some current =>
      -- the owner may take the lock again, which writes its row anew
      by_cases own : current = o
      · have again := taken (some o)
        rw [show { m.lockAt now name with owner := some o } = m.lockAt now name by
          rw [← own, ← held]] at again
        simpa [shared, held, own] using again
      · simpa [shared, held, own] using dropped
  · simpa [shared] using dropped

theorem lockShared (whole : now.IsWhole) {ttl : Duration} (later : (now.later ttl).IsWhole) :
    (t.lockShared now.millis name o (now.later ttl).millis).1 = (m.lockShared now name o ttl).1 ∧
      RowsOfLocks now (t.lockShared now.millis name o (now.later ttl).millis).2
        (m.lockShared now name o ttl).2 := by
  have dropped : RowsOfLocks now (t.putShares name (t.liveShares now.millis name))
      (m.putLock name (m.lockAt now name)) :=
    h.change (h name).dropRows.expire (m.getD_putLock name _) (same_owner t name)
      (t.sharesOf_putShares name _)
  have taken : RowsOfLocks now
      (t.putShares name ((t.liveShares now.millis name).insert o (now.later ttl).millis))
      (m.putLock name { m.lockAt now name with
        shared := (m.lockAt now name).shared.insert o (now.later ttl) }) :=
    h.change ((h name).dropRows.expire.insert later whole o) (m.getD_putLock name _)
      (same_owner t name) (t.sharesOf_putShares name _)
  rw [TableStore.lockShared, MemoryStore.lockShared]
  cases held : (m.lockAt now name).owner with
  | none => simpa [h.owner?_eq, held] using taken
  | some current => simpa [h.owner?_eq, held] using dropped

omit h in
/-- A lock without an entry is free. -/
theorem lockAt_absent (absent : ¬m.locks.contains name) : m.lockAt now name = .free := by
  have entry : m.locks.getD name .free = .free :=
    ExtTreeMap.getD_eq_fallback (mt ExtTreeMap.mem_iff_contains.mp absent)
  rw [MemoryStore.lockAt, entry]
  rfl

theorem unlockShared :
    (t.unlockShared now.millis name o).1 = (m.unlockShared now name o).1 ∧
      RowsOfLocks now (t.unlockShared now.millis name o).2 (m.unlockShared now name o).2 := by
  rw [TableStore.unlockShared, MemoryStore.unlockShared, h.contains_liveShares, h.owner?_eq]
  by_cases known : m.locks.contains name
  · have released : RowsOfLocks now (t.putShares name ((t.sharesOf name).erase o))
        (m.settleLock name { m.lockAt now name with
          shared := (m.lockAt now name).shared.erase o }) :=
      h.change ((h name).expire.erase o) (m.getD_settleLock name _) (same_owner t name)
        (t.sharesOf_putShares name _)
    by_cases mine : (m.lockAt now name).owner.isNone ∧ (m.lockAt now name).shared.contains o
    · simpa [known, mine] using released
    · rw [if_neg fun both => mine both.symm, if_pos known]
      dsimp only
      rw [if_neg (by rw [Bool.and_eq_true]; exact mine)]
      exact ⟨rfl, h.settleLock name⟩
  · simpa [known, lockAt_absent name known, LockEntry.free] using h

theorem unlockExclusive :
    (t.unlockExclusive name o).1 = (m.unlockExclusive now name o).1 ∧
      RowsOfLocks now (t.unlockExclusive name o).2 (m.unlockExclusive now name o).2 := by
  rw [TableStore.unlockExclusive, MemoryStore.unlockExclusive, h.owner?_eq]
  by_cases known : m.locks.contains name
  · by_cases mine : (m.lockAt now name).owner = some o
    · have released : RowsOfLocks now { t with locks := t.locks.insert name none }
          (m.settleLock name { m.lockAt now name with owner := none }) :=
        h.change ((h name).expire.own none) (m.getD_settleLock name _)
          (t.owner?_insert name none) (same_shares t name)
      simpa [known, mine] using released
    · simpa [known, mine] using h.settleLock name
  · simpa [known, lockAt_absent name known, LockEntry.free] using h

theorem viewLock : t.viewLock now.millis name = m.viewLock now name := by
  rw [TableStore.viewLock, MemoryStore.viewLock, h.owner?_eq]
  have shared : (t.liveShares now.millis name).map (fun _ expiry => TableStore.decodeExpiry expiry)
      = (m.lockAt now name).shared := (h name).decode
  rw [shared]

end

end RowsOfLocks

end SliceScheduler
