import SliceScheduler.Proofs.Scenario
import SliceScheduler.Proofs.TableLocks
import SliceScheduler.Store.Backend
/-!
# A lock is owned or shared

1. `MemoryStore.OneMode` says that no lock has both an owner and shares. Every call keeps this, at
   whatever instant it is made, so that no lock is ever shown with both: `Backend.memory_one_mode`;
2. the tables keep the rows of shares whose time is up. Of them `TableStore.OneMode` speaks at an
   instant, and it holds at all later ones: `Backend.tables_one_mode` asks for a clock that does not
   go back, and `Backend.tables_two_modes` shows what happens when it does;
3. who owns a lock owns it until that owner gives it back, whatever the clock does:
   `Backend.owner?_after`.
-/
namespace SliceScheduler

variable {now now' : Instant} {name o : String}

/-! ## In memory -/

namespace MemoryStore

/-- No lock has both an owner and shares. -/
def OneMode (s : MemoryStore) : Prop :=
  ∀ name, (s.locks.getD name .free).owner = none ∨ (s.locks.getD name .free).shared = ∅

namespace OneMode

variable {s s' : MemoryStore}

theorem empty : OneMode .empty := by
  intro name
  have entry : MemoryStore.empty.locks.getD name .free = .free := Std.ExtTreeMap.getD_empty
  rw [entry]
  exact .inl rfl

theorem lockAt (h : s.OneMode) (now : Instant) (name : String) :
    (s.lockAt now name).owner = none ∨ (s.lockAt now name).shared = ∅ := by
  rcases h name with free | unshared
  · exact .inl free
  · right
    rw [MemoryStore.lockAt, LockEntry.expire, unshared]
    rfl

/-- Only the lock of one name is changed, which keeps to one mode. -/
theorem change (h : s.OneMode) {e : LockEntry}
    (entries : ∀ n, s'.locks.getD n .free = if name = n then e else s.locks.getD n .free)
    (one : e.owner = none ∨ e.shared = ∅) : s'.OneMode := by
  intro n
  rw [entries]
  split
  · exact one
  · exact h n

/-- Every call keeps owners and shares apart. -/
theorem perform (h : s.OneMode) (now : Instant) (op : Operation) :
    (s.perform now op).2.OneMode := by
  cases op with
  | lockExclusive name o =>
    simp only [MemoryStore.perform, lockExclusive]
    split
    · exact h.change (s.getD_putLock name _) (h.lockAt now name)
    · rename_i unshared
      -- the shares whose time was up are gone before the lock has an owner
      have alone : (s.lockAt now name).shared = ∅ := by simpa using unshared
      split
      · exact h.change (s.getD_putLock name _) (.inr alone)
      · exact h.change (s.getD_putLock name _) (.inr alone)
  | lockShared name o ttl =>
    simp only [MemoryStore.perform, lockShared]
    split
    · exact h.change (s.getD_putLock name _) (h.lockAt now name)
    · rename_i free
      exact h.change (s.getD_putLock name _) (.inl (by simpa using free))
  | unlockShared name o =>
    simp only [MemoryStore.perform, unlockShared]
    split
    · split
      · rename_i known held
        rw [Bool.and_eq_true, Option.isNone_iff_eq_none] at held
        exact h.change (s.getD_settleLock name _) (.inl held.1)
      · exact h.change (s.getD_settleLock name _) (h.lockAt now name)
    · exact h
  | unlockExclusive name o =>
    simp only [MemoryStore.perform, unlockExclusive]
    split
    · split
      · exact h.change (s.getD_settleLock name _) (.inl rfl)
      · exact h.change (s.getD_settleLock name _) (h.lockAt now name)
    · exact h
  | getJob id | insertJob job | updateJob job | deleteJob id | removeScheduled slice id
  | initPointer slice | movePointer expected next =>
    simp only [MemoryStore.perform]
    split <;> exact h
  | _ => exact h

end OneMode

end MemoryStore

/-! ## In tables -/

namespace TableStore

/-- No lock has both an owner and a share whose time is not up. -/
def OneMode (s : TableStore) (now : Int) : Prop :=
  ∀ name, s.owner? name = none ∨ (s.liveShares now name).isEmpty

namespace OneMode

variable {s s' : TableStore} {now now' : Int}

theorem empty : OneMode .empty now := fun _ => .inl rfl

theorem isEmpty_filter_later {shares : Std.ExtTreeMap String Int} (le : now ≤ now')
    (passed : (shares.filter fun _ expiry => now < expiry).isEmpty) :
    (shares.filter fun _ expiry => now' < expiry).isEmpty := by
  rw [Std.ExtTreeMap.isEmpty_iff, Std.ExtTreeMap.eq_empty_iff_forall_contains] at passed ⊢
  intro o
  have gone := passed o
  rw [← Std.ExtTreeMap.isSome_getElem?_eq_contains, RowsOfLock.getElem?_filter_live,
    Option.isSome_filter] at gone ⊢
  cases found : shares[o]? with
  | none => rfl
  | some expiry =>
    rw [found] at gone
    simp only [Option.any_some, decide_eq_false_iff_not] at gone ⊢
    omega

/-- Shares only run out while the clock does not go back. -/
theorem later (h : s.OneMode now) (le : now ≤ now') : s.OneMode now' :=
  fun name => (h name).imp id (isEmpty_filter_later le)

/-- Only the lock of one name is changed, which keeps to one mode. -/
theorem change (h : s.OneMode now) {owner : Option String} {shares : Std.ExtTreeMap String Int}
    (owners : ∀ n, s'.owner? n = if name = n then owner else s.owner? n)
    (rows : ∀ n, s'.sharesOf n = if name = n then shares else s.sharesOf n)
    (one : owner = none ∨ (shares.filter fun _ expiry => now < expiry).isEmpty) :
    s'.OneMode now := by
  intro n
  rw [owners, liveShares, rows]
  split
  · exact one
  · exact h n

/-- Every call keeps owners and live shares apart. -/
theorem performOpen {now : Instant} (h : s.OneMode now.millis) (op : Operation) :
    (s.performOpen now op).2.OneMode now.millis := by
  cases op with
  | lockExclusive name o =>
    simp only [TableStore.performOpen, lockExclusive]
    split
    · rename_i alone
      exact h.change (s.owner?_insert name _) (RowsOfLocks.same_shares s name) (.inr alone.1)
    · exact h
  | lockShared name o ttl =>
    simp only [TableStore.performOpen, lockShared]
    split
    · rename_i free
      exact h.change (RowsOfLocks.same_owner s name) (s.sharesOf_putShares name _)
        (.inl (by simpa using free))
    · refine h.change (RowsOfLocks.same_owner s name) (s.sharesOf_putShares name _) ?_
      refine (h name).imp id fun unshared => ?_
      rw [Std.ExtTreeMap.isEmpty_iff] at unshared
      rw [unshared]
      rfl
  | unlockShared name o =>
    simp only [TableStore.performOpen, unlockShared]
    split
    · rename_i held
      exact h.change (RowsOfLocks.same_owner s name) (s.sharesOf_putShares name _)
        (.inl (by simpa using held.2))
    · exact h
  | unlockExclusive name o =>
    simp only [TableStore.performOpen, unlockExclusive]
    split
    · exact h.change (s.owner?_insert name none) (RowsOfLocks.same_shares s name) (.inl rfl)
    · exact h
  | getJob id | insertJob job | updateJob job | deleteJob id | removeScheduled slice id
  | initPointer slice | movePointer expected next =>
    simp only [TableStore.performOpen]
    split <;> exact h
  | _ => exact h

theorem perform {now : Instant} (h : s.OneMode now.millis) (op : Operation) :
    (s.perform now op).2.OneMode now.millis := by
  unfold TableStore.perform
  split
  · exact h
  · exact h.performOpen op

end OneMode

/-- The owner is the one that the tables show at any time. -/
theorem owner_viewLock (s : TableStore) (now : Int) (name : String) :
    (s.viewLock now name).bind (·.owner) = s.owner? name :=
  LockView.owner_shown _

/-- Only its owner gives back a lock. -/
theorem owner?_perform {s : TableStore} (held : s.owner? name = some o) (now : Instant)
    (op : Operation) :
    op = .unlockExclusive name o ∨ (s.perform now op).2.owner? name = some o := by
  unfold perform
  split
  · exact .inr held
  · cases op with
    | lockExclusive taken mine =>
      simp only [performOpen, lockExclusive]
      split
      · rename_i free
        right
        rw [owner?_insert]
        split
        · rename_i same
          rw [same, held] at free
          exact (free.2.resolve_left (Option.some_ne_none o)).symm
        · exact held
      · exact .inr held
    | unlockExclusive released mine =>
      simp only [performOpen, unlockExclusive]
      split
      · rename_i owned
        rw [owner?_insert]
        split
        · rename_i same
          rw [same, held, Option.some.injEq] at owned
          exact .inl (by rw [same, owned])
        · exact .inr held
      · exact .inr held
    | lockShared name o ttl | unlockShared name o =>
      simp only [performOpen, lockShared, unlockShared]
      split <;> exact .inr held
    | getJob id | insertJob job | updateJob job | deleteJob id | removeScheduled slice id
    | initPointer slice | movePointer expected next =>
      simp only [performOpen]
      split <;> exact .inr held
    | _ => exact .inr held

end TableStore

/-! ## Runs -/

namespace Backend

/-- The store after calls that are made one after the other, each at an instant. -/
def after (s : Backend) (calls : List (Instant × Operation)) : Backend :=
  calls.foldl (fun s (now, op) => (s.perform now op).2) s

/-- The store shows a lock with an owner as well as shares. -/
def ShowsBoth (s : Backend) (now : Instant) (name : String) : Prop :=
  ∃ view, (s.perform now (.getLock name)).1 = .ok (some view) ∧ view.owner ≠ none ∧ view.shared ≠ ∅

theorem not_showsBoth_memory {s : MemoryStore} (h : s.OneMode) (now : Instant) (name : String) :
    ¬(memory s).ShowsBoth now name := by
  rintro ⟨view, shown, owned, shared⟩
  have seen : s.viewLock now name = some view := Except.ok.inj shown
  unfold MemoryStore.viewLock at seen
  simp only at seen
  split at seen
  · cases seen
  · cases seen
    rcases h.lockAt now name with free | unshared
    · exact owned free
    · exact shared unshared

/-- What the tables show of a lock is what its rows say at that instant. -/
theorem showsBoth_tables {s : TableStore} {now : Instant} {name : String} :
    (tables s).ShowsBoth now name ↔
      s.closed = false ∧ s.owner? name ≠ none ∧ ¬(s.liveShares now.millis name).isEmpty := by
  constructor
  · rintro ⟨view, shown, owned, shared⟩
    replace shown : (s.perform now (.getLock name)).1 = .ok (some view) := shown
    unfold TableStore.perform at shown
    split at shown
    · cases shown
    · rename_i opened
      have seen : s.viewLock now.millis name = some view := Except.ok.inj shown
      unfold TableStore.viewLock at seen
      simp only at seen
      split at seen
      · cases seen
      · cases seen
        rw [Ne, Std.ExtTreeMap.map_eq_empty_iff, ← Std.ExtTreeMap.isEmpty_iff] at shared
        exact ⟨by simpa using opened, owned, shared⟩
  · rintro ⟨opened, owned, shared⟩
    -- with an owner the lock is not free, so that it is shown
    have seen : s.viewLock now.millis name = some ⟨s.owner? name,
        (s.liveShares now.millis name).map fun _ expiry => TableStore.decodeExpiry expiry⟩ := by
      simp [TableStore.viewLock, LockView.isFree, owned]
    have shown : ((tables s).perform now (.getLock name)).1 = .ok (s.viewLock now.millis name) := by
      show (s.perform now (.getLock name)).1 = _
      rw [TableStore.perform, opened]
      rfl
    refine ⟨_, shown.trans (congrArg _ seen), owned, ?_⟩
    rw [Ne, Std.ExtTreeMap.map_eq_empty_iff, ← Std.ExtTreeMap.isEmpty_iff]
    exact shared

theorem not_showsBoth_tables {s : TableStore} {now : Instant} (h : s.OneMode now.millis)
    (name : String) : ¬(tables s).ShowsBoth now name := by
  rw [showsBoth_tables]
  rintro ⟨-, owned, shared⟩
  exact (h name).elim owned shared

theorem after_memory {s : MemoryStore} (h : s.OneMode) (calls : List (Instant × Operation)) :
    ∃ s', (memory s).after calls = memory s' ∧ s'.OneMode := by
  induction calls generalizing s with
  | nil => exact ⟨s, rfl, h⟩
  | cons call calls ih => exact ih (h.perform call.1 call.2)

/-- Whatever calls are made to the store in memory, at whatever instants, it shows no lock with both
an owner and shares. -/
theorem memory_one_mode (calls : List (Instant × Operation)) (now : Instant) (name : String) :
    ¬((memory .empty).after calls).ShowsBoth now name := by
  obtain ⟨s, same, one⟩ := after_memory .empty calls
  rw [same]
  exact not_showsBoth_memory one now name

theorem after_tables {s : TableStore} {start now : Instant} (h : s.OneMode start.millis)
    (calls : List (Instant × Operation)) (later : ∀ call ∈ calls, start.millis ≤ call.1.millis)
    (ordered : calls.Pairwise fun a b => a.1.millis ≤ b.1.millis)
    (last : start.millis ≤ now.millis ∧ ∀ call ∈ calls, call.1.millis ≤ now.millis) :
    ∃ s', (tables s).after calls = tables s' ∧ s'.OneMode now.millis := by
  induction calls generalizing s start with
  | nil => exact ⟨s, rfl, h.later last.1⟩
  | cons call calls ih =>
    obtain ⟨first, ordered⟩ := List.pairwise_cons.mp ordered
    have kept := (h.later (later call List.mem_cons_self)).perform call.2
    exact ih kept first ordered ⟨last.2 call List.mem_cons_self,
      fun other mem => last.2 other (List.mem_cons_of_mem _ mem)⟩

/-- The tables show no lock with both an owner and shares as long as the clock does not go back. -/
theorem tables_one_mode (calls : List (Instant × Operation)) (now : Instant) (name : String)
    (ordered : calls.Pairwise fun a b => a.1.millis ≤ b.1.millis)
    (last : ∀ call ∈ calls, call.1.millis ≤ now.millis) :
    ¬((tables .empty).after calls).ShowsBoth now name := by
  have kept : ∃ s', (tables .empty).after calls = tables s' ∧ s'.OneMode now.millis := by
    cases calls with
    | nil => exact ⟨.empty, rfl, .empty⟩
    | cons call calls =>
      obtain ⟨first, -⟩ := List.pairwise_cons.mp ordered
      refine after_tables .empty _ ?_ ordered ⟨last call List.mem_cons_self, last⟩
      intro other mem
      rcases List.mem_cons.mp mem with rfl | mem
      · exact le_rfl
      · exact first other mem
  obtain ⟨s, same, one⟩ := kept
  rw [same]
  exact not_showsBoth_tables one name

/-- When the clock goes back, the row of a share whose time was up counts again, beside the owner
who has taken the lock since. -/
theorem tables_two_modes :
    ((tables .empty).after
      [(.newYear2024, .lockShared "round" "reader" (.ofSeconds 1)),
        (Instant.newYear2024.later (.ofSeconds 1), .lockExclusive "round" "writer")]).ShowsBoth
      .newYear2024 "round" :=
  showsBoth_tables.mpr (by decide +kernel)

/-! ### Owners that stay -/

/-- The owner of the lock of a name. -/
def owner? : Backend → String → Option String
  | memory s, name => s.owner name
  | tables s, name => s.owner? name

/-- The owner is the one that a store shows at any time at which it answers. -/
theorem owner?_eq {s : Backend} {view : Option LockView}
    (shown : (s.perform now (.getLock name)).1 = .ok view) :
    view.bind (·.owner) = s.owner? name := by
  cases s with
  | memory s =>
    obtain rfl : s.viewLock now name = view := Except.ok.inj shown
    exact s.owner_viewLock now name
  | tables s =>
    replace shown : (s.perform now (.getLock name)).1 = .ok view := shown
    unfold TableStore.perform at shown
    split at shown
    · cases shown
    · obtain rfl : s.viewLock now.millis name = view := Except.ok.inj shown
      exact s.owner_viewLock now.millis name

theorem owner?_perform {s : Backend} (held : s.owner? name = some o) (now : Instant)
    (op : Operation) :
    op = .unlockExclusive name o ∨ (s.perform now op).2.owner? name = some o := by
  cases s with
  | tables s => exact TableStore.owner?_perform held now op
  | memory s =>
    have made : s.attempt now none op = ((s.perform now op).1, (s.perform now op).2) := rfl
    replace held : s.owner name = some o := held
    rcases MemoryStore.owner_cases made name with same | ⟨_, -, free, -⟩ | ⟨_, rfl, mine⟩
    · exact .inr (same.trans held)
    · rw [held] at free
      cases free
    · rw [held, Option.some.injEq] at mine
      exact .inl (by rw [mine])

/-- Who owns a lock owns it after any calls, at whatever instants, none of which is this owner's
call that gives it back. -/
theorem owner?_after {s : Backend} (held : s.owner? name = some o)
    (calls : List (Instant × Operation))
    (kept : ∀ call ∈ calls, call.2 ≠ .unlockExclusive name o) :
    (s.after calls).owner? name = some o := by
  induction calls generalizing s with
  | nil => exact held
  | cons call calls ih =>
    obtain ⟨first, rest⟩ := List.forall_mem_cons.mp kept
    exact ih ((owner?_perform held call.1 call.2).resolve_left first) rest

end Backend

end SliceScheduler
