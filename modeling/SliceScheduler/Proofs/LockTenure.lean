import SliceScheduler.Proofs.LockRules
/-!
# Who has a lock, and for how long

1. `LockView.tenure?` is the time for which an owner has a lock in a mode, and `Backend.tenure?` the
   one in a store;
2. `Backend.Takes` and `Backend.GivesUp` say what calls do to it: they change it for the lock, the
   owner and the mode of the call alone;
3. `Backend.tenure?_later` says what is left of it later, by a clock that `Backend.Passes` allows.
-/
namespace SliceScheduler

/-- How long an owner has a lock. -/
inductive Tenure where
  /-- Until the owner gives it up. -/
  | lasting
  /-- Until an instant, for a share. -/
  | expiring (expiry : Instant)
deriving DecidableEq, Repr

namespace LockView

variable {v : LockView} {o p : String} {mode other : LockMode}

/-- The time for which an owner has the lock in a mode. -/
def tenure? (v : LockView) (o : String) : LockMode → Option Tenure
  | .exclusive => if v.owner = some o then some .lasting else none
  | .shared => v.shared[o]?.map .expiring

theorem isSome_tenure?_shared : (v.tenure? o .shared).isSome = v.shared.contains o := by
  rw [tenure?, Option.isSome_map, Std.ExtTreeMap.isSome_getElem?_eq_contains]

theorem isSome_tenure?_exclusive : (v.tenure? o .exclusive).isSome ↔ v.owner = some o := by
  unfold tenure?
  split <;> simp_all

theorem tenure?_of_isFree (free : v.isFree) : v.tenure? o mode = none := by
  rw [isFree, Bool.and_eq_true, Option.isNone_iff_eq_none, Std.ExtTreeMap.isEmpty_iff] at free
  cases mode with
  | exclusive => rw [tenure?, free.1, if_neg (Option.some_ne_none o).symm]
  | shared => rw [tenure?, free.2, Std.ExtTreeMap.getElem?_empty, Option.map_none]

/-- Who takes a lock has it if the answer says so, and else has it not. -/
theorem OneMode.tenure?_takenBy (one : v.OneMode) (o p : String) (mode : LockMode) :
    (v.takenBy o).2.tenure? p mode =
      if p = o ∧ mode = .exclusive then (if (v.takenBy o).1 then some .lasting else none)
      else v.tenure? p mode := by
  by_cases free : v.shared.isEmpty ∧ (v.owner = none ∨ v.owner = some o)
  · rw [takenBy, if_pos free]
    cases mode with
    | shared =>
      simp only [reduceCtorEq, and_false, if_false]
      rfl
    | exclusive =>
      by_cases own : p = o
      · simp [tenure?, own]
      · have before : v.owner ≠ some p := by
          rcases free.2 with none | mine
          · simp [none]
          · simp [mine, Ne.symm own]
        simp [tenure?, own, Ne.symm own, before]
  · rw [takenBy, if_neg free]
    split
    · rename_i own
      obtain ⟨rfl, rfl⟩ := own
      have other : v.owner ≠ some p := by
        intro mine
        have again := takenBy_again one mine
        rw [takenBy, if_neg free] at again
        cases again
      rw [if_neg Bool.false_ne_true, tenure?, if_neg other]
    · rfl

/-- Who gives up a lock is told whether there was anything to give up. -/
theorem answer_givenUpBy (one : v.OneMode) :
    (v.givenUpBy o mode).1 = (v.tenure? o mode).isSome := by
  cases mode with
  | exclusive =>
    rw [Bool.eq_iff_iff, isSome_tenure?_exclusive, givenUpBy]
    split <;> simp_all
  | shared =>
    rw [isSome_tenure?_shared, givenUpBy]
    split
    · rename_i held
      exact held.2.symm
    · rename_i free
      rcases one with none | unshared
      · exact (Bool.eq_false_iff.mpr fun held => free ⟨none, held⟩).symm
      · rw [unshared]
        rfl

/-- What is not held is not given up. -/
theorem givenUpBy_of_refused (refused : ¬(v.givenUpBy o mode).1) : (v.givenUpBy o mode).2 = v := by
  cases mode with
  | exclusive | shared =>
    simp only [givenUpBy] at refused ⊢
    split <;> simp_all

/-- Who gives up a lock has it no longer in that mode, and all else stays. -/
theorem tenure?_givenUpBy (one : v.OneMode) : (v.givenUpBy o mode).2.tenure? p other =
    if p = o ∧ other = mode then none else v.tenure? p other := by
  by_cases held : (v.givenUpBy o mode).1
  · cases mode with
    | exclusive =>
      have mine : v.owner = some o := by
        by_contra other
        rw [givenUpBy, if_neg other] at held
        cases held
      rw [givenUpBy, if_pos mine]
      cases other with
      | shared =>
        simp only [reduceCtorEq, and_false, if_false]
        rfl
      | exclusive => by_cases own : p = o <;> simp [tenure?, mine, own, Ne.symm]
    | shared =>
      have mine : v.owner = none ∧ v.shared.contains o := by
        by_contra other
        rw [givenUpBy, if_neg other] at held
        cases held
      rw [givenUpBy, if_pos mine]
      cases other with
      | exclusive =>
        simp only [reduceCtorEq, and_false, if_false]
        rfl
      | shared =>
        simp only [tenure?, Std.ExtTreeMap.getElem?_erase, Std.LawfulEqCmp.compare_eq_iff_eq]
        by_cases own : p = o
        · simp [own]
        · simp [own, Ne.symm own]
  · rw [givenUpBy_of_refused held]
    rw [answer_givenUpBy one, Option.isSome_iff_ne_none, not_not] at held
    split
    · rename_i own
      rw [own.1, own.2, held]
    · rfl

end LockView

namespace Backend

variable {s s' : Backend} {now now' : Instant} {name o : String} {lock : HeldLock}

/-! ## Calls -/

/-- The time for which an owner has a lock in a mode. -/
def tenure? (s : Backend) (now : Instant) (lock : HeldLock) : Option Tenure :=
  (s.liveLock now lock.name).tenure? lock.owner lock.mode

/-- An owner has a lock for good. -/
theorem isSome_tenure?_iff_lasting (exclusive : lock.mode = .exclusive) :
    (s.tenure? now lock).isSome ↔ s.tenure? now lock = some .lasting := by
  rw [tenure?, exclusive, LockView.tenure?]
  split <;> simp

/-- Nobody has a lock that is not shown. -/
theorem tenure?_of_unlocked (keeps : s.KeepsModes now)
    (unlocked : (s.perform now (.getLock lock.name)).1 = .ok none) : s.tenure? now lock = none := by
  rw [perform_getLock keeps, Except.ok.injEq] at unlocked
  apply LockView.tenure?_of_isFree
  by_contra locked
  rw [if_neg locked] at unlocked
  cases unlocked

theorem tenure?_of_update {v : LockView}
    (update : s'.liveLock now = Function.update (s.liveLock now) name v) (other : HeldLock) :
    s'.tenure? now other =
      if other.name = name then v.tenure? other.owner other.mode else s.tenure? now other := by
  rw [tenure?, update, Function.update_apply]
  split <;> rfl

/-- What taking a lock does. The share of a lock may be over as soon as it is taken. -/
structure Takes (s : Backend) (now : Instant) (lock : HeldLock) (answer : Except StoreError Bool)
    (s' : Backend) : Prop where
  keeps : s'.KeepsModes now
  answered : ∃ granted, answer = .ok granted
  told : (s'.tenure? now lock).isSome → answer = .ok true
  again : lock.mode = .exclusive → (s.tenure? now lock).isSome → answer = .ok true
  lasts : lock.mode = .exclusive → answer = .ok true → (s'.tenure? now lock).isSome
  others : ∀ other, other ≠ lock → s'.tenure? now other = s.tenure? now other

/-- What giving up a lock does. -/
structure GivesUp (s : Backend) (now : Instant) (lock : HeldLock)
    (answer : Except StoreError Bool) (s' : Backend) : Prop where
  keeps : s'.KeepsModes now
  answer : answer = .ok (s.tenure? now lock).isSome
  tenure : ∀ other, s'.tenure? now other = if other = lock then none else s.tenure? now other

theorem takes_lockExclusive (keeps : s.KeepsModes now) (name o : String) :
    s.Takes now ⟨name, o, .exclusive⟩ (s.perform now (.lockExclusive name o)).1
      (s.perform now (.lockExclusive name o)).2 := by
  obtain ⟨answer, update⟩ := perform_lockExclusive keeps name o
  have tenure := tenure?_of_update update
  have rule (p : String) (mode : LockMode) := (keeps.liveLock name).tenure?_takenBy o p mode
  have own := tenure ⟨name, o, .exclusive⟩
  rw [if_pos rfl, rule, if_pos ⟨rfl, rfl⟩] at own
  refine ⟨keeps.perform _, ⟨_, answer⟩, fun held => ?_, fun _ mine => ?_, fun _ granted => ?_,
    fun other differs => ?_⟩
  · rw [own] at held
    rw [answer]
    split at held
    · rename_i granted
      rw [granted]
    · cases held
  · have owned := LockView.isSome_tenure?_exclusive.mp mine
    rw [answer, LockView.takenBy_again (keeps.liveLock name) owned]
  · rw [answer, Except.ok.injEq] at granted
    rw [own, granted]
    rfl
  · rw [tenure]
    split
    · rename_i same
      rw [rule, if_neg, tenure?, same]
      rintro ⟨sameOwner, sameMode⟩
      exact differs (by cases other; simp_all)
    · rfl

theorem takes_lockShared (keeps : s.KeepsModes now) (name o : String) (ttl : Duration) :
    s.Takes now ⟨name, o, .shared⟩ (s.perform now (.lockShared name o ttl)).1
      (s.perform now (.lockShared name o ttl)).2 := by
  obtain ⟨granted, v, answer, shared, update⟩ := perform_lockShared keeps name o ttl
  have tenure := tenure?_of_update update
  have own := tenure ⟨name, o, .shared⟩
  rw [if_pos rfl] at own
  refine ⟨keeps.perform _, ⟨_, answer⟩, fun held => ?_, nofun, nofun,
    fun other differs => ?_⟩
  · -- who was refused would share a lock that another one owns
    rw [own, LockView.isSome_tenure?_shared] at held
    rw [answer]
    by_contra refused
    have refused : granted = false := by simpa using refused
    have owned : (s.liveLock now name).owner ≠ none := by
      rw [← Option.isSome_iff_ne_none]
      simpa [refused] using shared.answer
    rw [shared.refused refused, (keeps.liveLock name).resolve_left owned] at held
    cases held
  · rw [tenure]
    split
    · rename_i same
      obtain ⟨n, p, mode⟩ := other
      obtain rfl : n = name := same
      cases mode with
      | exclusive => simp only [tenure?, LockView.tenure?, shared.owner]
      | shared =>
        have otherOwner : p ≠ o := fun sameOwner => differs (sameOwner ▸ rfl)
        simp only [tenure?, LockView.tenure?, shared.others p otherOwner]
    · rfl

/-- Giving up a lock in either mode. -/
theorem givesUp_of_update {answer : Except StoreError Bool} (keeps : s.KeepsModes now)
    (keeps' : s'.KeepsModes now)
    (answered : answer = .ok ((s.liveLock now lock.name).givenUpBy lock.owner lock.mode).1)
    (update : s'.liveLock now = Function.update (s.liveLock now) lock.name
      ((s.liveLock now lock.name).givenUpBy lock.owner lock.mode).2) :
    s.GivesUp now lock answer s' := by
  have one := keeps.liveLock lock.name
  refine ⟨keeps', answered.trans (congrArg Except.ok (LockView.answer_givenUpBy one)),
    fun other => ?_⟩
  rw [tenure?_of_update update, LockView.tenure?_givenUpBy one]
  obtain ⟨n, p, mode⟩ := other
  obtain ⟨name, o, mode'⟩ := lock
  by_cases same : n = name
  · subst same
    simp only [HeldLock.mk.injEq, true_and, if_true]
    rfl
  · simp [same]

theorem givesUp_unlockExclusive (keeps : s.KeepsModes now) (name o : String) :
    s.GivesUp now ⟨name, o, .exclusive⟩ (s.perform now (.unlockExclusive name o)).1
      (s.perform now (.unlockExclusive name o)).2 :=
  givesUp_of_update keeps (keeps.perform _) (perform_unlockExclusive keeps name o).1
    (perform_unlockExclusive keeps name o).2

theorem givesUp_unlockShared (keeps : s.KeepsModes now) (name o : String) :
    s.GivesUp now ⟨name, o, .shared⟩ (s.perform now (.unlockShared name o)).1
      (s.perform now (.unlockShared name o)).2 :=
  givesUp_of_update keeps (keeps.perform _) (perform_unlockShared keeps name o).1
    (perform_unlockShared keeps name o).2

/-! ## Later -/

/-- The clock of a store does not go back. Tables count milliseconds, and those of a leap second run
on past those of the second after it. -/
def Passes : Backend → Instant → Instant → Prop
  | memory _, now, now' => now ≤ now'
  | tables _, now, now' => now.millis ≤ now'.millis

theorem KeepsModes.later (keeps : s.KeepsModes now) (passes : s.Passes now now') :
    s.KeepsModes now' := by
  cases s with
  | memory s => exact keeps
  | tables s => exact ⟨keeps.1, keeps.2.later passes⟩

/-- An expiry that was live is live later, or over. -/
theorem live_later {α : Type} [LinearOrder α] {now now' : α} (le : now ≤ now') (expiry : Option α) :
    expiry.filter (now' < ·) = expiry.filter (now < ·) ∨ expiry.filter (now' < ·) = none := by
  cases expiry with
  | none => exact .inl rfl
  | some expiry =>
    by_cases live : now' < expiry
    · simp [Option.filter_some, live, lt_of_le_of_lt le live]
    · simp [Option.filter_some, live]

/-- The owner of a lock stays, and shares only run out. -/
theorem tenure?_later (passes : s.Passes now now') (lock : HeldLock) :
    s.tenure? now' lock = s.tenure? now lock ∨
      lock.mode = .shared ∧ s.tenure? now' lock = none := by
  obtain ⟨name, o, mode⟩ := lock
  cases mode with
  | exclusive => cases s <;> exact .inl rfl
  | shared =>
    cases s with
    | memory s =>
      have later := live_later (passes : now ≤ now') (s.locks.getD name .free).shared[o]?
      simp only [tenure?, liveLock, LockView.tenure?, MemoryStore.shared_liveLock,
        MemoryStore.lockAt, RowsOfLock.getElem?_expire, LockEntry.live?]
      exact later.imp (congrArg _) fun gone => ⟨trivial, congrArg (Option.map _) gone⟩
    | tables s =>
      have later := live_later (passes : now.millis ≤ now'.millis) (s.sharesOf name)[o]?
      simp only [tenure?, liveLock, LockView.tenure?, TableStore.liveLock,
        TableStore.getElem?_liveExpiries]
      exact later.imp (congrArg fun live => Option.map _ (Option.map _ live))
        fun gone => ⟨trivial, congrArg (fun live => Option.map _ (Option.map _ live)) gone⟩

end Backend

end SliceScheduler
