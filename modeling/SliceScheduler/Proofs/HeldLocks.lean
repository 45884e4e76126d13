import Mathlib.Data.Set.Card
import SliceScheduler.Lock.Board
import SliceScheduler.Proofs.LockTenure
import SliceScheduler.Proofs.PointerLaw
/-!
# A holder gives up what it has

Holders take and release locks of one store, and each notes what it has taken. Owners stand behind
one holder each. The record of a holder has all the locks that its owners have at the time, and
besides them only shares whose time is up.

1. `Board.Step` is what may happen to a board: time passes, or a holder makes a call. The locks of a
   record are given up in whatever order;
2. `Board.Notes` is what every step keeps, see `Board.Notes.step`;
3. `Holder.gaveUp_giveUpFrom` says what giving up a list of locks does, whatever its order;
4. `Board.Run.gives_up_all` says that a holder gives up what its owners have, no less and no more,
   and counts it. The clock must not go back, which for tables speaks of milliseconds:
   `Board.Run.unnoted_after_leap_second`.
-/
namespace SliceScheduler

/-! ## The record -/

namespace Holder

variable {h : Holder} {lock other : HeldLock}

theorem mem_track : other ∈ (h.track lock).held ↔ other ∈ h.held ∨ other = lock := by
  unfold track
  split
  · rename_i known
    exact ⟨.inl, fun mem => mem.elim id fun same => same ▸ known⟩
  · rw [List.mem_append, List.mem_singleton]

theorem nodup_track (nodup : h.held.Nodup) : (h.track lock).held.Nodup := by
  unfold track
  split
  · exact nodup
  · rename_i unknown
    exact nodup.append (List.nodup_singleton lock) (List.disjoint_singleton.mpr unknown)

theorem mem_untrack : other ∈ (h.untrack lock).held ↔ other ∈ h.held ∧ other ≠ lock := by
  rw [untrack, List.mem_filter, decide_eq_true_eq]

theorem nodup_untrack (nodup : h.held.Nodup) : (h.untrack lock).held.Nodup := nodup.filter _

/-! ## Giving up a list of locks -/

/-- The owners no longer have these locks, all else is unchanged, and what was live is counted
once. -/
structure GaveUp (s : Backend) (now : Instant) (locks : List HeldLock) (counted : Nat)
    (s' : Backend) : Prop where
  keeps : s'.KeepsModes now
  counted : counted = locks.countP fun lock => (s.tenure? now lock).isSome
  tenure : ∀ other, s'.tenure? now other = if other ∈ locks then none else s.tenure? now other

section

variable {s : Backend} {now : Instant}

theorem giveUp_givesUp (keeps : s.KeepsModes now) (lock : HeldLock) :
    s.GivesUp now lock (giveUp (Board.call Backend.perform now) lock s).1
      (giveUp (Board.call Backend.perform now) lock s).2 := by
  obtain ⟨name, o, mode⟩ := lock
  cases mode with
  | exclusive => exact Backend.givesUp_unlockExclusive keeps name o
  | shared => exact Backend.givesUp_unlockShared keeps name o

theorem giveUpFrom_cons (live : Nat) (lock : HeldLock) (rest : List HeldLock) (s : Backend)
    {had : Bool} {s₁ : Backend}
    (first : giveUp (Board.call Backend.perform now) lock s = (.ok had, s₁)) :
    giveUpFrom (Board.call Backend.perform now) live (lock :: rest) s =
      giveUpFrom (Board.call Backend.perform now) (if had then live + 1 else live) rest s₁ := by
  simp only [giveUpFrom, bind, StateT.bind, first]
  cases had <;> rfl

theorem gaveUp_giveUpFrom (keeps : s.KeepsModes now) (live : Nat) {locks : List HeldLock}
    (nodup : locks.Nodup) : ∃ counted s', GaveUp s now locks counted s' ∧
      giveUpFrom (Board.call Backend.perform now) live locks s = (live + counted, s') := by
  induction locks generalizing s live with
  | nil => exact ⟨0, s, ⟨keeps, rfl, fun other => rfl⟩, rfl⟩
  | cons lock rest ih =>
    obtain ⟨fresh, nodup⟩ := List.nodup_cons.mp nodup
    have first := giveUp_givesUp keeps lock
    have made := giveUpFrom_cons live lock rest s (Prod.ext first.answer rfl)
    obtain ⟨counted, s', gave, run⟩ :=
      ih first.keeps (if (s.tenure? now lock).isSome then live + 1 else live) nodup
    -- the rest of the list is still what it was before the first lock was given up
    have counts : counted = rest.countP fun lock => (s.tenure? now lock).isSome := by
      rw [gave.counted]
      refine List.countP_congr fun other mem => ?_
      rw [first.tenure, if_neg (ne_of_mem_of_not_mem mem fresh)]
    refine ⟨(if (s.tenure? now lock).isSome then 1 else 0) + counted, s', ⟨gave.keeps, ?_, ?_⟩, ?_⟩
    · rw [List.countP_cons, counts, add_comm]
    · intro other
      rw [gave.tenure, first.tenure]
      by_cases known : other = lock
      · simp [known]
      · simp [known]
    · rw [made, run]
      split
      · rw [add_assoc]
      · rw [zero_add]

end

end Holder

/-! ## Boards -/

namespace Board

variable {b : Board Backend} {i j : Nat} {mine : Set String} {lock : HeldLock}

/-- A holder gives up locks in some order, and its record is empty; the number of ownerships that
were live. -/
def giveUpIn {σ : Type} (perform : σ → Instant → (op : Operation) → op.Result × σ) (b : Board σ)
    (i : Nat) (order : List HeldLock) : Nat × Board σ :=
  b.act i fun _ => do return (← Holder.giveUpAll (call perform b.now) order, .empty)

/-- The time for which the store shows an owner to have a lock. -/
def tenure (b : Board Backend) (lock : HeldLock) : Except StoreError (Option Tenure) := do
  return (← b.look Backend.perform lock.name).bind (·.tenure? lock.owner lock.mode)

theorem tenure_eq (keeps : b.store.KeepsModes b.now) (lock : HeldLock) :
    b.tenure lock = .ok (b.store.tenure? b.now lock) := by
  have shown : b.look Backend.perform lock.name = _ := Backend.perform_getLock keeps lock.name
  rw [tenure, shown, Backend.tenure?]
  split
  · rename_i free
    rw [LockView.tenure?_of_isFree free]
    rfl
  · rfl

/-- What may happen to a board on which the owners of one holder are known. -/
inductive Step (Passes : Backend → Instant → Instant → Prop) (mine : Set String) (i : Nat) :
    Board Backend → Board Backend → Prop
  | pass {b : Board Backend} (later : Instant) (passes : Passes b.store b.now later) :
      Step Passes mine i b { b with now := later }
  | acquire {b : Board Backend} (j : Nat) (name owner : String) (ttl : Option Duration)
      (own : owner ∈ mine ↔ j = i) :
      Step Passes mine i b (b.acquire Backend.perform j name owner ttl).2
  | release {b : Board Backend} (j : Nat) (name owner : String) (mode : LockMode)
      (own : owner ∈ mine ↔ j = i) :
      Step Passes mine i b (b.release Backend.perform j name owner mode).2
  | giveUp {b : Board Backend} (j : Nat) (order : List HeldLock)
      (all : order.Perm (b.holder j).held) :
      Step Passes mine i b (b.giveUpIn Backend.perform j order).2

/-- Anything that may happen to a board, step after step. -/
def Run (Passes : Backend → Instant → Instant → Prop) (mine : Set String) (i : Nat) :
    Board Backend → Board Backend → Prop :=
  Relation.ReflTransGen (Step Passes mine i)

/-! ## What every step keeps -/

/-- The board with another store and another record of one holder. -/
def put (b : Board Backend) (s : Backend) (j : Nat) (h : Holder) : Board Backend :=
  { b with store := s, holders := b.holders.set j h }

theorem holder_put (s : Backend) (h : Holder) (k : Nat) :
    (b.put s j h).holder k = if j = k ∧ j < b.holders.length then h else b.holder k := by
  rw [holder, put, List.getD_eq_getElem?_getD, List.getElem?_set]
  by_cases same : j = k
  · subst same
    by_cases known : j < b.holders.length
    · simp [known]
    · simp [known, holder]
  · simp [same, holder]

/-- The record of a holder keeps up with the store. -/
structure Notes (mine : Set String) (i : Nat) (b : Board Backend) : Prop where
  keeps : b.store.KeepsModes b.now
  present : i < b.holders.length
  own : ∀ j, ∀ lock ∈ (b.holder j).held, lock.owner ∈ mine ↔ j = i
  nodup : ∀ j, (b.holder j).held.Nodup
  /-- What the owners have is noted. -/
  noted : ∀ lock : HeldLock, lock.owner ∈ mine → (b.store.tenure? b.now lock).isSome →
    lock ∈ (b.holder i).held
  /-- What is noted is had, but for shares. -/
  lasting : ∀ lock ∈ (b.holder i).held, lock.mode = .exclusive →
    (b.store.tenure? b.now lock).isSome

namespace Notes

variable {s : Backend} {h : Holder}

/-- A step of one holder changes its record, and a lock only of an owner of its own. -/
theorem put (notes : b.Notes mine i) (keeps : s.KeepsModes b.now) (nodup : h.held.Nodup)
    (own : ∀ lock ∈ h.held, lock.owner ∈ mine ↔ j = i)
    (others : j ≠ i → ∀ lock : HeldLock, lock.owner ∈ mine →
      s.tenure? b.now lock = b.store.tenure? b.now lock)
    (noted : j = i → ∀ lock : HeldLock, lock.owner ∈ mine → (s.tenure? b.now lock).isSome →
      lock ∈ h.held)
    (lasting : j = i → ∀ lock ∈ h.held, lock.mode = .exclusive →
      (s.tenure? b.now lock).isSome) :
    (b.put s j h).Notes mine i := by
  have kept : j ≠ i → (b.put s j h).holder i = b.holder i := fun other => by
    rw [holder_put, if_neg fun both => other both.1]
  have changed : j = i → (b.put s j h).holder i = h := fun same => by
    rw [holder_put, if_pos ⟨same, same ▸ notes.present⟩]
  refine ⟨keeps, by simpa [Board.put] using notes.present, fun k lock mem => ?_, fun k => ?_,
    fun lock mem had => ?_, fun lock mem exclusive => ?_⟩
  · rw [holder_put] at mem
    split at mem
    · rename_i same
      exact same.1 ▸ own lock mem
    · exact notes.own k lock mem
  · rw [holder_put]
    split
    · exact nodup
    · exact notes.nodup k
  · by_cases same : j = i
    · rw [changed same]
      exact noted same lock mem had
    · rw [kept same]
      exact notes.noted lock mem (others same lock mem ▸ had)
  · by_cases same : j = i
    · rw [changed same] at mem
      exact lasting same lock mem exclusive
    · rw [kept same] at mem
      exact others same lock ((notes.own i lock mem).mpr rfl) ▸ notes.lasting lock mem exclusive

/-- Two owners of different holders are different. -/
theorem ne_of_other {other : HeldLock} (own : lock.owner ∈ mine ↔ j = i) (differs : j ≠ i)
    (mem : other.owner ∈ mine) : other ≠ lock :=
  fun same => differs (own.mp (same ▸ mem))

theorem take {answer : Except StoreError Bool} (notes : b.Notes mine i)
    (takes : b.store.Takes b.now lock answer s) (own : lock.owner ∈ mine ↔ j = i) :
    (b.put s j ((b.holder j).afterAcquire lock answer).2).Notes mine i := by
  have others : j ≠ i → ∀ other : HeldLock, other.owner ∈ mine →
      s.tenure? b.now other = b.store.tenure? b.now other :=
    fun differs other mem => takes.others other (ne_of_other own differs mem)
  obtain ⟨granted, answered⟩ := takes.answered
  cases granted with
  | true =>
    rw [answered]
    refine notes.put takes.keeps (Holder.nodup_track (notes.nodup j)) (fun other mem => ?_) others
      (fun same other mem had => ?_) (fun same other mem exclusive => ?_)
    · rcases Holder.mem_track.mp mem with mem | rfl
      · exact notes.own j other mem
      · exact own
    · subst same
      refine Holder.mem_track.mpr (or_iff_not_imp_right.mpr fun differs => ?_)
      exact notes.noted other mem (takes.others other differs ▸ had)
    · subst same
      by_cases taken : other = lock
      · exact taken ▸ takes.lasts (taken ▸ exclusive) answered
      · have before := (Holder.mem_track.mp mem).resolve_right taken
        exact takes.others other taken ▸ notes.lasting other before exclusive
  | false =>
    have refused : answer ≠ .ok true := by simp [answered]
    rw [answered]
    refine notes.put takes.keeps (notes.nodup j) (notes.own j) others
      (fun same other mem had => ?_) (fun same other mem exclusive => ?_)
    · subst same
      have differs : other ≠ lock := fun taken => refused (takes.told (taken ▸ had))
      exact notes.noted other mem (takes.others other differs ▸ had)
    · subst same
      -- an owner is not refused a lock that it has
      have before := notes.lasting other mem exclusive
      have differs : other ≠ lock :=
        fun taken => refused (takes.again (taken ▸ exclusive) (taken ▸ before))
      exact takes.others other differs ▸ before

theorem release {answer : Except StoreError Bool} (notes : b.Notes mine i)
    (gives : b.store.GivesUp b.now lock answer s) (own : lock.owner ∈ mine ↔ j = i) :
    (b.put s j ((b.holder j).afterRelease lock answer)).Notes mine i := by
  have others (other : HeldLock) (differs : other ≠ lock) :
      s.tenure? b.now other = b.store.tenure? b.now other := by
    rw [gives.tenure, if_neg differs]
  rw [gives.answer]
  refine notes.put gives.keeps (Holder.nodup_untrack (notes.nodup j))
    (fun other mem => notes.own j other (Holder.mem_untrack.mp mem).1)
    (fun differs other mem => others other (ne_of_other own differs mem))
    (fun same other mem had => ?_) (fun same other mem exclusive => ?_)
  · subst same
    have differs : other ≠ lock := by
      rintro rfl
      rw [gives.tenure, if_pos rfl] at had
      cases had
    exact Holder.mem_untrack.mpr ⟨notes.noted other mem (others other differs ▸ had), differs⟩
  · subst same
    obtain ⟨before, differs⟩ := Holder.mem_untrack.mp mem
    exact others other differs ▸ notes.lasting other before exclusive

theorem giveUpIn_eq {order : List HeldLock} (notes : b.Notes mine i)
    (all : order.Perm (b.holder j).held) :
    ∃ counted s, Holder.GaveUp b.store b.now order counted s ∧
      b.giveUpIn Backend.perform j order = (counted, b.put s j .empty) := by
  have nodup := all.nodup_iff.mpr (notes.nodup j)
  obtain ⟨counted, s, gave, run⟩ := Holder.gaveUp_giveUpFrom notes.keeps 0 nodup
  have made : b.giveUpIn Backend.perform j order =
      ((Holder.giveUpFrom (call Backend.perform b.now) 0 order b.store).1,
        b.put (Holder.giveUpFrom (call Backend.perform b.now) 0 order b.store).2 j .empty) := rfl
  exact ⟨counted, s, gave, by rw [made, run, zero_add]⟩

theorem forget {order : List HeldLock} {counted : Nat} (notes : b.Notes mine i)
    (all : order.Perm (b.holder j).held)
    (gave : Holder.GaveUp b.store b.now order counted s) :
    (b.put s j .empty).Notes mine i := by
  refine notes.put gave.keeps List.nodup_nil nofun (fun differs lock mem => ?_)
    (fun same lock mem had => ?_) nofun
  · rw [gave.tenure, if_neg fun given => differs ((notes.own j lock (all.mem_iff.mp given)).mp mem)]
  · subst same
    rw [gave.tenure] at had
    split at had
    · cases had
    · rename_i kept
      exact absurd (all.mem_iff.mpr (notes.noted lock mem had)) kept

theorem pass {later : Instant} (notes : b.Notes mine i) (passes : b.store.Passes b.now later) :
    Notes mine i { b with now := later } := by
  refine ⟨notes.keeps.later passes, notes.present, notes.own, notes.nodup,
    fun lock mem had => ?_, fun lock mem exclusive => ?_⟩
  · rcases Backend.tenure?_later passes lock with same | gone
    · exact notes.noted lock mem (same ▸ had)
    · rw [gone.2] at had
      cases had
  · rcases Backend.tenure?_later passes lock with same | gone
    · exact same ▸ notes.lasting lock mem exclusive
    · cases exclusive.symm.trans gone.1

theorem step {b' : Board Backend} (notes : b.Notes mine i)
    (step : Step Backend.Passes mine i b b') : b'.Notes mine i := by
  cases step with
  | pass later passes => exact notes.pass passes
  | acquire j name owner ttl own =>
    cases ttl with
    | none => exact notes.take (Backend.takes_lockExclusive notes.keeps name owner) own
    | some ttl => exact notes.take (Backend.takes_lockShared notes.keeps name owner ttl) own
  | release j name owner mode own =>
    cases mode with
    | exclusive => exact notes.release (Backend.givesUp_unlockExclusive notes.keeps name owner) own
    | shared => exact notes.release (Backend.givesUp_unlockShared notes.keeps name owner) own
  | giveUp j order all =>
    obtain ⟨counted, s, gave, given⟩ := notes.giveUpIn_eq all
    rw [given]
    exact notes.forget all gave

theorem run {b' : Board Backend} (notes : b.Notes mine i) (run : Run Backend.Passes mine i b b') :
    b'.Notes mine i := by
  induction run with
  | refl => exact notes
  | tail _ last ih => exact ih.step last

/-- What the owners have stands in the record, each once, in whatever order. -/
theorem encard_live {order : List HeldLock} (notes : b.Notes mine i)
    (all : order.Perm (b.holder i).held) :
    {lock : HeldLock | lock.owner ∈ mine ∧ ∃ t, b.tenure lock = .ok (some t)}.encard =
      order.countP fun lock => (b.store.tenure? b.now lock).isSome := by
  have live : {lock : HeldLock | lock.owner ∈ mine ∧ ∃ t, b.tenure lock = .ok (some t)} =
      (order.filter fun lock => (b.store.tenure? b.now lock).isSome).toFinset := by
    ext lock
    rw [Set.mem_ofPred_eq, List.coe_toFinset, Set.mem_ofPred_eq, List.mem_filter, all.mem_iff]
    simp only [tenure_eq notes.keeps, Except.ok.injEq, ← Option.isSome_iff_exists]
    exact ⟨fun ⟨mem, had⟩ => ⟨notes.noted lock mem had, had⟩,
      fun ⟨known, had⟩ => ⟨(notes.own i lock known).mpr rfl, had⟩⟩
  have once : (order.filter fun lock => (b.store.tenure? b.now lock).isSome).Nodup :=
    (all.nodup_iff.mpr (notes.nodup i)).filter _
  rw [live, Set.encard_coe_eq_coe_finsetCard, List.toFinset_card_of_nodup once,
    ← List.countP_eq_length_filter]

/-- Nobody has a lock, and nothing is noted. -/
theorem start {store : Backend} {now : Instant} {holders : Nat} (present : i < holders)
    (unlocked : ∀ name, (store.perform now (.getLock name)).1 = .ok none) :
    (Board.start store now holders).Notes mine i := by
  have keeps : store.KeepsModes now := Backend.keepsModes_of_unlocked unlocked
  have empty (j : Nat) : (Board.start store now holders).holder j = .empty := by
    rw [holder, Board.start, List.getD_eq_getElem?_getD, List.getElem?_replicate]
    split <;> rfl
  refine ⟨keeps, by rwa [Board.start, List.length_replicate], fun j lock mem => ?_, fun j => ?_,
    fun lock _ had => ?_, fun lock mem => ?_⟩
  · rw [empty] at mem
    cases mem
  · rw [empty]
    exact List.nodup_nil
  · replace had : (store.tenure? now lock).isSome := had
    rw [Backend.tenure?_of_unlocked keeps (unlocked lock.name)] at had
    cases had
  · rw [empty] at mem
    cases mem

end Notes

/-! ## Giving up everything -/

/-- A holder gives up what its owners have, no less and no more. -/
structure GivesUpAll (mine : Set String) (i : Nat) (b : Board Backend)
    (given : Nat × Board Backend) : Prop where
  /-- The locks that are noted are those that are owned. -/
  owned : ∀ lock : HeldLock, lock.owner ∈ mine → lock.mode = .exclusive →
    (lock ∈ (b.holder i).held ↔ b.tenure lock = .ok (some .lasting))
  /-- The shares that are live are noted. -/
  shared : ∀ lock : HeldLock, lock.owner ∈ mine → lock.mode = .shared →
    ∀ expiry, b.tenure lock = .ok (some (.expiring expiry)) → lock ∈ (b.holder i).held
  /-- The owners have no lock any more. -/
  gone : ∀ lock : HeldLock, lock.owner ∈ mine → given.2.tenure lock = .ok none
  /-- All other owners have what they had. -/
  others : ∀ lock : HeldLock, lock.owner ∉ mine → given.2.tenure lock = b.tenure lock
  /-- Nothing is noted any more. -/
  forgotten : given.2.holder i = .empty
  /-- What was owned, or shared and live, is counted. -/
  counted :
    {lock : HeldLock | lock.owner ∈ mine ∧ ∃ t, b.tenure lock = .ok (some t)}.encard = given.1

/-- A holder gives up what its owners have, whatever has happened before and in whatever order. -/
theorem Run.gives_up_all {store : Backend} {now : Instant} {holders : Nat} {order : List HeldLock}
    (present : i < holders) (unlocked : ∀ name, (store.perform now (.getLock name)).1 = .ok none)
    (run : Run Backend.Passes mine i (.start store now holders) b)
    (all : order.Perm (b.holder i).held) :
    GivesUpAll mine i b (b.giveUpIn Backend.perform i order) := by
  have notes : b.Notes mine i := (Notes.start present unlocked).run run
  obtain ⟨counted, s, gave, given⟩ := notes.giveUpIn_eq all
  have after (lock : HeldLock) : (b.put s i .empty).tenure lock =
      .ok (if lock ∈ order then none else b.store.tenure? b.now lock) := by
    rw [tenure_eq gave.keeps]
    exact congrArg _ (gave.tenure lock)
  rw [given]
  refine ⟨fun lock mem exclusive => ?_, fun lock mem _ expiry live => ?_, fun lock mem => ?_,
    fun lock foreign => ?_, ?_, ?_⟩
  · rw [tenure_eq notes.keeps, Except.ok.injEq, ← Backend.isSome_tenure?_iff_lasting exclusive]
    exact ⟨fun known => notes.lasting lock known exclusive, notes.noted lock mem⟩
  · rw [tenure_eq notes.keeps, Except.ok.injEq] at live
    exact notes.noted lock mem (live ▸ rfl)
  · rw [after, ite_eq_left_iff.mpr fun unknown => ?_]
    rw [← Option.not_isSome_iff_eq_none]
    exact fun had => unknown (all.mem_iff.mpr (notes.noted lock mem had))
  · rw [after, tenure_eq notes.keeps, if_neg]
    exact fun known => foreign ((notes.own i lock (all.mem_iff.mp known)).mpr rfl)
  · rw [holder_put, if_pos ⟨rfl, notes.present⟩]
  · rw [notes.encard_live all, gave.counted]

/-- Tables without rows show no lock. -/
theorem unlocked_empty (now : Instant) (name : String) :
    ((Backend.tables .empty).perform now (.getLock name)).1 = .ok none := by
  have owner : TableStore.empty.owner? name = none := Std.ExtTreeMap.getD_empty
  have shares : TableStore.empty.sharesOf name = ∅ := Std.ExtTreeMap.getD_empty
  show Except.ok (TableStore.empty.viewLock now.millis name) = _
  rw [TableStore.viewLock, TableStore.liveShares, owner, shares]
  rfl

/-- One of two shares has run out, and one lock is owned, when the locks are given up from the last
to the first. -/
theorem Run.gives_up_two_of_three : ∃ b : Board Backend,
    0 < 2 ∧ (∀ name, ((Backend.tables .empty).perform .newYear2024 (.getLock name)).1 = .ok none) ∧
    Run Backend.Passes {"a", "b"} 0 (.start (.tables .empty) .newYear2024 2) b ∧
    [⟨"line", "b", .shared⟩, ⟨"line", "a", .shared⟩, ⟨"round", "a", .exclusive⟩].Perm
      (b.holder 0).held ∧
    GivesUpAll {"a", "b"} 0 b (b.giveUpIn Backend.perform 0
      [⟨"line", "b", .shared⟩, ⟨"line", "a", .shared⟩, ⟨"round", "a", .exclusive⟩]) ∧
    (b.giveUpIn Backend.perform 0
      [⟨"line", "b", .shared⟩, ⟨"line", "a", .shared⟩, ⟨"round", "a", .exclusive⟩]).1 = 2 := by
  have later : Instant.newYear2024.millis ≤ (Instant.newYear2024.later (.ofSeconds 5)).millis := by
    decide
  have run : Run Backend.Passes {"a", "b"} 0 (.start (.tables .empty) .newYear2024 2) _ :=
    .tail (.tail (.tail (.tail (.tail .refl
      (.acquire 0 "round" "a" none (by decide)))
      (.acquire 1 "round" "c" none (by decide)))
      (.acquire 0 "line" "a" (some (.ofSeconds 1)) (by decide)))
      (.acquire 0 "line" "b" (some (.ofSeconds 9)) (by decide)))
      (.pass (Instant.newYear2024.later (.ofSeconds 5)) later)
  refine ⟨_, by decide, unlocked_empty _, run, by decide,
    run.gives_up_all (by decide) (unlocked_empty _) (by decide), by decide +kernel⟩

/-- A share runs out in a leap second and is given up in vain, and it is live again when the leap
second is over. Nobody has noted it then. -/
theorem Run.unnoted_after_leap_second : ∃ b : Board Backend,
    (∀ name, ((Backend.tables .empty).perform .inLeapSecond (.getLock name)).1 = .ok none) ∧
    Run (fun _ now later => now ≤ later) {"a"} 0 (.start (.tables .empty) .inLeapSecond 1) b ∧
    (b.holder 0).held = [] ∧
    b.tenure ⟨"line", "a", .shared⟩ =
      .ok (some (.expiring (Instant.newYear.later (.ofMillis 950)))) ∧
    (b.giveUp Backend.perform 0).2.tenure ⟨"line", "a", .shared⟩ =
      .ok (some (.expiring (Instant.newYear.later (.ofMillis 950)))) ∧
    ¬GivesUpAll {"a"} 0 b (b.giveUp Backend.perform 0) := by
  have run : Run (fun _ now later => now ≤ later) {"a"} 0
      (.start (.tables .empty) .inLeapSecond 1) _ :=
    .tail (.tail (.tail (.tail .refl
      (.acquire 0 "line" "a" (some (.ofMillis 50)) (by decide)))
      (.pass (Instant.inLeapSecond.later (.ofMillis 60)) (by decide)))
      (.release 0 "line" "a" .shared (by decide)))
      (.pass .newYear (by decide))
  refine ⟨_, unlocked_empty _, run, by decide +kernel, by decide +kernel, by decide +kernel,
    fun gives => ?_⟩
  have noted := gives.shared ⟨"line", "a", .shared⟩ (by decide) rfl
    (Instant.newYear.later (.ofMillis 950)) (by decide +kernel)
  exact absurd noted (by decide +kernel)

end Board

end SliceScheduler
