import Mathlib.Data.List.Iterate
import SliceScheduler.Proofs.Lone
import SliceScheduler.Proofs.Order
import SliceScheduler.Proofs.Ownership
import SliceScheduler.Proofs.Scenario
import SliceScheduler.Proofs.StoredRow
import SliceScheduler.Proofs.TableLocks
/-!
# How far the pointer is moved

A node moves the pointer, over a store of either kind with any contents, while no call fails and
nobody else does anything.

1. `Backend.MovedPast` says what the store has after the pointer was moved past slices, and
   `Backend.exists_moves` that a node can move it past a slice whose lock it has;
2. `Ready` is what a node relies on when it moves the pointer from a slice on, and `Ready.passed`
   says that it has this again after a turn;
3. `Lone.steps_of_isOver` and `Lone.steps_of_not_isOver` are the turns of the loop. Each turn that
   moves the pointer takes a slice from those that the node works on, so that the loop ends,
   `Lone.exists_advances`;
4. `Lone.advances` is the result: what comes of it is in `Advances`. `Lone.advances_halfway` is a
   node that is stopped by a job that was left over.
-/
namespace SliceScheduler

/-! ## What the store has of a slice -/

namespace Backend

variable {b b' b'' : Backend} {now : Instant} {x y p next : Slice} {node : String}

/-- Where the index of a slice is kept. -/
def place : Backend → Slice → Slice ⊕ Int
  | memory _, x => .inl x
  | tables _, x => .inr x.millis

/-- The index of a slice as it is kept. -/
def indexAt : Backend → Slice → Option (SliceSets ⊕ Std.ExtTreeMap String FlagRow)
  | memory s, x => s.index[x]?.map .inl
  | tables s, x => s.statuses[x.millis]?.map .inr

theorem millis_of_place (same : b.place x = b.place y) : x.millis = y.millis := by
  cases b with
  | memory s => rw [Sum.inl.inj same]
  | tables s => exact Sum.inr.inj same

theorem indexAt_congr (same : b.place x = b.place y) : b.indexAt x = b.indexAt y := by
  cases b with
  | memory s => rw [Sum.inl.inj same]
  | tables s =>
    have same : x.millis = y.millis := Sum.inr.inj same
    simp only [indexAt, same]

theorem SameRows.place (same : b.SameRows b') : b'.place = b.place := by
  cases b with
  | memory s =>
    cases b' with
    | memory s' => rfl
    | tables s' => cases same
  | tables s =>
    cases b' with
    | memory s' => cases same
    | tables s' => rfl

/-- The sets of a slice are read from its index. -/
theorem sliceSets_congr (same : b.SameRows b') (index : b'.indexAt x = b.indexAt x)
    (now : Instant) : (b'.perform now (.sliceSets x)).1 = (b.perform now (.sliceSets x)).1 := by
  cases b with
  | memory s =>
    cases b' with
    | memory s' =>
      have index : s'.index[x]? = s.index[x]? := by
        simpa [indexAt, Option.map_inj_right Sum.inl_injective] using index
      simp only [perform_memory, MemoryStore.perform, MemoryStore.sets,
        Std.ExtTreeMap.getD_eq_getD_getElem?, index]
    | tables s' => cases same
  | tables s =>
    cases b' with
    | memory s' => cases same
    | tables s' =>
      have flags : s'.flags x.millis = s.flags x.millis := by
        have index : s'.statuses[x.millis]? = s.statuses[x.millis]? := by
          simpa [indexAt, Option.map_inj_right Sum.inr_injective] using index
        simp only [TableStore.flags, Std.ExtTreeMap.getD_eq_getD_getElem?, index]
      have closed : s'.closed = s.closed := same.2
      cases shut : s.closed with
      | true => rw [perform_closed shut, perform_closed (closed.trans shut)]
      | false =>
        rw [perform_open shut, perform_open (closed.trans shut)]
        simp only [TableStore.performOpen, flags]

/-- What the store has after the pointer was moved past slices: nothing of them, and all else as it
was. -/
structure MovedPast (now : Instant) (run : List Slice) (pointer : Slice) (b b' : Backend) : Prop
    where
  pointer : (b'.perform now .getPointer).1 = .ok (some pointer)
  cleared : ∀ x ∈ run, b'.indexAt x = none
  released : ∀ x ∈ run, (b'.perform now (.getLock x.advanceLock)).1 = .ok none
  indexes : ∀ x, b.place x ∉ run.map b.place → b'.indexAt x = b.indexAt x
  locks : ∀ t name, name ∉ run.map Slice.advanceLock →
    (b'.perform t (.getLock name)).1 = (b.perform t (.getLock name)).1
  rows : b.SameRows b'

theorem MovedPast.refl (pointer : (b.perform now .getPointer).1 = .ok (some p)) :
    b.MovedPast now [] p b :=
  have none (x : Slice) : x ∉ [] := List.not_mem_nil
  ⟨pointer, fun x mem => absurd mem (none x), fun x mem => absurd mem (none x), fun _ _ => rfl,
    fun _ _ _ => rfl, .refl b⟩

theorem MovedPast.trans {run run' : List Slice} (past : b.MovedPast now run p b')
    (past' : b'.MovedPast now run' next b'') : b.MovedPast now (run ++ run') next b'' where
  pointer := past'.pointer
  cleared x mem := by
    by_cases again : b'.place x ∈ run'.map b'.place
    · obtain ⟨y, later, same⟩ := List.mem_map.mp again
      have place : b''.place y = b''.place x := past'.rows.place ▸ same
      exact (indexAt_congr place).symm.trans (past'.cleared y later)
    · rcases List.mem_append.mp mem with mem | mem
      · exact (past'.indexes x again).trans (past.cleared x mem)
      · exact past'.cleared x mem
  released x mem := by
    by_cases again : x.advanceLock ∈ run'.map Slice.advanceLock
    · obtain ⟨y, later, same⟩ := List.mem_map.mp again
      exact same ▸ past'.released y later
    · rcases List.mem_append.mp mem with mem | mem
      · exact (past'.locks now _ again).trans (past.released x mem)
      · exact past'.released x mem
  indexes x fresh := by
    rw [List.map_append, List.mem_append, not_or] at fresh
    exact (past'.indexes x (past.rows.place ▸ fresh.2)).trans (past.indexes x fresh.1)
  locks t name fresh := by
    rw [List.map_append, List.mem_append, not_or] at fresh
    exact (past'.locks t name fresh.2).trans (past.locks t name fresh.1)
  rows := past.rows.trans past'.rows

/-! ### One slice -/

/-- The pointer of tables is written in milliseconds. -/
theorem millis_of_getPointer {s : TableStore}
    (pointer : ((tables s).perform now .getPointer).1 = .ok (some p)) :
    s.closed = false ∧ s.pointer = some p.millis := by
  have isOpen : s.closed = false := isOpen_of_ok pointer
  rw [perform_open isOpen] at pointer
  refine ⟨isOpen, ?_⟩
  cases written : s.pointer with
  | none =>
    simp only [TableStore.performOpen, written] at pointer
    cases pointer
  | some ms =>
    have read : some <$> TableStore.decodeSlice ms = .ok (some p) := by
      simpa [TableStore.performOpen, written] using pointer
    unfold TableStore.decodeSlice at read
    cases found : Slice.ofStartMillis? ms with
    | none =>
      rw [found] at read
      cases read
    | some x =>
      rw [found] at read
      cases read
      rw [(Slice.isWhole_of_ofStartMillis? found).2]

theorem getPointer_of_isWhole {s : TableStore} (isOpen : s.closed = false) (whole : p.IsWhole)
    (pointer : s.pointer = some p.millis) :
    ((tables s).perform now .getPointer).1 = .ok (some p) := by
  have found : Slice.ofStartMillis? p.millis = some p := whole
  rw [perform_open isOpen]
  simp [TableStore.performOpen, pointer, TableStore.decodeSlice, found]

end Backend

theorem LockView.eq_of_shown {l v : LockView}
    (shown : (if l.isFree then none else some l) = some v) : l = v := by
  split at shown
  · cases shown
  · exact Option.some.inj shown

/-- A lock in memory that is shown as owned by one owner goes when he gives it up. -/
theorem MemoryStore.unlockExclusive_of_viewLock {s : MemoryStore} {now : Instant}
    {name owner : String} (owned : s.viewLock now name = some ⟨some owner, ∅⟩) :
    s.unlockExclusive now name owner = (true, { s with locks := s.locks.erase name }) := by
  have entry : s.lockAt now name = ⟨some owner, ∅⟩ := by
    obtain ⟨mine, shares⟩ := LockView.mk.inj (LockView.eq_of_shown owned)
    exact congrArg₂ LockEntry.mk mine shares
  have there : s.locks.contains name := by
    by_contra absent
    rw [RowsOfLocks.lockAt_absent name absent] at entry
    cases congrArg LockEntry.owner entry
  have isFree : LockEntry.isFree ⟨none, ∅⟩ = true := rfl
  simp [unlockExclusive, there, entry, settleLock, isFree]

theorem TableStore.unlockExclusive_of_viewLock {s : TableStore} {now : Int} {name owner : String}
    (owned : s.viewLock now name = some ⟨some owner, ∅⟩) :
    s.unlockExclusive name owner = (true, { s with locks := s.locks.insert name none }) ∧
      { s with locks := s.locks.insert name none }.viewLock now name = none := by
  obtain ⟨mine, shares⟩ := LockView.mk.inj (LockView.eq_of_shown owned)
  refine ⟨by simp [unlockExclusive, mine], ?_⟩
  have unowned : { s with locks := s.locks.insert name none }.owner? name = none := by
    simp [owner?]
  have shares : ({ s with locks := s.locks.insert name none }.liveShares now name).map
      (fun _ expiry => decodeExpiry expiry) = ∅ := shares
  have free : LockView.isFree ⟨none, ∅⟩ = true := rfl
  simp only [viewLock, unowned, shares, free, if_true]

namespace Backend

variable {b : Backend} {now : Instant} {p : Slice} {node : String} {w : Duration}

/-- The writes that move the pointer past a slice whose lock a node has. -/
structure Moves (now : Instant) (node : String) (p next : Slice) (b b₁ b₂ b₃ : Backend) : Prop where
  cleared : b.perform now (.deleteSlice p) = (.ok (), b₁)
  moved : b₁.perform now (.movePointer p next) = (.ok true, b₂)
  returned : b₂.perform now (.unlockExclusive p.advanceLock node) = (.ok true, b₃)
  past : b.MovedPast now [p] next b₃

theorem exists_moves_memory {s : MemoryStore} (pointer : s.pointer = some p)
    (owned : s.viewLock now p.advanceLock = some ⟨some node, ∅⟩) (next : Slice) :
    ∃ b₁ b₂ b₃, (memory s).Moves now node p next b₁ b₂ b₃ := by
  let cleared : MemoryStore := { s with index := s.index.erase p }
  let moved : MemoryStore := { cleared with pointer := some next }
  let returned : MemoryStore := { moved with locks := moved.locks.erase p.advanceLock }
  have owned : moved.viewLock now p.advanceLock = some ⟨some node, ∅⟩ := owned
  refine ⟨memory cleared, memory moved, memory returned, rfl, ?_, ?_, rfl, ?_, ?_, ?_, ?_, rfl⟩
  · simp only [perform_memory, MemoryStore.perform, cleared, pointer, if_true, moved]
  · rw [perform_memory]
    simp only [MemoryStore.perform, MemoryStore.unlockExclusive_of_viewLock owned, returned]
  · intro x mem
    rw [List.mem_singleton.mp mem]
    simp [indexAt, returned, moved, cleared]
  · intro x mem
    have gone : ¬returned.locks.contains p.advanceLock := by simp [returned]
    have free : returned.lockAt now p.advanceLock = .free := RowsOfLocks.lockAt_absent _ gone
    rw [List.mem_singleton.mp mem]
    show Except.ok (returned.viewLock now p.advanceLock) = _
    rw [MemoryStore.viewLock, free]
    rfl
  · intro x other
    have other : p ≠ x := fun same => other (by simp [same])
    simp [indexAt, returned, moved, cleared, Std.ExtTreeMap.getElem?_erase, other]
  · intro t name other
    have other : p.advanceLock ≠ name := fun same => other (by simp [same])
    have same : returned.lockAt t name = s.lockAt t name := by
      simp [MemoryStore.lockAt, returned, moved, cleared, Std.ExtTreeMap.getD_erase, other]
    show Except.ok (returned.viewLock t name) = Except.ok (s.viewLock t name)
    rw [MemoryStore.viewLock, same]
    rfl

theorem exists_moves_tables {s : TableStore} (isOpen : s.closed = false)
    (pointer : s.pointer = some p.millis)
    (owned : s.viewLock now.millis p.advanceLock = some ⟨some node, ∅⟩) {next : Slice}
    (whole : next.IsWhole) : ∃ b₁ b₂ b₃, (tables s).Moves now node p next b₁ b₂ b₃ := by
  let cleared : TableStore := { s with statuses := s.statuses.erase p.millis }
  let moved : TableStore := { cleared with pointer := some next.millis }
  let returned : TableStore := { moved with locks := moved.locks.insert p.advanceLock none }
  have owned : moved.viewLock now.millis p.advanceLock = some ⟨some node, ∅⟩ := owned
  obtain ⟨unlocked, unowned⟩ := TableStore.unlockExclusive_of_viewLock owned
  refine ⟨tables cleared, tables moved, tables returned, perform_open isOpen _ _, ?_, ?_,
    getPointer_of_isWhole isOpen whole rfl, ?_, ?_, ?_, ?_, rfl, rfl⟩
  · rw [perform_open (s := cleared) isOpen]
    simp only [TableStore.performOpen, cleared, pointer, if_true, moved]
  · rw [perform_open (s := moved) isOpen]
    simp only [TableStore.performOpen, unlocked, returned]
  · intro x mem
    rw [List.mem_singleton.mp mem]
    simp [indexAt, returned, moved, cleared]
  · intro x mem
    rw [List.mem_singleton.mp mem, perform_open (s := returned) isOpen]
    exact congrArg Except.ok unowned
  · intro x other
    have other : p.millis ≠ x.millis := fun same => other (by simp [place, same])
    simp [indexAt, returned, moved, cleared, Std.ExtTreeMap.getElem?_erase, other]
  · intro t name other
    have other : p.advanceLock ≠ name := fun same => other (by simp [same])
    have owner : returned.owner? name = s.owner? name :=
      (moved.owner?_insert p.advanceLock none name).trans (if_neg other)
    rw [perform_open (s := returned) isOpen, perform_open isOpen]
    simp only [TableStore.performOpen, TableStore.viewLock, owner]
    rfl

/-- A node can move the pointer past a slice whose lock it has. -/
theorem exists_moves (pointer : (b.perform now .getPointer).1 = .ok (some p))
    (owns : (b.perform now (.getLock p.advanceLock)).1 = .ok (some ⟨some node, ∅⟩))
    (next : p.HasNext w) : ∃ b₁ b₂ b₃, b.Moves now node p (p.next w) b₁ b₂ b₃ := by
  cases b with
  | memory s => exact exists_moves_memory (Except.ok.inj pointer) (Except.ok.inj owns) _
  | tables s =>
    obtain ⟨isOpen, pointer⟩ := millis_of_getPointer pointer
    rw [perform_open isOpen] at owns
    exact exists_moves_tables isOpen pointer (Except.ok.inj owns) (Slice.isWhole_next next)

end Backend

/-! ## Slices further on -/

namespace Slice

/-- The slice so many places after another. -/
def after (p : Slice) (w : Duration) (n : Nat) : Slice := (·.next w)^[n] p

theorem millis_le_after (p : Slice) (w : Duration) (k : Nat) : p.millis ≤ (p.after w k).millis := by
  induction k generalizing p with
  | zero => exact le_rfl
  | succ k ih =>
    refine le_trans ?_ (ih (p.next w))
    by_cases next : p.HasNext w
    · rw [millis_next next]
      have := w.sliceMillis_pos
      omega
    · rw [next_eq_self next]

end Slice

variable {now : Instant} {p x : Slice} {b b' b'' : Backend} {d d' d'' : Desk} {fromTick : Bool}

/-- What a move past a slice does not concern. -/
theorem Slice.apart_of_next {w : Duration} (next : p.HasNext w)
    (later : (p.next w).millis ≤ x.millis) : x ≠ p ∧ x.advanceLock ∉ [p].map Slice.advanceLock ∧
      b.place x ∉ [p].map b.place := by
  have less : p.millis < x.millis := by
    rw [Slice.millis_next next] at later
    have := w.sliceMillis_pos
    omega
  refine ⟨?_, ?_, ?_⟩
  · rintro rfl
    exact lt_irrefl _ less
  · intro mem
    have same := Slice.millis_of_advanceLock (List.mem_singleton.mp mem)
    exact absurd same (ne_of_gt less)
  · intro mem
    have same := Backend.millis_of_place (List.mem_singleton.mp mem)
    exact absurd same (ne_of_gt less)

/-! ## How far the pointer is moved -/

/-- The node has drained the slice, and no job of it is pending. -/
def Desk.IsOver (d : Desk) (b : Backend) (now : Instant) (x : Slice) : Prop :=
  d.progress[x]? = some .drained ∧
    ∃ sets, (b.perform now (.sliceSets x)).1 = .ok sets ∧ sets.pending = []

theorem Desk.mem_of_progress {phase : Progress} (found : d.progress[x]? = some phase) :
    x ∈ d.progress :=
  Std.ExtTreeMap.mem_iff_isSome_getElem?.mpr (found ▸ rfl)

/-- The desk after the pointer was moved past a slice. -/
def Desk.passed (d : Desk) (p : Slice) : Desk :=
  (TurnStage.returned d p (.ok true)).announce (.sliceFinished p)

theorem Desk.getElem?_passed (d : Desk) (p x : Slice) :
    (d.passed p).progress[x]? = if x = p then none else d.progress[x]? := by
  have erased : (d.passed p).progress = d.progress.erase p := rfl
  rw [erased, Std.ExtTreeMap.getElem?_erase]
  exact if_congr (Std.LawfulEqCmp.compare_eq_iff_eq.trans eq_comm) rfl rfl

/-- What comes of moving the pointer from a slice: the slices that it was moved past, and the slice
that is drained once more. -/
structure Advances (fromTick : Bool) (now : Instant) (w : Duration) (p : Slice) (d d' : Desk)
    (b b' : Backend) (run : List Slice) (drained : Option Slice) : Prop where
  /-- The slices are those that follow each other. -/
  follows : run = List.iterate (·.next w) p run.length
  isOver : ∀ x ∈ run, d.IsOver b now x
  /-- There are no more of them. -/
  longest : ¬d.IsOver b now (p.after w run.length)
  store : b.MovedPast now run (p.after w run.length) b'
  /-- A slice that is drained and not over has pending jobs: a tick has it drained once more. -/
  again : drained = if fromTick ∧ d.progress[p.after w run.length]? = some .drained
    then some (p.after w run.length) else none
  log : d'.log.toList = d.log.toList ++ run.map .sliceFinished
  progress : ∀ x, d'.progress[x]? =
    if x ∈ run then none else if drained = some x then some .draining else d.progress[x]?

/-- The slices after one that the pointer was moved past are as they were. -/
theorem Desk.isOver_passed (next : p.HasNext d.width)
    (past : b.MovedPast now [p] (p.next d.width) b')
    (later : (p.next d.width).millis ≤ x.millis) :
    (d.passed p).IsOver b' now x ↔ d.IsOver b now x := by
  obtain ⟨other, -, apart⟩ := Slice.apart_of_next (b := b) next later
  rw [Desk.IsOver, Desk.IsOver, Desk.getElem?_passed, if_neg other,
    Backend.sliceSets_congr past.rows (past.indexes x apart)]

/-- What a node relies on when it moves the pointer from a slice on: it has the locks of the slices
that it works on, their indexes can be read, and there are slices after those that it drained. -/
structure Ready (now : Instant) (p : Slice) (d : Desk) (b : Backend) : Prop where
  pointer : (b.perform now .getPointer).1 = .ok (some p)
  owns : ∀ x ∈ d.progress, p.millis ≤ x.millis →
    (b.perform now (.getLock x.advanceLock)).1 = .ok (some ⟨some d.settings.node, ∅⟩)
  reads : ∀ x ∈ d.progress, p.millis ≤ x.millis →
    ∃ sets, (b.perform now (.sliceSets x)).1 = .ok sets
  next : ∀ k, d.progress[p.after d.width k]? = some .drained → (p.after d.width k).HasNext d.width

theorem Ready.seeks (ready : Ready now p d b) : b.perform now .getPointer = (.ok (some p), b) :=
  Prod.ext ready.pointer (b.perform_reads now rfl)

/-- A node that has moved the pointer past a slice can go on from the next one. -/
theorem Ready.passed (ready : Ready now p d b) (next : p.HasNext d.width)
    (past : b.MovedPast now [p] (p.next d.width) b') :
    Ready now (p.next d.width) (d.passed p) b' := by
  have before : p.millis ≤ (p.next d.width).millis := Slice.millis_le_after p d.width 1
  have here {x : Slice} (mem : x ∈ (d.passed p).progress) : x ∈ d.progress :=
    Std.ExtTreeMap.mem_of_mem_erase mem
  refine ⟨past.pointer, fun x mem later => ?_, fun x mem later => ?_, fun k drained => ?_⟩
  · obtain ⟨-, apart, -⟩ := Slice.apart_of_next (b := b) next later
    rw [past.locks now _ apart]
    exact ready.owns x (here mem) (before.trans later)
  · obtain ⟨-, -, apart⟩ := Slice.apart_of_next (b := b) next later
    rw [Backend.sliceSets_congr past.rows (past.indexes x apart)]
    exact ready.reads x (here mem) (before.trans later)
  · rw [Desk.getElem?_passed] at drained
    split at drained
    · cases drained
    · exact ready.next (k + 1) drained

/-- What comes of a turn in which the pointer stays. -/
theorem Advances.stay {drained : Option Slice}
    (pointer : (b.perform now .getPointer).1 = .ok (some p)) (stays : ¬d.IsOver b now p)
    (again : drained = if fromTick ∧ d.progress[p]? = some .drained then some p else none)
    (log : d'.log = d.log)
    (progress : ∀ x, d'.progress[x]? =
      if drained = some x then some .draining else d.progress[x]?) :
    Advances fromTick now d.width p d d' b b [] drained where
  follows := rfl
  isOver := fun _ mem => absurd mem List.not_mem_nil
  longest := stays
  store := .refl pointer
  again := again
  log := (congrArg _ log).trans (List.append_nil _).symm
  progress x := by rw [progress, if_neg List.not_mem_nil]

/-- What comes of moving the pointer on after it was moved past a slice. -/
theorem Advances.cons {run : List Slice} {drained : Option Slice} (isOver : d.IsOver b now p)
    (next : p.HasNext d.width) (past : b.MovedPast now [p] (p.next d.width) b')
    (advances : Advances fromTick now d.width (p.next d.width) (d.passed p) d' b' b'' run
      drained) : Advances fromTick now d.width p d d' b b'' (p :: run) drained := by
  have later (x : Slice) (mem : x ∈ run) : (p.next d.width).millis ≤ x.millis := by
    rw [advances.follows] at mem
    obtain ⟨k, -, rfl⟩ := List.mem_iterate.mp mem
    exact Slice.millis_le_after _ _ k
  have last := Slice.millis_le_after (p.next d.width) d.width run.length
  have other := (Slice.apart_of_next (b := b) next last).1
  have again := advances.again
  rw [Desk.getElem?_passed, if_neg other] at again
  refine ⟨congrArg _ advances.follows, fun x mem => ?_, ?_, past.trans advances.store, again, ?_,
    fun x => ?_⟩
  · rcases List.mem_cons.mp mem with rfl | mem
    · exact isOver
    · exact (Desk.isOver_passed next past (later x mem)).mp (advances.isOver x mem)
  · exact fun isOver' => advances.longest ((Desk.isOver_passed next past last).mpr isOver')
  · rw [advances.log]
    simp [Desk.passed, TurnStage.returned, Desk.forget, Desk.announce]
  · have spared : drained ≠ some p := by
      rw [again]
      split
      · exact fun same => other (Option.some.inj same)
      · exact (Option.some_ne_none p).symm
    rw [advances.progress x, Desk.getElem?_passed]
    by_cases same : x = p
    · subst same
      simp [spared]
    · simp [same]

namespace Lone

variable {n : Node} {t : Task} {set : NodeSettings}

section Turns

variable (fromTick : Bool) (rest : List Slice → Program t.role.Result) (announced : List Slice)

/-- At a slice that it has drained, a node looks for pending jobs. -/
theorem step_seek (settings : n.desk.settings = set) (begun : t.number < n.nextNumber)
    (ready : Ready now p n.desk b) (drained : n.desk.progress[p]? = some .drained) :
    Step t.number ⟨n.requeue t (.turns fromTick set rest announced (.inl .seek)), b, now⟩
      ⟨n.requeue t (.turns fromTick set rest announced (.inl (.recheck p))), b, now⟩ :=
  have sought : TurnStage.seek.react fromTick set n.desk (.ok (some p)) =
      ⟨n.desk, none, .inl (.recheck p)⟩ := by
    simp [TurnStage.react, drained]
  step_turns settings begun ready.seeks sought

/-- A turn moves the pointer past a slice that is over. -/
theorem steps_of_isOver (settings : n.desk.settings = set) (begun : t.number < n.nextNumber)
    (running : n.desk.stopped = false) (ready : Ready now p n.desk b)
    (isOver : n.desk.IsOver b now p) : ∃ b',
      Steps t.number ⟨n.requeue t (.turns fromTick set rest announced (.inl .seek)), b, now⟩
        ⟨{ n with desk := n.desk.passed p }.requeue t
          (.turns fromTick set rest (announced ++ [p]) (.inl .seek)), b', now⟩ ∧
      b.MovedPast now [p] (p.next n.desk.width) b' := by
  obtain ⟨drained, sets, read, none⟩ := isOver
  have here : p ∈ n.desk.progress := Desk.mem_of_progress drained
  have next : p.HasNext n.desk.width := ready.next 0 drained
  obtain ⟨b₁, b₂, b₃, cleared, moved, returned, past⟩ :=
    Backend.exists_moves ready.pointer (ready.owns p here le_rfl) next
  subst settings
  have recheck : b.perform now (.sliceSets p) = (.ok sets, b) :=
    Prod.ext read (b.perform_reads now rfl)
  have first : TurnStage.first (n.desk.passed p) = .inl .seek := by
    have running : (n.desk.passed p).stopped = false := running
    simp [TurnStage.first, running]
  have rechecked : (TurnStage.recheck p).react fromTick n.desk.settings n.desk (.ok sets) =
      ⟨n.desk, Option.none, .inl (.clear p)⟩ := by
    simp [TurnStage.react, none]
  have moves := @step_moved fromTick { n with desk := n.desk.passed p } t rest n.desk.settings
    announced b₃ now begun p
  rw [first] at moves
  refine ⟨b₃, ?_, past⟩
  refine .head (step_seek fromTick rest announced rfl begun ready drained) ?_
  refine .head (step_turns rfl begun recheck rechecked) ?_
  refine .head (step_turns rfl begun cleared rfl) ?_
  refine .head (step_turns rfl begun moved rfl) ?_
  refine .head (step_turns rfl begun returned rfl) ?_
  exact .single moves

/-- A turn lets the pointer stay at a slice that is not over. -/
theorem steps_of_not_isOver (settings : n.desk.settings = set) (begun : t.number < n.nextNumber)
    (ready : Ready now p n.desk b) (stays : ¬n.desk.IsOver b now p) : ∃ d drained,
      Steps t.number ⟨n.requeue t (.turns fromTick set rest announced (.inl .seek)), b, now⟩
        ⟨(n.work d drained).requeue t (.turns fromTick set rest announced (.inr .stay)), b, now⟩ ∧
      Advances fromTick now n.desk.width p n.desk d b b [] drained := by
  subst settings
  by_cases drained : n.desk.progress[p]? = some .drained
  · have here : p ∈ n.desk.progress := Desk.mem_of_progress drained
    obtain ⟨sets, read⟩ := ready.reads p here le_rfl
    have pending : sets.pending ≠ [] := fun none => stays ⟨drained, sets, read, none⟩
    have recheck : b.perform now (.sliceSets p) = (.ok sets, b) :=
      Prod.ext read (b.perform_reads now rfl)
    have sought := step_seek fromTick rest announced rfl begun ready drained
    cases fromTick with
    | true =>
      have rechecked : (TurnStage.recheck p).react true n.desk.settings n.desk (.ok sets) =
          ⟨n.desk.setProgress p .draining, some p, .inr .stay⟩ := by
        simp [TurnStage.react, pending]
      refine ⟨_, _, .head sought (.single (step_turns rfl begun recheck rechecked)),
        .stay ready.pointer stays (if_pos ⟨rfl, drained⟩).symm rfl fun x => ?_⟩
      simp [Desk.setProgress, Std.ExtTreeMap.getElem?_insert]
    | false =>
      have rechecked : (TurnStage.recheck p).react false n.desk.settings n.desk (.ok sets) =
          ⟨n.desk, none, .inr .stay⟩ := by
        simp [TurnStage.react, pending]
      exact ⟨_, _, .head sought (.single (step_turns rfl begun recheck rechecked)),
        .stay ready.pointer stays (if_neg fun both => Bool.false_ne_true both.1).symm rfl fun _ => rfl⟩
  · have sought : TurnStage.seek.react fromTick n.desk.settings n.desk (.ok (some p)) =
        ⟨n.desk, none, .inr .stay⟩ := by
      simp [TurnStage.react, drained]
    exact ⟨_, _, .single (step_turns rfl begun ready.seeks sought),
      .stay ready.pointer stays (if_neg fun both => drained both.2).symm rfl fun _ => rfl⟩

/-- The pointer is moved past the slices that are over, and past no others. Every turn that moves it
takes a slice from those that the node works on. -/
theorem exists_advances (settings : n.desk.settings = set) (begun : t.number < n.nextNumber)
    (running : n.desk.stopped = false) (ready : Ready now p n.desk b) : ∃ run d drained b',
      Steps t.number ⟨n.requeue t (.turns fromTick set rest announced (.inl .seek)), b, now⟩
        ⟨(n.work d drained).requeue t (.turns fromTick set rest (announced ++ run) (.inr .stay)),
          b', now⟩ ∧
      Advances fromTick now n.desk.width p n.desk d b b' run drained := by
  induction size : n.desk.progress.size using Nat.strong_induction_on
    generalizing n b p announced with
  | _ size' ih =>
    by_cases isOver : n.desk.IsOver b now p
    · have next : p.HasNext n.desk.width := ready.next 0 isOver.1
      obtain ⟨b₁, turn, past⟩ := steps_of_isOver fromTick rest announced settings begun running
        ready isOver
      have here : p ∈ n.desk.progress := Desk.mem_of_progress isOver.1
      have less : (n.desk.passed p).progress.size < size' := by
        have nonempty : n.desk.progress.size ≠ 0 := fun none =>
          Std.ExtTreeMap.not_mem_empty (Std.ExtTreeMap.eq_empty_iff_size_eq_zero.mpr none ▸ here)
        have erased : (n.desk.passed p).progress = n.desk.progress.erase p := rfl
        rw [erased, Std.ExtTreeMap.size_erase, if_pos (Std.ExtTreeMap.mem_iff_contains.mp here)]
        omega
      obtain ⟨run, d', drained, b', turns, advances⟩ := @ih _ less (p.next n.desk.width) b₁
        { n with desk := n.desk.passed p } (announced ++ [p]) settings begun running
        (ready.passed next past) rfl
      refine ⟨p :: run, d', drained, b', turn.trans ?_, advances.cons isOver next past⟩
      rw [List.append_assoc] at turns
      exact turns
    · obtain ⟨d, drained, turn, advances⟩ :=
        steps_of_not_isOver fromTick rest announced settings begun ready isOver
      exact ⟨[], d, drained, b, by rw [List.append_nil]; exact turn, advances⟩

end Turns

/-- A node that moves the pointer comes to an end. It has moved the pointer past the longest run of
slices that are over, and goes on with them. -/
theorem advances {next : List Slice → Program t.role.Result} (there : n.task? t.number = some t)
    (begun : t.number < n.nextNumber) (waits : t.code = .run (.ask (.advance fromTick) next))
    (free : n.advancing = false) (running : n.desk.stopped = false)
    (ready : Ready now p n.desk b) : ∃ run d drained b',
      let last : Task :=
        { t with code := .turns fromTick n.desk.settings next run (.inr .stay) }
      let n' := ({ n with advancing := true }.work d drained).requeue t last.code
      Steps t.number ⟨n, b, now⟩ ⟨n', b', now⟩ ∧
      Step t.number ⟨n', b', now⟩
        ⟨{ n' with advancing := false }.goOn now last (.run (next run)), b', now⟩ ∧
      Advances fromTick now n.desk.width p n.desk d b b' run drained := by
  have first : TurnStage.first n.desk = .inl .seek := by simp [TurnStage.first, running]
  have begins : Step t.number ⟨n, b, now⟩ ⟨_, b, now⟩ := step_begin there waits free
  rw [first] at begins
  obtain ⟨run, d, drained, b', turns, advances⟩ :=
    exists_advances (n := { n with advancing := true }) fromTick next [] rfl begun running ready
  refine ⟨run, d, drained, b', .head begins turns, ?_, advances⟩
  exact step_stay (t := { t with code := .turns fromTick n.desk.settings next run (.inr .stay) })
    (Node.task?_requeue _ t _) rfl

/-! ### A slice that is drained once more -/

/-- What a tick does after it has moved the pointer. -/
def tickOn (announced : List Slice) : Program Reply :=
  (Program.tickOn true announced).andThen fun result => .done (.ticked result)

/-- A tick that waits to move the pointer. -/
def ticking : Task := ⟨0, .command none .tick, .run (.ask (.advance true) tickOn)⟩

/-- A node that has drained two minutes, in the second of which a job is pending. -/
def halfway : Lone where
  node :=
    { desk := (Desk.setProgress (.setProgress (.ofSettings (.standard "a") ∅) (.minute 0) .drained)
        (.minute 1) .drained)
      tasks := [ticking], nextNumber := 1, advancing := false, permits := 16, drains := ∅
      loop := .busy, listening := true, inbox := [], outbox := [] }
  store := .memory
    { jobs := ∅
      index := Std.ExtTreeMap.empty.insert (.minute 1)
        ⟨Std.ExtTreeSet.empty.insert Job.errand.id, ∅, ∅⟩
      pointer := some (.minute 0)
      locks := (Std.ExtTreeMap.empty.insert (Slice.minute 0).advanceLock ⟨some "a", ∅⟩).insert
        (Slice.minute 1).advanceLock ⟨some "a", ∅⟩ }
  now := (Slice.minute 2).start

theorem progress_halfway (x : Slice) (here : x ∈ halfway.node.desk.progress) :
    x = .minute 0 ∨ x = .minute 1 := by
  have here : x ∈ ((∅ : Std.ExtTreeMap Slice Progress).insert (.minute 0) .drained).insert
    (.minute 1) .drained := here
  simp only [Std.ExtTreeMap.mem_insert, Std.LawfulEqCmp.compare_eq_iff_eq,
    Std.ExtTreeMap.not_mem_empty, or_false] at here
  exact here.symm.imp Eq.symm Eq.symm

theorem ready_halfway : Ready halfway.now (.minute 0) halfway.node.desk halfway.store where
  pointer := rfl
  owns x here _ := by
    rcases progress_halfway x here with rfl | rfl
    · rfl
    · rfl
  reads x here _ := by
    rcases progress_halfway x here with rfl | rfl
    · exact ⟨_, rfl⟩
    · exact ⟨_, rfl⟩
  next k there := by
    rcases progress_halfway _ (Desk.mem_of_progress there) with same | same
    · rw [same]
      decide
    · rw [same]
      decide

theorem advances_halfway : ∃ d b',
    let last : Task := { ticking with
      code := .turns true halfway.node.desk.settings tickOn [.minute 0] (.inr .stay) }
    let n' := ({ halfway.node with advancing := true }.work d (some (.minute 1))).requeue ticking
      last.code
    Steps 0 halfway ⟨n', b', halfway.now⟩ ∧
    Step 0 ⟨n', b', halfway.now⟩ ⟨{ n' with advancing := false }.goOn halfway.now last
      (.run (tickOn [.minute 0])), b', halfway.now⟩ ∧
    Advances true halfway.now (.ofSeconds 60) (.minute 0) halfway.node.desk d halfway.store b'
      [.minute 0] (some (.minute 1)) := by
  obtain ⟨run, d, again, b', steps, step, advances⟩ := advances (t := ticking) rfl (by decide) rfl
    rfl rfl ready_halfway
  have second : (Slice.minute 0).next halfway.node.desk.width = .minute 1 := by decide
  have first : halfway.node.desk.IsOver halfway.store halfway.now (.minute 0) :=
    ⟨rfl, _, rfl, by decide⟩
  have pending : ¬halfway.node.desk.IsOver halfway.store halfway.now (.minute 1) := by
    rintro ⟨-, sets, read, none⟩
    obtain rfl := Except.ok.inj read
    exact absurd none (by decide)
  have follows := advances.follows
  match run with
  | [] => exact absurd first advances.longest
  | [x] =>
    obtain rfl : x = .minute 0 := List.singleton_inj.mp follows
    have last : (Slice.minute 0).after halfway.node.desk.width 1 = .minute 1 := second
    have same := advances.again
    rw [List.length_singleton, last, if_pos ⟨rfl, rfl⟩] at same
    subst same
    exact ⟨d, b', steps, step, advances⟩
  | x :: y :: others =>
    obtain rfl : y = .minute 1 := second ▸ (List.cons.inj (List.cons.inj follows).2).1
    exact absurd (advances.isOver _ (List.mem_cons_of_mem _ List.mem_cons_self)) pending

end Lone

end SliceScheduler
