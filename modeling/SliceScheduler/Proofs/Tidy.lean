import SliceScheduler.Proofs.Guard
import SliceScheduler.Proofs.Horizon
/-!
# Tidy nodes

Whatever fails and whatever is shut down, the tasks of a node agree with what its desk says about
the slices that it works on.

1. `Desk.progressOf` is how far a node has come with a slice;
2. `TaskStage.Fits` says what a task at a stage relies on: a turn of moving the pointer on the
   slice at the pointer being drained, a walk on the slice that it takes being new to the node, a
   draining on its slice being at work;
3. `Post.Tidy` adds that one command is at work at a time, that a slice is drained by one task at a
   time, and that a lock that is still to be given back is not taken again meanwhile;
4. `Post.Tidy.apply` says that the steps of its tasks keep a node tidy.
-/
namespace SliceScheduler

/-- How far the node has come with a slice. -/
def Desk.progressOf (d : Desk) (slice : Slice) : Option Progress := d.progress[slice]?

namespace TaskStage

/-- The task is that of a command. -/
def isCommand : TaskStage → Bool
  | guard (.tick ..) | turn (.tick ..) .. | turned (.tick ..) .. | walk .. => true
  | rest .. | hold .. | giveUp .. => true
  | _ => false

/-- The slice that the task drains. -/
def drains? : TaskStage → Option Slice
  | sets slice | permit slice _ _ | jobs slice => some slice
  | _ => none

/-- The slice that the task moves the pointer past. -/
def moves? : TaskStage → Option Slice
  | turn _ _ (.recheck slice) | turn _ _ (.clear slice) | turn _ _ (.move slice) => some slice
  | _ => none

/-- The slice that the task moved the pointer past and whose lock it gives back. -/
def returns? : TaskStage → Option Slice
  | turn _ _ (.back slice _) => some slice
  | _ => none

/-- The pointer that the task walks from. -/
def walks? : TaskStage → Option Slice
  | walk _ _ _ (.release pointer _ _) | walk _ _ _ (.take pointer _ _ _ _) => some pointer
  | _ => none

/-- What the task relies on, given how far the node has come with slices, and the pointer. -/
def Fits (progress : Slice → Option Progress) (pointer : Option Slice) : TaskStage → Prop
  | turn _ _ (.recheck x) | turn _ _ (.clear x) | turn _ _ (.move x) =>
    progress x = some .drained ∧ pointer = some x
  | turn _ _ (.back x _) =>
    progress x ≠ some .draining ∧
      ∃ q, pointer = some q ∧ (x < q ∨ x = q ∧ progress x = some .drained)
  | walk _ _ _ (.release p x others) =>
    (∀ y ∈ x :: others, y < p ∧ progress y ≠ some .draining) ∧ ∃ q, pointer = some q ∧ p ≤ q
  | walk _ _ _ (.take p _ _ x _) =>
    (p ≤ x ∧ progress x = none) ∧ ∃ q, pointer = some q ∧ p ≤ q
  | sets x | permit x _ _ | jobs x => progress x = some .draining
  | _ => True

end TaskStage

/-- The tasks of the node agree with each other and with its desk. -/
structure Post.Tidy (pointer : Option Slice) (p : Post) : Prop where
  guarded : p.Guarded
  busy : ∀ k s, p.stages k = some s → s.isCommand = true → p.loop = .busy
  oneCommand : ∀ k k' s s', p.stages k = some s → s.isCommand = true → p.stages k' = some s' →
    s'.isCommand = true → k = k'
  fits : ∀ k s, p.stages k = some s → s.Fits p.desk.progressOf pointer
  oneDrain : ∀ k k' s s' x, p.stages k = some s → s.drains? = some x → p.stages k' = some s' →
    s'.drains? = some x → k = k'
  /-- A lock is given back once more only after its slice is no longer walked to. -/
  behind : ∀ k k' s s' x q, p.stages k = some s → s.returns? = some x → p.stages k' = some s' →
    s'.walks? = some q → q ≤ x → p.desk.progressOf x = some .drained

/-! ## What a step changes -/

namespace Post

/-- What a step of a task changes about slices, and the pointer before and after it. -/
inductive Change (pointer pointer' : Option Slice) (p : Post) (s : TaskStage) (e : Effect) : Prop
  | same : e.desk.progressOf = p.desk.progressOf → pointer' = pointer ∨ pointer = none →
    e.spawned.bind TaskStage.drains? = none → e.next.bind TaskStage.returns? = none →
    Change pointer pointer' p s e
  /-- The pointer moves past a slice. -/
  | move {x y : Slice} : s.moves? = some x → pointer = some x → pointer' = some y → x ≤ y →
    e.desk.progressOf = p.desk.progressOf → e.spawned = none →
    (∀ z, e.next.bind TaskStage.returns? = some z → z = x) → Change pointer pointer' p s e
  /-- The lock of a slice goes back. -/
  | forget {x : Slice} : s.returns? = some x ∨ (∃ ticket dispatch announced q others,
      s = .walk ticket dispatch announced (.release q x others)) →
    pointer' = pointer → e.desk.progressOf = Function.update p.desk.progressOf x none →
    e.spawned = none → e.next.bind TaskStage.returns? = none → Change pointer pointer' p s e
  /-- The lock of a slice is taken. -/
  | take {x : Slice} : (∃ ticket dispatch announced q current limit before,
      s = .walk ticket dispatch announced (.take q current limit x before)) →
    pointer' = pointer →
    e.desk.progressOf = Function.update p.desk.progressOf x (some .draining) →
    e.spawned = some (.sets x) → e.next.bind TaskStage.returns? = none →
    Change pointer pointer' p s e
  /-- A slice that was drained is drained once more. -/
  | redrain {x : Slice} : (∃ ticket dispatch announced,
      s = .turn (.tick ticket dispatch) announced (.recheck x)) →
    pointer' = pointer →
    e.desk.progressOf = Function.update p.desk.progressOf x (some .draining) →
    e.spawned = some (.sets x) → e.next.bind TaskStage.returns? = none →
    Change pointer pointer' p s e
  /-- A slice comes to be drained. -/
  | drained {x : Slice} : s.drains? = some x → pointer' = pointer →
    e.desk.progressOf = Function.update p.desk.progressOf x (some .drained) →
    e.spawned = none → e.next.bind TaskStage.drains? = none →
    e.next.bind TaskStage.returns? = none → Change pointer pointer' p s e

/-- A step of a task that is at one with its node. -/
structure Shift (pointer pointer' : Option Slice) (p : Post) (s : TaskStage) (e : Effect) :
    Prop where
  command : e.next.any TaskStage.isCommand = true → s.isCommand = true
  loop : e.loop = p.loop ∨ s.isCommand = true ∧ e.next.any TaskStage.isCommand = false
  fits : e.next.elim True (·.Fits e.desk.progressOf pointer')
  drains : ∀ x, e.next.bind TaskStage.drains? = some x → s.drains? = some x
  walks : ∀ q, e.next.bind TaskStage.walks? = some q → s.walks? = some q ∨ pointer' = some q
  spawned : e.spawned.elim True fun t => t.isCommand = false ∧ t.returns? = none ∧
    t.walks? = none ∧ t.Fits e.desk.progressOf pointer'
  change : Change pointer pointer' p s e

end Post

namespace TidyLemmas

variable {progress progress' : Slice → Option Progress} {pointer pointer' : Option Slice}
  {s : TaskStage}

/-! ## How far a node has come -/

theorem progressOf_setProgress (d : Desk) (slice : Slice) (v : Progress) :
    (d.setProgress slice v).progressOf = Function.update d.progressOf slice (some v) := by
  funext x
  simp only [Desk.progressOf, Desk.setProgress, Std.ExtTreeMap.getElem?_insert]
  by_cases same : slice = x
  · subst same
    simp
  · rw [Function.update_of_ne (Ne.symm same)]
    simp [same, Desk.progressOf]

theorem progressOf_forget (d : Desk) (slice : Slice) :
    (d.forget slice).progressOf = Function.update d.progressOf slice none := by
  funext x
  simp only [Desk.progressOf, Desk.forget, Std.ExtTreeMap.getElem?_erase]
  by_cases same : slice = x
  · subst same
    simp
  · rw [Function.update_of_ne (Ne.symm same)]
    simp [same, Desk.progressOf]

theorem progressOf_of_same {d d' : Desk} (same : d'.progress = d.progress) :
    d'.progressOf = d.progressOf := by
  funext x
  rw [Desk.progressOf, same]
  rfl

/-! ## The stages that a task comes to -/

/-- The stage of a tick that walks from a pointer, or none when the tick is over. -/
def walkPlace (ticket : Option Nat) (dispatch : Bool) (announced : List Slice) :
    WalkStage ⊕ Program.TickResult → Option TaskStage
  | .inl s => some (.walk ticket dispatch announced s)
  | .inr _ => none

/-- A tick that walks from a pointer, as far as the pointer of the store. -/
structure WalksFrom (progress : Slice → Option Progress) (pointer : Option Slice) (p : Slice)
    (next : Option TaskStage) : Prop where
  fits : next.elim True (·.Fits progress pointer)
  walks : ∀ q, next.bind TaskStage.walks? = some q → q = p
  drains : next.bind TaskStage.drains? = none
  returns : next.bind TaskStage.returns? = none

variable {ticket : Option Nat} {dispatch : Bool} {announced advanced : List Slice}

theorem walkOn_fits {d : Desk} {p current x : Slice} {n : Nat}
    {before : List (Slice × Program.Visit)} (le : p ≤ x) (ahead : ∃ q, pointer = some q ∧ p ≤ q) :
    WalksFrom d.progressOf pointer p (walkPlace ticket dispatch announced
      (WalkStage.walkOn d advanced p current n x before)) := by
  have spent (r : Program.TickResult) : WalksFrom d.progressOf pointer p
      (walkPlace ticket dispatch announced (.inr r)) :=
    ⟨trivial, fun q same => (by cases same), rfl, rfl⟩
  induction n generalizing x before with
  | zero => exact spent _
  | succ n ih =>
    simp only [WalkStage.walkOn]
    split
    · exact spent _
    · split
      · exact ih (le_trans le Slice.le_next)
      · rename_i absent
        refine ⟨⟨⟨le, ?_⟩, ahead⟩, fun q same => (Option.some.inj same).symm, rfl, rfl⟩
        exact Std.ExtTreeMap.getElem?_eq_none_of_contains_eq_false (Bool.eq_false_iff.mpr absent)

theorem releaseOn_fits {d : Desk} {p : Slice} {now : Instant} {stale : List Slice}
    (behind : ∀ y ∈ stale, y < p ∧ d.progressOf y ≠ some .draining)
    (ahead : ∃ q, pointer = some q ∧ p ≤ q) :
    WalksFrom d.progressOf pointer p (walkPlace ticket dispatch announced
      (WalkStage.releaseOn now dispatch d advanced p stale)) := by
  cases stale with
  | nil =>
    simp only [WalkStage.releaseOn, WalkStage.setOut]
    split
    · exact walkOn_fits (le_refl p) ahead
    · exact ⟨trivial, fun q same => (by cases same), rfl, rfl⟩
  | cons x others =>
    exact ⟨⟨behind, ahead⟩, fun q same => (Option.some.inj same).symm, rfl, rfl⟩

theorem staleSlices_behind {d : Desk} {p y : Slice} (mem : y ∈ d.staleSlices p) :
    y < p ∧ d.progressOf y ≠ some .draining := by
  obtain ⟨⟨x, v⟩, found, same⟩ := List.mem_filterMap.mp mem
  simp only [Option.ite_none_right_eq_some, Option.some.injEq] at same
  obtain ⟨⟨less, rfl⟩, rfl⟩ := same
  refine ⟨less, ?_⟩
  rw [Desk.progressOf, Std.ExtTreeMap.mem_toList_iff_getElem?_eq_some.mp found]
  nofun

open Post

variable {p : Post} {e : Effect}

/-- A step that changes nothing about slices. -/
theorem shift_same {n : Option TaskStage} (desk : e.desk.progressOf = p.desk.progressOf)
    (next : e.next = n) (pointer_same : pointer' = pointer ∨ pointer = none)
    (command : n.any TaskStage.isCommand = true → s.isCommand = true)
    (loop : e.loop = p.loop ∨ s.isCommand = true ∧ n.any TaskStage.isCommand = false)
    (fits : n.elim True (·.Fits p.desk.progressOf pointer'))
    (drains : ∀ x, n.bind TaskStage.drains? = some x → s.drains? = some x)
    (returns : n.bind TaskStage.returns? = none) (walks : n.bind TaskStage.walks? = none)
    (spawned : e.spawned.elim True fun t => t.isCommand = false ∧ t.returns? = none ∧
      t.walks? = none ∧ t.drains? = none ∧ t.Fits p.desk.progressOf pointer') :
    p.Shift pointer pointer' s e := by
  subst next
  refine ⟨command, loop, desk ▸ fits, drains, fun q same => ?_, ?_, .same desk pointer_same ?_
    returns⟩
  · rw [walks] at same
    cases same
  · cases new : e.spawned with
    | none => trivial
    | some t =>
      rw [new] at spawned
      obtain ⟨plain, returns, walks, -, fits⟩ := spawned
      exact ⟨plain, returns, walks, desk ▸ fits⟩
  · cases new : e.spawned with
    | none => rfl
    | some t =>
      rw [new] at spawned
      exact spawned.2.2.2.1

theorem stays {now : Instant} {store store' : MemoryStore} {k : Nat} {prompt : Prompt}
    (works : p.Works now store k s prompt e store') (other : s.moves? = none) :
    store'.pointer = store.pointer ∨ store.pointer = none := by
  rcases works.pointer with stays | ⟨mover, announced, x, rfl, -⟩
  · exact stays
  · cases other

theorem isCommand_turnPlace (mover : Mover) (announced announced' : List Slice)
    (next : TurnStage ⊕ Program.Turn) (s : TurnStage) :
    (turnPlace mover announced next).isCommand = (TaskStage.turn mover announced' s).isCommand := by
  cases next <;> cases mover <;> rfl

theorem drains_turnPlace (mover : Mover) (announced : List Slice)
    (next : TurnStage ⊕ Program.Turn) : (turnPlace mover announced next).drains? = none := by
  cases next <;> rfl

theorem walks_turnPlace (mover : Mover) (announced : List Slice)
    (next : TurnStage ⊕ Program.Turn) : (turnPlace mover announced next).walks? = none := by
  cases next <;> rfl

theorem fits_turnPlace_first (mover : Mover) (announced : List Slice) (d : Desk) :
    (turnPlace mover announced (TurnStage.first d)).Fits progress pointer := by
  unfold TurnStage.first
  split <;> trivial

theorem returns_turnPlace_first (mover : Mover) (announced : List Slice) (d : Desk) :
    (turnPlace mover announced (TurnStage.first d)).returns? = none := by
  unfold TurnStage.first
  split <;> rfl

/-- A turn that changes nothing about slices. -/
theorem shift_turn {mover : Mover} {announced : List Slice} {t : TurnStage}
    {next : TurnStage ⊕ Program.Turn} (same : pointer' = pointer ∨ pointer = none)
    (fits : (turnPlace mover announced next).Fits p.desk.progressOf pointer')
    (returns : (turnPlace mover announced next).returns? = none) :
    p.Shift pointer pointer' (.turn mover announced t)
      (p.afterTurn mover announced ⟨p.desk, none, next⟩) := by
  refine shift_same (n := some (turnPlace mover announced next)) rfl rfl same ?_ (.inl rfl) fits ?_
    returns (walks_turnPlace ..) trivial
  · intro command
    rwa [Option.any_some, isCommand_turnPlace mover announced announced next t] at command
  · intro x drains
    rw [Option.bind_some, drains_turnPlace] at drains
    cases drains

theorem turn_shift {now : Instant} {store store' : MemoryStore} {mover : Mover}
    {announced : List Slice} {t : TurnStage} {fault : Option StoreError}
    {answer : (t.op p.desk.settings).Result}
    (made : store.attempt now fault (t.op p.desk.settings) = (answer, store'))
    (fits : (TaskStage.turn mover announced t).Fits p.desk.progressOf store.pointer) :
    p.Shift store.pointer store'.pointer (.turn mover announced t)
      (p.afterTurn mover announced (t.react mover.fromTick p.desk.settings p.desk answer)) := by
  have command (next : TurnStage ⊕ Program.Turn) : Option.any TaskStage.isCommand
      (some (turnPlace mover announced next)) = true →
      (TaskStage.turn mover announced t).isCommand = true := by
    rw [Option.any_some, isCommand_turnPlace mover announced announced next t]
    exact id
  have drains (next : TurnStage ⊕ Program.Turn) (x : Slice)
      (some : (Option.some (turnPlace mover announced next)).bind TaskStage.drains? = some x) :
      (TaskStage.turn mover announced t).drains? = Option.some x := by
    rw [Option.bind_some, drains_turnPlace] at some
    cases some
  have walks (next : TurnStage ⊕ Program.Turn) (q : Slice)
      (some : (Option.some (turnPlace mover announced next)).bind TaskStage.walks? = some q) :
      (TaskStage.turn mover announced t).walks? = Option.some q ∨
        store'.pointer = Option.some q := by
    rw [Option.bind_some, walks_turnPlace] at some
    cases some
  cases t with
  | seek =>
    obtain ⟨rfl, there⟩ := MemoryStore.getPointer_attempt made
    rcases answer with e | _ | x
    · exact shift_turn (.inl rfl) trivial rfl
    · exact shift_turn (.inl rfl) trivial rfl
    · simp only [TurnStage.react]
      split
      · exact shift_turn (.inl rfl) trivial rfl
      · rename_i drained
        exact shift_turn (.inl rfl) ⟨not_not.mp drained, there _ rfl⟩ rfl
  | recheck x =>
    obtain ⟨drained, there⟩ := fits
    have same : store'.pointer = store.pointer :=
      (MemoryStore.pointer_attempt made rfl there).trans there.symm
    rcases answer with e | index
    · exact shift_turn (.inl same) trivial rfl
    · simp only [TurnStage.react]
      split
      · cases mover with
        | tick ticket dispatch =>
          have changes := progressOf_setProgress p.desk x .draining
          refine ⟨command _, .inl rfl, trivial, drains _, walks _, ⟨rfl, rfl, rfl, ?_⟩,
            .redrain ⟨ticket, dispatch, announced, rfl⟩ same changes rfl rfl⟩
          exact (congrFun changes x).trans (Function.update_self ..)
        | drain slice => exact shift_turn (.inl same) trivial rfl
      · exact shift_turn (.inl same) ⟨drained, same.trans there⟩ rfl
  | clear x =>
    obtain ⟨drained, there⟩ := fits
    have same : store'.pointer = store.pointer :=
      (MemoryStore.pointer_attempt made rfl there).trans there.symm
    rcases answer with e | _
    · exact shift_turn (.inl same) trivial rfl
    · exact shift_turn (.inl same) ⟨drained, same.trans there⟩ rfl
  | move x =>
    obtain ⟨drained, there⟩ := fits
    -- the pointer is where the turn found it, so that the call moves it or fails
    rcases MemoryStore.movePointer_attempt made with ⟨rfl, -, moved⟩ | ⟨failed, rfl⟩
    · refine ⟨command _, .inl rfl, ⟨?_, _, moved, ?_⟩, drains _, walks _, trivial,
        .move rfl there moved Slice.le_next rfl rfl fun z same => (Option.some.inj same).symm⟩
      · show p.desk.progressOf x ≠ _
        rw [drained]
        intro same
        cases same
      · rcases lt_or_eq_of_le (Slice.le_next (s := x) (w := p.desk.settings.width)) with less | same
        · exact .inl less
        · exact .inr ⟨same, drained⟩
    · rcases answer with e | _ | _
      · exact shift_turn (.inl rfl) trivial rfl
      · exact absurd rfl (MemoryStore.movePointer_there made there)
      · exact absurd rfl failed
  | back x moved =>
    obtain ⟨notDraining, q, there, -⟩ := fits
    have same : store'.pointer = store.pointer :=
      (MemoryStore.pointer_attempt made rfl there).trans there.symm
    have changes := progressOf_forget { p.desk with
      held := p.desk.held.afterRelease (TurnStage.lock p.desk.settings x) answer } x
    cases moved with
    | true =>
      exact ⟨command _, .inl rfl, trivial, drains _, walks _, trivial,
        .forget (.inl rfl) same changes rfl rfl⟩
    | false =>
      exact ⟨command _, .inl rfl, trivial, drains _, walks _, trivial,
        .forget (.inl rfl) same changes rfl rfl⟩

/-- A step of a tick that walks on from a pointer, or is over. -/
theorem shift_walk {s : WalkStage} {r : WalkReaction}
    (next : (walkPlace ticket dispatch announced r.next).elim True
      (·.Fits r.desk.progressOf pointer'))
    (walks : ∀ q, (walkPlace ticket dispatch announced r.next).bind TaskStage.walks? = some q →
      (TaskStage.walk ticket dispatch announced s).walks? = some q ∨ pointer' = some q)
    (spawned : ∀ x, r.drained = some x → r.desk.progressOf x = some .draining)
    (change : Change pointer pointer' p (.walk ticket dispatch announced s)
      (p.afterWalk ticket dispatch announced r)) :
    p.Shift pointer pointer' (.walk ticket dispatch announced s)
      (p.afterWalk ticket dispatch announced r) := by
  obtain ⟨desk, drained, next'⟩ := r
  have spawn : (drained.map TaskStage.sets).elim True fun t => t.isCommand = false ∧
      t.returns? = none ∧ t.walks? = none ∧ t.Fits desk.progressOf pointer' := by
    cases drained with
    | none => trivial
    | some x => exact ⟨rfl, rfl, rfl, spawned x rfl⟩
  cases next' with
  | inl t => exact ⟨fun _ => rfl, .inl rfl, next, fun x same => (by cases same), walks, spawn,
      change⟩
  | inr result =>
    exact ⟨fun _ => rfl, .inr ⟨rfl, rfl⟩, trivial, fun x same => (by cases same),
      fun q same => (by cases same), spawn, change⟩

theorem next_afterWalk (r : WalkReaction) :
    (p.afterWalk ticket dispatch announced r).next =
      walkPlace ticket dispatch announced r.next := by
  obtain ⟨desk, drained, next⟩ := r
  cases next <;> rfl

theorem desk_afterWalk (r : WalkReaction) :
    (p.afterWalk ticket dispatch announced r).desk = r.desk := by
  obtain ⟨desk, drained, next⟩ := r
  cases next <;> rfl

theorem spawned_afterWalk (r : WalkReaction) :
    (p.afterWalk ticket dispatch announced r).spawned = r.drained.map .sets := by
  obtain ⟨desk, drained, next⟩ := r
  cases next <;> rfl

/-- A step of a tick that changes nothing about slices. -/
theorem shift_walk_same {s : WalkStage} {d : Desk} {next : WalkStage ⊕ Program.TickResult} {q : Slice}
    (desk : d.progressOf = p.desk.progressOf) (same : pointer' = pointer ∨ pointer = none)
    (goes : WalksFrom p.desk.progressOf pointer' q (walkPlace ticket dispatch announced next))
    (from_ : (TaskStage.walk ticket dispatch announced s).walks? = some q ∨ pointer' = some q) :
    p.Shift pointer pointer' (.walk ticket dispatch announced s)
      (p.afterWalk ticket dispatch announced ⟨d, none, next⟩) := by
  refine shift_walk (desk ▸ goes.fits) (fun q' same => ?_) (fun x same => (by cases same)) ?_
  · rw [goes.walks q' same]
    exact from_
  · refine .same ?_ same ?_ ?_
    · rw [desk_afterWalk, desk]
    · rw [spawned_afterWalk]
      rfl
    · rw [next_afterWalk, goes.returns]

theorem fromPointer_fits {d : Desk} {q : Slice} {now : Instant}
    (there : pointer' = some q) : WalksFrom d.progressOf pointer' q
      (walkPlace ticket dispatch announced
        (WalkStage.fromPointer now dispatch d advanced (.ok q))) :=
  releaseOn_fits (fun _ mem => staleSlices_behind mem) ⟨q, there, le_refl q⟩

/-- A step of a tick that is not walking yet, or is over. -/
theorem shift_walk_out {s : WalkStage} {next : WalkStage ⊕ Program.TickResult}
    (same : pointer' = pointer ∨ pointer = none)
    (out : (∃ s', next = .inl (.ensure s')) ∨ ∃ r, next = .inr r) :
    p.Shift pointer pointer' (.walk ticket dispatch announced s)
      (p.afterWalk ticket dispatch announced ⟨p.desk, none, next⟩) := by
  rcases out with ⟨s', rfl⟩ | ⟨r, rfl⟩
  · exact shift_walk trivial (fun q none => (by cases none)) (fun x none => (by cases none))
      (.same rfl same rfl rfl)
  · exact shift_walk trivial (fun q none => (by cases none)) (fun x none => (by cases none))
      (.same rfl same rfl rfl)

theorem walk_shift {now : Instant} {store store' : MemoryStore} {t : WalkStage}
    {fault : Option StoreError} {answer : (t.op p.desk.settings).Result}
    (made : store.attempt now fault (t.op p.desk.settings) = (answer, store'))
    (same : store'.pointer = store.pointer ∨ store.pointer = none)
    (fits : (TaskStage.walk ticket dispatch announced t).Fits p.desk.progressOf store.pointer) :
    p.Shift store.pointer store'.pointer (.walk ticket dispatch announced t)
      (p.afterWalk ticket dispatch announced
        (t.react now dispatch announced p.desk.settings p.desk answer)) := by
  cases t with
  | read =>
    obtain ⟨rfl, there⟩ := MemoryStore.getPointer_attempt made
    rcases answer with e | _ | x
    · exact shift_walk_out same (.inr ⟨_, rfl⟩)
    · exact shift_walk_out same (.inl ⟨_, rfl⟩)
    · have there := there _ rfl
      exact shift_walk_same rfl same (fromPointer_fits there) (.inr there)
  | ensure s =>
    simp only [WalkStage.react]
    split
    · exact shift_walk_out same (.inl ⟨_, rfl⟩)
    · rename_i found goes
      rcases found with _ | x
      · exact shift_walk_out same (.inr ⟨_, rfl⟩)
      · have there := HorizonLemmas.seek_found made goes
        exact shift_walk_same rfl same (fromPointer_fits there) (.inr there)
  | release q x others =>
    obtain ⟨behind, y, there, le⟩ := fits
    have same : store'.pointer = store.pointer :=
      (MemoryStore.pointer_attempt made rfl there).trans there.symm
    have changes : (TurnStage.returned p.desk x answer).progressOf =
        Function.update p.desk.progressOf x none := progressOf_forget { p.desk with
      held := p.desk.held.afterRelease (TurnStage.lock p.desk.settings x) answer } x
    have goes : WalksFrom (TurnStage.returned p.desk x answer).progressOf store'.pointer q
        (walkPlace ticket dispatch announced
          (WalkStage.releaseOn now dispatch (TurnStage.returned p.desk x answer) announced q
            others)) := by
      refine releaseOn_fits (fun z mem => ⟨(behind z (List.mem_cons_of_mem _ mem)).1, ?_⟩)
        ⟨y, same.trans there, le⟩
      -- the slices that are still to be released were not draining, nor are they now
      rw [changes]
      by_cases equal : z = x
      · rw [equal, Function.update_self]
        intro same
        cases same
      · rw [Function.update_of_ne equal]
        exact (behind z (List.mem_cons_of_mem _ mem)).2
    refine shift_walk goes.fits (fun q' found => .inl ?_) (fun x none => (by cases none))
      (.forget (.inr ⟨_, _, _, _, _, rfl⟩) same ?_ ?_ ?_)
    · rw [goes.walks q' found]
      rfl
    · rw [desk_afterWalk]
      exact changes
    · rw [spawned_afterWalk]
      rfl
    · rw [next_afterWalk]
      exact goes.returns
  | take q current limit x before =>
    obtain ⟨⟨le, new⟩, y, there, le'⟩ := fits
    have same : store'.pointer = store.pointer :=
      (MemoryStore.pointer_attempt made rfl there).trans there.symm
    have ahead : ∃ y, store'.pointer = some y ∧ q ≤ y := ⟨y, same.trans there, le'⟩
    have next : q ≤ x.next p.desk.settings.width := le_trans le Slice.le_next
    rcases answer with e | _ | _
    · exact shift_walk_same (progressOf_of_same rfl) (.inl same)
        (walkOn_fits (d := WalkStage.noted p.desk x (.error e)) next ahead) (.inl rfl)
    · exact shift_walk_same (progressOf_of_same rfl) (.inl same)
        (walkOn_fits (d := (WalkStage.noted p.desk x (.ok false)).announce (.tickDeferred x))
          next ahead) (.inl rfl)
    · have changes := progressOf_setProgress (WalkStage.noted p.desk x (.ok true)) x .draining
      have goes : WalksFrom ((WalkStage.noted p.desk x (.ok true)).setProgress x .draining).progressOf
          store'.pointer q (walkPlace ticket dispatch announced (WalkStage.walkOn _ announced q
            current limit (x.next p.desk.settings.width) (before ++ [(x, .dispatched)]))) :=
        walkOn_fits next ahead
      refine shift_walk goes.fits (fun q' found => .inl ?_) (fun z same => ?_)
        (.take ⟨_, _, _, _, _, _, _, rfl⟩ same ?_ ?_ ?_)
      · rw [goes.walks q' found]
        rfl
      · obtain rfl := Option.some.inj same
        exact (congrFun changes _).trans (Function.update_self ..)
      · rw [desk_afterWalk]
        exact changes
      · rw [spawned_afterWalk]
        rfl
      · rw [next_afterWalk]
        exact goes.returns

/-- A step that comes to a stage that has nothing to do with slices, or to the end. -/
theorem shift_plain {n : Option TaskStage} (desk : e.desk.progressOf = p.desk.progressOf)
    (next : e.next = n) (same : pointer' = pointer ∨ pointer = none)
    (command : n.any TaskStage.isCommand = false) (loop : e.loop = p.loop ∨ s.isCommand = true)
    (fits : n.elim True (·.Fits p.desk.progressOf pointer'))
    (drains : n.bind TaskStage.drains? = none)
    (others : n.bind TaskStage.returns? = none ∧ n.bind TaskStage.walks? = none)
    (spawned : e.spawned = none) : p.Shift pointer pointer' s e := by
  refine shift_same desk next same ?_ (loop.imp_right fun mine => ⟨mine, command⟩) fits ?_ others.1
    others.2 ?_
  · intro some
    rw [command] at some
    cases some
  · intro x some
    rw [drains] at some
    cases some
  · rw [spawned]
    trivial

/-- A shutdown goes on to give up the next lock, or comes to its end. -/
theorem shift_giving {ticket : Option Nat} {live : Nat} {locks : List HeldLock} {q : Post}
    (desk : e.desk.progressOf = p.desk.progressOf) (same : pointer' = pointer ∨ pointer = none)
    (mine : s.isCommand = true) (next : e.next = (q.givingUp ticket live locks).next)
    (loop : e.loop = (q.givingUp ticket live locks).loop) (loops : q.loop = p.loop)
    (spawned : e.spawned = none) : p.Shift pointer pointer' s e := by
  cases locks with
  | nil =>
    exact shift_same (n := none) desk next same (fun none => (by cases none)) (.inr ⟨mine, rfl⟩)
      trivial (fun x none => (by cases none)) rfl rfl (spawned ▸ trivial)
  | cons lock others =>
    exact shift_same (n := some (.giveUp ticket lock others live)) desk next same (fun _ => mine)
      (.inl (loop.trans loops)) trivial (fun x none => (by cases none)) rfl rfl (spawned ▸ trivial)

theorem shift_drained {x : Slice} (drains : s.drains? = some x) (same : pointer' = pointer) :
    p.Shift pointer pointer' s (p.drained x) :=
  ⟨fun command => (by cases command), .inl rfl, trivial, fun y none => (by cases none),
    fun q none => (by cases none), trivial,
    .drained drains same (progressOf_setProgress p.desk x .drained) rfl rfl rfl⟩

theorem permits_facts (x : Slice) (ids : List JobId) :
    (permits x ids).drains? = some x ∧ (permits x ids).isCommand = false ∧
      (permits x ids).returns? = none ∧ (permits x ids).walks? = none := by
  cases ids <;> exact ⟨rfl, rfl, rfl, rfl⟩

theorem fits_permits {x : Slice} (ids : List JobId) (drains : progress x = some .draining) :
    (permits x ids).Fits progress pointer := by
  cases ids <;> exact drains

/-- The stage of a job is about the job alone. -/
theorem jobPlace_facts (parent : Nat) (slice : Slice) (id : JobId) (next : JobNext) :
    (jobPlace parent slice id next).any TaskStage.isCommand = false ∧
      (jobPlace parent slice id next).elim True (·.Fits progress pointer) ∧
      (jobPlace parent slice id next).bind TaskStage.drains? = none ∧
      (jobPlace parent slice id next).bind TaskStage.returns? = none ∧
      (jobPlace parent slice id next).bind TaskStage.walks? = none := by
  cases next <;> exact ⟨rfl, trivial, rfl, rfl, rfl⟩

theorem shift_job {parent : Nat} {slice : Slice} {id : JobId} {r : List Event × JobNext}
    (same : pointer' = pointer ∨ pointer = none) : p.Shift pointer pointer' s
      (p.afterJob parent slice id r) := by
  obtain ⟨command, fits, drains, returns, walks⟩ :=
    @jobPlace_facts p.desk.progressOf pointer' parent slice id r.2
  refine shift_same (n := jobPlace parent slice id r.2)
    (progressOf_of_same (Desk.progress_announceAll ..)) rfl same ?_ (.inl rfl) fits ?_ returns walks
    trivial
  · intro some
    rw [command] at some
    cases some
  · intro x some
    rw [drains] at some
    cases some

end TidyLemmas

open TidyLemmas

/-- A step of a task that is at one with its node. -/
theorem Post.Works.shift {now : Instant} {store store' : MemoryStore} {p : Post} {k : Nat}
    {s : TaskStage} {prompt : Prompt} {e : Effect} (works : p.Works now store k s prompt e store')
    (fits : s.Fits p.desk.progressOf store.pointer) :
    p.Shift store.pointer store'.pointer s e := by
  have same := stays works
  cases works with
  | start made =>
    unfold afterSeek
    split
    · exact shift_plain rfl rfl (same rfl) rfl (.inl rfl) trivial rfl ⟨rfl, rfl⟩ rfl
    · exact shift_plain rfl rfl (same rfl) rfl (.inl rfl) trivial rfl ⟨rfl, rfl⟩ rfl
  | submission made =>
    unfold afterSubmit
    split
    · exact shift_plain rfl rfl (same rfl) rfl (.inl rfl) trivial rfl ⟨rfl, rfl⟩ rfl
    · exact shift_plain rfl rfl (same rfl) rfl (.inl rfl) trivial rfl ⟨rfl, rfl⟩ rfl
  | @guard mover free =>
    refine shift_same (n := some (turnPlace mover [] (TurnStage.first p.desk))) rfl rfl (same rfl)
      ?_ (.inl rfl) (fits_turnPlace_first ..) ?_ (returns_turnPlace_first ..) (walks_turnPlace ..)
      trivial
    · rw [Option.any_some, isCommand_turnPlace mover [] [] _ .seek]
      cases mover <;> exact id
    · intro x some
      rw [Option.bind_some, drains_turnPlace] at some
      cases some
  | turn made => exact turn_shift made fits
  | @moved mover announced slice =>
    refine shift_same (n := some (turnPlace mover _ (TurnStage.first p.desk))) rfl rfl (same rfl)
      ?_ (.inl rfl) (fits_turnPlace_first ..) ?_ (returns_turnPlace_first ..) (walks_turnPlace ..)
      trivial
    · rw [Option.any_some, isCommand_turnPlace mover _ [] _ .seek]
      cases mover <;> exact id
    · intro x some
      rw [Option.bind_some, drains_turnPlace] at some
      cases some
  | @stay mover announced =>
    cases mover with
    | tick ticket dispatch =>
      exact shift_same (n := some (.walk ticket dispatch announced .read)) rfl rfl (same rfl)
        (fun _ => rfl) (.inl rfl) trivial (fun x none => (by cases none)) rfl rfl trivial
    | drain slice =>
      exact shift_plain rfl rfl (same rfl) rfl (.inl rfl) trivial rfl ⟨rfl, rfl⟩ rfl
  | walk made => exact walk_shift made (same rfl) fits
  | @look ticket looks =>
    exact shift_same (n := some (.rest ticket looks)) rfl rfl (same rfl) (fun _ => rfl) (.inl rfl)
      trivial (fun x none => (by cases none)) rfl rfl trivial
  | @halt ticket looks =>
    exact shift_same (n := some (.hold ticket)) rfl rfl (same rfl) (fun _ => rfl) (.inl rfl)
      trivial (fun x none => (by cases none)) rfl rfl trivial
  | hold free =>
    refine shift_giving (progressOf_of_same rfl) (same rfl) rfl rfl rfl rfl ?_
    unfold givingUp
    split <;> rfl
  | giveUp made live' =>
    refine shift_giving (progressOf_of_same ?_) (same rfl) rfl rfl rfl rfl ?_ <;>
    · unfold givingUp
      split <;> rfl
  | @sets slice fault answer store' made =>
    cases answer with
    | error e =>
      rcases MemoryStore.attempt_cases made with ⟨e, -, -, rfl⟩ | ⟨-, made⟩
      · exact shift_drained rfl rfl
      · cases made
    | ok index =>
      obtain ⟨drains, command, returns, walks⟩ := permits_facts slice index.pending
      refine shift_same (n := some (permits slice index.pending)) rfl rfl (same rfl) ?_ (.inl rfl)
        (fits_permits _ fits) ?_ returns walks trivial
      · rw [Option.any_some, command]
        nofun
      · intro x some
        rw [Option.bind_some, drains] at some
        exact some
  | @permit slice id others =>
    obtain ⟨drains, command, returns, walks⟩ := permits_facts slice others
    refine shift_same (n := some (permits slice others)) rfl rfl (same rfl) ?_ (.inl rfl)
      (fits_permits _ fits) ?_ returns walks ⟨rfl, rfl, rfl, rfl, trivial⟩
    · rw [Option.any_some, command]
      nofun
    · intro x some
      rw [Option.bind_some, drains] at some
      exact some
  | jobs spent => exact shift_drained rfl rfl
  | job made => exact shift_job (same rfl)
  | running => exact shift_job (same rfl)

/-! ## Steps keep nodes tidy -/

namespace TidyLemmas

open Post

variable {progress progress' : Slice → Option Progress} {pointer pointer' : Option Slice}
  {s s' : TaskStage} {p : Post} {e : Effect} {k k' : Nat} {x : Slice}

theorem hasGuard_of_moves (moves : s.moves? = some x) : s.hasGuard = true := by
  cases s with
  | turn mover announced s => rfl
  | _ => cases moves

theorem hasGuard_of_returns (returns : s.returns? = some x) : s.hasGuard = true := by
  cases s with
  | turn mover announced s => rfl
  | _ => cases returns

theorem isCommand_of_walks (walks : s.walks? = some x) : s.isCommand = true := by
  cases s with
  | walk ticket dispatch announced s => rfl
  | _ => cases walks

/-- What a stage relies on without a pointer holds with any. -/
theorem fits_of_none (fits : s.Fits progress none) : s.Fits progress pointer := by
  cases s with
  | turn mover announced s =>
    cases s with
    | seek => trivial
    | back x moved =>
      obtain ⟨-, q, none, -⟩ := fits
      cases none
    | _ => cases fits.2
  | walk ticket dispatch announced s =>
    cases s with
    | read | ensure => trivial
    | _ =>
      obtain ⟨-, q, none, -⟩ := fits
      cases none
  | _ => exact fits

/-- What a stage relies on holds when the pointer moves on, unless it is to move it itself. -/
theorem fits_forward {y : Slice} (fits : s.Fits progress (some x)) (le : x ≤ y)
    (free : s.moves? = none) : s.Fits progress (some y) := by
  cases s with
  | turn mover announced s =>
    cases s with
    | seek => trivial
    | back z moved =>
      obtain ⟨here, q, same, ahead⟩ := fits
      obtain rfl := Option.some.inj same
      refine ⟨here, y, rfl, ?_⟩
      rcases ahead with less | ⟨rfl, drained⟩
      · exact .inl (lt_of_lt_of_le less le)
      · rcases lt_or_eq_of_le le with less | equal
        · exact .inl less
        · exact .inr ⟨equal, drained⟩
    | _ => cases free
  | walk ticket dispatch announced s =>
    cases s with
    | read | ensure => trivial
    | _ =>
      obtain ⟨here, q, same, ahead⟩ := fits
      obtain rfl := Option.some.inj same
      exact ⟨here, y, rfl, le_trans ahead le⟩
  | _ => exact fits

/-- What a stage relies on that is about other slices. -/
theorem fits_update {v : Option Progress} (fits : s.Fits progress pointer)
    (moves : ∀ y, s.moves? = some y → y ≠ x) (returns : ∀ y, s.returns? = some y → y ≠ x)
    (walks : s.walks? = none) (drains : ∀ y, s.drains? = some y → y ≠ x) :
    s.Fits (Function.update progress x v) pointer := by
  cases s with
  | turn mover announced s =>
    cases s with
    | seek => trivial
    | back y moved =>
      obtain ⟨here, q, there, ahead⟩ := fits
      have other := returns y rfl
      refine ⟨?_, q, there, ?_⟩
      · rwa [Function.update_of_ne other]
      · rwa [Function.update_of_ne other]
    | recheck y | clear y | move y =>
      obtain ⟨here, there⟩ := fits
      refine ⟨?_, there⟩
      rwa [Function.update_of_ne (moves y rfl)]
  | walk ticket dispatch announced s =>
    cases s with
    | read | ensure => trivial
    | _ => cases walks
  | sets y | permit y | jobs y =>
    show Function.update progress x v y = _
    rw [Function.update_of_ne (drains y rfl)]
    exact fits
  | _ => exact fits

/-- What a stage relies on when a slice comes to be drained that it does not drain itself. -/
theorem fits_drained (fits : s.Fits progress pointer) (draining : progress x = some .draining)
    (drains : ∀ y, s.drains? = some y → y ≠ x) :
    s.Fits (Function.update progress x (some .drained)) pointer := by
  have other {y : Slice} {v : Option Progress} (here : progress y = v)
      (differs : v ≠ some .draining) : y ≠ x := by
    rintro rfl
    exact differs (here.symm.trans draining)
  cases s with
  | walk ticket dispatch announced s =>
    cases s with
    | read | ensure => trivial
    | release q y others =>
      obtain ⟨behind, ahead⟩ := fits
      refine ⟨fun z mem => ⟨(behind z mem).1, ?_⟩, ahead⟩
      rw [Function.update_of_ne (other rfl (behind z mem).2)]
      exact (behind z mem).2
    | take q current limit y before =>
      obtain ⟨⟨le, new⟩, ahead⟩ := fits
      refine ⟨⟨le, ?_⟩, ahead⟩
      rwa [Function.update_of_ne (other new nofun)]
  | turn mover announced s =>
    refine fits_update fits (fun y moves => ?_) (fun y returns => ?_) rfl drains
    · cases s with
      | seek | back => cases moves
      | recheck z | clear z | move z =>
        obtain rfl := Option.some.inj moves
        exact other fits.1 nofun
    · cases s with
      | back z moved =>
        obtain rfl := Option.some.inj returns
        exact other rfl fits.1
      | _ => cases returns
  | _ =>
    exact fits_update fits (fun y none => (by cases none)) (fun y none => (by cases none)) rfl
      drains

/-- What a stage relies on when a slice is forgotten that is not at work. -/
theorem fits_forget (fits : s.Fits progress pointer) (other : progress x ≠ some .draining)
    (moves : ∀ y, s.moves? = some y → y ≠ x)
    (returns : ∀ y, s.returns? = some y → ∀ q, pointer = some q → x < q) :
    s.Fits (Function.update progress x none) pointer := by
  have notDraining {y : Slice} (here : progress y ≠ some .draining) :
      Function.update progress x none y ≠ some .draining := by
    by_cases same : y = x
    · rw [same, Function.update_self]
      nofun
    · rwa [Function.update_of_ne same]
  cases s with
  | walk ticket dispatch announced s =>
    cases s with
    | read | ensure => trivial
    | release q y others =>
      obtain ⟨behind, ahead⟩ := fits
      exact ⟨fun z mem => ⟨(behind z mem).1, notDraining (behind z mem).2⟩, ahead⟩
    | take q current limit y before =>
      obtain ⟨⟨le, new⟩, ahead⟩ := fits
      refine ⟨⟨le, ?_⟩, ahead⟩
      by_cases same : y = x
      · rw [same, Function.update_self]
      · rwa [Function.update_of_ne same]
  | turn mover announced s =>
    cases s with
    | back y moved =>
      obtain ⟨here, q, there, ahead⟩ := fits
      refine ⟨notDraining here, q, there, ?_⟩
      have less := returns y rfl q there
      rcases ahead with before | ⟨rfl, drained⟩
      · exact .inl before
      · refine .inr ⟨rfl, ?_⟩
        rwa [Function.update_of_ne (ne_of_gt less)]
    | _ =>
      exact fits_update fits moves (fun y none => (by cases none)) rfl
        (fun y none => (by cases none))
  | _ =>
    refine fits_update fits moves (fun y none => (by cases none)) rfl fun y drains => ?_
    rintro rfl
    cases drains <;> exact other fits

theorem fits_of_drains (fits : s.Fits progress pointer) (drains : s.drains? = some x) :
    progress x = some .draining := by
  cases s with
  | sets | permit | jobs =>
    obtain rfl := Option.some.inj drains
    exact fits
  | _ => cases drains

theorem fits_of_returns (fits : s.Fits progress pointer) (returns : s.returns? = some x) :
    progress x ≠ some .draining := by
  cases s with
  | turn mover announced s =>
    cases s with
    | back y moved =>
      obtain rfl := Option.some.inj returns
      exact fits.1
    | _ => cases returns
  | _ => cases returns

theorem fits_of_moves (fits : s.Fits progress pointer) (moves : s.moves? = some x) :
    progress x = some .drained ∧ pointer = some x := by
  cases s with
  | turn mover announced s =>
    cases s with
    | seek | back => cases moves
    | _ =>
      obtain rfl := Option.some.inj moves
      exact fits
  | _ => cases moves

/-- What the other tasks rely on still holds after a step. -/
theorem others_fit (tidy : p.Tidy pointer) (stage : p.stages k = some s)
    (change : Change pointer pointer' p s e) (other : k' ≠ k) (stage' : p.stages k' = some s') :
    s'.Fits e.desk.progressOf pointer' := by
  have fits := tidy.fits k s stage
  have fits' := tidy.fits k' s' stage'
  -- turns and walks are kept apart by the guard of the pointer and by the one command at a time
  have noGuard (has : s.hasGuard = true) : s'.hasGuard = false := by
    cases has' : s'.hasGuard with
    | false => rfl
    | true => exact absurd (tidy.guarded.alone k' k s' s stage' has' stage has) other
  have noMoves (has : s.hasGuard = true) (y : Slice) : s'.moves? ≠ some y := fun moves =>
    absurd ((noGuard has).symm.trans (hasGuard_of_moves moves)) nofun
  have noReturns (has : s.hasGuard = true) (y : Slice) : s'.returns? ≠ some y := fun returns =>
    absurd ((noGuard has).symm.trans (hasGuard_of_returns returns)) nofun
  have noWalks (has : s.isCommand = true) : s'.walks? = none := by
    cases walks : s'.walks? with
    | none => rfl
    | some q =>
      exact absurd (tidy.oneCommand k' k s' s stage' (isCommand_of_walks walks) stage has) other
  cases change with
  | same desk pointers spawned returns =>
    rw [desk]
    rcases pointers with rfl | rfl
    · exact fits'
    · exact fits_of_none fits'
  | @move x y moves there moved le desk spawned returns =>
    rw [desk, moved]
    rw [there] at fits'
    refine fits_forward fits' le ?_
    cases moves' : s'.moves? with
    | none => rfl
    | some z => exact absurd moves' (noMoves (hasGuard_of_moves moves) z)
  | @forget x leaves same desk spawned returns =>
    rw [desk, same]
    rcases leaves with returns' | ⟨ticket, dispatch, announced, q, others, rfl⟩
    · have has := hasGuard_of_returns returns'
      exact fits_forget fits' (fits_of_returns fits returns')
        (fun y moves => absurd moves (noMoves has y))
        (fun y returns => absurd returns (noReturns has y))
    · obtain ⟨behind, y, there, ahead⟩ := fits
      obtain ⟨less, here⟩ := behind x List.mem_cons_self
      refine fits_forget fits' here (fun z moves => ?_) (fun z returns q' there' => ?_)
      · -- the turn is about the slice at the pointer, and this one is behind it
        have there' := (fits_of_moves fits' moves).2
        rw [there, Option.some.injEq] at there'
        exact ne_of_gt (lt_of_lt_of_le less (there' ▸ ahead))
      · rw [there, Option.some.injEq] at there'
        exact lt_of_lt_of_le less (there' ▸ ahead)
  | @take x takes same desk spawned returns =>
    obtain ⟨ticket, dispatch, announced, q, current, limit, before, rfl⟩ := takes
    obtain ⟨⟨le, new⟩, -⟩ := fits
    rw [desk, same]
    -- the slice is new to the node, so that no other task can be about it
    refine fits_update fits' (fun y moves => ?_) (fun y returns => ?_) (noWalks rfl)
      (fun y drains => ?_)
    · rintro rfl
      have drained := (fits_of_moves fits' moves).1
      rw [new] at drained
      cases drained
    · rintro rfl
      have drained := tidy.behind k' k s' _ y q stage' returns stage rfl le
      rw [new] at drained
      cases drained
    · rintro rfl
      have draining := fits_of_drains fits' drains
      rw [new] at draining
      cases draining
  | @redrain x turns same desk spawned returns =>
    obtain ⟨ticket, dispatch, announced, rfl⟩ := turns
    rw [desk, same]
    -- the turn has the guard, and found the slice drained
    refine fits_update fits' (fun y moves => absurd moves (noMoves rfl y))
      (fun y returns => absurd returns (noReturns rfl y)) (noWalks rfl) (fun y drains => ?_)
    rintro rfl
    have draining := fits_of_drains fits' drains
    rw [fits.1] at draining
    cases draining
  | @drained x drains same desk spawned next returns =>
    rw [desk, same]
    refine fits_drained fits' (fits_of_drains fits drains) (fun y drains' => ?_)
    rintro rfl
    exact other (tidy.oneDrain k' k s' s y stage' drains' stage drains)

/-- The slice of a draining that is set off was not at work before, and is new to its node or
drained. -/
theorem spawned_drains (fits : s.Fits p.desk.progressOf pointer)
    (change : Change pointer pointer' p s e) {t : TaskStage} (spawned : e.spawned = some t)
    (drains : t.drains? = some x) : p.desk.progressOf x ≠ some .draining ∧ s.drains? = none := by
  cases change with
  | same desk pointers plain returns =>
    rw [spawned, Option.bind_some, drains] at plain
    cases plain
  | move moves there moved le desk none => cases spawned.symm.trans none
  | forget leaves same desk none => cases spawned.symm.trans none
  | @take y takes same desk sets returns =>
    obtain ⟨ticket, dispatch, announced, q, current, limit, before, rfl⟩ := takes
    obtain rfl := Option.some.inj (spawned.symm.trans sets)
    obtain rfl := Option.some.inj drains
    refine ⟨?_, rfl⟩
    rw [fits.1.2]
    nofun
  | @redrain y turns same desk sets returns =>
    obtain ⟨ticket, dispatch, announced, rfl⟩ := turns
    obtain rfl := Option.some.inj (spawned.symm.trans sets)
    obtain rfl := Option.some.inj drains
    refine ⟨?_, rfl⟩
    rw [fits.1]
    nofun
  | drained drains same desk none => cases spawned.symm.trans none

/-- A slice that waits for its lock to be given back stays drained while a walk comes to it. -/
theorem stays_drained (tidy : p.Tidy pointer) (stage : p.stages k = some s)
    (change : Change pointer pointer' p s e) {q : Slice} (other : k' ≠ k)
    (stage' : p.stages k' = some s') (returns : s'.returns? = some x)
    (walks : s.walks? = some q ∨ s.isCommand = false) (le : s.walks? = some q → q ≤ x)
    (drained : p.desk.progressOf x = some .drained) :
    e.desk.progressOf x = some .drained := by
  have fits := tidy.fits k s stage
  have noGuard (has : s.hasGuard = true) : False :=
    other (tidy.guarded.alone k' k s' s stage' (hasGuard_of_returns returns) stage has)
  cases change with
  | same desk => rwa [desk]
  | move moves there moved ahead desk => rwa [desk]
  | @forget y leaves same desk none =>
    rcases leaves with returns' | ⟨ticket, dispatch, announced, r, others, rfl⟩
    · exact (noGuard (hasGuard_of_returns returns')).elim
    · rcases walks with walks | plain
      · obtain rfl := Option.some.inj walks
        have less := (fits.1 y List.mem_cons_self).1
        rw [desk, Function.update_of_ne (ne_of_gt (lt_of_lt_of_le less (le rfl)))]
        exact drained
      · cases plain
  | @take y takes same desk sets =>
    obtain ⟨ticket, dispatch, announced, r, current, limit, before, rfl⟩ := takes
    rw [desk, Function.update_of_ne]
    · exact drained
    · rintro rfl
      rw [fits.1.2] at drained
      cases drained
  | @redrain y turns =>
    obtain ⟨ticket, dispatch, announced, rfl⟩ := turns
    exact (noGuard rfl).elim
  | @drained y drains same desk =>
    by_cases equal : x = y
    · rw [desk, equal, Function.update_self]
    · rw [desk, Function.update_of_ne equal]
      exact drained

end TidyLemmas

open TidyLemmas

namespace Post

variable {pointer pointer' : Option Slice} {p : Post} {e : Effect} {k : Nat} {s : TaskStage}

/-- Pairs of a task that gives back a lock and one that walks, after a step. -/
theorem Tidy.behind_apply (tidy : p.Tidy pointer) (stage : p.stages k = some s)
    (shift : p.Shift pointer pointer' s e) {j j' : Nat} {t t' : TaskStage} {x q : Slice}
    (first : (p.apply k e).stages j = some t) (returns : t.returns? = some x)
    (second : (p.apply k e).stages j' = some t') (walks : t'.walks? = some q) (le : q ≤ x) :
    e.desk.progressOf x = some .drained := by
  have fits := tidy.fits k s stage
  rcases stages_apply first with ⟨rfl, next⟩ | ⟨-, -, spawned⟩ | ⟨other, before⟩
  · -- the pointer has just moved past the slice
    have now : e.next.bind TaskStage.returns? = some x := by rw [next]; exact returns
    cases shift.change with
    | same desk pointers spawned none => cases now.symm.trans none
    | move moves there moved ahead desk none same =>
      obtain rfl := same x now
      rw [desk]
      exact (fits_of_moves fits moves).1
    | forget leaves same desk spawned none => cases now.symm.trans none
    | take takes same desk sets none => cases now.symm.trans none
    | redrain turns same desk sets none => cases now.symm.trans none
    | drained drains same desk spawned spent none => cases now.symm.trans none
  · have plain := shift.spawned
    rw [spawned] at plain
    cases returns.symm.trans plain.2.1
  · rcases stages_apply second with ⟨rfl, next⟩ | ⟨-, -, spawned⟩ | ⟨other', before'⟩
    · rcases shift.walks q (by rw [next]; exact walks) with same | there
      · exact stays_drained tidy stage shift.change other before returns (.inl same) (fun _ => le)
          (tidy.behind j j' t s x q before returns stage same le)
      · -- the walk begins at the pointer, which is past the slice unless it stays there
        have fits' := others_fit tidy stage shift.change other before
        cases t with
        | turn mover announced t =>
          cases t with
          | back y moved =>
            obtain rfl := Option.some.inj returns
            obtain ⟨-, r, there', ahead⟩ := fits'
            rw [there, Option.some.injEq] at there'
            rcases ahead with less | ⟨-, drained⟩
            · exact absurd (lt_of_lt_of_le (there' ▸ less) le) (lt_irrefl y)
            · exact drained
          | _ => cases returns
        | _ => cases returns
    · have plain := shift.spawned
      rw [spawned] at plain
      cases walks.symm.trans plain.2.2.1
    · refine stays_drained (q := q) tidy stage shift.change other before returns (.inr ?_) ?_
        (tidy.behind j j' t t' x q before returns before' walks le)
      · cases command : s.isCommand with
        | false => rfl
        | true =>
          exact absurd (tidy.oneCommand j' k t' s before' (isCommand_of_walks walks) stage command)
            other'
      · intro mine
        exact absurd (tidy.oneCommand j' k t' s before' (isCommand_of_walks walks) stage
          (isCommand_of_walks mine)) other'

/-- The steps of its tasks keep a node tidy. -/
theorem Tidy.apply (tidy : p.Tidy pointer) (stage : p.stages k = some s)
    (handles : p.Handles (some s) e) (shift : p.Shift pointer pointer' s e) :
    (p.apply k e).Tidy pointer' := by
  have fits := tidy.fits k s stage
  rw [← stage] at handles
  refine ⟨tidy.guarded.apply (tidy.guarded.fresh k s stage) handles, ?busy, ?oneCommand, ?fits,
    ?oneDrain, ?behind⟩
  case busy =>
    intro j t stage' command
    show e.loop = _
    rcases stages_apply stage' with ⟨rfl, next⟩ | ⟨-, -, spawned⟩ | ⟨other, before⟩
    · have now : e.next.any TaskStage.isCommand = true := by rw [next]; exact command
      rcases shift.loop with same | ⟨-, spent⟩
      · rw [same]
        exact tidy.busy j s stage (shift.command now)
      · cases now.symm.trans spent
    · have plain := shift.spawned
      rw [spawned] at plain
      cases command.symm.trans plain.1
    · rcases shift.loop with same | ⟨mine, -⟩
      · rw [same]
        exact tidy.busy j t before command
      · exact absurd (tidy.oneCommand j k t s before command stage mine) other
  case oneCommand =>
    intro j j' t t' first command second command'
    rcases stages_apply first with ⟨rfl, next⟩ | ⟨-, -, spawned⟩ | ⟨other, before⟩
    · have mine := shift.command (by rw [next]; exact command)
      rcases stages_apply second with ⟨rfl, -⟩ | ⟨-, -, spawned⟩ | ⟨-, before'⟩
      · rfl
      · have plain := shift.spawned
        rw [spawned] at plain
        cases command'.symm.trans plain.1
      · exact tidy.oneCommand j j' s t' stage mine before' command'
    · have plain := shift.spawned
      rw [spawned] at plain
      cases command.symm.trans plain.1
    · rcases stages_apply second with ⟨rfl, next⟩ | ⟨-, -, spawned⟩ | ⟨-, before'⟩
      · have mine := shift.command (by rw [next]; exact command')
        exact tidy.oneCommand j j' t s before command stage mine
      · have plain := shift.spawned
        rw [spawned] at plain
        cases command'.symm.trans plain.1
      · exact tidy.oneCommand j j' t t' before command before' command'
  case fits =>
    intro j t stage'
    rcases stages_apply stage' with ⟨-, next⟩ | ⟨-, -, spawned⟩ | ⟨other, before⟩
    · have goes := shift.fits
      rwa [next] at goes
    · have plain := shift.spawned
      rw [spawned] at plain
      exact plain.2.2.2
    · exact others_fit tidy stage shift.change other before
  case oneDrain =>
    intro j j' t t' x first drains second drains'
    have new {i : Nat} {u u' : TaskStage} (spawned : e.spawned = some u)
        (drains : u.drains? = some x) (stage' : p.stages i = some u')
        (drains' : u'.drains? = some x) : False :=
      (spawned_drains fits shift.change spawned drains).1
        (fits_of_drains (tidy.fits i u' stage') drains')
    have idle {u : TaskStage} (spawned : e.spawned = some u) (drains : u.drains? = some x)
        (mine : s.drains? = some x) : False := by
      rw [(spawned_drains fits shift.change spawned drains).2] at mine
      cases mine
    rcases stages_apply first with ⟨rfl, next⟩ | ⟨-, rfl, spawned⟩ | ⟨other, before⟩
    · have mine := shift.drains x (by rw [next]; exact drains)
      rcases stages_apply second with ⟨rfl, -⟩ | ⟨-, -, spawned⟩ | ⟨-, before'⟩
      · rfl
      · exact (idle spawned drains' mine).elim
      · exact tidy.oneDrain j j' s t' x stage mine before' drains'
    · rcases stages_apply second with ⟨rfl, next⟩ | ⟨-, rfl, -⟩ | ⟨-, before'⟩
      · exact (idle spawned drains (shift.drains x (by rw [next]; exact drains'))).elim
      · rfl
      · exact (new spawned drains before' drains').elim
    · rcases stages_apply second with ⟨rfl, next⟩ | ⟨-, -, spawned⟩ | ⟨-, before'⟩
      · have mine := shift.drains x (by rw [next]; exact drains')
        exact tidy.oneDrain j j' t s x before drains stage mine
      · exact (new spawned drains' before drains).elim
      · exact tidy.oneDrain j j' t t' x before drains before' drains'
  case behind =>
    intro j j' t t' x q first returns second walks le
    exact tidy.behind_apply stage shift first returns second walks le

end Post

end SliceScheduler
