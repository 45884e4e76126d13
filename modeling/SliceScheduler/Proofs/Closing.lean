import SliceScheduler.Proofs.Tidy
/-!
# Nodes that shut down

A node notes the locks that it takes. A shutdown waits for the slices at work as long as it may, has
the node stop, waits for the guard of the pointer, and gives up the locks that are noted.

1. `Desk.HasLetGo` says that a shutdown has begun to give them up;
2. `Post.Distinct` says that slices of a node do not share a lock, as far as it matters;
3. `Post.Closes` says that the locks of the slices at work are noted until a shutdown gives them up,
   and that nobody moves the pointer or takes a lock after that;
4. `Post.Letting` lists what a step of a task does to the noted locks, and `Post.Closes.apply` and
   `Post.Closes.begins` say that steps keep this up.
-/
namespace SliceScheduler

/-- A shutdown has waited as long as it may and has begun to give up the locks of the node. -/
def Desk.HasLetGo (d : Desk) : Prop := d.stopped = true ∧ d.held.held = []

namespace TaskStage

/-- The task is a shutdown after its wait. -/
def shuts : TaskStage → Bool
  | hold _ | giveUp .. => true
  | _ => false

/-- The locks that the task gives up. -/
def gives : TaskStage → List HeldLock
  | giveUp _ lock others _ => lock :: others
  | _ => []

/-- The slice whose lock the task gives back. -/
def frees? : TaskStage → Option Slice
  | turn _ _ (.back slice _) | walk _ _ _ (.release _ slice _) => some slice
  | _ => none

/-- The slice whose lock the task takes. -/
def takes? : TaskStage → Option Slice
  | walk _ _ _ (.take _ _ _ slice _) => some slice
  | _ => none

/-- The task is in a turn of moving the pointer. -/
def turns : TaskStage → Bool
  | turn .. => true
  | _ => false

end TaskStage

/-- The lock of a slice at work is not that of another slice, whose lock is given back. -/
def Post.Distinct (p : Post) : Prop :=
  ∀ k s x y, p.stages k = some s → s.frees? = some y → p.desk.progressOf x ≠ none →
    x.advanceLock = y.advanceLock → x = y

/-- Locks that are noted or given up are those of the node, and a shutdown that gives them up has
stopped the node before. The locks of slices at work are noted before that. -/
structure Post.Closes (p : Post) : Prop where
  notes : (∀ x, p.desk.progressOf x ≠ none →
      TurnStage.lock p.desk.settings x ∈ p.desk.held.held) ∨
    p.desk.HasLetGo ∧ ∀ k s, p.stages k = some s → s.turns = false
  held : ∀ lock ∈ p.desk.held.held, lock.owner = p.desk.settings.node
  gives : ∀ k s, p.stages k = some s → ∀ lock ∈ s.gives, lock.owner = p.desk.settings.node
  letGo : ∀ k s, p.stages k = some s → s.gives ≠ [] → p.desk.HasLetGo
  shuts : ∀ k s, p.stages k = some s → s.shuts = true → p.desk.stopped = true
  stopped : p.desk.stopped = true → p.loop = .ended ∨ ∃ k s, p.stages k = some s ∧ s.shuts = true

namespace Post

/-- What a step of a task does to the locks that are noted. -/
inductive Letting (p : Post) (s : TaskStage) (e : Effect) : Prop
  /-- A lock may be noted or struck out. Only a tick notes one. -/
  | work : s.shuts = false → e.next.any TaskStage.shuts = false →
    e.desk.stopped = p.desk.stopped →
    (∀ lock ∈ e.desk.held.held, lock ∈ p.desk.held.held ∨
      ∃ x, s.takes? = some x ∧ lock = TurnStage.lock p.desk.settings x) →
    (∀ lock ∈ p.desk.held.held, lock ∈ e.desk.held.held ∨
      ∃ x, s.frees? = some x ∧ lock = TurnStage.lock p.desk.settings x) → Letting p s e
  /-- The node stops. -/
  | halt {ticket : Option Nat} : e.next = some (.hold ticket) → e.desk.stopped = true →
    e.desk.held = p.desk.held → e.loop = p.loop → Letting p s e
  /-- The locks are struck out and the first one is given up, or the next one. -/
  | shut (locks : List HeldLock) : s.shuts = true → e.desk.stopped = p.desk.stopped →
    (locks = p.desk.held.held ∧ e.desk.held.held = [] ∧ p.advancing = false ∨
      s.gives ≠ [] ∧ locks ⊆ s.gives ∧ e.desk.held = p.desk.held) →
    (e.next = none ∧ e.loop = .ended ∨
      ∃ t, e.next = some t ∧ t.shuts = true ∧ t.gives = locks) → Letting p s e

end Post

namespace ClosingLemmas

open Post TidyLemmas

variable {p q : Post} {s : TaskStage} {e : Effect} {k : Nat} {pointer pointer' : Option Slice}

theorem isCommand_of_shuts (shuts : s.shuts = true) : s.isCommand = true := by
  cases s with
  | hold | giveUp => rfl
  | _ => cases shuts

theorem isCommand_of_takes {x : Slice} (takes : s.takes? = some x) : s.isCommand = true := by
  cases s with
  | walk => rfl
  | _ => cases takes

theorem turns_of_shuts (shuts : s.shuts = true) : s.turns = false := by
  cases s with
  | turn => cases shuts
  | _ => rfl

theorem hasGuard_of_turns (turns : s.turns = true) : s.hasGuard = true := by
  cases s with
  | turn => rfl
  | _ => cases turns

/-- A slice at work was at work before, or its lock was taken and it begins to be drained. -/
theorem at_work_cases (fits : s.Fits p.desk.progressOf pointer)
    (change : Change pointer pointer' p s e) {x : Slice} (at_work : e.desk.progressOf x ≠ none) :
    p.desk.progressOf x ≠ none ∨ s.takes? = some x ∧ e.spawned = some (.sets x) := by
  have other {y : Slice} {v : Option Progress} (differs : x ≠ y)
      (same : e.desk.progressOf = Function.update p.desk.progressOf y v) :
      p.desk.progressOf x ≠ none := by
    rwa [same, Function.update_of_ne differs] at at_work
  cases change with
  | same same => exact .inl (same ▸ at_work)
  | move moves there moved le same => exact .inl (same ▸ at_work)
  | @forget y leaves pointers same =>
    refine .inl (other (fun equal => at_work ?_) same)
    rw [same, equal, Function.update_self]
  | @take y takes pointers same sets =>
    by_cases equal : x = y
    · obtain ⟨ticket, dispatch, announced, r, c, limit, before, rfl⟩ := takes
      exact .inr ⟨equal ▸ rfl, equal ▸ sets⟩
    · exact .inl (other equal same)
  | @redrain y turns pointers same =>
    by_cases equal : x = y
    · obtain ⟨ticket, dispatch, announced, rfl⟩ := turns
      refine .inl ?_
      rw [equal, fits.1]
      nofun
    · exact .inl (other equal same)
  | @drained y drains pointers same =>
    by_cases equal : x = y
    · refine .inl ?_
      rw [equal, fits_of_drains fits drains]
      nofun
    · exact .inl (other equal same)

theorem shuts_of_gives (gives : s.gives ≠ []) : s.shuts = true := by
  cases s with
  | giveUp => rfl
  | _ => exact absurd rfl gives

theorem gives_of_shuts (shuts : s.shuts = false) : s.gives = [] := by
  cases s with
  | giveUp => cases shuts
  | _ => rfl

/-- A step that leaves the noted locks alone. -/
theorem letting_same {n : Option TaskStage} (mine : s.shuts = false) (next : e.next = n)
    (shuts : n.any TaskStage.shuts = false) (stopped : e.desk.stopped = p.desk.stopped)
    (held : e.desk.held = p.desk.held) : p.Letting s e :=
  .work mine (next ▸ shuts) stopped (fun _ mem => .inl (held ▸ mem))
    (fun _ mem => .inl (held ▸ mem))

theorem shuts_turnPlace (mover : Mover) (announced : List Slice)
    (next : TurnStage ⊕ Program.Turn) : (turnPlace mover announced next).shuts = false := by
  cases next <;> rfl

theorem shuts_jobPlace (parent : Nat) (slice : Slice) (id : JobId) (next : JobNext) :
    (jobPlace parent slice id next).any TaskStage.shuts = false := by
  cases next <;> rfl

theorem shuts_permits (slice : Slice) (ids : List JobId) : (permits slice ids).shuts = false := by
  cases ids <;> rfl

theorem shuts_walkPlace (ticket : Option Nat) (dispatch : Bool) (announced : List Slice)
    (next : WalkStage ⊕ Program.TickResult) :
    (walkPlace ticket dispatch announced next).any TaskStage.shuts = false := by
  cases next <;> rfl

theorem announceAll_same (d : Desk) (events : List Event) :
    (d.announceAll events).stopped = d.stopped ∧ (d.announceAll events).held = d.held := by
  induction events generalizing d with
  | nil => exact ⟨rfl, rfl⟩
  | cons event events ih => exact ih (d.announce event)

/-- A release strikes out a lock at most. -/
theorem held_afterRelease {h : Holder} {lock l : HeldLock} {answer : Except StoreError Bool}
    (mem : l ∈ (h.afterRelease lock answer).held) : l ∈ h.held := by
  cases answer with
  | error e => exact mem
  | ok taken => exact (List.mem_filter.mp mem).1

/-- A release strikes out no other lock. -/
theorem kept_afterRelease {h : Holder} {lock l : HeldLock} {answer : Except StoreError Bool}
    (mem : l ∈ h.held) : l ∈ (h.afterRelease lock answer).held ∨ l = lock := by
  cases answer with
  | error e => exact .inl mem
  | ok taken =>
    by_cases same : l = lock
    · exact .inr same
    · exact .inl (List.mem_filter.mpr ⟨mem, decide_eq_true same⟩)

/-- An attempt to take a lock notes that lock at most. -/
theorem held_afterAcquire {h : Holder} {lock l : HeldLock} {answer : Except StoreError Bool}
    (mem : l ∈ (h.afterAcquire lock answer).2.held) : l ∈ h.held ∨ l = lock := by
  rcases answer with e | _ | _
  · exact .inl mem
  · exact .inl mem
  · simp only [Holder.afterAcquire, Holder.track] at mem
    split at mem
    · exact .inl mem
    · rcases List.mem_append.mp mem with mem | mem
      · exact .inl mem
      · exact .inr (List.mem_singleton.mp mem)

/-- An attempt to take a lock strikes out nothing, and notes the lock if it is taken. -/
theorem kept_afterAcquire {h : Holder} {lock l : HeldLock} {answer : Except StoreError Bool}
    (mem : l ∈ h.held ∨ answer = .ok true ∧ l = lock) : l ∈ (h.afterAcquire lock answer).2.held := by
  rcases answer with e | _ | _
  · exact mem.elim id (fun taken => (by cases taken.1))
  · exact mem.elim id (fun taken => (by cases taken.1))
  · simp only [Holder.afterAcquire, Holder.track]
    split
    · rename_i there
      exact mem.elim id fun taken => taken.2 ▸ there
    · refine List.mem_append.mpr (mem.imp_right fun taken => ?_)
      exact List.mem_singleton.mpr taken.2

theorem letting_turn {mover : Mover} {announced : List Slice} {t : TurnStage}
    (answer : (t.op p.desk.settings).Result) :
    p.Letting (.turn mover announced t)
      (p.afterTurn mover announced (t.react mover.fromTick p.desk.settings p.desk answer)) := by
  have same {r : TurnReaction} (stopped : r.desk.stopped = p.desk.stopped)
      (held : r.desk.held = p.desk.held) :
      p.Letting (.turn mover announced t) (p.afterTurn mover announced r) :=
    letting_same rfl rfl (shuts_turnPlace ..) stopped held
  cases t with
  | seek =>
    rcases answer with e | _ | x
    · exact same rfl rfl
    · exact same rfl rfl
    · simp only [TurnStage.react]
      split <;> exact same rfl rfl
  | recheck x =>
    rcases answer with e | index
    · exact same rfl rfl
    · simp only [TurnStage.react]
      split
      · split <;> exact same rfl rfl
      · exact same rfl rfl
  | clear x => rcases answer with e | _ <;> exact same rfl rfl
  | move x => rcases answer with e | _ <;> exact same rfl rfl
  | back x moved =>
    cases moved <;>
    · refine .work rfl rfl rfl (fun l mem => .inl (held_afterRelease mem)) fun l mem => ?_
      exact (kept_afterRelease mem).imp_right fun mine => ⟨x, rfl, mine⟩

theorem letting_walk {now : Instant} {ticket : Option Nat} {dispatch : Bool}
    {announced : List Slice} {t : WalkStage} (answer : (t.op p.desk.settings).Result) :
    p.Letting (.walk ticket dispatch announced t) (p.afterWalk ticket dispatch announced
      (t.react now dispatch announced p.desk.settings p.desk answer)) := by
  have of {r : WalkReaction} (stopped : r.desk.stopped = p.desk.stopped)
      (held : ∀ l ∈ r.desk.held.held, l ∈ p.desk.held.held ∨
        ∃ x, (TaskStage.walk ticket dispatch announced t).takes? = some x ∧
          l = TurnStage.lock p.desk.settings x)
      (kept : ∀ l ∈ p.desk.held.held, l ∈ r.desk.held.held ∨
        ∃ x, (TaskStage.walk ticket dispatch announced t).frees? = some x ∧
          l = TurnStage.lock p.desk.settings x) :
      p.Letting (.walk ticket dispatch announced t) (p.afterWalk ticket dispatch announced r) := by
    refine .work rfl ?_ ?_ (fun l mem => ?_) fun l mem => ?_
    · rw [next_afterWalk]
      exact shuts_walkPlace ..
    · rw [desk_afterWalk, stopped]
    · rw [desk_afterWalk] at mem
      exact held l mem
    · rw [desk_afterWalk]
      exact kept l mem
  cases t with
  | read => rcases answer with e | _ | x <;> exact of rfl (fun _ => .inl) (fun _ => .inl)
  | ensure s =>
    simp only [WalkStage.react]
    split <;> exact of rfl (fun _ => .inl) (fun _ => .inl)
  | release q x others =>
    exact of rfl (fun _ mem => .inl (held_afterRelease mem)) fun _ mem =>
      (kept_afterRelease mem).imp_right fun mine => ⟨x, rfl, mine⟩
  | take q current limit x before =>
    have noted (l : HeldLock) (mem : l ∈ (WalkStage.noted p.desk x answer).held.held) :
        l ∈ p.desk.held.held ∨ l = TurnStage.lock p.desk.settings x := held_afterAcquire mem
    rcases answer with e | _ | _ <;>
      exact of rfl (fun l mem => (noted l mem).imp_right (⟨x, rfl, ·⟩))
        fun _ mem => .inl (kept_afterAcquire (.inl mem))

end ClosingLemmas

open ClosingLemmas TidyLemmas

namespace Post

variable {p q : Post} {s : TaskStage} {e : Effect} {k : Nat} {pointer : Option Slice}
  {now : Instant} {store store' : MemoryStore} {prompt : Prompt}

theorem Works.letting (works : p.Works now store k s prompt e store') : p.Letting s e := by
  cases works with
  | start made =>
    unfold afterSeek
    split <;> exact letting_same rfl rfl rfl rfl rfl
  | submission made =>
    unfold afterSubmit
    split <;> exact letting_same rfl rfl rfl rfl rfl
  | guard free => exact letting_same rfl rfl (shuts_turnPlace ..) rfl rfl
  | turn made => exact letting_turn _
  | moved => exact letting_same rfl rfl (shuts_turnPlace ..) rfl rfl
  | @stay mover announced => cases mover <;> exact letting_same rfl rfl rfl rfl rfl
  | walk made => exact letting_walk _
  | look => exact letting_same rfl rfl rfl rfl rfl
  | halt => exact .halt rfl rfl rfl rfl
  | @hold ticket free =>
    refine .shut p.desk.held.held rfl rfl (.inl ⟨rfl, rfl, free⟩) ?_
    cases locks : p.desk.held.held with
    | nil => exact .inl ⟨rfl, rfl⟩
    | cons lock others => exact .inr ⟨_, rfl, rfl, rfl⟩
  | @giveUp ticket lock others live fault answer store' made live' =>
    refine .shut others rfl ?_ (.inr ⟨nofun, List.subset_cons_self lock others, ?_⟩) ?_
    · unfold givingUp
      split <;> rfl
    · unfold givingUp
      split <;> rfl
    · cases others with
      | nil => exact .inl ⟨rfl, rfl⟩
      | cons lock others => exact .inr ⟨_, rfl, rfl, rfl⟩
  | @sets slice fault answer store' made =>
    cases answer with
    | error e => exact letting_same rfl rfl rfl rfl rfl
    | ok index => exact letting_same rfl rfl (shuts_permits ..) rfl rfl
  | permit => exact letting_same rfl rfl (shuts_permits ..) rfl rfl
  | jobs spent => exact letting_same rfl rfl rfl rfl rfl
  | job made =>
    exact letting_same rfl rfl (shuts_jobPlace ..) (announceAll_same ..).1 (announceAll_same ..).2
  | @running parent slice id job registration outcome =>
    let r := JobStage.outcome now p.desk slice id job registration.policy outcome
    exact letting_same rfl rfl (shuts_jobPlace parent slice id (.call r.2))
      (announceAll_same p.desk r.1).1 (announceAll_same p.desk r.1).2

/-- Who gives back the lock of a slice forgets the slice. -/
theorem forgets (works : p.Works now store k s prompt e store') {x : Slice}
    (frees : s.frees? = some x) : e.desk.progressOf x = none := by
  have forgotten (answer : Except StoreError Bool) :
      (TurnStage.returned p.desk x answer).progressOf x = none :=
    (congrFun (progressOf_forget { p.desk with
      held := p.desk.held.afterRelease (TurnStage.lock p.desk.settings x) answer } x) x).trans
      (Function.update_self ..)
  cases works with
  | @turn mover announced t fault answer store' made =>
    cases t with
    | back y moved =>
      obtain rfl := Option.some.inj frees
      cases moved <;> exact forgotten answer
    | _ => cases frees
  | @walk ticket dispatch announced t fault answer store' made =>
    cases t with
    | release q y others =>
      obtain rfl := Option.some.inj frees
      rw [desk_afterWalk]
      exact forgotten answer
    | _ => cases frees
  | _ => cases frees

/-- Who sets off the draining of a slice that it walked to has noted its lock. -/
theorem noted_taken (works : p.Works now store k s prompt e store') {x : Slice}
    (takes : s.takes? = some x) (sets : e.spawned = some (.sets x)) :
    TurnStage.lock p.desk.settings x ∈ e.desk.held.held := by
  cases works with
  | @walk ticket dispatch announced t fault answer store' made =>
    cases t with
    | take q current limit y before =>
      obtain rfl := Option.some.inj takes
      rw [spawned_afterWalk] at sets
      rcases answer with e | _ | _
      · cases sets
      · cases sets
      · rw [desk_afterWalk]
        exact kept_afterAcquire (.inr ⟨rfl, rfl⟩)
    | _ => cases takes
  | _ => cases takes

/-- A node that has stopped begins no turn of moving the pointer. -/
theorem Works.turns (works : p.Works now store k s prompt e store') {t : TaskStage}
    (next : e.next = some t) (turns : t.turns = true) : s.turns = true ∨ p.desk.stopped = false := by
  have first {mover : Mover} {announced : List Slice}
      (next : some (turnPlace mover announced (TurnStage.first p.desk)) = some t) :
      p.desk.stopped = false := by
    obtain rfl := Option.some.inj next
    unfold TurnStage.first at turns
    split at turns
    · cases turns
    · rename_i runs
      exact Bool.eq_false_iff.mpr runs
  cases works with
  | start made =>
    unfold afterSeek at next
    split at next <;> cases next
    cases turns
  | submission made =>
    unfold afterSubmit at next
    split at next <;> cases next
    cases turns
  | guard free => exact .inr (first next)
  | turn made => exact .inl rfl
  | moved => exact .inr (first next)
  | @stay mover announced =>
    cases mover <;> cases next
    cases turns
  | @walk ticket dispatch announced s fault answer store' made =>
    rw [next_afterWalk] at next
    generalize (s.react now dispatch announced p.desk.settings p.desk answer).next = place at next
    cases place <;> cases next
    cases turns
  | hold free =>
    cases locks : p.desk.held.held with
    | nil =>
      simp only [locks] at next
      cases next
    | cons lock others =>
      simp only [locks] at next
      cases next
      cases turns
  | @giveUp ticket lock others live fault answer store' made live' =>
    cases others <;> cases next
    cases turns
  | @sets slice fault answer store' made =>
    rcases answer with e | index
    · cases next
      cases turns
    · cases ids : index.pending with
      | nil =>
        simp only [afterSets, ids] at next
        cases next
        cases turns
      | cons id others =>
        simp only [afterSets, ids] at next
        cases next
        cases turns
  | @permit slice id others =>
    cases others <;>
    · cases next
      cases turns
  | @job parent slice id s fault answer store' made =>
    generalize r : s.react p.desk.settings.width p.desk slice id answer = place at next
    obtain ⟨events, place⟩ := place
    cases place <;> cases next <;> cases turns
  | running =>
    cases next
    cases turns
  | _ =>
    cases next
    cases turns

/-- No turn is going on while the guard of the pointer is free. -/
theorem idle_of_free (guarded : p.Guarded) (free : p.advancing = false) :
    ∀ j t, p.stages j = some t → t.turns = false := by
  intro j t there
  cases turns : t.turns with
  | false => rfl
  | true => cases free.symm.trans (guarded.taken j t there (hasGuard_of_turns turns))

/-- No turn is going on after a step of a task when none was before, and the step begins none. -/
theorem Works.idle (works : p.Works now store k s prompt e store') (guarded : p.Guarded)
    (stage : p.stages k = some s) (idle : ∀ j t, p.stages j = some t → t.turns = false)
    (next : ∀ t, e.next = some t → t.turns = false) :
    ∀ j t, (p.apply k e).stages j = some t → t.turns = false := by
  intro j t stage'
  rcases stages_apply stage' with ⟨-, goes⟩ | ⟨-, -, spawned⟩ | ⟨-, before⟩
  · exact next t goes
  · have plain := (works.handles guarded stage).spawned
    rw [spawned, Option.any_some] at plain
    cases turns : t.turns with
    | false => rfl
    | true => cases plain.symm.trans (hasGuard_of_turns turns)
  · exact idle j t before

/-- A node that has let go of its locks takes no more. -/
theorem Closes.hasLetGo (closes : p.Closes) (tidy : p.Tidy pointer) (stage : p.stages k = some s)
    (letting : p.Letting s e) (letGo : p.desk.HasLetGo) : e.desk.HasLetGo := by
  obtain ⟨stopped, none⟩ := letGo
  cases letting with
  | work mine next same held kept =>
    refine ⟨same.trans stopped, List.eq_nil_iff_forall_not_mem.mpr fun lock mem => ?_⟩
    rcases held lock mem with before | ⟨x, takes, -⟩
    · rw [none] at before
      cases before
    · -- a command other than the shutdown is over when the node stops
      have command := isCommand_of_takes takes
      rcases closes.stopped stopped with ended | ⟨j, t, stage', shuts⟩
      · rw [tidy.busy k s stage command] at ended
        cases ended
      · obtain rfl := tidy.oneCommand j k t s stage' (isCommand_of_shuts shuts) stage command
        obtain rfl := Option.some.inj (stage.symm.trans stage')
        cases mine.symm.trans shuts
  | halt next stops held => exact ⟨stops, held ▸ none⟩
  | shut locks shuts same held =>
    refine ⟨same.trans stopped, ?_⟩
    rcases held with ⟨-, struck, -⟩ | ⟨-, -, held⟩
    · exact struck
    · exact held ▸ none

/-- A node stays stopped. -/
theorem Letting.stopped (letting : p.Letting s e) (stopped : p.desk.stopped = true) :
    e.desk.stopped = true := by
  cases letting with
  | work _ _ same => exact same.trans stopped
  | halt _ stops => exact stops
  | shut _ _ same => exact same.trans stopped

/-- The locks of slices at work stay noted, or the node has let go of them. -/
theorem Closes.notes_apply (closes : p.Closes) (tidy : p.Tidy store.pointer) (distinct : p.Distinct)
    (stage : p.stages k = some s) (works : p.Works now store k s prompt e store') :
    (∀ x, e.desk.progressOf x ≠ none → TurnStage.lock p.desk.settings x ∈ e.desk.held.held) ∨
      e.desk.HasLetGo ∧ ∀ j t, (p.apply k e).stages j = some t → t.turns = false := by
  have letting := works.letting
  have shift := works.shift (tidy.fits k s stage)
  rcases closes.notes with noted | ⟨letGo, idle⟩
  · have stays (kept : ∀ lock ∈ p.desk.held.held, lock ∈ e.desk.held.held ∨
        ∃ y, s.frees? = some y ∧ lock = TurnStage.lock p.desk.settings y) (x : Slice)
        (at_work : e.desk.progressOf x ≠ none) :
        TurnStage.lock p.desk.settings x ∈ e.desk.held.held := by
      rcases at_work_cases (tidy.fits k s stage) shift.change at_work with before | ⟨takes, sets⟩
      · rcases kept _ (noted x before) with there | ⟨y, frees, same⟩
        · exact there
        · obtain rfl := distinct k s x y stage frees before (congrArg HeldLock.name same)
          exact absurd (forgets works frees) at_work
      · exact noted_taken works takes sets
    -- the guard is free when the locks are struck out, so that no turn is going on
    cases letting with
    | work mine spent same held kept => exact .inl (stays kept)
    | halt halts stops held => exact .inl (stays fun lock mem => .inl (held ▸ mem))
    | shut locks mine same held ends =>
      rcases held with ⟨-, struck, free⟩ | ⟨-, -, held⟩
      · refine .inr ⟨⟨same.trans (closes.shuts k s stage mine), struck⟩,
          works.idle tidy.guarded stage (idle_of_free tidy.guarded free) fun t goes => ?_⟩
        · rcases ends with ⟨none, -⟩ | ⟨t', goes', shuts, -⟩
          · cases goes.symm.trans none
          · obtain rfl := Option.some.inj (goes.symm.trans goes')
            exact turns_of_shuts shuts
      · exact .inl (stays fun lock mem => .inl (held ▸ mem))
  · refine .inr ⟨closes.hasLetGo tidy stage letting letGo,
      works.idle tidy.guarded stage idle fun t goes => ?_⟩
    cases turns : t.turns with
    | false => rfl
    | true =>
      rcases works.turns goes turns with mine | runs
      · cases (idle k s stage).symm.trans mine
      · cases letGo.1.symm.trans runs

/-- The steps of its tasks keep up what a node does about its locks. -/
theorem Closes.apply (closes : p.Closes) (tidy : p.Tidy store.pointer) (distinct : p.Distinct)
    (stage : p.stages k = some s) (works : p.Works now store k s prompt e store') :
    (p.apply k e).Closes := by
  have letting := works.letting
  have shift := works.shift (tidy.fits k s stage)
  have settings := works.settings
  have keeps := closes.hasLetGo tidy stage letting
  -- a shutdown that goes on has stopped the node, and gives up locks of the node only
  have next {t : TaskStage} (goes : e.next = some t) (shuts : t.shuts = true) :
      e.desk.stopped = true ∧ (t.gives ≠ [] → e.desk.HasLetGo) ∧
        ∀ lock ∈ t.gives, lock.owner = p.desk.settings.node := by
    cases letting with
    | work mine plain same held kept =>
      rw [goes, Option.any_some, shuts] at plain
      cases plain
    | halt halts stops held =>
      obtain rfl := Option.some.inj (goes.symm.trans halts)
      exact ⟨stops, fun gives => absurd rfl gives, fun lock mem => (by cases mem)⟩
    | shut locks mine same held ends =>
      have stopped := same.trans (closes.shuts k s stage mine)
      rcases ends with ⟨none, -⟩ | ⟨t', goes', -, rfl⟩
      · cases goes.symm.trans none
      · obtain rfl := Option.some.inj (goes.symm.trans goes')
        rcases held with ⟨all, struck, -⟩ | ⟨gives, sub, -⟩
        · refine ⟨stopped, fun _ => ⟨stopped, struck⟩, ?_⟩
          rw [all]
          exact closes.held
        · exact ⟨stopped, fun _ => keeps (closes.letGo k s stage gives),
            fun lock mem => closes.gives k s stage lock (sub mem)⟩
  have plain {t : TaskStage} (spawned : e.spawned = some t) : t.shuts = false := by
    have command := shift.spawned
    rw [spawned] at command
    cases shuts : t.shuts with
    | false => rfl
    | true => cases (isCommand_of_shuts shuts).symm.trans command.1
  refine ⟨?notes, fun lock mem => ?held, fun j t stage' lock mem => ?gives,
    fun j t stage' gives => ?letGo, fun j t stage' shuts => ?shuts, fun stopped => ?stopped⟩
  case notes =>
    have notes := closes.notes_apply tidy distinct stage works
    rwa [← settings] at notes
  case held =>
    show lock.owner = e.desk.settings.node
    rw [settings]
    cases letting with
    | work mine plain same held kept =>
      rcases held lock mem with before | ⟨x, -, rfl⟩
      · exact closes.held lock before
      · rfl
    | halt halts stops held => exact closes.held lock (held ▸ mem)
    | shut locks mine same held =>
      rcases held with ⟨-, struck, -⟩ | ⟨-, -, held⟩
      · have mem : lock ∈ e.desk.held.held := mem
        rw [struck] at mem
        cases mem
      · exact closes.held lock (held ▸ mem)
  case gives =>
    show lock.owner = e.desk.settings.node
    rw [settings]
    rcases stages_apply stage' with ⟨-, goes⟩ | ⟨-, -, spawned⟩ | ⟨-, before⟩
    · exact (next goes (shuts_of_gives (List.ne_nil_of_mem mem))).2.2 lock mem
    · rw [gives_of_shuts (plain spawned)] at mem
      cases mem
    · exact closes.gives j t before lock mem
  case letGo =>
    show e.desk.HasLetGo
    rcases stages_apply stage' with ⟨-, goes⟩ | ⟨-, -, spawned⟩ | ⟨-, before⟩
    · exact (next goes (shuts_of_gives gives)).2.1 gives
    · exact absurd (gives_of_shuts (plain spawned)) gives
    · exact keeps (closes.letGo j t before gives)
  case shuts =>
    show e.desk.stopped = true
    rcases stages_apply stage' with ⟨-, goes⟩ | ⟨-, -, spawned⟩ | ⟨-, before⟩
    · exact (next goes shuts).1
    · cases shuts.symm.trans (plain spawned)
    · exact letting.stopped (closes.shuts j t before shuts)
  case stopped =>
    show e.loop = .ended ∨ _
    have stopped : e.desk.stopped = true := stopped
    cases letting with
    | work mine spent same held kept =>
      rcases closes.stopped (same ▸ stopped) with ended | ⟨j, t, there, shuts⟩
      · rcases shift.loop with loop | ⟨command, -⟩
        · exact .inl (loop.trans ended)
        · rw [tidy.busy k s stage command] at ended
          cases ended
      · refine .inr ⟨j, t, tidy.guarded.fresh.stages_apply there ?_ e, shuts⟩
        rintro rfl
        obtain rfl := Option.some.inj (stage.symm.trans there)
        cases mine.symm.trans shuts
    | @halt ticket halts => exact .inr ⟨k, _, (Function.update_self ..).trans halts, rfl⟩
    | shut locks mine same held ends =>
      rcases ends with ⟨-, ended⟩ | ⟨t, goes, shuts, -⟩
      · exact .inl ended
      · exact .inr ⟨k, t, (Function.update_self ..).trans goes, shuts⟩

/-! ### Steps from outside -/

/-- A node that has nothing to carry out does not shut down. -/
theorem Closes.running (closes : p.Closes) (tidy : p.Tidy pointer) (idle : p.loop = .idle) :
    p.desk.stopped = false := by
  cases stopped : p.desk.stopped with
  | false => rfl
  | true =>
    rcases closes.stopped stopped with ended | ⟨k, s, stage, shuts⟩
    · cases idle.symm.trans ended
    · cases idle.symm.trans (tidy.busy k s stage (isCommand_of_shuts shuts))

/-- An action from outside keeps up what a node does about its locks, when the node stops only as
the first thing that a shutdown does. -/
theorem Closes.begins {a : Action} (closes : p.Closes) (fresh : p.Fresh) (begins : p.Begins a q)
    (stopped : q.desk.stopped = p.desk.stopped ∧ (p.loop = .ended → q.loop = .ended) ∧
        (∀ ticket, q.stages p.nextNumber ≠ some (.hold ticket)) ∨
      q.desk.stopped = true ∧ p.desk.stopped = false ∧
        ∃ ticket, q.stages p.nextNumber = some (.hold ticket)) : q.Closes := by
  have gives {k : Nat} {s : TaskStage} (stage : q.stages k = some s) (gives : s.gives ≠ []) :
      p.stages k = some s := by
    rcases begins.stages k s stage with before | ⟨-, -, opens⟩
    · exact before
    · cases s with
      | giveUp => cases opens
      | _ => exact absurd rfl gives
  have keeps (still : p.desk.stopped = true) : q.desk.stopped = true := by
    rcases stopped with ⟨same, -⟩ | ⟨stops, -⟩
    · exact same.trans still
    · exact stops
  refine ⟨?notes, ?held, fun k s stage lock mem => ?gives, fun k s stage some => ?letGo,
    fun k s stage shuts => ?shuts, fun still => ?stopped⟩
  case notes =>
    rcases closes.notes with noted | ⟨⟨still, none⟩, idle⟩
    · left
      rw [begins.held, begins.settings, progressOf_of_same begins.progress]
      exact noted
    · refine .inr ⟨⟨keeps still, begins.held ▸ none⟩, fun k s stage => ?_⟩
      rcases begins.stages k s stage with before | ⟨-, -, opens⟩
      · exact idle k s before
      · cases s with
        | turn => cases opens
        | _ => rfl
  case held =>
    rw [begins.held, begins.settings]
    exact closes.held
  case gives =>
    rw [begins.settings]
    exact closes.gives k s (gives stage (List.ne_nil_of_mem mem)) lock mem
  case letGo =>
    obtain ⟨still, none⟩ := closes.letGo k s (gives stage some) some
    exact ⟨keeps still, begins.held ▸ none⟩
  case shuts =>
    rcases begins.stages k s stage with before | ⟨rfl, -, opens⟩
    · exact keeps (closes.shuts k s before shuts)
    · cases s with
      | hold ticket =>
        rcases stopped with ⟨-, -, other⟩ | ⟨stops, -⟩
        · exact absurd stage (other ticket)
        · exact stops
      | giveUp => cases opens
      | _ => cases shuts
  case stopped =>
    rcases stopped with ⟨same, ends, -⟩ | ⟨-, -, ticket, stage⟩
    · rcases closes.stopped (same.symm.trans still) with ended | ⟨k, s, stage, shuts⟩
      · exact .inl (ends ended)
      · exact .inr ⟨k, s, begins.kept k s (fresh k s stage) stage, shuts⟩
    · exact .inr ⟨_, _, stage, rfl⟩

/-- A node begins to carry out a command. -/
theorem Closes.obey (closes : p.Closes) (tidy : p.Tidy pointer) {ticket : Option Nat}
    {command : Command} {inbox : List (Nat × Command)} (idle : p.loop = .idle)
    (obeys : { p with inbox }.Obeys ticket command e) : ({ p with inbox }.begin e).Closes := by
  have runs := closes.running tidy idle
  have begins := obeys.begins (a := .pass default) inbox
  have ends (loop : LoopState) (ended : p.loop = .ended) : loop = .ended := by
    cases idle.symm.trans ended
  have new : ({ p with inbox }.begin e).stages p.nextNumber = e.next := Function.update_self ..
  refine closes.begins tidy.guarded.fresh begins ?_
  rw [new]
  cases obeys with
  | hold => exact .inr ⟨rfl, runs, ticket, rfl⟩
  | _ => exact .inl ⟨rfl, ends _, nofun⟩

theorem Obeys.stopped {ticket : Option Nat} {command : Command}
    (obeys : p.Obeys ticket command e) (stopped : p.desk.stopped = true) :
    e.desk.stopped = true := by
  cases obeys with
  | hold => rfl
  | _ => exact stopped

/-- A node begins with a submission. -/
theorem Closes.submit (closes : p.Closes) (fresh : p.Fresh) (ticket : Nat) (job : Job) :
    (p.begin (p.submitting ticket job)).Closes := by
  have new : (p.begin (p.submitting ticket job)).stages p.nextNumber =
      (p.submitting ticket job).next := Function.update_self ..
  refine closes.begins fresh (p.begins_submitting 0 ticket job) (.inl ?_)
  rw [new]
  unfold submitting
  split <;> exact ⟨rfl, id, nofun⟩

/-- A node whose tasks, slices and noted locks stay as they are. -/
theorem Closes.congr (closes : p.Closes) (settings : q.desk.settings = p.desk.settings)
    (progress : q.desk.progress = p.desk.progress) (held : q.desk.held = p.desk.held)
    (stopped : q.desk.stopped = p.desk.stopped) (stages : q.stages = p.stages)
    (loop : q.loop = p.loop) : q.Closes := by
  have letGo : q.desk.HasLetGo ↔ p.desk.HasLetGo := by
    rw [Desk.HasLetGo, Desk.HasLetGo, held, stopped]
  refine ⟨?notes, ?held, ?gives, ?letGo, ?shuts, ?stopped⟩
  case notes =>
    rw [letGo, progressOf_of_same progress, settings, held, stages]
    exact closes.notes
  case held =>
    rw [settings, held]
    exact closes.held
  case gives =>
    rw [settings, stages]
    exact closes.gives
  case letGo =>
    rw [letGo, stages]
    exact closes.letGo
  case shuts =>
    rw [stopped, stages]
    exact closes.shuts
  case stopped =>
    rw [stopped, stages, loop]
    exact closes.stopped

/-- A node that has just begun to set the pointer. -/
theorem Closes.joining (settings : NodeSettings) (registry : Registry) (ticket : Nat) :
    (joining settings registry ticket).Closes := by
  have only {k : Nat} {s : TaskStage}
      (stage : (Post.joining settings registry ticket).stages k = some s) :
      s.shuts = false ∧ s.gives = [] := by
    obtain ⟨-, rfl⟩ := stages_joining stage
    exact ⟨rfl, rfl⟩
  refine ⟨.inl fun x at_work => absurd Std.ExtTreeMap.getElem?_empty at_work,
    fun lock mem => absurd mem List.not_mem_nil, fun k s stage lock mem => ?_,
    fun k s stage gives => absurd (only stage).2 gives, fun k s stage shuts => ?_,
    fun stopped => (by cases stopped)⟩
  · rw [(only stage).2] at mem
    cases mem
  · cases shuts.symm.trans (only stage).1

end Post

end SliceScheduler
