import SliceScheduler.Proofs.Fleet
/-!
# The guard of the pointer

A node moves the pointer, or gives up its locks, under a guard that one task has at a time.

1. `Post.Fresh` says that the number of the next task is new;
2. `TaskStage.hasGuard` lists the stages under the guard, and `Post.Guarded` says that one task at
   most is at such a stage;
3. `Fleet.Guarded.step` is the result: every step of a fleet keeps this up.
-/
namespace SliceScheduler

/-- No task has the number of the next task, or one after it. -/
def Post.Fresh (p : Post) : Prop := ∀ k s, p.stages k = some s → k < p.nextNumber

/-- The task is under the guard of the pointer. -/
def TaskStage.hasGuard : TaskStage → Bool
  | turn .. | turned .. | giveUp .. => true
  | _ => false

/-- The guard of the post is taken when a task is under it, and by one task at most. -/
structure Post.Guarded (p : Post) : Prop where
  fresh : p.Fresh
  taken : ∀ k s, p.stages k = some s → s.hasGuard = true → p.advancing = true
  alone : ∀ k k' s s', p.stages k = some s → s.hasGuard = true → p.stages k' = some s' →
    s'.hasGuard = true → k = k'

/-- Every post of the fleet is guarded. -/
def Fleet.Guarded (f : Fleet) : Prop := ∀ i p, f.posts i = some p → p.Guarded

namespace Post

theorem Fresh.apply {p : Post} {k : Nat} (fresh : p.Fresh) (begun : k < p.nextNumber)
    (e : Effect) : (p.apply k e).Fresh := by
  intro j s stage
  have later : p.nextNumber ≤ (p.apply k e).nextNumber := by
    simp only [Post.apply]
    cases e.spawned with
    | none => exact Nat.le_refl _
    | some s => exact Nat.le_succ _
  rcases stages_apply stage with ⟨rfl, -⟩ | ⟨-, rfl, spawned⟩ | ⟨-, before⟩
  · exact Nat.lt_of_lt_of_le begun later
  · simp only [Post.apply, spawned]
    exact Nat.lt_succ_self _
  · exact Nat.lt_of_lt_of_le (fresh j s before) later

/-- The tasks that a step is not about stay where they are. -/
theorem Fresh.stages_apply {p : Post} {j k : Nat} {s : TaskStage} (fresh : p.Fresh)
    (stage : p.stages j = some s) (other : j ≠ k) (e : Effect) :
    (p.apply k e).stages j = some s := by
  simp only [Post.apply]
  rw [Function.update_of_ne other]
  cases e.spawned with
  | none => exact stage
  | some new =>
    simp only [spawn]
    rw [Function.update_of_ne (Nat.ne_of_lt (fresh j s stage))]
    exact stage

/-- The effect takes and gives back the guard as the stages before and after it say. -/
structure Handles (p : Post) (s : Option TaskStage) (e : Effect) : Prop where
  spawned : e.spawned.any TaskStage.hasGuard = false
  taken : e.next.any TaskStage.hasGuard = true →
    e.advancing = true ∧ (s.any TaskStage.hasGuard = true ∨ p.advancing = false)
  kept : e.next.any TaskStage.hasGuard = false →
    s.any TaskStage.hasGuard = true ∨ e.advancing = p.advancing

theorem Guarded.apply {p : Post} {k : Nat} {e : Effect} (guarded : p.Guarded)
    (begun : k < p.nextNumber) (handles : p.Handles (p.stages k) e) : (p.apply k e).Guarded := by
  -- a stage under the guard is the next stage of the task, or that of another task before
  have origin {j : Nat} {s : TaskStage} (stage : (p.apply k e).stages j = some s)
      (has : s.hasGuard = true) :
      (j = k ∧ e.next.any TaskStage.hasGuard = true) ∨
        j ≠ k ∧ p.stages j = some s ∧ (p.stages k).any TaskStage.hasGuard = false := by
    rcases stages_apply stage with ⟨rfl, next⟩ | ⟨-, -, spawned⟩ | ⟨other, before⟩
    · exact .inl ⟨rfl, by rw [next]; exact has⟩
    · have none := handles.spawned
      rw [spawned, Option.any_some, has] at none
      cases none
    · refine .inr ⟨other, before, ?_⟩
      cases mine : p.stages k with
      | none => rfl
      | some s' =>
        cases held : s'.hasGuard with
        | false => exact held
        | true => exact absurd (guarded.alone j k s s' before has mine held) other
  refine ⟨guarded.fresh.apply begun e, ?_, ?_⟩
  · intro j s stage has
    rcases origin stage has with ⟨rfl, next⟩ | ⟨other, before, free⟩
    · exact (handles.taken next).1
    · have taken := guarded.taken j s before has
      cases next : e.next.any TaskStage.hasGuard with
      | true =>
        rcases (handles.taken next).2 with held | notTaken
        · rw [free] at held
          cases held
        · rw [taken] at notTaken
          cases notTaken
      | false =>
        rcases handles.kept next with held | same
        · rw [free] at held
          cases held
        · exact same.trans taken
  · intro j j' s s' stage has stage' has'
    rcases origin stage has with ⟨rfl, next⟩ | ⟨other, before, free⟩
    · rcases origin stage' has' with ⟨rfl, -⟩ | ⟨-, before', free'⟩
      · rfl
      · rcases (handles.taken next).2 with held | notTaken
        · rw [free'] at held
          cases held
        · rw [guarded.taken j' s' before' has'] at notTaken
          cases notTaken
    · rcases origin stage' has' with ⟨rfl, next⟩ | ⟨-, before', -⟩
      · rcases (handles.taken next).2 with held | notTaken
        · rw [free] at held
          cases held
        · rw [guarded.taken j s before has] at notTaken
          cases notTaken
      · exact guarded.alone j j' s s' before has before' has'

/-- A task that was not under the guard and is not now leaves it alone. -/
theorem Handles.of_outside {p : Post} {s : Option TaskStage} {e : Effect}
    (spawned : e.spawned.any TaskStage.hasGuard = false)
    (outside : e.next.any TaskStage.hasGuard = false) (same : e.advancing = p.advancing) :
    p.Handles s e :=
  ⟨spawned, fun next => absurd (outside.symm.trans next) nofun, fun _ => .inr same⟩

/-- A task that was under the guard and is still. -/
theorem Handles.of_inside {p : Post} {s : Option TaskStage} {e : Effect}
    (spawned : e.spawned.any TaskStage.hasGuard = false)
    (held : s.any TaskStage.hasGuard = true) (taken : e.advancing = true) : p.Handles s e :=
  ⟨spawned, fun _ => ⟨taken, .inl held⟩, fun _ => .inl held⟩

/-- A task that takes the guard. -/
theorem Handles.of_free {p : Post} {s : Option TaskStage} {e : Effect}
    (spawned : e.spawned.any TaskStage.hasGuard = false) (free : p.advancing = false)
    (next : e.next.any TaskStage.hasGuard = true) (taken : e.advancing = true) : p.Handles s e :=
  ⟨spawned, fun _ => ⟨taken, .inr free⟩, fun none => absurd (none.symm.trans next) nofun⟩

theorem hasGuard_turnPlace (mover : Mover) (announced : List Slice)
    (next : TurnStage ⊕ Program.Turn) : (turnPlace mover announced next).hasGuard = true := by
  cases next <;> rfl

theorem hasGuard_jobPlace (parent : Nat) (slice : Slice) (id : JobId) (next : JobNext) :
    (jobPlace parent slice id next).any TaskStage.hasGuard = false := by
  cases next <;> rfl

theorem hasGuard_permits (slice : Slice) (ids : List JobId) :
    (permits slice ids).hasGuard = false := by
  cases ids <;> rfl

theorem hasGuard_drained (drained : Option Slice) :
    (drained.map TaskStage.sets).any TaskStage.hasGuard = false := by
  cases drained <;> rfl

theorem Works.handles {now : Instant} {store store' : MemoryStore} {p : Post} {k : Nat}
    {s : TaskStage} {prompt : Prompt} {e : Effect}
    (works : p.Works now store k s prompt e store') (guarded : p.Guarded)
    (stage : p.stages k = some s) : p.Handles (some s) e := by
  have taken := guarded.taken k s stage
  cases works with
  | start made =>
    unfold afterSeek
    split <;> exact .of_outside rfl rfl rfl
  | submission made =>
    unfold afterSubmit
    split <;> exact .of_outside rfl rfl rfl
  | guard free => exact .of_free rfl free (hasGuard_turnPlace ..) rfl
  | turn made => exact .of_inside (hasGuard_drained _) rfl (taken rfl)
  | moved => exact .of_inside rfl rfl (taken rfl)
  | @stay mover announced =>
    cases mover <;> exact ⟨rfl, nofun, fun _ => .inl rfl⟩
  | walk made =>
    unfold afterWalk
    split <;> exact .of_outside (hasGuard_drained _) rfl rfl
  | look => exact .of_outside rfl rfl rfl
  | halt => exact .of_outside rfl rfl rfl
  | hold free =>
    cases held : p.desk.held.held with
    | nil => exact .of_outside rfl rfl free.symm
    | cons lock others => exact .of_free rfl free rfl rfl
  | @giveUp ticket lock others live fault answer store' made live' =>
    cases others with
    | nil => exact ⟨rfl, nofun, fun _ => .inl rfl⟩
    | cons lock others => exact .of_inside rfl rfl (taken rfl)
  | @sets slice fault answer store' made =>
    cases answer with
    | error e => exact .of_outside rfl rfl rfl
    | ok index => exact .of_outside rfl (hasGuard_permits ..) rfl
  | permit => exact .of_outside rfl (hasGuard_permits ..) rfl
  | jobs spent => exact .of_outside rfl rfl rfl
  | job made => exact .of_outside rfl (hasGuard_jobPlace ..) rfl
  | running => exact .of_outside rfl rfl rfl

theorem Obeys.handles {p : Post} {ticket : Option Nat} {command : Command} {e : Effect}
    (obeys : p.Obeys ticket command e) (s : Option TaskStage) : p.Handles s e := by
  cases obeys <;> exact .of_outside rfl rfl rfl

theorem Guarded.begin {p : Post} {e : Effect} (guarded : p.Guarded)
    (handles : ∀ s, p.Handles s e) : (p.begin e).Guarded := by
  have counted : { p with nextNumber := p.nextNumber + 1 }.Guarded :=
    ⟨fun k s stage => Nat.lt_succ_of_lt (guarded.fresh k s stage), guarded.taken, guarded.alone⟩
  have same := handles (p.stages p.nextNumber)
  exact counted.apply (Nat.lt_succ_self _) ⟨same.spawned, same.taken, same.kept⟩

theorem Guarded.joining (settings : NodeSettings) (registry : Registry) (ticket : Nat) :
    (joining settings registry ticket).Guarded := by
  have empty : (Post.fresh settings registry).Guarded :=
    ⟨fun k s stage => (Option.some_ne_none s stage.symm).elim,
      fun k s stage => (Option.some_ne_none s stage.symm).elim,
      fun k k' s s' stage => (Option.some_ne_none s stage.symm).elim⟩
  exact empty.begin fun s => .of_outside rfl rfl rfl

theorem Guarded.congr {p q : Post} (guarded : p.Guarded) (stages : q.stages = p.stages)
    (nextNumber : q.nextNumber = p.nextNumber) (advancing : q.advancing = p.advancing) :
    q.Guarded := by
  obtain ⟨fresh, taken, alone⟩ := guarded
  refine ⟨?_, ?_, ?_⟩
  · intro k s stage
    rw [nextNumber]
    exact fresh k s (stages ▸ stage)
  · intro k s stage has
    rw [advancing]
    exact taken k s (stages ▸ stage) has
  · rw [stages]
    exact alone

end Post

namespace Fleet

theorem Guarded.put {f : Fleet} {i : Nat} {p : Post} (guarded : f.Guarded) (post : p.Guarded)
    (store : MemoryStore) : ({ f with store }.put i p).Guarded := by
  intro j q placed
  rcases posts_put placed with ⟨rfl, rfl⟩ | ⟨-, before⟩
  · exact post
  · exact guarded j q before

/-- Every step keeps the guard of every post with one task at most. -/
theorem Guarded.step {f f' : Fleet} {a : Action} (guarded : f.Guarded) (step : f.Step a f') :
    f'.Guarded := by
  cases step with
  | pass now => exact guarded
  | join free => exact guarded.put (.joining ..) f.store
  | @register i p registry post =>
    refine guarded.put ?_ f.store
    exact (guarded i p post).congr rfl rfl rfl
  | @submit i p ticket job post opened =>
    refine guarded.put ((guarded i p post).begin fun s => ?_) f.store
    unfold Post.submitting
    split <;> exact .of_outside rfl rfl rfl
  | @send i p ticket command post opened =>
    refine guarded.put ((guarded i p post).congr ?_ ?_ ?_) f.store <;>
      (unfold Post.send; split <;> rfl)
  | @leave i p post opened =>
    refine guarded.put ?_ f.store
    exact (guarded i p post).congr rfl rfl rfl
  | @receive i p ticket command inbox e post opened idle waits obeys =>
    have rest : { p with inbox }.Guarded := (guarded i p post).congr rfl rfl rfl
    exact guarded.put (rest.begin obeys.handles) f.store
  | @abandon i p e post opened idle alone obeys =>
    exact guarded.put ((guarded i p post).begin obeys.handles) f.store
  | @tickItself i p e post opened idle obeys =>
    exact guarded.put ((guarded i p post).begin obeys.handles) f.store
  | @work i p k s prompt e store a post stage works same =>
    have before := guarded i p post
    have handles := works.handles before stage
    rw [← stage] at handles
    exact guarded.put (before.apply (before.fresh k s stage) handles) store

theorem Guarded.bare (c : Cluster) : (bare c).Guarded := nofun

end Fleet

end SliceScheduler
