import Mathlib.Data.List.Pairwise
import SliceScheduler.Proofs.Guard
import SliceScheduler.Proofs.Order
/-!
# Slices that are announced

A node announces a slice after it moved the pointer past it, and in between gives back its lock.

1. `Desk.finished` lists the slices that a node has announced, and `Post.Clearing` holds of the one
   that it is about to announce;
2. `Post.Works.announces` says what a step does with both: nothing, or the pointer moves past a
   slice that is then about to be announced, or that slice is announced;
3. `Fleet.Announces` is the invariant: announced slices are behind the pointer, each node has them
   in order, and no two nodes have one in common. `Fleet.Announces.step` keeps it up.
-/
namespace SliceScheduler

/-- The slice that an event says the pointer moved past. -/
def Event.finishedSlice? : Event → Option Slice
  | sliceFinished slice => some slice
  | _ => none

/-- The slices that the node has announced, in order. -/
def Desk.finished (d : Desk) : List Slice := d.log.toList.filterMap Event.finishedSlice?

/-- The slice that a task is about to announce. -/
def TaskStage.clearing? : TaskStage → Option Slice
  | turn _ _ (.back slice true) => some slice
  | _ => none

/-- A task of the post is about to announce the slice. -/
def Post.Clearing (p : Post) (slice : Slice) : Prop :=
  ∃ k s, p.stages k = some s ∧ s.clearing? = some slice

/-- The post has announced the slice or is about to. -/
def Post.Cleared (p : Post) (slice : Slice) : Prop :=
  slice ∈ p.desk.finished ∨ p.Clearing slice

/-- Announced slices are behind the pointer, in order on each node, and no two nodes have one in
common. -/
structure Fleet.Announces (f : Fleet) : Prop where
  guarded : f.Guarded
  ordered : ∀ i p, f.posts i = some p → p.desk.finished.Pairwise (· < ·)
  latest : ∀ i p x y, f.posts i = some p → x ∈ p.desk.finished → p.Clearing y → x < y
  behind : ∀ i p x, f.posts i = some p → p.Cleared x →
    ∃ pointer, f.store.pointer = some pointer ∧ x < pointer
  apart : ∀ i j p q x, i ≠ j → f.posts i = some p → f.posts j = some q → p.Cleared x →
    ¬ q.Cleared x

namespace AnnouncementLemmas

theorem finished_announce (d : Desk) (e : Event) :
    (d.announce e).finished = d.finished ++ e.finishedSlice?.toList := by
  simp only [Desk.finished, Desk.announce, Array.toList_push, List.filterMap_append,
    List.filterMap_cons, List.filterMap_nil]
  cases e.finishedSlice? <;> rfl

theorem finished_of_log {d d' : Desk} (same : d'.log = d.log) : d'.finished = d.finished := by
  rw [Desk.finished, same, Desk.finished]

theorem finished_announceAll {events : List Event} (d : Desk)
    (silent : ∀ e ∈ events, e.finishedSlice? = none) :
    (d.announceAll events).finished = d.finished := by
  induction events generalizing d with
  | nil => rfl
  | cons e events ih =>
    have first := silent e (by simp)
    have rest := ih (d.announce e) fun e' mem => silent e' (by simp [mem])
    rw [finished_announce, first, Option.toList_none, List.append_nil] at rest
    exact rest

theorem silent_react (w : Duration) (desk : Desk) (slice : Slice) (id : JobId) (s : JobStage)
    (answer : (s.op w slice id).Result) :
    ∀ e ∈ (s.react w desk slice id answer).1, e.finishedSlice? = none := by
  cases s with
  | load => rcases answer with e | job <;> [cases e; skip] <;> simp [JobStage.react]
  | pass => simp [JobStage.react]
  | deadLetter type => simp [JobStage.react, Event.finishedSlice?]
  | delete id => simp [JobStage.react]
  | _ => rcases answer with e | _ <;> simp [JobStage.react, Event.finishedSlice?]

theorem silent_outcome (now : Instant) (desk : Desk) (slice : Slice) (id : JobId) (job : Job)
    (policy : RetryPolicy) (o : Outcome) :
    ∀ e ∈ (JobStage.outcome now desk slice id job policy o).1, e.finishedSlice? = none := by
  simp only [JobStage.outcome]
  split
  · simp [Event.finishedSlice?]
  · split <;> simp [Event.finishedSlice?]

theorem finished_walk (now : Instant) (dispatch : Bool) (advanced : List Slice)
    (set : NodeSettings) (desk : Desk) (s : WalkStage) (answer : (s.op set).Result) :
    (s.react now dispatch advanced set desk answer).desk.finished = desk.finished := by
  rcases s.log_react now dispatch advanced set desk answer with same | ⟨slice, same⟩
  · exact finished_of_log same
  · exact (finished_of_log same).trans ((finished_announce ..).trans (List.append_nil _))

theorem clearing_turnPlace_first (mover : Mover) (announced : List Slice) (desk : Desk) :
    (Post.turnPlace mover announced (TurnStage.first desk)).clearing? = none := by
  unfold TurnStage.first
  split <;> rfl

theorem clearing_permits (slice : Slice) (ids : List JobId) :
    (Post.permits slice ids).clearing? = none := by
  cases ids <;> rfl

theorem clearing_jobPlace (parent : Nat) (slice : Slice) (id : JobId) (next : JobNext) :
    (Post.jobPlace parent slice id next).bind TaskStage.clearing? = none := by
  cases next <;> rfl

theorem clearing_drained (drained : Option Slice) :
    (drained.map TaskStage.sets).bind TaskStage.clearing? = none := by
  cases drained <;> rfl

/-- No call but one moves the pointer. -/
theorem stays_seek (s : SeekStage) : s.op.isMove = false := by
  cases s <;> rfl

theorem stays_submit (job : Job) (slice : Slice) (s : SubmitStage) :
    (s.op job slice).isMove = false := by
  cases s <;> rfl

theorem stays_walk (set : NodeSettings) (s : WalkStage) : (s.op set).isMove = false := by
  cases s with
  | ensure s => exact stays_seek s
  | _ => rfl

theorem stays_job (w : Duration) (slice : Slice) (id : JobId) (s : JobStage) :
    (s.op w slice id).isMove = false := by
  cases s <;> rfl

theorem stays_giveUp (lock : HeldLock) : lock.giveUpOp.isMove = false := by
  obtain ⟨name, owner, mode⟩ := lock
  cases mode <;> rfl

/-- A task that is about to announce a slice is under the guard. -/
theorem hasGuard_of_clearing {s : TaskStage} {x : Slice} (clears : s.clearing? = some x) :
    s.hasGuard = true := by
  cases s with
  | turn mover announced s => rfl
  | _ => cases clears

/-- Nothing is announced, and nothing is about to be that was not before. -/
structure Quiet (p : Post) (s : Option TaskStage) (e : Effect) : Prop where
  finished : e.desk.finished = p.desk.finished
  next : e.next.bind TaskStage.clearing? = none ∨
    e.next.bind TaskStage.clearing? = s.bind TaskStage.clearing?
  spawned : e.spawned.bind TaskStage.clearing? = none

theorem Quiet.clearing_apply {p : Post} {k : Nat} {e : Effect} (quiet : Quiet p (p.stages k) e)
    {x : Slice} (now : (p.apply k e).Clearing x) : p.Clearing x := by
  obtain ⟨j, s, stage, clears⟩ := now
  rcases Post.stages_apply stage with ⟨rfl, next⟩ | ⟨-, -, spawned⟩ | ⟨-, before⟩
  · have same := quiet.next
    rw [next, Option.bind_some, clears] at same
    rcases same with none | same
    · cases none
    · cases mine : p.stages j with
      | none =>
        rw [mine] at same
        cases same
      | some s' =>
        rw [mine] at same
        exact ⟨j, s', mine, same.symm⟩
  · have none := quiet.spawned
    rw [spawned, Option.bind_some, clears] at none
    cases none
  · exact ⟨j, s, before, clears⟩

end AnnouncementLemmas

open AnnouncementLemmas

/-- What a step of a task does with announcements. -/
theorem Post.Works.announces {now : Instant} {store store' : MemoryStore} {p : Post} {k : Nat}
    {s : TaskStage} {prompt : Prompt} {e : Effect}
    (works : p.Works now store k s prompt e store') :
    (Quiet p (some s) e ∧ ∀ x, store.pointer = some x → store'.pointer = some x) ∨
      (∃ mover announced x, s = .turn mover announced (.move x) ∧ store.pointer = some x ∧
        store'.pointer = some (x.next p.desk.width) ∧ e.desk = p.desk ∧ e.spawned = none ∧
        e.next = some (.turn mover announced (.back x true))) ∨
      ∃ mover announced x, s = .turn mover announced (.back x true) ∧
        (∀ y, store.pointer = some y → store'.pointer = some y) ∧
        e.desk.finished = p.desk.finished ++ [x] ∧ e.spawned = none ∧
        e.next.bind TaskStage.clearing? = none := by
  cases works with
  | start made =>
    refine .inl ⟨?_, fun x => MemoryStore.pointer_attempt made (stays_seek _)⟩
    unfold afterSeek
    split <;> exact ⟨rfl, .inl rfl, rfl⟩
  | submission made =>
    refine .inl ⟨?_, fun x => MemoryStore.pointer_attempt made (stays_submit ..)⟩
    unfold afterSubmit
    split <;> exact ⟨rfl, .inl rfl, rfl⟩
  | guard free =>
    exact .inl ⟨⟨rfl, .inl (clearing_turnPlace_first ..), rfl⟩, fun _ => id⟩
  | @turn mover announced s fault answer store' made =>
    cases s with
    | seek =>
      refine .inl ⟨?_, fun x => MemoryStore.pointer_attempt made rfl⟩
      rcases answer with e | _ | pointer
      · exact ⟨rfl, .inl rfl, rfl⟩
      · exact ⟨rfl, .inl rfl, rfl⟩
      · simp only [afterTurn, TurnStage.react]
        split <;> exact ⟨rfl, .inl rfl, rfl⟩
    | recheck pointer =>
      refine .inl ⟨?_, fun x => MemoryStore.pointer_attempt made rfl⟩
      rcases answer with e | index
      · exact ⟨rfl, .inl rfl, rfl⟩
      · simp only [afterTurn, TurnStage.react]
        split
        · split <;> exact ⟨rfl, .inl rfl, rfl⟩
        · exact ⟨rfl, .inl rfl, rfl⟩
    | clear pointer =>
      refine .inl ⟨?_, fun x => MemoryStore.pointer_attempt made rfl⟩
      rcases answer with e | _ <;> exact ⟨rfl, .inl rfl, rfl⟩
    | move pointer =>
      rcases MemoryStore.movePointer_attempt made with ⟨rfl, there, moved⟩ | ⟨failed, rfl⟩
      · exact .inr (.inl ⟨mover, announced, pointer, rfl, there, moved, rfl, rfl, rfl⟩)
      · refine .inl ⟨?_, fun _ => id⟩
        rcases answer with e | _ | _
        · exact ⟨rfl, .inl rfl, rfl⟩
        · exact ⟨rfl, .inl rfl, rfl⟩
        · exact absurd rfl failed
    | back pointer moved =>
      have stays (x : Slice) (set : store.pointer = some x) : store'.pointer = some x :=
        MemoryStore.pointer_attempt made rfl set
      cases moved with
      | true =>
        exact .inr (.inr ⟨mover, announced, pointer, rfl, stays, finished_announce _ _, rfl, rfl⟩)
      | false => exact .inl ⟨⟨rfl, .inl rfl, rfl⟩, stays⟩
  | moved => exact .inl ⟨⟨rfl, .inl (clearing_turnPlace_first ..), rfl⟩, fun _ => id⟩
  | @stay mover announced =>
    cases mover <;> exact .inl ⟨⟨rfl, .inl rfl, rfl⟩, fun _ => id⟩
  | walk made =>
    refine .inl ⟨?_, fun x => MemoryStore.pointer_attempt made (stays_walk ..)⟩
    unfold afterWalk
    split <;> exact ⟨finished_walk .., .inl rfl, clearing_drained _⟩
  | look => exact .inl ⟨⟨rfl, .inl rfl, rfl⟩, fun _ => id⟩
  | halt => exact .inl ⟨⟨rfl, .inl rfl, rfl⟩, fun _ => id⟩
  | hold free =>
    refine .inl ⟨?_, fun _ => id⟩
    cases held : p.desk.held.held <;> exact ⟨rfl, .inl rfl, rfl⟩
  | @giveUp ticket lock others live fault answer store' made live' =>
    refine .inl ⟨?_, fun x => MemoryStore.pointer_attempt made (stays_giveUp lock)⟩
    cases others <;> exact ⟨rfl, .inl rfl, rfl⟩
  | @sets slice fault answer store' made =>
    refine .inl ⟨?_, fun x => MemoryStore.pointer_attempt made rfl⟩
    cases answer with
    | error e => exact ⟨rfl, .inl rfl, rfl⟩
    | ok index => exact ⟨rfl, .inl (clearing_permits ..), rfl⟩
  | permit => exact .inl ⟨⟨rfl, .inl (clearing_permits ..), rfl⟩, fun _ => id⟩
  | jobs spent => exact .inl ⟨⟨rfl, .inl rfl, rfl⟩, fun _ => id⟩
  | @job parent slice id s fault answer store' made =>
    have silent := silent_react p.desk.settings.width p.desk slice id s answer
    exact .inl ⟨⟨finished_announceAll _ silent, .inl (clearing_jobPlace ..), rfl⟩,
      fun x => MemoryStore.pointer_attempt made (stays_job ..)⟩
  | running =>
    exact .inl ⟨⟨finished_announceAll _ (silent_outcome _ _ _ _ _ _ _), .inl rfl, rfl⟩, fun _ => id⟩

namespace Fleet

variable {f f' : Fleet} {i : Nat} {p q : Post} {store : MemoryStore}

theorem Announces.bare (c : Cluster) : (bare c).Announces := by
  have none (i : Nat) (p : Post) : (Fleet.bare c).posts i ≠ some p := (Option.some_ne_none p).symm
  exact ⟨.bare c, fun i p post => absurd post (none i p), fun i p _ _ post => absurd post (none i p),
    fun i p _ post => absurd post (none i p), fun i _ p _ _ _ post => absurd post (none i p)⟩

/-- One post changes, and the pointer moves no further back. -/
theorem Announces.put (announces : f.Announces) (guarded : q.Guarded)
    (ordered : q.desk.finished.Pairwise (· < ·))
    (latest : ∀ x y, x ∈ q.desk.finished → q.Clearing y → x < y)
    (behind : ∀ x, q.Cleared x → ∃ pointer, store.pointer = some pointer ∧ x < pointer)
    (others : ∀ x y, f.store.pointer = some y → x < y →
      ∃ pointer, store.pointer = some pointer ∧ x < pointer)
    (apart : ∀ j r x, j ≠ i → f.posts j = some r → q.Cleared x → ¬ r.Cleared x) :
    ({ f with store }.put i q).Announces := by
  refine ⟨announces.guarded.put guarded store, ?ordered, ?latest, ?behind, ?apart⟩
  case ordered =>
    intro j r placed
    rcases posts_put placed with ⟨-, rfl⟩ | ⟨-, before⟩
    · exact ordered
    · exact announces.ordered j r before
  case latest =>
    intro j r x y placed mem now
    rcases posts_put placed with ⟨-, rfl⟩ | ⟨-, before⟩
    · exact latest x y mem now
    · exact announces.latest j r x y before mem now
  case behind =>
    intro j r x placed now
    rcases posts_put placed with ⟨-, rfl⟩ | ⟨-, before⟩
    · exact behind x now
    · obtain ⟨y, there, less⟩ := announces.behind j r x before now
      exact others x y there less
  case apart =>
    intro j j' r r' x other placed placed' now now'
    rcases posts_put placed with ⟨rfl, rfl⟩ | ⟨away, before⟩
    · rcases posts_put placed' with ⟨rfl, -⟩ | ⟨away', before'⟩
      · exact other rfl
      · exact apart j' r' x away' before' now now'
    · rcases posts_put placed' with ⟨rfl, rfl⟩ | ⟨-, before'⟩
      · exact apart j r x away before now' now
      · exact announces.apart j j' r r' x other before before' now now'

/-- A post changes that announces nothing and is about to announce nothing new. -/
theorem Announces.keep (announces : f.Announces) (post : f.posts i = some p)
    (guarded : q.Guarded) (finished : q.desk.finished = p.desk.finished)
    (clearing : ∀ x, q.Clearing x → p.Clearing x)
    (pointer : ∀ x, f.store.pointer = some x → store.pointer = some x) :
    ({ f with store }.put i q).Announces := by
  have cleared (x : Slice) (now : q.Cleared x) : p.Cleared x := by
    rcases now with mem | now
    · exact .inl (finished ▸ mem)
    · exact .inr (clearing x now)
  refine announces.put guarded ?_ ?_ ?_ ?_ ?_
  · rw [finished]
    exact announces.ordered i p post
  · intro x y mem now
    exact announces.latest i p x y post (finished ▸ mem) (clearing y now)
  · intro x now
    obtain ⟨y, there, less⟩ := announces.behind i p x post (cleared x now)
    exact ⟨y, pointer y there, less⟩
  · intro x y there less
    exact ⟨y, pointer y there, less⟩
  · intro j r x away before now
    exact announces.apart i j p r x (Ne.symm away) post before (cleared x now)

/-- The pointer moves past a slice that the post is then about to announce. -/
theorem Announces.move (announces : f.Announces) (post : f.posts i = some p) (guarded : q.Guarded)
    {x next : Slice} (finished : q.desk.finished = p.desk.finished)
    (clearing : ∀ y, q.Clearing y → y = x) (there : f.store.pointer = some x)
    (moved : store.pointer = some next) (less : x < next) :
    ({ f with store }.put i q).Announces := by
  have behind (j : Nat) (r : Post) (y : Slice) (old : f.posts j = some r) (now : r.Cleared y) :
      y < x := by
    obtain ⟨z, same, less⟩ := announces.behind j r y old now
    rw [there, Option.some.injEq] at same
    exact same ▸ less
  have own (y : Slice) (now : q.Cleared y) : p.Cleared y ∨ y = x := by
    rcases now with mem | now
    · exact .inl (.inl (finished ▸ mem))
    · exact .inr (clearing y now)
  refine announces.put guarded ?_ ?_ ?_ ?_ ?_
  · rw [finished]
    exact announces.ordered i p post
  · intro y z mem now
    rw [clearing z now]
    exact behind i p y post (.inl (finished ▸ mem))
  · intro y now
    refine ⟨next, moved, ?_⟩
    rcases own y now with now | rfl
    · exact lt_trans (behind i p y post now) less
    · exact less
  · intro y z same before
    rw [there, Option.some.injEq] at same
    exact ⟨next, moved, lt_trans (same ▸ before) less⟩
  · -- the slice itself was not behind the pointer, so that no other node has it
    intro j r y away old now now'
    rcases own y now with now | rfl
    · exact announces.apart i j p r y (Ne.symm away) post old now now'
    · exact lt_irrefl y (behind j r y old now')

/-- The post announces the slice that it was about to announce. -/
theorem Announces.announce (announces : f.Announces) (post : f.posts i = some p)
    (guarded : q.Guarded) {x : Slice} (about : p.Clearing x)
    (finished : q.desk.finished = p.desk.finished ++ [x]) (clearing : ∀ y, ¬ q.Clearing y)
    (pointer : ∀ y, f.store.pointer = some y → store.pointer = some y) :
    ({ f with store }.put i q).Announces := by
  have cleared (y : Slice) (now : q.Cleared y) : p.Cleared y := by
    rcases now with mem | now
    · rw [finished, List.mem_append, List.mem_singleton] at mem
      rcases mem with mem | rfl
      · exact .inl mem
      · exact .inr about
    · exact absurd now (clearing y)
  refine announces.put guarded ?_ ?_ ?_ ?_ ?_
  · rw [finished, List.pairwise_append]
    refine ⟨announces.ordered i p post, List.pairwise_singleton _ _, fun y mem z last => ?_⟩
    rw [List.mem_singleton] at last
    exact last ▸ announces.latest i p y x post mem about
  · intro y z mem now
    exact absurd now (clearing z)
  · intro y now
    obtain ⟨z, there, less⟩ := announces.behind i p y post (cleared y now)
    exact ⟨z, pointer z there, less⟩
  · intro y z there less
    exact ⟨z, pointer z there, less⟩
  · intro j r y away before now
    exact announces.apart i j p r y (Ne.symm away) post before (cleared y now)

/-- A new task announces nothing. -/
theorem Announces.begin (announces : f.Announces) (post : f.posts i = some p)
    (inbox : List (Nat × Command)) {e : Effect} (handles : ∀ s, { p with inbox }.Handles s e)
    (finished : e.desk.finished = p.desk.finished)
    (next : e.next.bind TaskStage.clearing? = none) (spawned : e.spawned = none) :
    (f.put i ({ p with inbox }.begin e)).Announces := by
  have guarded : { p with inbox }.Guarded := (announces.guarded i p post).congr rfl rfl rfl
  refine announces.keep post (guarded.begin handles) finished ?_ fun _ => id
  intro x now
  exact Quiet.clearing_apply (p := { p with inbox, nextNumber := p.nextNumber + 1 })
    ⟨finished, .inl next, by rw [spawned]; rfl⟩ now

theorem Announces.obey (announces : f.Announces) (post : f.posts i = some p)
    (inbox : List (Nat × Command)) {e : Effect} {ticket : Option Nat} {command : Command}
    (obeys : { p with inbox }.Obeys ticket command e) :
    (f.put i ({ p with inbox }.begin e)).Announces := by
  refine announces.begin post inbox obeys.handles ?_ ?_ ?_ <;> cases obeys <;> rfl

/-- Every step keeps announced slices behind the pointer, in order and apart. -/
theorem Announces.step {w : Duration} {a : Action} (announces : f.Announces)
    (uniform : f.Uniform w) (next : ∀ x, f.store.pointer = some x → x.HasNext w)
    (step : f.Step a f') : f'.Announces := by
  cases step with
  | pass now =>
    exact ⟨announces.guarded, announces.ordered, announces.latest, announces.behind,
      announces.apart⟩
  | @join i settings registry ticket free =>
    have clean (x : Slice) : ¬ (Post.joining settings registry ticket).Cleared x := by
      rintro (mem | now)
      · cases mem
      · obtain ⟨k, s, stage, clears⟩ := Quiet.clearing_apply
          (p := { Post.fresh settings registry with nextNumber := 1 }) ⟨rfl, .inl rfl, rfl⟩ now
        cases stage
    exact @Announces.put f _ _ f.store announces (.joining ..) .nil (fun x y mem => by cases mem)
      (fun x now => absurd now (clean x)) (fun x y there less => ⟨y, there, less⟩)
      (fun j r x away before now => absurd now (clean x))
  | @register i p registry post =>
    exact announces.keep post ((announces.guarded i p post).congr rfl rfl rfl) rfl (fun _ => id)
      fun _ => id
  | @submit i p ticket job post opened =>
    unfold Post.submitting
    split <;> exact announces.begin post p.inbox (fun s => .of_outside rfl rfl rfl) rfl rfl rfl
  | @send i p ticket command post opened =>
    unfold Post.send
    split <;> exact announces.keep post ((announces.guarded i p post).congr rfl rfl rfl) rfl
      (fun _ => id) fun _ => id
  | @leave i p post opened =>
    exact announces.keep post ((announces.guarded i p post).congr rfl rfl rfl) rfl (fun _ => id)
      fun _ => id
  | @receive i p ticket command inbox e post opened idle waits obeys =>
    exact announces.obey post inbox obeys
  | @abandon i p e post opened idle alone obeys =>
    exact announces.obey post p.inbox obeys
  | @tickItself i p e post opened idle obeys =>
    exact announces.obey post p.inbox obeys
  | @work i p k s prompt e store a post stage works same =>
    have guarded := announces.guarded i p post
    have handles := works.handles guarded stage
    rw [← stage] at handles
    have guarded' := guarded.apply (guarded.fresh k s stage) handles
    -- a step announces nothing, moves the pointer, or announces the slice that it was moved past
    rcases works.announces with ⟨quiet, pointer⟩ |
      ⟨mover, announced, x, rfl, there, moved, desk, spawned, next'⟩ |
      ⟨mover, announced, x, rfl, pointer, finished, spawned, next'⟩
    · rw [← stage] at quiet
      exact announces.keep post guarded' quiet.finished (fun x => quiet.clearing_apply) pointer
    · -- the guard is with this task, so that nothing else is about to be announced
      refine announces.move post guarded' (congrArg Desk.finished desk) ?_ there moved ?_
      · rintro y ⟨j, s, stage', clears⟩
        rcases Post.stages_apply stage' with ⟨-, same⟩ | ⟨-, -, some⟩ | ⟨other, before⟩
        · rw [next', Option.some.injEq] at same
          rw [← same] at clears
          exact (Option.some.inj clears).symm
        · rw [spawned] at some
          cases some
        · exact absurd (guarded.alone j k s _ before (hasGuard_of_clearing clears) stage rfl) other
      · rw [uniform i p post]
        exact Slice.lt_next (next x there)
    · -- and after it, with the guard still there, nothing is left to be announced
      refine announces.announce post guarded' ⟨k, _, stage, rfl⟩ finished ?_ pointer
      rintro y ⟨j, s, stage', clears⟩
      rcases Post.stages_apply stage' with ⟨-, same⟩ | ⟨-, -, some⟩ | ⟨other, before⟩
      · rw [same, Option.bind_some, clears] at next'
        cases next'
      · rw [spawned] at some
        cases some
      · exact absurd (guarded.alone j k s _ before (hasGuard_of_clearing clears) stage rfl) other

end Fleet

end SliceScheduler
