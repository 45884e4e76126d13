import SliceScheduler.Proofs.Fencing
/-!
# Nodes that are paused

Whether a tick takes slices is settled when it begins. A node carries out one command at a time, so
that no tick that takes slices is at work on a node that is paused. A tick of such a node may still
find that jobs were left over in the slice at the pointer, and then it drains the slice once more.

1. `TaskStage.dispatches` lists the stages of ticks that take slices, and `Post.Dispatches` says
   that only a running node is at one of them;
2. `Fleet.Dispatches.step` says that every step keeps this up;
3. `Post.Works.redrains` says which slices a tick drains that takes none;
4. `Cluster.Run.redrains_unless_running` is the result: a node that is not running drains no slice
   but the one at the pointer, after it was drained and jobs were left over in it.
-/
namespace SliceScheduler

open Post TidyLemmas

/-- The turns are those of a tick that takes slices. -/
def Mover.dispatches : Mover → Bool
  | tick _ dispatch => dispatch
  | drain _ => false

/-- The task belongs to a tick that takes slices. -/
def TaskStage.dispatches : TaskStage → Bool
  | guard mover | turn mover _ _ | turned mover _ _ => mover.dispatches
  | walk _ _ _ (.take ..) => true
  | walk _ dispatch _ _ => dispatch
  | _ => false

/-- Ticks that take slices are at work on a node that is running only. -/
def Post.Dispatches (p : Post) : Prop :=
  ∀ k s, p.stages k = some s → s.dispatches = true → p.desk.mode = .running

/-- All nodes of the fleet are like that. -/
def Fleet.Dispatches (f : Fleet) : Prop := ∀ i p, f.posts i = some p → p.Dispatches

/-! ## Modes -/

theorem Desk.mode_announceAll (desk : Desk) (events : List Event) :
    (desk.announceAll events).mode = desk.mode := by
  induction events generalizing desk with
  | nil => rfl
  | cons e events ih => exact ih (desk.announce e)

theorem TurnStage.mode_react (fromTick : Bool) (set : NodeSettings) (desk : Desk) (s : TurnStage)
    (answer : (s.op set).Result) : (s.react fromTick set desk answer).desk.mode = desk.mode := by
  cases s with
  | seek =>
    rcases answer with e | _ | pointer
    · rfl
    · rfl
    · simp only [react]
      split <;> rfl
  | recheck pointer =>
    rcases answer with e | index
    · rfl
    · simp only [react]
      split
      · split <;> rfl
      · rfl
  | clear pointer => rcases answer with e | _ <;> rfl
  | move pointer => rcases answer with e | _ <;> rfl
  | back pointer moved => cases moved <;> rfl

theorem WalkStage.mode_react (now : Instant) (dispatch : Bool) (advanced : List Slice)
    (set : NodeSettings) (desk : Desk) (s : WalkStage) (answer : (s.op set).Result) :
    (s.react now dispatch advanced set desk answer).desk.mode = desk.mode := by
  cases s with
  | read => rcases answer with e | _ | pointer <;> rfl
  | ensure s =>
    simp only [react]
    split <;> rfl
  | release pointer slice rest => rfl
  | take pointer current limit slice before => rcases answer with e | _ | _ <;> rfl

section Works

variable {now : Instant} {store store' : MemoryStore} {p q : Post} {k : Nat} {s t : TaskStage}
  {prompt : Prompt} {e : Effect} {ticket : Option Nat} {dispatch : Bool}
  {announced advanced : List Slice}

/-- Commands change what a node is up to, but steps of tasks do not. -/
theorem Post.Works.mode (works : p.Works now store k s prompt e store') :
    e.desk.mode = p.desk.mode := by
  cases works with
  | start made =>
    unfold afterSeek
    split <;> rfl
  | submission made =>
    unfold afterSubmit
    split <;> rfl
  | turn made => exact TurnStage.mode_react ..
  | @stay mover announced => cases mover <;> rfl
  | walk made =>
    rw [desk_afterWalk]
    exact WalkStage.mode_react ..
  | giveUp made live' =>
    unfold givingUp
    split <;> rfl
  | sets made =>
    unfold afterSets
    split <;> rfl
  | job made => exact Desk.mode_announceAll ..
  | running => exact Desk.mode_announceAll ..
  | _ => rfl

/-! ## Ticks that take slices -/

theorem dispatches_turnPlace (mover : Mover) (announced : List Slice)
    (next : TurnStage ⊕ Program.Turn) :
    (turnPlace mover announced next).dispatches = mover.dispatches := by
  cases next <;> rfl

theorem dispatches_releaseOn {d : Desk} {pointer : Slice} {stale : List Slice}
    (here : (walkPlace ticket dispatch announced
      (WalkStage.releaseOn now dispatch d advanced pointer stale)).any TaskStage.dispatches) :
    dispatch = true := by
  cases stale with
  | nil =>
    simp only [WalkStage.releaseOn, WalkStage.setOut] at here
    split at here
    · assumption
    · cases here
  | cons x others => exact here

theorem dispatches_walk {t : WalkStage} {answer : (t.op p.desk.settings).Result}
    (here : (walkPlace ticket dispatch announced
      (t.react now dispatch announced p.desk.settings p.desk answer).next).any
        TaskStage.dispatches) :
    (TaskStage.walk ticket dispatch announced t).dispatches = true := by
  cases t with
  | read =>
    rcases answer with e | _ | pointer
    · cases here
    · exact here
    · exact dispatches_releaseOn here
  | ensure t =>
    simp only [WalkStage.react] at here
    split at here
    · exact here
    · rename_i found _
      unfold WalkStage.fromPointer at here
      split at here
      · cases here
      · exact dispatches_releaseOn here
  | release pointer x others => exact dispatches_releaseOn here
  | take => rfl

/-- A tick that takes slices has done so from the beginning. -/
theorem Post.Works.dispatches (works : p.Works now store k s prompt e store')
    (here : e.next.any TaskStage.dispatches = true) : s.dispatches = true := by
  cases works with
  | start made =>
    unfold afterSeek at here
    split at here <;> cases here
  | submission made =>
    unfold afterSubmit at here
    split at here <;> cases here
  | guard free => exact (dispatches_turnPlace ..).symm.trans here
  | turn made => exact (dispatches_turnPlace ..).symm.trans here
  | moved => exact (dispatches_turnPlace ..).symm.trans here
  | @stay mover announced => cases mover <;> exact here
  | walk made =>
    rw [next_afterWalk] at here
    exact dispatches_walk here
  | hold free =>
    unfold givingUp at here
    split at here <;> cases here
  | giveUp made live' =>
    unfold givingUp at here
    split at here <;> cases here
  | @sets slice fault answer store' made =>
    rcases answer with e | index
    · cases here
    · simp only [afterSets] at here
      cases ids : index.pending <;> rw [ids] at here <;> cases here
  | @permit slice id others => cases others <;> cases here
  | @job parent slice id t fault answer store' made =>
    simp only [afterJob] at here
    generalize (t.react p.desk.settings.width p.desk slice id answer).2 = next at here
    cases next <;> cases here
  | _ => cases here

theorem isCommand_of_dispatches (takes : s.dispatches = true) : s.isCommand = true := by
  cases s with
  | guard mover | turn mover | turned mover => cases mover <;> first | rfl | cases takes
  | walk => rfl
  | _ => cases takes

/-! ## Steps of a node -/

theorem Post.Dispatches.apply (dispatches : p.Dispatches) (tidy : p.Tidy store.pointer)
    (stage : p.stages k = some s) (works : p.Works now store k s prompt e store') :
    (p.apply k e).Dispatches := by
  intro j t stage' takes
  show e.desk.mode = .running
  rw [works.mode]
  rcases stages_apply stage' with ⟨-, goes⟩ | ⟨-, -, spawned⟩ | ⟨-, before⟩
  · refine dispatches k s stage (works.dispatches ?_)
    rw [goes]
    exact takes
  · have plain := (works.shift (tidy.fits k s stage)).spawned
    rw [spawned] at plain
    cases (isCommand_of_dispatches takes).symm.trans plain.1
  · exact dispatches j t before takes

/-- A task that begins on a node without a command at work takes slices if the node is running. -/
theorem Post.Dispatches.begin (tidy : p.Tidy store.pointer) (idle : p.loop = .idle) {a : Action}
    {inbox : List (Nat × Command)} (begins : p.Begins a ({ p with inbox }.begin e))
    (here : e.next.any TaskStage.dispatches = true → e.desk.mode = .running) :
    ({ p with inbox }.begin e).Dispatches := by
  intro j t stage takes
  rcases begins.stages j t stage with before | ⟨rfl, -⟩
  · -- a tick that is at work keeps the node busy
    cases idle.symm.trans (tidy.busy j t before (isCommand_of_dispatches takes))
  · have new : ({ p with inbox }.begin e).stages p.nextNumber = e.next := Function.update_self ..
    refine here ?_
    rw [new.symm.trans stage]
    exact takes

theorem Post.Dispatches.obey (tidy : p.Tidy store.pointer) (idle : p.loop = .idle)
    {command : Command} (inbox : List (Nat × Command))
    (obeys : { p with inbox }.Obeys ticket command e) :
    ({ p with inbox }.begin e).Dispatches := by
  refine .begin tidy idle (obeys.begins (a := .pass default) inbox) fun takes => ?_
  cases obeys with
  | tick => exact of_decide_eq_true takes
  | _ => cases takes

theorem Post.Dispatches.submit (dispatches : p.Dispatches) (ticket : Nat) (job : Job) :
    (p.begin (p.submitting ticket job)).Dispatches := by
  have same : (p.begin (p.submitting ticket job)).desk.mode = p.desk.mode := by
    show (p.submitting ticket job).desk.mode = _
    unfold submitting
    split <;> rfl
  intro j t stage takes
  rw [same]
  rcases (p.begins_submitting 0 ticket job).stages j t stage with before | ⟨rfl, -⟩
  · exact dispatches j t before takes
  · have new : (p.begin (p.submitting ticket job)).stages p.nextNumber =
        (p.submitting ticket job).next := Function.update_self ..
    have next := new.symm.trans stage
    unfold submitting at next
    split at next
    · cases next
    · obtain rfl := Option.some.inj next
      cases takes

theorem Post.Dispatches.congr (dispatches : p.Dispatches) (stages : q.stages = p.stages)
    (mode : q.desk.mode = p.desk.mode) : q.Dispatches := by
  intro k s stage takes
  rw [mode]
  exact dispatches k s (stages ▸ stage) takes

end Works

namespace Fleet

variable {f f' : Fleet}

theorem Dispatches.bare (c : Cluster) : (bare c).Dispatches := nofun

theorem Dispatches.put {store : MemoryStore} {i : Nat} {q : Post} (dispatches : f.Dispatches)
    (here : q.Dispatches) : ({ f with store }.put i q).Dispatches := by
  intro j r placed
  rcases posts_put placed with ⟨-, rfl⟩ | ⟨-, before⟩
  · exact here
  · exact dispatches j r before

/-- Whatever happens, ticks that take slices are at work on running nodes only. -/
theorem Dispatches.step {a : Action} (dispatches : f.Dispatches) (tidy : f.Tidy)
    (step : f.Step a f') : f'.Dispatches := by
  cases step with
  | pass now => exact dispatches
  | join free =>
    refine dispatches.put fun k s stage takes => ?_
    obtain ⟨-, rfl⟩ := stages_joining stage
    cases takes
  | register registry post => exact dispatches.put ((dispatches _ _ post).congr rfl rfl)
  | submit ticket job post opened => exact dispatches.put ((dispatches _ _ post).submit ticket job)
  | @send i p ticket command post opened =>
    refine dispatches.put ((dispatches i p post).congr ?_ ?_) <;>
    · unfold Post.send
      split <;> rfl
  | leave post opened => exact dispatches.put ((dispatches _ _ post).congr rfl rfl)
  | @receive i p ticket command inbox e post opened idle waits obeys =>
    exact dispatches.put (.obey (tidy.posts i p post) idle inbox obeys)
  | @abandon i p e post opened idle alone obeys =>
    exact dispatches.put (.obey (tidy.posts i p post) idle p.inbox obeys)
  | @tickItself i p e post opened idle obeys =>
    exact dispatches.put (.obey (tidy.posts i p post) idle p.inbox obeys)
  | work post stage works same =>
    exact dispatches.put ((dispatches _ _ post).apply (tidy.posts _ _ post) stage works)

end Fleet

/-! ## Drainings that are set off -/

/-- A task in the role of a draining is set off at its beginning. -/
theorem Post.Works.sets_of_spawned {now : Instant} {store store' : MemoryStore} {p : Post} {k : Nat}
    {s t : TaskStage} {prompt : Prompt} {e : Effect} {x : Slice}
    (works : p.Works now store k s prompt e store') (spawned : e.spawned = some t)
    (role : t.role = .drain x) : t = .sets x := by
  have only {drained : Option Slice} (sets : drained.map TaskStage.sets = some t) :
      t = .sets x := by
    obtain ⟨y, -, rfl⟩ := Option.map_eq_some_iff.mp sets
    exact congrArg TaskStage.sets (Role.drain.inj role)
  cases works with
  | start made =>
    unfold afterSeek at spawned
    split at spawned <;> cases spawned
  | submission made =>
    unfold afterSubmit at spawned
    split at spawned <;> cases spawned
  | turn made => exact only spawned
  | @stay mover announced => cases mover <;> cases spawned
  | walk made =>
    rw [spawned_afterWalk] at spawned
    exact only spawned
  | hold free =>
    unfold givingUp at spawned
    split at spawned <;> cases spawned
  | giveUp made live' =>
    unfold givingUp at spawned
    split at spawned <;> cases spawned
  | sets made =>
    unfold afterSets at spawned
    split at spawned <;> cases spawned
  | permit =>
    obtain rfl := Option.some.inj spawned
    cases role
  | _ => cases spawned

/-- A tick that takes no slices drains the slice at the pointer at most, after it was drained and
jobs were left over in it. -/
theorem Post.Works.redrains {now : Instant} {store store' : MemoryStore} {p : Post} {k : Nat}
    {s : TaskStage} {prompt : Prompt} {e : Effect} {x : Slice}
    (works : p.Works now store k s prompt e store') (tidy : p.Tidy store.pointer)
    (stage : p.stages k = some s) (takesNone : s.dispatches = false)
    (spawned : e.spawned = some (.sets x)) :
    p.desk.progressOf x = some .drained ∧ store.pointer = some x ∧ (store.sets x).pending ≠ [] := by
  have fits := tidy.fits k s stage
  cases (works.shift fits).change with
  | same _ _ plain => cases (congrArg (Option.bind · TaskStage.drains?) spawned).symm.trans plain
  | move _ _ _ _ _ none => cases spawned.symm.trans none
  | forget _ _ _ none => cases spawned.symm.trans none
  | drained _ _ _ none => cases spawned.symm.trans none
  | take takes =>
    obtain ⟨ticket, dispatch, announced, q, current, limit, before, rfl⟩ := takes
    cases takesNone
  | redrain turns _ _ sets =>
    obtain ⟨ticket, dispatch, announced, rfl⟩ := turns
    obtain rfl := TaskStage.sets.inj (Option.some.inj (spawned.symm.trans sets))
    refine ⟨fits.1, fits.2, ?_⟩
    cases works with
    | @turn _ _ _ fault answer _ made =>
      rcases MemoryStore.attempt_cases made with ⟨error, -, rfl, -⟩ | ⟨-, made⟩
      · cases spawned
      · obtain ⟨rfl, -⟩ := Prod.mk.inj made
        intro none
        simp only [afterTurn, TurnStage.react, none] at spawned
        cases spawned

/-- A node that is not running, such as one that is paused, sets off no draining but that of the
slice at the pointer, which it has drained before and in which jobs were left over. -/
theorem Cluster.Run.redrains_unless_running {c₀ c c' : Cluster} {past : List Action} {a : Action}
    {i : Nat} {n n' : Node} {t : Task} {slice : Slice}
    (run : c₀.Run (fun _ c a => a.HasName c) past c) (alone : c₀.nodes = [])
    (acted : c.act? a = some c') (node : c.nodes[i]? = some n) (node' : c'.nodes[i]? = some n')
    (halted : n.desk.mode ≠ .running) (mem : t ∈ n'.tasks) (new : n.nextNumber ≤ t.number)
    (drains : t.role = .drain slice) :
    n.desk.progressOf slice = some .drained ∧ c.store.pointer = some slice ∧
      (c.store.sets slice).pending ≠ [] := by
  obtain ⟨f, shows, fenced, dispatches⟩ := run.invariant
    (P := fun _ f => f.Fenced ∧ f.Dispatches) alone ⟨.bare c₀, .bare c₀⟩
    fun past c f a f' _ shows ⟨fenced, dispatches⟩ name step =>
      ⟨fenced.step (shows.isNew name) step, dispatches.step fenced.tidy step⟩
  obtain ⟨f', step, shows'⟩ := shows.act acted
  obtain ⟨p, post, shown⟩ := shows.post node
  obtain ⟨q, post', shown'⟩ := shows'.post node'
  obtain ⟨s, stage, task⟩ := (shown'.tasks t).mp mem
  have role : s.role = .drain slice := (congrArg Task.role task).symm.trans drains
  rw [shown.nextNumber] at new
  rw [shown.desk] at halted ⊢
  rw [shows.store]
  have tidy := fenced.tidy.posts i p post
  have old (before : p.stages t.number = some s) : False :=
    absurd (tidy.guarded.fresh _ s before) (Nat.not_lt.mpr new)
  rcases step.kinds with ⟨now, -, rfl⟩ | ⟨j, settings, registry, ticket, -, free, rfl⟩ |
    ⟨j, r, r', there, begins, rfl⟩ | ⟨j, r, k, u, prompt, e, store, there, stage', works, -, rfl⟩
  · obtain rfl := Option.some.inj (post.symm.trans post')
    exact (old stage).elim
  all_goals
    rcases Fleet.posts_put post' with ⟨rfl, rfl⟩ | ⟨-, before⟩
    rotate_left
    · obtain rfl := Option.some.inj (post.symm.trans before)
      exact (old stage).elim
  · cases free.symm.trans post
  · obtain rfl := Option.some.inj (there.symm.trans post)
    rcases begins.stages _ s stage with before | ⟨-, -, opens⟩
    · exact (old before).elim
    · cases s with
      | guard mover =>
        cases mover with
        | tick => cases role
        | drain => cases opens
      | submission | rest | hold => cases role
      | _ => cases opens
  · obtain rfl := Option.some.inj (there.symm.trans post)
    rcases stages_apply stage with ⟨same, -⟩ | ⟨-, -, spawned⟩ | ⟨-, before⟩
    · exact absurd (tidy.guarded.fresh k u stage') (Nat.not_lt.mpr (same ▸ new))
    · obtain rfl := works.sets_of_spawned spawned role
      refine works.redrains tidy stage' (Bool.eq_false_iff.mpr fun takes => ?_) spawned
      exact halted (dispatches _ _ post k u stage' takes)
    · exact (old before).elim

/-! ## A job that is started while its node is paused -/

/-- The first call for a job fails, so that the job is left over. The node is paused and ticks once
more, up to the answer that shows it the job. -/
def Action.paused : List Action :=
  Action.errand.dropLast.dropLast ++
    [.answer 0 4 (some .poisoned), .proceed 0 3, .proceed 0 3, .answer 0 3 none, .answer 0 3 none,
      .proceed 0 3, .send 0 3 .pause, .receive 0, .send 0 4 .tick, .receive 0, .proceed 0 6,
      .answer 0 6 none]

/-- A paused node drains a slice once more and starts the job that was left over in it. -/
theorem Cluster.Run.redrains_unless_running_paused : ∃ past c c' n n' t later c'' n'',
    (Cluster.start .newYear2024).Run (fun _ c a => a.HasName c) past c ∧
      c.act? (.answer 0 6 none) = some c' ∧ c.nodes[0]? = some n ∧ c'.nodes[0]? = some n' ∧
      n.desk.mode = .paused ∧ t ∈ n'.tasks ∧ n.nextNumber ≤ t.number ∧
      t.role = .drain ⟨.newYear2024⟩ ∧ n.desk.progressOf ⟨.newYear2024⟩ = some .drained ∧
      c.store.pointer = some ⟨.newYear2024⟩ ∧ (c.store.sets ⟨.newYear2024⟩).pending ≠ [] ∧
      c'.Run (fun _ c a => a.HasName c) later c'' ∧ c''.nodes[0]? = some n'' ∧
      n''.desk.mode = .paused ∧ n'.desk.starts Job.errand.id ⟨.newYear2024⟩ = 0 ∧
      n''.desk.starts Job.errand.id ⟨.newYear2024⟩ = 1 := by
  have played : ((Cluster.start .newYear2024).play? (fun _ c a => a.HasName c) []
      Action.paused).bind (fun r => (r.2.act? (.answer 0 6 none)).bind fun c' =>
        (c'.play? (fun _ c a => a.HasName c) []
          [.answer 0 7 none, .proceed 0 7, .answer 0 8 none, .answer 0 8 none]).bind fun r' =>
          r.2.nodes[0]?.bind fun n => c'.nodes[0]?.bind fun n' => r'.2.nodes[0]?.map fun n'' =>
            (n.desk.mode, n.nextNumber, n'.tasks.map fun t => (t.number, t.role),
              n''.desk.mode, n'.desk.starts Job.errand.id ⟨.newYear2024⟩,
              n''.desk.starts Job.errand.id ⟨.newYear2024⟩)) =
      some (.paused, 7, [(7, .drain ⟨.newYear2024⟩), (6, .command (some 4) .tick)],
        .paused, 0, 1) := rfl
  obtain ⟨⟨past, c⟩, ends, shown⟩ := Option.bind_eq_some_iff.mp played
  obtain ⟨c', acted, shown⟩ := Option.bind_eq_some_iff.mp shown
  obtain ⟨⟨later, c''⟩, ends', shown⟩ := Option.bind_eq_some_iff.mp shown
  obtain ⟨n, node, shown⟩ := Option.bind_eq_some_iff.mp shown
  obtain ⟨n', node', shown⟩ := Option.bind_eq_some_iff.mp shown
  obtain ⟨n'', node'', facts⟩ := Option.map_eq_some_iff.mp shown
  simp only [Prod.mk.injEq] at facts
  obtain ⟨halted, number, tasks, halted', before, after⟩ := facts
  have there : (7, Role.drain ⟨.newYear2024⟩) ∈ n'.tasks.map fun t => (t.number, t.role) := by
    rw [tasks]
    exact List.mem_cons_self
  obtain ⟨t, mem, same⟩ := List.mem_map.mp there
  obtain ⟨seven, drains⟩ := Prod.mk.inj same
  have run := Cluster.Run.of_play _ .nil ends
  have new : n.nextNumber ≤ t.number := by rw [number, seven]
  have notRunning : n.desk.mode ≠ .running := by
    rw [halted]
    nofun
  obtain ⟨drained, pointer, left⟩ :=
    run.redrains_unless_running rfl acted node node' notRunning mem new drains
  exact ⟨past, c, c', n, n', t, later, c'', n'', run, acted, node, node', halted, mem, new, drains,
    drained, pointer, left, Cluster.Run.of_play _ .nil ends', node'', halted', before, after⟩

end SliceScheduler
