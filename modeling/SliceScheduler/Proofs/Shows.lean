import SliceScheduler.Proofs.Fleet
import SliceScheduler.Proofs.Settle
/-!
# Clusters step as their fleets do

1. `Node.Shows` holds when every task of a node is at the stage that a post has for it, and
   `Cluster.Shows` when every node of a cluster shows the post of its place;
2. `Node.resume` is what a node does with a program once its local work is done, and
   `Node.Shows.resume_ask` and `Node.Shows.resume_done` say what the node shows after it;
3. `Cluster.Shows.act` says that whatever happens to a cluster happens to the fleet that it shows, and
   `Cluster.Run.invariant` takes what every step of a fleet keeps along a run of clusters.
-/
namespace SliceScheduler

open Program (ofSum)

/-- The tasks of the node are at the stages that the post has for them. -/
structure Node.Shows (n : Node) (p : Post) : Prop where
  desk : n.desk = p.desk
  nextNumber : n.nextNumber = p.nextNumber
  advancing : n.advancing = p.advancing
  loop : n.loop = p.loop
  listening : n.listening = p.listening
  inbox : n.inbox = p.inbox
  outbox : n.outbox = p.outbox
  tasks : ∀ t, t ∈ n.tasks ↔
    ∃ s, p.stages t.number = some s ∧ t = s.task p.desk.settings t.number
  fresh : ∀ number s, p.stages number = some s → number < p.nextNumber

/-- The nodes of the cluster show the posts of their places. -/
structure Cluster.Shows (c : Cluster) (f : Fleet) : Prop where
  store : c.store = f.store
  now : c.now = f.now
  nodes : ∀ i, Option.Rel Node.Shows c.nodes[i]? (f.posts i)

namespace Post

/-- The post after the local work of an effect, before its task comes to its next stage. -/
def halfway (p : Post) (e : Effect) : Post :=
  { p with desk := e.desk, advancing := e.advancing }.spawn e.spawned

/-- The task of a number comes to a stage or to its end. -/
def turnTo (p : Post) (number : Nat) (s : Option TaskStage) : Post :=
  { p with stages := Function.update p.stages number s }

/-- The task of a role has come to a result. -/
def conclude (p : Post) : (role : Role) → role.Result → Post
  | .drain _, _ => p
  | .job _, _ => p
  | .request ticket, reply => { p with outbox := p.outbox ++ [(ticket, reply)] }
  | .command ticket .shutdown, reply =>
    { p with
      loop := .ended
      inbox := []
      outbox := p.outbox ++ (ticket.toList.map (·, reply) ++
        p.inbox.map fun (ticket, command) => (ticket, Node.dropped command)) }
  | .command ticket _, reply =>
    { p with loop := .idle, outbox := p.outbox ++ ticket.toList.map (·, reply) }

theorem apply_eq (p : Post) (number : Nat) (e : Effect) :
    p.apply number e =
      { (p.halfway e).turnTo number e.next with
        loop := e.loop, inbox := e.inbox, outbox := p.outbox ++ e.replies } := by
  obtain ⟨desk, next, spawned, advancing, loop, inbox, replies⟩ := e
  cases spawned <;> rfl

theorem apply_silent (p : Post) (number : Nat) {e : Effect} (loop : e.loop = p.loop)
    (inbox : e.inbox = p.inbox) (silent : e.replies = []) :
    p.apply number e = (p.halfway e).turnTo number e.next := by
  rw [apply_eq, loop, inbox, silent, List.append_nil]
  obtain ⟨desk, next, spawned, advancing, loop, inbox, replies⟩ := e
  cases spawned <;> rfl

end Post

namespace Node

/-- What the node does with a task once its local work is done. -/
def resume (t : Task) : Node × Program t.role.Result → Node
  | (n, .done result) => (n.remove t).conclude t.role result
  | (n, .ask r next) => n.requeue t (.run (.ask r next))

theorem goOn_run (n : Node) (now : Instant) (t : Task) (p : Program t.role.Result) :
    n.goOn now t (.run p) = resume t (n.settle now t.number p) := by
  simp only [goOn]
  generalize n.settle now t.number p = settled
  rcases settled with ⟨n', _ | _⟩ <;> rfl

namespace Shows

variable {n : Node} {p : Post}

theorem isOpen (shows : n.Shows p) (opened : n.isOpen = true) : p.isOpen := by
  simp only [Node.isOpen, isAtWork, Bool.and_eq_true, decide_eq_true_eq, Bool.not_eq_true',
    List.any_eq_false, beq_iff_eq] at opened
  obtain ⟨begun, spent⟩ := opened
  refine ⟨shows.nextNumber ▸ begun, ?_⟩
  cases stage : p.stages 0 with
  | none => rfl
  | some s =>
    have present : s.task p.desk.settings 0 ∈ n.tasks := (shows.tasks _).mpr ⟨s, stage, rfl⟩
    exact absurd rfl (spent _ present)

theorem isOpen_node (shows : n.Shows p) (opened : p.isOpen) : n.isOpen = true := by
  obtain ⟨begun, none⟩ := opened
  simp only [Node.isOpen, isAtWork, Bool.and_eq_true, decide_eq_true_eq, Bool.not_eq_true',
    List.any_eq_false, beq_iff_eq, shows.nextNumber]
  refine ⟨begun, fun t present zero => ?_⟩
  obtain ⟨s, stage, -⟩ := (shows.tasks t).mp present
  rw [zero, none] at stage
  cases stage

theorem withDesk (shows : n.Shows p) (desk : Desk) (same : desk.settings = p.desk.settings) :
    { n with desk }.Shows { p with desk } :=
  { shows with
    desk := rfl
    tasks := fun t => by simpa only [same] using shows.tasks t }

theorem withAdvancing (shows : n.Shows p) (advancing : Bool) :
    { n with advancing }.Shows { p with advancing } :=
  { shows with advancing := rfl, tasks := shows.tasks, fresh := shows.fresh }

theorem spawn (shows : n.Shows p) (role : Role) (program : Program role.Result) {s : TaskStage}
    (task : (⟨p.nextNumber, role, .run program⟩ : Task) =
      s.task p.desk.settings p.nextNumber) :
    (n.spawn role program).Shows (p.spawn (some s)) where
  desk := shows.desk
  nextNumber := congrArg (· + 1) shows.nextNumber
  advancing := shows.advancing
  loop := shows.loop
  listening := shows.listening
  inbox := shows.inbox
  outbox := shows.outbox
  tasks t := by
    show t ∈ n.tasks ++ [⟨n.nextNumber, role, .run program⟩] ↔ _
    rw [List.mem_append, List.mem_singleton, shows.tasks, shows.nextNumber, task]
    simp only [Post.spawn]
    by_cases new : t.number = p.nextNumber
    · have absent : p.stages p.nextNumber = none := by
        cases stage : p.stages p.nextNumber with
        | none => rfl
        | some s => exact absurd (shows.fresh _ s stage) (Nat.lt_irrefl _)
      simp [new, absent]
    · have other : t ≠ s.task p.desk.settings p.nextNumber := by
        rintro rfl
        exact new rfl
      simp [Function.update_of_ne new, other]
  fresh number s' stage := by
    simp only [Post.spawn] at stage ⊢
    by_cases new : number = p.nextNumber
    · omega
    · rw [Function.update_of_ne new] at stage
      exact Nat.lt_succ_of_lt (shows.fresh number s' stage)

theorem startDrain (shows : n.Shows p) (slice : Slice) :
    (n.startDrain slice).Shows (p.spawn (some (.sets slice))) := by
  have spawned := shows.spawn (.drain slice) (Program.drain slice) (s := .sets slice) rfl
  exact { spawned with tasks := spawned.tasks, fresh := spawned.fresh }

theorem work (shows : n.Shows p) (desk : Desk) (same : desk.settings = p.desk.settings)
    (drained : Option Slice) :
    (n.work desk drained).Shows ({ p with desk }.spawn (drained.map .sets)) := by
  cases drained with
  | none => exact shows.withDesk desk same
  | some slice => exact (shows.withDesk desk same).startDrain slice

theorem remove (shows : n.Shows p) (t : Task) :
    (n.remove t).Shows (p.turnTo t.number none) :=
  { shows with
    tasks := fun u => by
      simp only [Node.remove, Post.turnTo, List.mem_filter, bne_iff_ne, ne_eq]
      by_cases same : u.number = t.number
      · simp [same]
      · simp [same, shows.tasks u]
    fresh := fun number s stage => by
      simp only [Post.turnTo] at stage
      by_cases same : number = t.number
      · subst same
        rw [Function.update_self] at stage
        cases stage
      · rw [Function.update_of_ne same] at stage
        exact shows.fresh number s stage }

theorem requeue (shows : n.Shows p) {t : Task} {code : Code t.role.Result} {s : TaskStage}
    (begun : t.number < p.nextNumber)
    (task : ({ t with code } : Task) = s.task p.desk.settings t.number) :
    (n.requeue t code).Shows (p.turnTo t.number (some s)) :=
  { shows with
    tasks := fun u => by
      simp only [Node.requeue, Node.remove, Post.turnTo, List.mem_append, List.mem_filter,
        bne_iff_ne, ne_eq, List.mem_singleton, task]
      by_cases same : u.number = t.number
      · simp [same]
      · have other : u ≠ s.task p.desk.settings t.number := by
          rintro rfl
          exact same rfl
        simp [same, other, shows.tasks u]
    fresh := fun number s' stage => by
      simp only [Post.turnTo] at stage
      by_cases same : number = t.number
      · exact same ▸ begun
      · rw [Function.update_of_ne same] at stage
        exact shows.fresh number s' stage }

theorem deliver (shows : n.Shows p) (ticket : Nat) (reply : Reply) :
    (n.deliver ticket reply).Shows { p with outbox := p.outbox ++ [(ticket, reply)] } :=
  { shows with
    outbox := congrArg (· ++ [(ticket, reply)]) shows.outbox
    tasks := shows.tasks
    fresh := shows.fresh }

theorem deliverAll (shows : n.Shows p) (commands : List (Nat × Command)) :
    (commands.foldl (fun n (ticket, command) => n.deliver ticket (dropped command)) n).Shows
      { p with outbox := p.outbox ++
          commands.map fun (ticket, command) => (ticket, dropped command) } := by
  induction commands generalizing n p with
  | nil => simpa using shows
  | cons first others ih =>
    have rest := ih (shows.deliver first.1 (dropped first.2))
    simpa using rest

theorem endLoop (shows : n.Shows p) :
    n.endLoop.Shows
      { p with
        loop := .ended
        inbox := []
        outbox := p.outbox ++
          p.inbox.map fun (ticket, command) => (ticket, dropped command) } := by
  have ended : { n with loop := .ended, inbox := [] }.Shows { p with loop := .ended, inbox := [] } :=
    { shows with loop := rfl, inbox := rfl, tasks := shows.tasks, fresh := shows.fresh }
  have all := ended.deliverAll n.inbox
  rw [shows.inbox] at all
  rw [Node.endLoop, shows.inbox]
  exact all

theorem idle (shows : n.Shows p) : { n with loop := .idle }.Shows { p with loop := .idle } :=
  { shows with loop := rfl, tasks := shows.tasks, fresh := shows.fresh }

theorem conclude (shows : n.Shows p) (role : Role) (result : role.Result) :
    (n.conclude role result).Shows (p.conclude role result) := by
  cases role with
  | drain slice => exact shows
  | job parent =>
    exact { shows with tasks := shows.tasks, fresh := shows.fresh }
  | request ticket => exact shows.deliver ticket result
  | command ticket command =>
    cases ticket with
    | none =>
      have kept : n.Shows { p with outbox := p.outbox ++ [] } := by simpa using shows
      cases command with
      | shutdown =>
        have ended := kept.endLoop
        simp only [List.append_nil] at ended
        exact ended
      | _ => exact kept.idle
    | some ticket =>
      have delivered := shows.deliver ticket result
      cases command with
      | shutdown =>
        have ended := delivered.endLoop
        simp only [List.append_assoc] at ended
        exact ended
      | _ => exact delivered.idle

/-- A task that waits behind the others after its local work is at its next stage. -/
theorem requeue_apply {e : Effect} {s : TaskStage} {t : Task} {code : Code t.role.Result}
    (half : n.Shows (p.halfway e)) (begun : t.number < p.nextNumber) (next : e.next = some s)
    (loop : e.loop = p.loop) (inbox : e.inbox = p.inbox) (silent : e.replies = [])
    (task : ({ t with code } : Task) = s.task e.desk.settings t.number) :
    (n.requeue t code).Shows (p.apply t.number e) := by
  have later : t.number < (p.halfway e).nextNumber := by
    obtain ⟨desk, next, spawned, advancing, loop, inbox, replies⟩ := e
    cases spawned
    · exact begun
    · exact Nat.lt_succ_of_lt begun
  have desk : (p.halfway e).desk = e.desk := by
    obtain ⟨desk, next, spawned, advancing, loop, inbox, replies⟩ := e
    cases spawned <;> rfl
  have requeued := half.requeue later (by rw [desk]; exact task)
  rw [p.apply_silent t.number loop inbox silent, next]
  exact requeued

/-- A task whose local work ends at a call or a wait is at its next stage. -/
theorem resume_ask {e : Effect} {s : TaskStage} {t : Task} {program : Program t.role.Result}
    (half : n.Shows (p.halfway e)) (begun : t.number < p.nextNumber) (next : e.next = some s)
    (loop : e.loop = p.loop) (inbox : e.inbox = p.inbox) (silent : e.replies = [])
    (asks : ∃ r rest, program = .ask r rest)
    (task : (⟨t.number, t.role, .run program⟩ : Task) = s.task e.desk.settings t.number) :
    (resume t (n, program)).Shows (p.apply t.number e) := by
  obtain ⟨r, rest, rfl⟩ := asks
  exact half.requeue_apply begun next loop inbox silent task

/-- A task whose local work comes to a result is over. -/
theorem resume_done {e : Effect} {t : Task} {result : t.role.Result}
    (half : n.Shows (p.halfway e))
    (concluded : ((p.halfway e).turnTo t.number none).conclude t.role result =
      p.apply t.number e) :
    (resume t (n, .done result)).Shows (p.apply t.number e) := by
  rw [← concluded]
  exact (half.remove t).conclude t.role result

end Shows

end Node

/-! ## Calls to the store -/

namespace Cluster

theorem modifyNode_eq {c : Cluster} {i : Nat} {n : Node} (node : c.nodes[i]? = some n)
    (f : Node → Node) : c.modifyNode i f = c.putNode i (f n) := by
  obtain ⟨inside, rfl⟩ := List.getElem?_eq_some_iff.mp node
  unfold putNode modifyNode
  congr 1
  apply List.ext_getElem?
  intro j
  rw [List.getElem?_modify, List.getElem?_modify]
  split
  · rename_i same
    subst same
    rw [node]
    rfl
  · rfl

theorem perform_eq (c : Cluster) (fault : Option StoreError) (op : Operation) :
    c.perform fault op =
      ((c.store.attempt c.now fault op).1,
        { c with store := (c.store.attempt c.now fault op).2 }) := by
  cases fault <;> rfl

/-- The answer to a call of a program, and the local work after it. -/
theorem answerCall?_run {c c' : Cluster} {i : Nat} {n : Node} {t : Task}
    {fault : Option StoreError} {program : Program t.role.Result} {op : Operation}
    {after : Node → op.Result → Node × Program t.role.Result} {set : NodeSettings}
    (node : c.nodes[i]? = some n) (settings : n.desk.settings = set)
    (code : t.code = .run program) (calls : program.Calls set c.now t.number op after)
    (answered : c.answerCall? i t fault = some c') :
    ∃ answer store, c.store.attempt c.now fault op = (answer, store) ∧
      c' = { c with store }.putNode i (Node.resume t (after n answer)) := by
  obtain ⟨next, rfl, settles⟩ := calls
  refine ⟨(c.store.attempt c.now fault op).1, (c.store.attempt c.now fault op).2, rfl, ?_⟩
  rw [answerCall?, code] at answered
  simp only [Code.call?, perform_eq, Option.some.injEq] at answered
  rw [← answered, ← settles n _ settings, ← Node.goOn_run]
  exact modifyNode_eq (c := { c with store := (c.store.attempt c.now fault op).2 }) node _

/-- The answer to a call of a turn of moving the pointer, and the local work after it. -/
theorem answerCall?_advance {c c' : Cluster} {i : Nat} {n : Node} {t : Task}
    {fault : Option StoreError} {fromTick : Bool} {announced : List Slice}
    {turn : Program Program.Turn} {rest : List Slice → Program t.role.Result} {op : Operation}
    {after : Node → op.Result → Node × Program Program.Turn} {set : NodeSettings}
    (node : c.nodes[i]? = some n) (settings : n.desk.settings = set)
    (code : t.code = .advance fromTick announced turn rest)
    (calls : turn.Calls set c.now t.number op after)
    (answered : c.answerCall? i t fault = some c') :
    ∃ answer store, c.store.attempt c.now fault op = (answer, store) ∧
      c' = { c with store }.putNode i ((after n answer).1.requeue t
        (.advance fromTick announced (after n answer).2 rest)) := by
  obtain ⟨next, rfl, settles⟩ := calls
  refine ⟨(c.store.attempt c.now fault op).1, (c.store.attempt c.now fault op).2, rfl, ?_⟩
  rw [answerCall?, code] at answered
  simp only [Code.call?, perform_eq, Option.some.injEq] at answered
  rw [← answered, ← settles n _ settings]
  exact modifyNode_eq (c := { c with store := (c.store.attempt c.now fault op).2 }) node _

end Cluster

namespace Node.Shows

variable {n : Node} {p : Post} {c c' : Cluster} {i k : Nat} {fault : Option StoreError}

theorem settleOn_ask {α β : Type} {now : Instant} {number : Nat} {g : α → Program β} {n : Node}
    {p : Program α} (asks : ∃ r next, p = .ask r next) :
    settleOn now number g (n, p) = (n, p.andThen g) := by
  obtain ⟨r, next, rfl⟩ := asks
  rfl

/-- The step of a task when the store answers its call. -/
theorem answers (shows : n.Shows p) (node : c.nodes[i]? = some n) {s : TaskStage}
    (stage : p.stages k = some s)
    (answered : c.answerCall? i (s.task p.desk.settings k) fault = some c') :
    ∃ e store n', p.Works c.now c.store k s (.answer fault) e store ∧
      c' = { c with store }.putNode i n' ∧ n'.Shows (p.apply k e) := by
  have begun := shows.fresh k s stage
  have settings := congrArg Desk.settings shows.desk
  -- a kind of task at a time: its call is made, its stage reacts, and its code goes on to the next
  -- call (`resume_ask`) or comes to its end (`resume_done`)
  cases s with
  | start ticket s =>
    have calls := (s.calls p.desk.settings c.now k).andThen fun _ => Program.done Reply.done
    obtain ⟨answer, store, attempt, rfl⟩ :=
      Cluster.answerCall?_run node settings rfl calls answered
    refine ⟨_, _, _, .start attempt, rfl, ?_⟩
    simp only [Desk.width]
    cases s.react c.now p.desk.settings.width answer with
    | inl s' =>
      have calls' := s'.calls p.desk.settings c.now k
      simp only [ofSum, settleOn_ask calls'.asks]
      exact resume_ask shows begun rfl rfl rfl rfl (calls'.andThen _).asks rfl
    | inr found => exact resume_done shows rfl
  | submission ticket job s =>
    have calls := (s.calls p.desk.settings c.now k job (job.slice p.desk.settings.width)).andThen
      fun r => Program.done (Reply.submitted r)
    obtain ⟨answer, store, attempt, rfl⟩ :=
      Cluster.answerCall?_run node settings rfl calls answered
    refine ⟨_, _, _, .submission attempt, rfl, ?_⟩
    simp only [Desk.width]
    cases s.react c.now p.desk.settings.width job (job.slice p.desk.settings.width) answer with
    | inl s' =>
      have calls' := s'.calls p.desk.settings c.now k job (job.slice p.desk.settings.width)
      simp only [ofSum, settleOn_ask calls'.asks]
      exact resume_ask shows begun rfl rfl rfl rfl (calls'.andThen _).asks rfl
    | inr found => exact resume_done shows rfl
  | turn mover announced s =>
    have calls := s.calls p.desk.settings c.now k mover.fromTick
    obtain ⟨answer, store, attempt, rfl⟩ :=
      Cluster.answerCall?_advance node settings rfl calls answered
    refine ⟨_, _, _, .turn attempt, rfl, ?_⟩
    rw [shows.desk]
    have same := TurnStage.settings_react mover.fromTick p.desk.settings p.desk s answer
    have half := shows.work _ same (s.react mover.fromTick p.desk.settings p.desk answer).drained
    refine requeue_apply half begun rfl rfl rfl rfl ?_
    simp only [Post.afterTurn, same]
    cases (s.react mover.fromTick p.desk.settings p.desk answer).next <;> rfl
  | walk ticket dispatch announced s =>
    have calls := (s.calls p.desk.settings c.now k dispatch announced).andThen
      fun r => Program.done (Reply.ticked r)
    obtain ⟨answer, store, attempt, rfl⟩ :=
      Cluster.answerCall?_run node settings rfl calls answered
    refine ⟨_, _, _, .walk attempt, rfl, ?_⟩
    rw [shows.desk]
    have same :=
      WalkStage.settings_react c.now dispatch announced p.desk.settings p.desk s answer
    generalize s.react c.now dispatch announced p.desk.settings p.desk answer = r at same ⊢
    obtain ⟨desk, drained, next⟩ := r
    have half := shows.work desk same drained
    cases next with
    | inl s' =>
      have calls' := s'.calls p.desk.settings c.now k dispatch announced
      simp only [ofSum, settleOn_ask calls'.asks]
      refine resume_ask half begun rfl rfl rfl rfl (calls'.andThen _).asks ?_
      simp only [Post.afterWalk]
      rw [show desk.settings = p.desk.settings from same]
      rfl
    | inr found =>
      refine resume_done half ?_
      cases drained <;> rfl
  | giveUp ticket lock others live =>
    obtain ⟨count, calls⟩ :=
      TaskStage.calls_givingUp p.desk.settings c.now k live lock others
    obtain ⟨answer, store, attempt, rfl⟩ :=
      Cluster.answerCall?_run node settings rfl calls answered
    refine ⟨_, _, _, .giveUp attempt (count answer), rfl, ?_⟩
    cases others with
    | nil => exact resume_done (shows.withAdvancing false) rfl
    | cons next others =>
      rw [TaskStage.settle_givingUp_cons]
      obtain ⟨count', calls'⟩ :=
        TaskStage.calls_givingUp p.desk.settings c.now k (count answer) next others
      exact resume_ask shows begun rfl rfl rfl rfl calls'.asks rfl
  | sets slice =>
    obtain ⟨answer, store, attempt, rfl⟩ := Cluster.answerCall?_run node settings rfl
      (Program.calls_drain p.desk.settings c.now k slice) answered
    refine ⟨_, _, _, .sets attempt, rfl, ?_⟩
    rw [shows.desk]
    rcases answer with e | index
    · exact resume_ask (shows.withDesk _ rfl) begun rfl rfl rfl rfl ⟨_, _, rfl⟩ rfl
    · refine resume_ask shows begun rfl rfl rfl rfl (Program.setOff_asks slice _) ?_
      cases index.pending <;> rfl
  | job parent slice id s =>
    have calls := s.calls p.desk.settings c.now k slice id
    obtain ⟨answer, store, attempt, rfl⟩ :=
      Cluster.answerCall?_run node settings rfl calls answered
    refine ⟨_, _, _, .job attempt, rfl, ?_⟩
    rw [shows.desk]
    generalize s.react p.desk.settings.width p.desk slice id answer = r
    obtain ⟨events, next⟩ := r
    have half := shows.withDesk (p.desk.announceAll events) (p.desk.settings_announceAll events)
    cases next with
    | call s' =>
      have calls' := s'.calls p.desk.settings c.now k slice id
      refine resume_ask half begun rfl rfl rfl rfl calls'.asks ?_
      simp only [Post.afterJob, Desk.settings_announceAll]
      rfl
    | execute job registration =>
      exact resume_ask half begun rfl rfl rfl rfl ⟨_, _, rfl⟩ rfl
    | spent => exact resume_done half (p.apply_silent k rfl rfl rfl).symm
  | guard mover => cases mover <;> cases answered
  | turned mover announced t => cases answered
  | rest ticket looks => cases answered
  | hold ticket => cases answered
  | permit slice id others => cases answered
  | jobs slice => cases answered
  | running parent slice id job registration => cases answered

/-! ## Waits -/

theorem call?_run {α : Type} {set : NodeSettings} {now : Instant} {number : Nat}
    {program : Program α} {op : Operation} {after : Node → op.Result → Node × Program α}
    (calls : program.Calls set now number op after) :
    (Code.run program).call?.map Sigma.fst = some op := by
  obtain ⟨next, rfl, -⟩ := calls
  rfl

/-- The call that a task waits for is that of its stage. -/
theorem call?_code (set : NodeSettings) (s : TaskStage) :
    (s.code set).call?.map Sigma.fst = s.op? set := by
  -- which answer the call gets does not matter here, nor when
  have now : Instant := default
  cases s with
  | start ticket s => exact call?_run ((s.calls set now 0).andThen fun _ => Program.done Reply.done)
  | submission ticket job s =>
    exact call?_run ((s.calls set now 0 job (job.slice set.width)).andThen
      fun r => Program.done (Reply.submitted r))
  | turn mover announced s =>
    obtain ⟨next, shape, -⟩ := s.calls set now 0 mover.fromTick
    simp only [TaskStage.code, shape, Code.call?, Option.map_some, TaskStage.op?]
  | walk ticket dispatch announced s =>
    exact call?_run ((s.calls set now 0 dispatch announced).andThen
      fun r => Program.done (Reply.ticked r))
  | giveUp ticket lock others live =>
    obtain ⟨count, calls⟩ := TaskStage.calls_givingUp set now 0 live lock others
    exact call?_run calls
  | sets slice => rfl
  | job parent slice id s => exact call?_run (s.calls set now 0 slice id)
  | guard mover => cases mover <;> rfl
  | _ => rfl

/-- A task makes the call of its stage. -/
theorem op_of_call {set : NodeSettings} {s : TaskStage} {number : Nat} {t : Task} {op : Operation}
    {next : op.Result → Code t.role.Result} (task : t = s.task set number)
    (waits : t.code.call? = some ⟨op, next⟩) : s.op? set = some op := by
  subst task
  rw [← call?_code]
  exact congrArg (Option.map Sigma.fst) waits

theorem op?_isSome (set : NodeSettings) {s : TaskStage} (calls : s.isCall = true) :
    (s.op? set).isSome = true := by
  cases s <;> first | rfl | cases calls

/-- A task that waits for the store makes a call. -/
theorem call?_isSome (set : NodeSettings) {s : TaskStage} (calls : s.isCall = true) :
    (s.code set).call?.isSome = true := by
  rw [← Option.isSome_map (f := Sigma.fst), call?_code]
  exact op?_isSome set calls

/-- A task that waits for the store waits for nothing else. -/
theorem waits_of_call {α : Type} {code : Code α} (calls : code.call?.isSome = true) :
    code.execution? = none ∧ code.pause? = none := by
  cases code with
  | advance fromTick announced turn rest => exact ⟨rfl, rfl⟩
  | run program =>
    cases program with
    | done a => cases calls
    | ask r next => cases r <;> first | exact ⟨rfl, rfl⟩ | cases calls

theorem proceed?_of_call {t : Task} {now : Instant} (calls : t.code.call?.isSome = true) :
    n.proceed? now t = none := by
  obtain ⟨number, role, code⟩ := t
  cases code with
  | advance fromTick announced turn rest =>
    cases turn with
    | done a => cases calls
    | ask r next => rfl
  | run program =>
    cases program with
    | done a => cases calls
    | ask r next => cases r <;> first | rfl | cases calls

/-- The local work of a task, and what the node shows after it. -/
theorem goOn_resume {m : Node} {t : Task} {program program' : Program t.role.Result}
    {now : Instant} (settles : n.settle now t.number program = (m, program'))
    (resumed : (resume t (m, program')).Shows p) :
    (n.goOn now t (.run program)).Shows p := by
  rw [goOn_run, settles]
  exact resumed

/-- Turns of moving the pointer go on to the first call of the next turn. -/
theorem goOn_turn (shows : n.Shows p) (now : Instant) {mover : Mover} {announced : List Slice}
    {code : Code mover.role.Result} (begun : k < p.nextNumber) :
    (n.goOn now ⟨k, mover.role, code⟩
        (.advance mover.fromTick announced (Program.advanceTurn mover.fromTick) mover.rest)).Shows
      (p.apply k (p.onto (some (Post.turnPlace mover announced (TurnStage.first p.desk))))) := by
  simp only [goOn, TurnStage.settle_first p.desk.settings]
  rw [shows.desk]
  refine requeue_apply shows begun rfl rfl rfl rfl ?_
  cases TurnStage.first p.desk <;> rfl

/-- The step of a task that waits for something on its node. -/
theorem proceeds (shows : n.Shows p) (now : Instant) (store : MemoryStore) {n' : Node}
    {s : TaskStage} (stage : p.stages k = some s)
    (proceeded : n.proceed? now (s.task p.desk.settings k) = some n') :
    ∃ e, p.Works now store k s .proceed e store ∧ n'.Shows (p.apply k e) := by
  have begun := shows.fresh k s stage
  have silent (calls : s.isCall = true) : n.proceed? now (s.task p.desk.settings k) = none :=
    proceed?_of_call (call?_isSome p.desk.settings calls)
  -- only a task that waits for something on its node can go on by itself
  cases s with
  | guard mover =>
    have free : p.advancing = false ∧ n' = { n with advancing := true }.goOn now
        ((TaskStage.guard mover).task p.desk.settings k)
        (.advance mover.fromTick [] (Program.advanceTurn mover.fromTick) mover.rest) := by
      rw [← shows.advancing]
      cases mover <;> cases advancing : n.advancing <;>
        simp_all [proceed?, TaskStage.task, TaskStage.code, Mover.fromTick]
    obtain ⟨free, rfl⟩ := free
    exact ⟨_, .guard free, (shows.withAdvancing true).goOn_turn now begun⟩
  | turned mover announced t =>
    cases t with
    | moved slice =>
      simp only [proceed?, TaskStage.task, TaskStage.code, Option.some.injEq] at proceeded
      subst proceeded
      exact ⟨_, .moved, shows.goOn_turn now begun⟩
    | stay =>
      simp only [proceed?, TaskStage.task, TaskStage.code, Option.some.injEq] at proceeded
      subst proceeded
      refine ⟨_, .stay, ?_⟩
      cases mover with
      | tick ticket dispatch =>
        exact goOn_resume rfl
          (resume_ask (shows.withAdvancing false) begun rfl rfl rfl rfl ⟨_, _, rfl⟩ rfl)
      | drain slice =>
        exact goOn_resume rfl
          (resume_done (shows.withAdvancing false) (p.apply_silent k rfl rfl rfl).symm)
  | rest ticket looks => cases proceeded
  | hold ticket =>
    have free : p.advancing = false ∧ n' = { n with advancing := true }.goOn now
        ((TaskStage.hold ticket).task p.desk.settings k) (.run (TaskStage.lettingGo)) := by
      rw [← shows.advancing]
      change (if n.advancing = true then none else some _) = some n' at proceeded
      cases advancing : n.advancing
      · rw [advancing, if_neg Bool.false_ne_true] at proceeded
        exact ⟨rfl, (Option.some.inj proceeded).symm⟩
      · rw [advancing, if_pos rfl] at proceeded
        cases proceeded
    obtain ⟨free, rfl⟩ := free
    have busy := shows.withAdvancing true
    have half : { n with desk := { n.desk with held := .empty }, advancing := true }.Shows
        { p with desk := { p.desk with held := .empty }, advancing := true } := by
      rw [shows.desk]
      exact busy.withDesk { p.desk with held := .empty } rfl
    refine ⟨_, .hold free, ?_⟩
    cases held : p.desk.held.held with
    | nil =>
      exact goOn_resume (TaskStage.settle_lettingGo_nil now k _ (shows.desk ▸ held))
        (resume_done (half.withAdvancing false) rfl)
    | cons lock others =>
      obtain ⟨count, calls⟩ := TaskStage.calls_givingUp p.desk.settings now k 0 lock others
      exact goOn_resume (TaskStage.settle_lettingGo_cons now k _ (shows.desk ▸ held))
        (resume_ask half begun rfl rfl rfl rfl calls.asks rfl)
  | permit slice id others =>
    change (if n.permits = 0 then none else some _) = some n' at proceeded
    split at proceeded
    · cases proceeded
    · obtain rfl := Option.some.inj proceeded
      have spawned := shows.spawn (.job k) (Program.runJob slice id)
        (s := .job k slice id .load) rfl
      have half : { n.spawn (.job k) (Program.runJob slice id) with
          permits := n.permits - 1 }.Shows (p.spawn (some (.job k slice id .load))) :=
        { spawned with tasks := spawned.tasks, fresh := spawned.fresh }
      refine ⟨_, .permit, goOn_resume (Program.settle_setOff now k slice others _)
        (resume_ask half begun rfl rfl rfl rfl (Program.setOff_asks slice others) ?_)⟩
      cases others <;> rfl
  | jobs slice =>
    change (if n.tasks.any (·.role == .job k) then none else some _) = some n' at proceeded
    split at proceeded
    · cases proceeded
    · rename_i none
      obtain rfl := Option.some.inj proceeded
      have spent : ∀ j s, p.stages j = some s → s.role ≠ .job k := by
        intro j s stage role
        apply none
        rw [List.any_eq_true]
        exact ⟨_, (shows.tasks (s.task p.desk.settings j)).mpr ⟨s, stage, rfl⟩, by simpa⟩
      have half : { n with desk := n.desk.setProgress slice .drained }.Shows
          { p with desk := p.desk.setProgress slice .drained } := by
        rw [shows.desk]
        exact shows.withDesk _ rfl
      exact ⟨_, .jobs spent, goOn_resume rfl
        (resume_ask half begun rfl rfl rfl rfl ⟨_, _, rfl⟩ rfl)⟩
  | running parent slice id job registration => cases proceeded
  | _ => cases (silent rfl).symm.trans proceeded

/-- The step of a task when the executor comes to an end that it waits for. -/
theorem finishes (shows : n.Shows p) (node : c.nodes[i]? = some n) {s : TaskStage}
    {outcome : Outcome} (stage : p.stages k = some s)
    (finished : c.endExecution? i (s.task p.desk.settings k) outcome = some c') :
    ∃ e n', p.Works c.now c.store k s (.finish outcome) e c.store ∧ c' = c.putNode i n' ∧
      n'.Shows (p.apply k e) := by
  have begun := shows.fresh k s stage
  have silent (calls : s.isCall = true) :
      c.endExecution? i (s.task p.desk.settings k) outcome = none := by
    have none := (waits_of_call (call?_isSome p.desk.settings calls)).1
    rw [Cluster.endExecution?, TaskStage.task]
    simp only [none]
  cases s with
  | running parent slice id job registration =>
    change some (c.modifyNode i fun n => n.goOn c.now
      ((TaskStage.running parent slice id job registration).task p.desk.settings k)
      (.run (Program.conclude slice id job registration.policy outcome))) = some c' at finished
    rw [Cluster.modifyNode_eq node] at finished
    refine ⟨_, _, .running, (Option.some.inj finished).symm, ?_⟩
    have settled := JobStage.settle_conclude c.now k slice id job registration.policy outcome n
    rw [shows.desk] at settled
    generalize JobStage.outcome c.now p.desk slice id job registration.policy outcome = r
      at settled ⊢
    obtain ⟨events, s⟩ := r
    have half := shows.withDesk (p.desk.announceAll events) (p.desk.settings_announceAll events)
    have calls := s.calls p.desk.settings c.now k slice id
    refine goOn_resume settled (resume_ask half begun rfl rfl rfl rfl calls.asks ?_)
    simp only [Post.afterOutcome, Post.afterJob, Desk.settings_announceAll]
    rfl
  | guard mover => cases mover <;> cases finished
  | turned mover announced t => cases finished
  | rest ticket looks => cases finished
  | hold ticket => cases finished
  | permit slice id others => cases finished
  | jobs slice => cases finished
  | _ => cases (silent rfl).symm.trans finished

/-- The step of a task whose pause is over. -/
theorem wakes (shows : n.Shows p) (node : c.nodes[i]? = some n) {s : TaskStage}
    (stage : p.stages k = some s)
    (woken : c.endPause? i (s.task p.desk.settings k) = some c') :
    ∃ e n', p.Works c.now c.store k s .wake e c.store ∧ c' = c.putNode i n' ∧
      n'.Shows (p.apply k e) := by
  have begun := shows.fresh k s stage
  have silent (calls : s.isCall = true) : c.endPause? i (s.task p.desk.settings k) = none := by
    have none := (waits_of_call (call?_isSome p.desk.settings calls)).2
    rw [Cluster.endPause?, TaskStage.task]
    simp only [none]
  cases s with
  | rest ticket looks =>
    change some (c.modifyNode i fun n => n.goOn c.now
      ((TaskStage.rest ticket looks).task p.desk.settings k)
      (.run (TaskStage.looking looks))) = some c' at woken
    rw [Cluster.modifyNode_eq node] at woken
    obtain rfl := Option.some.inj woken
    rcases TaskStage.settle_looking c.now k looks n with settled | ⟨fewer, rfl, settled⟩
    · have half : { n with desk := { n.desk with stopped := true } }.Shows
          { p with desk := { p.desk with stopped := true } } := by
        rw [shows.desk]
        exact shows.withDesk { p.desk with stopped := true } rfl
      exact ⟨_, _, .halt, rfl,
        goOn_resume settled (resume_ask half begun rfl rfl rfl rfl ⟨_, _, rfl⟩ rfl)⟩
    · exact ⟨_, _, .look, rfl,
        goOn_resume settled (resume_ask shows begun rfl rfl rfl rfl ⟨_, _, rfl⟩ rfl)⟩
  | guard mover => cases mover <;> cases woken
  | turned mover announced t => cases woken
  | hold ticket => cases woken
  | permit slice id others => cases woken
  | jobs slice => cases woken
  | running parent slice id job registration => cases woken
  | _ => cases (silent rfl).symm.trans woken

/-! ## New tasks -/

theorem counted (shows : n.Shows p) :
    { n with nextNumber := n.nextNumber + 1 }.Shows { p with nextNumber := p.nextNumber + 1 } :=
  { shows with
    nextNumber := congrArg (· + 1) shows.nextNumber
    tasks := shows.tasks
    fresh := fun number s stage => Nat.lt_succ_of_lt (shows.fresh number s stage) }

/-- A new task does its local work, and the node shows the post after it. -/
theorem begin_resume {m : Node} {q : Post} {now : Instant} {role : Role}
    {program program' : Program role.Result} (shows : n.Shows p)
    (settles : { n with nextNumber := n.nextNumber + 1 }.settle now p.nextNumber program =
      (m, program'))
    (resumed : (resume ⟨p.nextNumber, role, .run program⟩ (m, program')).Shows q) :
    (n.begin now role program).Shows q := by
  unfold begin
  rw [← shows.nextNumber] at settles resumed
  exact goOn_resume settles resumed

/-- A submission shows its effect up to its first call. -/
theorem submits (shows : n.Shows p) (now : Instant) (ticket : Nat) (job : Job) :
    (n.submit now ticket (Program.schedule job)).Shows
      (p.begin (p.submitting ticket job)) := by
  have settled := Node.settle_andThen now p.nextNumber { n with nextNumber := n.nextNumber + 1 }
    (Program.schedule job).run fun r => Program.done (Reply.submitted r)
  rw [Program.settle_schedule] at settled
  unfold Post.submitting
  rw [← shows.desk]
  cases admitted : n.desk.screen job with
  | error e =>
    simp only [admitted, Program.admitted, settleOn] at settled
    exact begin_resume shows settled (resume_done shows.counted rfl)
  | ok _ =>
    simp only [admitted, Program.admitted] at settled
    refine begin_resume shows settled
      (resume_ask shows.counted (Nat.lt_succ_self _) rfl rfl rfl rfl ⟨_, _, rfl⟩ ?_)
    rw [shows.desk]
    rfl

/-- A node that works on a command. -/
theorem busy (shows : n.Shows p) : { n with loop := .busy }.Shows { p with loop := .busy } :=
  { shows with loop := rfl, tasks := shows.tasks, fresh := shows.fresh }

theorem begin_busy (p : Post) (e : Effect) : { p with loop := .busy }.begin e = p.begin e := by
  obtain ⟨desk, next, spawned, advancing, loop, inbox, replies⟩ := e
  cases spawned <;> rfl

/-- A command shows one of the effects that it may begin with. -/
theorem obeys (shows : n.Shows p) (now : Instant) (ticket : Option Nat) (command : Command) :
    ∃ e, p.Obeys ticket command e ∧ (n.obey now ticket command).Shows (p.begin e) := by
  simp only [← begin_busy p]
  have half := shows.busy.counted
  have begun := Nat.lt_succ_self p.nextNumber
  have changed (f : Desk → Desk) (same : (f p.desk).settings = p.desk.settings) :
      { n with loop := .busy, nextNumber := n.nextNumber + 1, desk := f n.desk }.Shows
        { p with loop := .busy, nextNumber := p.nextNumber + 1, desk := f p.desk } := by
    rw [shows.desk]
    exact half.withDesk (f p.desk) same
  cases command with
  | tick =>
    refine ⟨_, .tick, begin_resume shows.busy rfl
      (resume_ask half begun rfl rfl rfl rfl ⟨_, _, rfl⟩ ?_)⟩
    rw [← shows.desk]
    rfl
  | pause =>
    exact ⟨_, .pause, begin_resume shows.busy rfl
      (resume_done (changed (fun desk => { desk with mode := .paused }) rfl) rfl)⟩
  | resume =>
    exact ⟨_, .resume, begin_resume shows.busy rfl
      (resume_done (changed (fun desk => { desk with mode := .running }) rfl) rfl)⟩
  | shutdown =>
    have stopping := changed (fun desk => { desk with mode := .stopped }) rfl
    have settled := TaskStage.settle_shutdown now p.nextNumber
      { n with loop := .busy, nextNumber := n.nextNumber + 1 }
    rcases settled with settled | settled | ⟨looks, settled⟩
    · exact ⟨_, .breakOff, begin_resume shows.busy settled (resume_done stopping rfl)⟩
    · refine ⟨_, .hold, begin_resume shows.busy settled
        (resume_ask ?_ begun rfl rfl rfl rfl ⟨_, _, rfl⟩ rfl)⟩
      exact changed (fun desk => { desk with mode := .stopped, stopped := true }) rfl
    · exact ⟨_, .rest looks, begin_resume shows.busy settled
        (resume_ask stopping begun rfl rfl rfl rfl ⟨_, _, rfl⟩ rfl)⟩

theorem sends (shows : n.Shows p) (ticket : Nat) (command : Command) :
    (n.send ticket command).Shows (p.send ticket command) := by
  unfold Node.send Post.send
  by_cases ended : p.loop = .ended
  · rw [if_pos (shows.loop.trans ended), if_pos ended]
    exact shows.deliver ticket (unheard command)
  · rw [if_neg (shows.loop ▸ ended), if_neg ended]
    exact { shows with
      inbox := congrArg (· ++ [(ticket, command)]) shows.inbox
      tasks := shows.tasks
      fresh := shows.fresh }

/-- The next command of a node begins, or a shutdown when nobody may send commands any more. -/
theorem receives (shows : n.Shows p) {now : Instant} {n' : Node}
    (received : n.receive? now = some n') :
    (∃ ticket command inbox e, p.loop = .idle ∧ p.inbox = (ticket, command) :: inbox ∧
        { p with inbox }.Obeys (some ticket) command e ∧ n'.Shows ({ p with inbox }.begin e)) ∨
      ∃ e, p.loop = .idle ∧ p.listening = false ∧ p.Obeys none .shutdown e ∧
        n'.Shows (p.begin e) := by
  unfold Node.receive? at received
  split at received
  · rename_i idle
    split at received
    · rename_i ticket command inbox waits
      obtain rfl := Option.some.inj received
      have rest : { n with inbox }.Shows { p with inbox } :=
        { shows with inbox := rfl, tasks := shows.tasks, fresh := shows.fresh }
      obtain ⟨e, begins, shown⟩ := rest.obeys now (some ticket) command
      exact .inl ⟨ticket, command, inbox, e, shows.loop ▸ idle, shows.inbox ▸ waits, begins, shown⟩
    · split at received
      · cases received
      · rename_i alone
        obtain rfl := Option.some.inj received
        obtain ⟨e, begins, shown⟩ := shows.obeys now none .shutdown
        exact .inr ⟨e, shows.loop ▸ idle, by simpa [shows.listening] using alone, begins, shown⟩
  · cases received

end Node.Shows

/-- A node that starts shows a post that begins to set the pointer. -/
theorem Node.joins {settings : NodeSettings} {registry : Registry} {n : Node}
    (started : Node.start? settings registry = some n) (now : Instant) (ticket : Nat) :
    (n.ensurePointer now ticket).Shows (.joining settings registry ticket) := by
  have empty : n.Shows (.fresh settings registry) := by
    unfold Node.start? at started
    split at started
    · obtain rfl := Option.some.inj started
      exact ⟨rfl, rfl, rfl, rfl, rfl, rfl, rfl, by simp [Post.fresh], by simp [Post.fresh]⟩
    · cases started
  have same : (do
      discard Program.ensurePointer
      return .done : Program Reply) = SeekStage.read.program.andThen fun _ => .done .done :=
    Program.andThen_assoc _ _ _
  unfold Node.ensurePointer
  rw [same]
  exact Node.Shows.begin_resume empty rfl
    (Node.Shows.resume_ask (e := (Post.fresh settings registry).onto (some (.start ticket .read)))
      empty.counted (Nat.lt_succ_self 0) rfl rfl rfl rfl ⟨_, _, rfl⟩ rfl)

namespace Cluster.Shows

variable {c c' : Cluster} {f : Fleet}

theorem withStore (shows : c.Shows f) (store : MemoryStore) :
    { c with store }.Shows { f with store } :=
  ⟨rfl, shows.now, shows.nodes⟩

theorem put (shows : c.Shows f) {i : Nat} {n n' : Node} {p' : Post} (node : c.nodes[i]? = some n)
    (shows' : n'.Shows p') : (c.putNode i n').Shows (f.put i p') where
  store := shows.store
  now := shows.now
  nodes j := by
    simp only [putNode, modifyNode, Fleet.put]
    rw [List.getElem?_modify]
    by_cases same : i = j
    · subst same
      rw [node, Function.update_self]
      simpa using Option.Rel.some shows'
    · rw [Function.update_of_ne (Ne.symm same)]
      simpa [same] using shows.nodes j

/-- A node of the cluster shows the post of its place. -/
theorem post (shows : c.Shows f) {i : Nat} {n : Node} (node : c.nodes[i]? = some n) :
    ∃ p, f.posts i = some p ∧ n.Shows p := by
  have related := shows.nodes i
  rw [node] at related
  cases post : f.posts i with
  | none =>
    rw [post] at related
    cases related
  | some p =>
    rw [post] at related
    cases related with
    | some shows => exact ⟨p, rfl, shows⟩

/-- A post of the fleet is shown by the node of its place. -/
theorem node (shows : c.Shows f) {i : Nat} {p : Post} (post : f.posts i = some p) :
    ∃ n, c.nodes[i]? = some n ∧ n.Shows p := by
  have related := shows.nodes i
  rw [post] at related
  cases node : c.nodes[i]? with
  | none =>
    rw [node] at related
    cases related
  | some n =>
    rw [node] at related
    cases related with
    | some shown => exact ⟨n, rfl, shown⟩

/-- A task of a node is at a stage of its post. -/
theorem stage {n : Node} {p : Post} (shows : n.Shows p) {number : Nat} {t : Task}
    (found : n.task? number = some t) :
    ∃ s, p.stages number = some s ∧ t = s.task p.desk.settings number := by
  have same : t.number = number := by simpa using List.find?_some found
  obtain ⟨s, stage, task⟩ := (shows.tasks t).mp (List.mem_of_find?_eq_some found)
  rw [same] at stage task
  exact ⟨s, stage, task⟩

theorem onNode (shows : c.Shows f) {i : Nat} {g : Node → Option Node}
    (changed : c.onNode? i g = some c') :
    ∃ n n' p, g n = some n' ∧ f.posts i = some p ∧ n.Shows p ∧
      ∀ p', n'.Shows p' → c'.Shows (f.put i p') := by
  simp only [onNode?, Option.bind_eq_bind, Option.pure_def, Option.bind_eq_some_iff,
    Option.some.injEq] at changed
  obtain ⟨n, node, n', after, rfl⟩ := changed
  obtain ⟨p, post, shows'⟩ := shows.post node
  exact ⟨n, n', p, after, post, shows', fun p' shown => shows.put node shown⟩

theorem onOpen (shows : c.Shows f) {i : Nat} {g : Node → Option Node}
    (changed : c.onOpen? i g = some c') :
    ∃ n n' p, g n = some n' ∧ f.posts i = some p ∧ p.isOpen ∧ n.Shows p ∧
      ∀ p', n'.Shows p' → c'.Shows (f.put i p') := by
  obtain ⟨n, n', p, after, post, shows', puts⟩ := shows.onNode changed
  split at after
  · rename_i opened
    exact ⟨n, n', p, after, post, shows'.isOpen opened, shows', puts⟩
  · cases after

theorem onTask (shows : c.Shows f) {i number : Nat} {g : Node → Task → Option Cluster}
    (changed : c.onTask? i number g = some c') :
    ∃ n p s, c.nodes[i]? = some n ∧ g n (s.task p.desk.settings number) = some c' ∧
      f.posts i = some p ∧ p.stages number = some s ∧ n.Shows p := by
  simp only [onTask?, Option.bind_eq_bind, Option.bind_eq_some_iff] at changed
  obtain ⟨n, node, t, found, after⟩ := changed
  obtain ⟨p, post, shows'⟩ := shows.post node
  obtain ⟨s, stage, rfl⟩ := stage shows' found
  exact ⟨n, p, s, node, after, post, stage, shows'⟩

theorem join (shows : c.Shows f) {settings : NodeSettings} {registry : Registry} {ticket : Nat}
    (acted : c.act? (.join settings registry ticket) = some c') :
    ∃ f', f.Step (.join settings registry ticket) f' ∧ c'.Shows f' := by
  simp only [act?, startNode?, Option.map_map, Option.map_eq_some_iff,
    Function.comp_apply] at acted
  obtain ⟨n, started, rfl⟩ := acted
  have free : f.posts c.nodes.length = none := by
    have related := shows.nodes c.nodes.length
    rw [List.getElem?_eq_none (Nat.le_refl _)] at related
    cases post : f.posts c.nodes.length with
    | none => rfl
    | some p =>
      rw [post] at related
      cases related
  refine ⟨_, .join free, shows.store, shows.now, fun j => ?_⟩
  simp only [modifyNode, Fleet.put]
  rw [List.getElem?_modify, List.getElem?_append]
  by_cases same : c.nodes.length = j
  · subst same
    rw [Function.update_self]
    simpa using Option.Rel.some (Node.joins started c.now ticket)
  · rw [Function.update_of_ne (Ne.symm same)]
    have related := shows.nodes j
    by_cases inside : j < c.nodes.length
    · simpa [same, inside] using related
    · have beyond : c.nodes.length ≤ j := Nat.le_of_not_lt inside
      rw [List.getElem?_eq_none beyond] at related
      have later : [n][j - c.nodes.length]? = none := by
        rw [List.getElem?_eq_none_iff, List.length_singleton]
        omega
      simpa [same, inside, later] using related

/-- Whatever happens to a cluster happens to the fleet that it shows. -/
theorem act (shows : c.Shows f) {a : Action} (acted : c.act? a = some c') :
    ∃ f', f.Step a f' ∧ c'.Shows f' := by
  cases a with
  | pass now =>
    obtain rfl := Option.some.inj acted
    exact ⟨_, .pass now, shows.store, rfl, shows.nodes⟩
  | join settings registry ticket => exact shows.join acted
  | register i registry =>
    obtain ⟨n, n', p, changed, post, shows', puts⟩ := shows.onNode acted
    obtain rfl := Option.some.inj changed
    refine ⟨_, .register registry post, puts _ ?_⟩
    rw [shows'.desk]
    exact shows'.withDesk { p.desk with registry } rfl
  | submit i ticket job =>
    obtain ⟨n, n', p, changed, post, opened, shows', puts⟩ := shows.onOpen acted
    obtain rfl := Option.some.inj changed
    exact ⟨_, .submit ticket job post opened, puts _ (shows'.submits c.now ticket job)⟩
  | send i ticket command =>
    obtain ⟨n, n', p, changed, post, opened, shows', puts⟩ := shows.onOpen acted
    obtain rfl := Option.some.inj changed
    exact ⟨_, .send ticket command post opened, puts _ (shows'.sends ticket command)⟩
  | leave i =>
    obtain ⟨n, n', p, changed, post, opened, shows', puts⟩ := shows.onOpen acted
    obtain rfl := Option.some.inj changed
    refine ⟨_, .leave post opened, puts _ ?_⟩
    exact { shows' with listening := rfl, tasks := shows'.tasks, fresh := shows'.fresh }
  | receive i =>
    obtain ⟨n, n', p, changed, post, opened, shows', puts⟩ := shows.onOpen acted
    rcases shows'.receives changed with ⟨ticket, command, inbox, e, idle, waits, begins, shown⟩ |
      ⟨e, idle, alone, begins, shown⟩
    · exact ⟨_, .receive post opened idle waits begins, puts _ shown⟩
    · exact ⟨_, .abandon post opened idle alone begins, puts _ shown⟩
  | tickItself i =>
    obtain ⟨n, n', p, changed, post, opened, shows', puts⟩ := shows.onOpen acted
    unfold Node.tickItself? at changed
    split at changed
    · rename_i idle
      obtain rfl := Option.some.inj changed
      obtain ⟨e, begins, shown⟩ := shows'.obeys c.now none .tick
      exact ⟨_, .tickItself post opened (shows'.loop ▸ idle) begins, puts _ shown⟩
    · cases changed
  | answer i number fault =>
    obtain ⟨n, p, s, node, answered, post, stage, shows'⟩ := shows.onTask acted
    obtain ⟨e, store, n', works, rfl, shown⟩ := shows'.answers node stage answered
    rw [shows.now, shows.store] at works
    exact ⟨_, .work post stage works rfl, (shows.withStore store).put node shown⟩
  | proceed i number =>
    obtain ⟨n, p, s, node, proceeded, post, stage, shows'⟩ := shows.onTask acted
    simp only [proceed?, Option.map_eq_some_iff] at proceeded
    obtain ⟨n', proceeded, rfl⟩ := proceeded
    obtain ⟨e, works, shown⟩ := shows'.proceeds c.now f.store stage proceeded
    rw [shows.now] at works
    exact ⟨_, .work post stage works rfl, shows.put node shown⟩
  | finish i number outcome =>
    obtain ⟨n, p, s, node, finished, post, stage, shows'⟩ := shows.onTask acted
    obtain ⟨e, n', works, rfl, shown⟩ := shows'.finishes node stage finished
    rw [shows.now, shows.store] at works
    exact ⟨_, .work post stage works rfl, shows.put node shown⟩
  | wake i number =>
    obtain ⟨n, p, s, node, woken, post, stage, shows'⟩ := shows.onTask acted
    obtain ⟨e, n', works, rfl, shown⟩ := shows'.wakes node stage woken
    rw [shows.now, shows.store] at works
    exact ⟨_, .work post stage works rfl, shows.put node shown⟩

end Cluster.Shows

theorem Cluster.Shows.bare {c : Cluster} (alone : c.nodes = []) : c.Shows (.bare c) := by
  refine ⟨rfl, rfl, fun i => ?_⟩
  rw [alone]
  exact .none

/-- What holds of a fleet of the cluster that a run begins with, and is kept by every step, holds of a
fleet of the cluster that it ends with. -/
theorem Cluster.Run.invariant_of_shows {Allowed : List Action → Cluster → Action → Prop}
    {c₀ c : Cluster} {past : List Action} (run : Cluster.Run Allowed c₀ past c) {f₀ : Fleet}
    (shows : c₀.Shows f₀) {P : List Action → Fleet → Prop} (init : P [] f₀)
    (step : ∀ past c f a f', Cluster.Run Allowed c₀ past c → c.Shows f → P past f →
      Allowed past c a → f.Step a f' → P (a :: past) f') :
    ∃ f, c.Shows f ∧ P past f := by
  induction run with
  | nil => exact ⟨f₀, shows, init⟩
  | cons a run allowed acted ih =>
    obtain ⟨f, shows, holds⟩ := ih
    obtain ⟨f', stepped, shows'⟩ := shows.act acted
    exact ⟨f', shows', step _ _ _ _ _ run shows holds allowed stepped⟩

/-- What holds of the fleet of a cluster without nodes, and after every step that is allowed in the
cluster, holds of a fleet that the cluster shows after a run. -/
theorem Cluster.Run.invariant {Allowed : List Action → Cluster → Action → Prop} {c₀ c : Cluster}
    {past : List Action} (run : Cluster.Run Allowed c₀ past c) (bare : c₀.nodes = [])
    {P : List Action → Fleet → Prop} (init : P [] (.bare c₀))
    (step : ∀ past c f a f', Cluster.Run Allowed c₀ past c → c.Shows f → P past f →
      Allowed past c a → f.Step a f' → P (a :: past) f') :
    ∃ f, c.Shows f ∧ P past f :=
  run.invariant_of_shows (.bare bare) init step

end SliceScheduler
