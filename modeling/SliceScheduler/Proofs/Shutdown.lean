import SliceScheduler.Proofs.Accounts
import SliceScheduler.Proofs.Announcement
import SliceScheduler.Proofs.Fencing
/-!
# Nodes that have shut down

Any number of nodes of different names work in any order on one store, calls fail, and the clock goes
anywhere. A shutdown may leave slices at work behind that it did not wait for.

1. `Post.Opened` says that a node carries out commands only after it has seen to the pointer;
2. `Post.Retired` is what holds of a node when its shutdown is over, and `Fleet.Retires.step` says
   that it holds ever after;
3. `Cluster.ShutsDown` is the end of a shutdown, and `Node.IsOut` says that a node takes no part in
   the protocol any more;
4. `Cluster.Noted` says that a node has noted a lock at some time in a run;
5. `Cluster.Run.shut_down` is the result: from the end of its shutdown on a node takes no part in the
   protocol, and owns no lock but one that its name owned before the run and that it never noted, as
   long as no call fails by which the shutdown gives up a lock;
6. `Cluster.Run.shut_down_abandoned` shows it of a node that goes on with jobs of a slice that its
   shutdown did not wait for, and `Cluster.Run.shut_down_of_brokenOff` is a node that leaves a lock
   which its name owned before it joined.
-/
namespace SliceScheduler

/-! ## Nodes that have seen to the pointer -/

/-- The task sets the pointer for a node that joins. -/
def TaskStage.joins : TaskStage → Bool
  | start .. => true
  | _ => false

/-- A node carries out a command only after its first task, which has set the pointer. -/
structure Post.Opened (p : Post) : Prop where
  first : ∀ k s, p.stages k = some s → s.joins = true → k = 0
  opened : p.isOpen ∨ p.loop = .idle

/-- All nodes carry out commands only after their first tasks. -/
def Fleet.Opened (f : Fleet) : Prop := ∀ i p, f.posts i = some p → p.Opened

namespace ShutdownLemmas

open Post TidyLemmas ClosingLemmas AnnouncementLemmas

variable {p q : Post} {e : Effect} {k : Nat} {s t : TaskStage} {now : Instant}
  {store store' : MemoryStore} {prompt : Prompt} {pointer : Option Slice}

theorem joins_turnPlace (mover : Mover) (announced : List Slice)
    (next : TurnStage ⊕ Program.Turn) : (turnPlace mover announced next).joins = false := by
  cases next <;> rfl

theorem joins_walkPlace (ticket : Option Nat) (dispatch : Bool) (announced : List Slice)
    (next : WalkStage ⊕ Program.TickResult) :
    (walkPlace ticket dispatch announced next).any TaskStage.joins = false := by
  cases next <;> rfl

theorem joins_permits (slice : Slice) (ids : List JobId) :
    (permits slice ids).joins = false := by
  cases ids <;> rfl

theorem joins_jobPlace (parent : Nat) (slice : Slice) (id : JobId) (next : JobNext) :
    (jobPlace parent slice id next).any TaskStage.joins = false := by
  cases next <;> rfl

theorem joins_drained (drained : Option Slice) :
    (drained.map TaskStage.sets).any TaskStage.joins = false := by
  cases drained <;> rfl

/-- No task comes to set the pointer for a node that joins. -/
theorem joins_work (works : p.Works now store k s prompt e store') :
    (e.next.any TaskStage.joins = true → s.joins = true) ∧
      e.spawned.any TaskStage.joins = false := by
  have other {next : Option TaskStage} (plain : next.any TaskStage.joins = false)
      (joins : next.any TaskStage.joins = true) : s.joins = true := by
    cases plain.symm.trans joins
  cases works with
  | start made =>
    unfold afterSeek
    split <;> exact ⟨fun _ => rfl, rfl⟩
  | submission made =>
    unfold afterSubmit
    split <;> exact ⟨other rfl, rfl⟩
  | guard free => exact ⟨other (joins_turnPlace ..), rfl⟩
  | turn made => exact ⟨other (joins_turnPlace ..), joins_drained _⟩
  | moved => exact ⟨other (joins_turnPlace ..), rfl⟩
  | @stay mover announced => cases mover <;> exact ⟨other rfl, rfl⟩
  | walk made =>
    rw [next_afterWalk, spawned_afterWalk]
    exact ⟨other (joins_walkPlace ..), joins_drained _⟩
  | look => exact ⟨other rfl, rfl⟩
  | halt => exact ⟨other rfl, rfl⟩
  | hold free =>
    cases locks : p.desk.held.held <;> exact ⟨other rfl, rfl⟩
  | @giveUp ticket lock others => cases others <;> exact ⟨other rfl, rfl⟩
  | @sets slice fault answer store' made =>
    cases answer with
    | error e => exact ⟨other rfl, rfl⟩
    | ok index => exact ⟨other (joins_permits ..), rfl⟩
  | permit => exact ⟨other (joins_permits ..), rfl⟩
  | jobs spent => exact ⟨other rfl, rfl⟩
  | job made => exact ⟨other (joins_jobPlace ..), rfl⟩
  | running => exact ⟨other rfl, rfl⟩

theorem isOpen_apply (opened : p.isOpen) (stage : p.stages k = some s) (e : Effect) :
    (p.apply k e).isOpen := by
  obtain ⟨begun, none⟩ := opened
  have other : (0 : Nat) ≠ k := by
    rintro rfl
    cases none.symm.trans stage
  have later : p.nextNumber ≤ (p.apply k e).nextNumber := by
    simp only [Post.apply]
    cases e.spawned with
    | none => exact Nat.le_refl _
    | some s => exact Nat.le_succ _
  refine ⟨Nat.lt_of_lt_of_le begun later, ?_⟩
  cases there : (p.apply k e).stages 0 with
  | none => rfl
  | some t =>
    rcases stages_apply there with ⟨same, -⟩ | ⟨-, same, -⟩ | ⟨-, before⟩
    · exact absurd same other
    · exact absurd same (Nat.ne_of_lt begun)
    · cases none.symm.trans before

theorem isOpen_begins {a : Action} (opened : p.isOpen) (begins : p.Begins a q) : q.isOpen := by
  obtain ⟨begun, none⟩ := opened
  refine ⟨Nat.lt_of_lt_of_le begun begins.later, ?_⟩
  cases there : q.stages 0 with
  | none => rfl
  | some t =>
    rcases begins.stages 0 t there with before | ⟨same, -⟩
    · cases none.symm.trans before
    · exact absurd same (Nat.ne_of_lt begun)

theorem joins_of_opens {a : Action} (opens : t.Opens a) : t.joins = false ∧ t.turns = false := by
  cases t with
  | start | turn => cases opens
  | _ => exact ⟨rfl, rfl⟩

theorem opened_begins {a : Action} (opened : p.Opened) (begins : p.Begins a q)
    (loop : p.isOpen ∨ q.loop = p.loop) : q.Opened := by
  refine ⟨fun k s stage joins => ?_, ?_⟩
  · rcases begins.stages k s stage with before | ⟨-, -, opens⟩
    · exact opened.first k s before joins
    · cases (joins_of_opens opens).1.symm.trans joins
  · rcases loop with here | same
    · exact .inl (isOpen_begins here begins)
    · exact opened.opened.imp (fun here => isOpen_begins here begins) same.trans

/-- A node that carries out a command has seen to the pointer. -/
theorem isOpen_of_command (opened : p.Opened) (tidy : p.Tidy pointer) (stage : p.stages k = some s)
    (command : s.isCommand = true) : p.isOpen := by
  rcases opened.opened with here | idle
  · exact here
  · cases idle.symm.trans (tidy.busy k s stage command)

theorem opened_apply (opened : p.Opened) (tidy : p.Tidy store.pointer)
    (stage : p.stages k = some s) (works : p.Works now store k s prompt e store') :
    (p.apply k e).Opened := by
  obtain ⟨next, spawned⟩ := joins_work works
  refine ⟨fun j t there joins => ?_, ?_⟩
  · rcases stages_apply there with ⟨rfl, goes⟩ | ⟨-, -, new⟩ | ⟨-, before⟩
    · refine opened.first j s stage (next ?_)
      rw [goes]
      exact joins
    · rw [new, Option.any_some, joins] at spawned
      cases spawned
    · exact opened.first j t before joins
  · rcases (works.shift (tidy.fits k s stage)).loop with same | ⟨command, -⟩
    · exact opened.opened.imp (fun here => isOpen_apply here stage e) same.trans
    · exact .inl (isOpen_apply (isOpen_of_command opened tidy stage command) stage e)

theorem opened_joining (settings : NodeSettings) (registry : Registry) (ticket : Nat) :
    (joining settings registry ticket).Opened :=
  ⟨fun _ _ stage _ => (stages_joining stage).1, .inr rfl⟩

end ShutdownLemmas

open ShutdownLemmas

namespace Fleet

variable {f f' : Fleet} {i : Nat} {p q : Post}

theorem Opened.bare (c : Cluster) : (bare c).Opened := nofun

theorem Opened.put {store : MemoryStore} (opened : f.Opened) (here : q.Opened) :
    ({ f with store }.put i q).Opened := by
  intro j r placed
  rcases posts_put placed with ⟨-, rfl⟩ | ⟨-, before⟩
  · exact here
  · exact opened j r before

/-- Nodes carry out commands only after they have seen to the pointer. -/
theorem Opened.step {a : Action} (opened : f.Opened) (tidy : f.Tidy) (step : f.Step a f') :
    f'.Opened := by
  cases step with
  | pass now => exact opened
  | join free => exact opened.put (opened_joining ..)
  | @register i p registry post =>
    exact opened.put ⟨(opened i p post).first, (opened i p post).opened⟩
  | @submit i p ticket job post here =>
    exact opened.put (opened_begins (opened i p post) (p.begins_submitting i ticket job) (.inl here))
  | @send i p ticket command post here =>
    refine opened.put ?_
    unfold Post.send
    split <;> exact ⟨(opened i p post).first, .inl here⟩
  | @leave i p post here => exact opened.put ⟨(opened i p post).first, .inl here⟩
  | @receive i p ticket command inbox e post here idle waits obeys =>
    exact opened.put (opened_begins (opened i p post) (obeys.begins (a := .pass default) inbox)
      (.inl here))
  | @abandon i p e post here idle alone obeys =>
    exact opened.put (opened_begins (opened i p post)
      (Post.Obeys.begins (a := .pass default) p.inbox obeys) (.inl here))
  | @tickItself i p e post here idle obeys =>
    exact opened.put (opened_begins (opened i p post)
      (Post.Obeys.begins (a := .pass default) p.inbox obeys) (.inl here))
  | @work i p k s prompt e store a post stage works same =>
    exact opened.put (opened_apply (opened i p post) (tidy.posts i p post) stage works)

end Fleet

/-! ## Nodes that have shut down -/

/-- A shutdown of the node is over: it takes no more commands, it has given up the locks that it had
noted, and none of its tasks moves the pointer. These are the slices that it has announced. -/
structure Post.Retired (announced : List Slice) (p : Post) : Prop where
  opened : p.isOpen
  ended : p.loop = .ended
  letGo : p.desk.HasLetGo
  idle : ∀ k s, p.stages k = some s → s.turns = false
  finished : p.desk.finished = announced

namespace ShutdownLemmas

open Post TidyLemmas ClosingLemmas AnnouncementLemmas

variable {p q : Post} {e : Effect} {k : Nat} {s t : TaskStage} {now : Instant}
  {store store' : MemoryStore} {prompt : Prompt} {pointer : Option Slice} {announced : List Slice}

/-- A node that has shut down carries out no command. -/
theorem plain_of_retired (retired : p.Retired announced) (tidy : p.Tidy pointer)
    (stage : p.stages k = some s) : s.isCommand = false := by
  cases command : s.isCommand with
  | false => rfl
  | true => cases retired.ended.symm.trans (tidy.busy k s stage command)

theorem retired_apply (retired : p.Retired announced) (tidy : p.Tidy store.pointer)
    (closes : p.Closes) (stage : p.stages k = some s)
    (works : p.Works now store k s prompt e store') : (p.apply k e).Retired announced := by
  have mine := retired.idle k s stage
  refine ⟨isOpen_apply retired.opened stage e, ?ended,
    closes.hasLetGo tidy stage works.letting retired.letGo,
    works.idle tidy.guarded stage retired.idle fun t goes => ?idle, ?finished⟩
  case ended =>
    rcases (works.shift (tidy.fits k s stage)).loop with same | ⟨command, -⟩
    · exact same.trans retired.ended
    · cases command.symm.trans (plain_of_retired retired tidy stage)
  case idle =>
    cases turns : t.turns with
    | false => rfl
    | true =>
      rcases works.turns goes turns with before | runs
      · cases mine.symm.trans before
      · cases retired.letGo.1.symm.trans runs
  case finished =>
    rcases works.announces with ⟨quiet, -⟩ | ⟨mover, announced, x, rfl, -⟩ |
      ⟨mover, announced, x, rfl, -⟩
    · exact quiet.finished.trans retired.finished
    · cases mine
    · cases mine

theorem retired_begins {a : Action} (retired : p.Retired announced) (begins : p.Begins a q)
    (loop : q.loop = p.loop) (stopped : q.desk.stopped = p.desk.stopped) :
    q.Retired announced := by
  refine ⟨isOpen_begins retired.opened begins, loop.trans retired.ended,
    ⟨stopped.trans retired.letGo.1, begins.held ▸ retired.letGo.2⟩, fun k s stage => ?_, ?_⟩
  · rcases begins.stages k s stage with before | ⟨-, -, opens⟩
    · exact retired.idle k s before
    · exact (joins_of_opens opens).2
  · rw [Desk.finished, begins.log]
    exact retired.finished

/-- A node that has shut down refuses a submission. -/
theorem submitting_retired (retired : p.Retired announced) (ticket : Nat) (job : Job) :
    p.submitting ticket job =
      { p.onto none with replies := [(ticket, .submitted (.error .stopped))] } := by
  have refused : p.desk.screen job = .error .stopped := if_pos (.inr retired.letGo.1)
  simp only [submitting, refused]

/-- What the last step of a shutdown does: the loop ends, no lock is noted, nobody moves the
pointer, and the shutdown is answered. -/
theorem ended_of_shuts (tidy : p.Tidy pointer) (closes : p.Closes) (stage : p.stages k = some s)
    (works : p.Works now store k s prompt e store') {ticket : Option Nat}
    (role : s.role = .command ticket .shutdown) (next : e.next = none) :
    e.loop = .ended ∧ e.desk.HasLetGo ∧ (∀ j t, p.stages j = some t → t.turns = false) ∧
      ∃ others, e.replies = ticket.toList.map (·, .done) ++ others := by
  cases s with
  | hold =>
    obtain rfl := (Role.command.inj role).1
    have stopped := closes.shuts k _ stage rfl
    cases works with
    | hold free =>
      cases locks : p.desk.held.held with
      | nil => exact ⟨rfl, ⟨stopped, rfl⟩, idle_of_free tidy.guarded free, _, rfl⟩
      | cons lock others =>
        simp only [locks] at next
        cases next
  | giveUp _ lock others live =>
    obtain rfl := (Role.command.inj role).1
    have letGo := closes.letGo k _ stage nofun
    cases works with
    | giveUp made live' =>
      -- the guard is that of the shutdown itself
      cases others with
      | nil =>
        refine ⟨rfl, letGo, fun j t there => ?_, _, rfl⟩
        cases turns : t.turns with
        | false => rfl
        | true =>
          obtain rfl := tidy.guarded.alone j k t _ there (hasGuard_of_turns turns) stage rfl
          obtain rfl := Option.some.inj (stage.symm.trans there)
          cases turns
      | cons lock others => cases next
  | rest =>
    cases works <;> cases next
  | guard mover | turn mover | turned mover => cases mover <;> cases role
  | _ => cases role

theorem retired_ended (opened : p.Opened) (tidy : p.Tidy store.pointer) (closes : p.Closes)
    (stage : p.stages k = some s) (works : p.Works now store k s prompt e store')
    {ticket : Option Nat} (role : s.role = .command ticket .shutdown) (next : e.next = none) :
    (p.apply k e).Retired e.desk.finished ∧
      ∀ number, ticket = some number → (number, .done) ∈ (p.apply k e).outbox := by
  obtain ⟨ended, letGo, idle, others, replies⟩ := ended_of_shuts tidy closes stage works role next
  have command : s.isCommand = true := by
    cases s with
    | rest | hold | giveUp => rfl
    | guard mover | turn mover | turned mover => cases mover <;> cases role
    | _ => cases role
  have here := isOpen_of_command opened tidy stage command
  refine ⟨⟨isOpen_apply here stage e, ended, letGo, ?_, rfl⟩, ?_⟩
  · refine works.idle tidy.guarded stage idle fun t goes => ?_
    cases next.symm.trans goes
  · rintro number rfl
    show (number, Reply.done) ∈ p.outbox ++ e.replies
    rw [replies]
    simp

end ShutdownLemmas

open ShutdownLemmas

/-- The node of a place has shut down. This is its name, and the slices that it has announced. -/
def Fleet.Retires (i : Nat) (node : String) (announced : List Slice) (f : Fleet) : Prop :=
  ∃ p, f.posts i = some p ∧ p.desk.settings.node = node ∧ p.Retired announced

namespace Fleet

variable {f f' : Fleet} {i j : Nat} {p q : Post} {node : String} {announced : List Slice}

/-- One node changes, which stays shut down if it was. -/
theorem Retires.put {store : MemoryStore} (retires : f.Retires i node announced)
    (post : f.posts j = some p) (settings : q.desk.settings = p.desk.settings)
    (stays : p.Retired announced → q.Retired announced) :
    ({ f with store }.put j q).Retires i node announced := by
  obtain ⟨r, there, name, retired⟩ := retires
  by_cases here : i = j
  · subst here
    obtain rfl := Option.some.inj (post.symm.trans there)
    exact ⟨q, Function.update_self .., settings ▸ name, stays retired⟩
  · exact ⟨r, (Function.update_of_ne here ..).trans there, name, retired⟩

/-- A node that has shut down stays so, whatever happens. -/
theorem Retires.step {a : Action} (retires : f.Retires i node announced) (tidy : f.Tidy)
    (step : f.Step a f') : f'.Retires i node announced := by
  cases step with
  | pass now => exact retires
  | join free =>
    obtain ⟨p, post, facts⟩ := retires
    refine ⟨p, (Function.update_of_ne ?_ ..).trans post, facts⟩
    rintro rfl
    cases free.symm.trans post
  | register registry post =>
    exact retires.put post rfl fun ⟨opened, ended, letGo, idle, finished⟩ =>
      ⟨opened, ended, letGo, idle, finished⟩
  | @submit j p ticket job post =>
    refine retires.put post (Post.settings_submitting ..) fun retired => ?_
    refine retired_begins retired (p.begins_submitting j ticket job) ?_ ?_ <;>
    · rw [submitting_retired retired]
      rfl
  | send ticket command post =>
    unfold Post.send
    split <;>
    · exact retires.put post rfl fun ⟨opened, ended, letGo, idle, finished⟩ =>
        ⟨opened, ended, letGo, idle, finished⟩
  | leave post =>
    exact retires.put post rfl fun ⟨opened, ended, letGo, idle, finished⟩ =>
      ⟨opened, ended, letGo, idle, finished⟩
  | @receive j p ticket command inbox e post opened idle waits obeys =>
    exact retires.put post obeys.settings fun retired => by cases idle.symm.trans retired.ended
  | @abandon j p e post opened idle alone obeys =>
    exact retires.put post obeys.settings fun retired => by cases idle.symm.trans retired.ended
  | @tickItself j p e post opened idle obeys =>
    exact retires.put post obeys.settings fun retired => by cases idle.symm.trans retired.ended
  | @work j p k s prompt e store a post stage works same =>
    exact retires.put post works.settings fun retired =>
      retired_apply retired (tidy.posts j p post) (tidy.closes j p post) stage works

/-- The task of a number is over only after a step of its own. -/
theorem Step.ended {a : Action} (step : f.Step a f') (guarded : f.Guarded)
    (post : f.posts i = some p) (post' : f'.posts i = some q) {k : Nat} {s : TaskStage}
    (stage : p.stages k = some s) (gone : q.stages k = none) :
    ∃ prompt e store, p.Works f.now f.store k s prompt e store ∧ e.next = none ∧
      q = p.apply k e := by
  have other (same : f'.posts i = f.posts i) : False := by
    obtain rfl := Option.some.inj (post'.symm.trans (same.trans post))
    cases gone.symm.trans stage
  rcases step.kinds with ⟨now, -, rfl⟩ | ⟨j, settings, registry, ticket, -, free, rfl⟩ |
    ⟨j, r, r', there, begins, rfl⟩ | ⟨j, r, l, t, prompt, e, store, there, stage', works, -, rfl⟩
  · exact (other rfl).elim
  all_goals
    rcases posts_put post' with ⟨rfl, rfl⟩ | ⟨-, before⟩
    rotate_left
    · exact (other (post'.trans (before.symm.trans rfl))).elim
  · cases free.symm.trans post
  · obtain rfl := Option.some.inj (there.symm.trans post)
    cases gone.symm.trans (begins.kept k s ((guarded i r there).fresh k s stage) stage)
  · obtain rfl := Option.some.inj (there.symm.trans post)
    by_cases mine : k = l
    · subst mine
      obtain rfl := Option.some.inj (stage.symm.trans stage')
      have next : (r.apply k e).stages k = e.next := Function.update_self ..
      exact ⟨prompt, e, store, works, next.symm.trans gone, rfl⟩
    · cases gone.symm.trans ((guarded i r there).fresh.stages_apply stage mine e)

end Fleet

/-! ## Calls of a node that has shut down -/

/-- The call is one by which nodes agree on slices: it takes or gives back a lock, deletes the index
of a slice, or changes the pointer. -/
def Operation.steers : Operation → Bool
  | lockExclusive .. | lockShared .. | unlockShared .. | unlockExclusive .. => true
  | deleteSlice _ | initPointer _ | movePointer .. => true
  | _ => false

namespace ShutdownLemmas

variable {set : NodeSettings} {s : TaskStage} {op : Operation}

/-- The tasks that take part in the protocol. -/
theorem steers_of_op (calls : s.op? set = some op) (steers : op.steers = true) :
    s.joins = true ∨ s.turns = true ∨ s.isCommand = true := by
  cases s with
  | start => exact .inl rfl
  | turn => exact .inr (.inl rfl)
  | walk | giveUp => exact .inr (.inr rfl)
  | submission ticket job s =>
    obtain rfl := Option.some.inj calls
    cases s <;> cases steers
  | sets slice =>
    obtain rfl := Option.some.inj calls
    cases steers
  | job parent slice id s =>
    obtain rfl := Option.some.inj calls
    cases s <;> cases steers
  | _ => cases calls

end ShutdownLemmas

/-! ## The end of a shutdown -/

namespace Cluster

/-- The action ends a shutdown of the node of a place: its task was at work and is over. The node
was told to shut down under the ticket, if somebody told it to. This is the node after it. -/
structure ShutsDown (c : Cluster) (a : Action) (c' : Cluster) (i : Nat) (ticket : Option Nat)
    (n : Node) : Prop where
  acted : c.act? a = some c'
  node : c'.nodes[i]? = some n
  ended : ∃ before t, c.nodes[i]? = some before ∧ t ∈ before.tasks ∧
    t.role = .command ticket .shutdown ∧ n.isAtWork t.number = false

/-- The node of a place takes no part in the protocol: its tasks wait for no call by which nodes agree
on slices. It refuses what it is asked, and does nothing of its own. -/
structure IsOut (c : Cluster) (i : Nat) (n : Node) : Prop where
  node : c.nodes[i]? = some n
  calls : ∀ t ∈ n.tasks, ∀ op next, t.code.call? = some ⟨op, next⟩ → op.steers = false
  submits : ∀ ticket job, ∃ c' n', c.act? (.submit i ticket job) = some c' ∧
    c'.store = c.store ∧ c'.nodes[i]? = some n' ∧
    n'.outbox = n.outbox ++ [(ticket, .submitted (.error .stopped))]
  sends : ∀ ticket command, ∃ c' n', c.act? (.send i ticket command) = some c' ∧
    c'.store = c.store ∧ c'.nodes[i]? = some n' ∧
    n'.outbox = n.outbox ++
      [(ticket, .refused (.channel ("failed to send " ++ command.name ++ " command")))]
  idle : c.act? (.receive i) = none ∧ c.act? (.tickItself i) = none

end Cluster

namespace ShutdownLemmas

variable {c : Cluster} {f : Fleet} {i : Nat} {n n' : Node} {p : Post} {announced : List Slice}

/-- What an open node does from outside can happen. -/
theorem onOpen_of_node {g : Node → Option Node} (node : c.nodes[i]? = some n)
    (opened : n.isOpen = true) (after : g n = some n') :
    c.onOpen? i g = some (c.putNode i n') ∧ (c.putNode i n').nodes[i]? = some n' := by
  refine ⟨?_, ?_⟩
  · simp only [Cluster.onOpen?, Cluster.onNode?, node, opened, if_true, after, Option.bind_eq_bind,
      Option.bind_some, Option.pure_def]
  · simp only [Cluster.putNode, Cluster.modifyNode, List.getElem?_modify, if_true, node,
      Option.map_eq_map, Option.map_some]

theorem isOut_of_retired {pointer : Option Slice} (node : c.nodes[i]? = some n)
    (shown : n.Shows p) (tidy : p.Tidy pointer) (opened : p.Opened)
    (retired : p.Retired announced) : c.IsOut i n := by
  have isOpen := shown.isOpen_node retired.opened
  refine ⟨node, fun t mem op next waits => ?calls, fun ticket job => ?submits,
    fun ticket command => ?sends, ?idle⟩
  case calls =>
    obtain ⟨s, stage, task⟩ := (shown.tasks t).mp mem
    have asked := Node.Shows.op_of_call task waits
    cases steers : op.steers with
    | false => rfl
    | true =>
      rcases steers_of_op asked steers with joins | turns | command
      · -- the task that set the pointer had the number zero, and is over
        have zero := opened.first _ s stage joins
        rw [zero, retired.opened.2] at stage
        cases stage
      · cases (retired.idle _ s stage).symm.trans turns
      · cases (plain_of_retired retired tidy stage).symm.trans command
  case submits =>
    have shown' := shown.submits c.now ticket job
    obtain ⟨acted, there⟩ := onOpen_of_node node isOpen
      (g := fun n => some (n.submit c.now ticket (Program.schedule job))) rfl
    refine ⟨_, _, acted, rfl, there, ?_⟩
    rw [shown'.outbox, submitting_retired retired, shown.outbox]
    rfl
  case sends =>
    obtain ⟨acted, there⟩ := onOpen_of_node node isOpen
      (g := fun n => some (n.send ticket command)) rfl
    refine ⟨_, _, acted, rfl, there, ?_⟩
    rw [Node.send, if_pos (shown.loop.trans retired.ended)]
    rfl
  case idle =>
    have ended := shown.loop.trans retired.ended
    have busy : n.loop ≠ .idle := by
      rw [ended]
      nofun
    have receive : n.receive? c.now = none := if_neg busy
    have tick : n.tickItself? c.now = none := if_neg busy
    simp only [Cluster.act?, Cluster.onOpen?, Cluster.onNode?, node, isOpen, if_true, receive, tick,
      Option.bind_eq_bind, Option.bind_some, Option.bind_none, and_self]

end ShutdownLemmas

/-! ## Runs with shutdowns -/

/-- What holds of a fleet at any time, when no call fails by which the node of a place gives up a
lock in a shutdown. -/
structure Fleet.Spared (left : String → String → Prop) (i : Nat) (f : Fleet) : Prop where
  fenced : f.Fenced
  accounted : f.Accounted left i
  opened : f.Opened

open ClosingLemmas

namespace Fleet

variable {f f' : Fleet} {left : String → String → Prop} {i : Nat} {node : String}
  {announced : List Slice}

theorem Spared.bare (c : Cluster) (i : Nat) :
    (bare c).Spared (fun node name => c.store.Owns node name) i :=
  ⟨.bare c, .bare c i, .bare c⟩

theorem Spared.step {a : Action} (spared : f.Spared left i) (isNew : f.IsNew a)
    (spares : f.Spares i a) (step : f.Step a f') : f'.Spared left i :=
  have tidy := spared.fenced.tidy
  ⟨spared.fenced.step isNew step, spared.accounted.step tidy spares step,
    spared.opened.step tidy step⟩

/-- A node that has shut down gives up no lock any more. -/
theorem Retires.spares {a : Action} (retires : f.Retires i node announced) (tidy : f.Tidy) :
    f.Spares i a := by
  rintro p k s fault post stage shuts -
  obtain ⟨q, there, -, retired⟩ := retires
  obtain rfl := Option.some.inj (post.symm.trans there)
  cases (isCommand_of_shuts shuts).symm.trans
    (plain_of_retired retired (tidy.posts i p post) stage)

/-- A node that has shut down owns no lock but those that were left to it. -/
theorem Retires.owns (retires : f.Retires i node announced) (spared : f.Spared left i)
    {name : String} (owns : f.store.Owns node name) : left node name := by
  obtain ⟨p, post, rfl, retired⟩ := retires
  have tidy := spared.fenced.tidy
  refine spared.accounted.owns tidy post retired.letGo.2 (fun k s stage => ?_) owns
  by_contra gives
  cases (isCommand_of_shuts (shuts_of_gives gives)).symm.trans
    (plain_of_retired retired (tidy.posts i p post) stage)

end Fleet

namespace ShutdownLemmas

variable {c c' c'' : Cluster} {f : Fleet} {left : String → String → Prop} {i : Nat} {node : String}
  {announced : List Slice} {a : Action} {ticket : Option Nat} {n : Node} {later : List Action}

/-- A node goes on accounting for its locks in a run in which no call fails by which it gives one up in
a shutdown. -/
theorem spared_run (run : c.Run (fun _ c a => a.HasName c ∧ a.SparesShutdown c i) later c')
    (shows : c.Shows f) (spared : f.Spared left i) : ∃ f', c'.Shows f' ∧ f'.Spared left i :=
  run.invariant_of_shows (P := fun _ f => f.Spared left i) shows spared
    fun _ _ _ _ _ _ shows spared allowed step =>
      spared.step (shows.isNew allowed.1) (shows.spares allowed.2) step

/-- A node that has shut down stays so in every run. -/
theorem retires_run (run : c.Run (fun _ c a => a.HasName c) later c') (shows : c.Shows f)
    (spared : f.Spared left i) (retires : f.Retires i node announced) :
    ∃ f', c'.Shows f' ∧ f'.Spared left i ∧ f'.Retires i node announced := by
  refine run.invariant_of_shows (P := fun _ f => f.Spared left i ∧ f.Retires i node announced) shows
    ⟨spared, retires⟩ ?_
  rintro _ _ f a f' _ shows ⟨spared, retires⟩ allowed step
  have tidy := spared.fenced.tidy
  exact ⟨spared.step (shows.isNew allowed) (retires.spares tidy) step, retires.step tidy step⟩

/-- A node retires when its shutdown is over, and answers it. -/
theorem retires_of_over {f' : Fleet} (down : c.ShutsDown a c' i ticket n) (shows : c.Shows f)
    (spared : f.Spared left i)
    (step : f.Step a f') (shows' : c'.Shows f') :
    f'.Retires i n.name n.desk.finished ∧
      ∀ number, ticket = some number → (number, .done) ∈ n.outbox := by
  have tidy := spared.fenced.tidy
  obtain ⟨before, t, node, mem, role, gone⟩ := down.ended
  obtain ⟨p, post, shown⟩ := shows.post node
  obtain ⟨q, post', shown'⟩ := shows'.post down.node
  obtain ⟨s, stage, task⟩ := (shown.tasks t).mp mem
  have gone : q.stages t.number = none := by
    cases there : q.stages t.number with
    | none => rfl
    | some s' =>
      have present := (shown'.tasks (s'.task q.desk.settings t.number)).mpr ⟨s', there, rfl⟩
      cases gone.symm.trans (List.any_eq_true.mpr ⟨_, present, beq_self_eq_true t.number⟩)
  obtain ⟨prompt, e, store, works, next, rfl⟩ :=
    step.ended (fun j r there => (tidy.posts j r there).guarded) post post' stage gone
  obtain ⟨retired, told⟩ := retired_ended (spared.opened i p post) (tidy.posts i p post)
    (tidy.closes i p post) stage works ((congrArg Task.role task).symm.trans role) next
  rw [Node.name, shown'.desk, shown'.outbox]
  exact ⟨⟨_, post', rfl, retired⟩, told⟩

/-- A node has retired in every run after its shutdown. -/
theorem retires_after (shows : c.Shows f) (spared : f.Spared left i)
    (allowed : a.HasName c ∧ a.SparesShutdown c i) (down : c.ShutsDown a c' i ticket n)
    (run : c'.Run (fun _ c a => a.HasName c) later c'') :
    ∃ g, c''.Shows g ∧ g.Spared left i ∧ g.Retires i n.name n.desk.finished := by
  obtain ⟨f', step, shows'⟩ := shows.act down.acted
  exact retires_run run shows' (spared.step (shows.isNew allowed.1) (shows.spares allowed.2) step)
    (retires_of_over down shows spared step shows').1

/-- A lock that the node noted before its shutdown is not its own any more. -/
theorem not_owns_of_noted {lock : String} (shows : c.Shows f) (spared : f.Spared left i)
    {between : List Action}
    (run : c.Run (fun _ c a => a.HasName c ∧ a.SparesShutdown c i) between c') {m : Node}
    (node : c.nodes[i]? = some m) (noted : ⟨lock, n.name, .exclusive⟩ ∈ m.desk.held.held)
    {ended : Cluster} (allowed : a.HasName c' ∧ a.SparesShutdown c' i)
    (down : c'.ShutsDown a ended i ticket n)
    (run' : ended.Run (fun _ c a => a.HasName c) later c'') : ¬ c''.store.Owns n.name lock := by
  obtain ⟨p, post, shown⟩ := shows.post node
  rw [shown.desk] at noted
  have name : n.name = p.desk.settings.node :=
    (spared.fenced.tidy.closes i p post).held _ noted
  rw [name] at noted
  have without : f.Spared _ i := { spared with accounted := spared.accounted.without post noted }
  obtain ⟨f', shows', spared'⟩ := spared_run run shows without
  obtain ⟨g, shows'', spared'', retires⟩ := retires_after shows' spared' allowed down run'
  intro owns
  rw [shows''.store] at owns
  exact (retires.owns spared'' owns).2 ⟨name, rfl⟩

end ShutdownLemmas

/-- The node of a place has noted the lock at some time on the way from one cluster to another. -/
def Cluster.Noted (Allowed : List Action → Cluster → Action → Prop) (c₀ c : Cluster) (i : Nat)
    (lock : HeldLock) : Prop :=
  ∃ past c₁ later n, c₀.Run Allowed past c₁ ∧ c₁.Run Allowed later c ∧ c₁.nodes[i]? = some n ∧
    lock ∈ n.desk.held.held

/-- A node that was told to shut down is told so when its shutdown is over. From then on it announces
no slice and takes no part in the protocol, whatever the tasks do that its shutdown did not wait for.
It owns no lock but those that its name owned before the first node joined, and of those none that it
has ever noted as its own. -/
theorem Cluster.Run.shut_down {c₀ c c' : Cluster} {past : List Action} {i : Nat} {a : Action}
    {ticket : Option Nat} {n : Node}
    (run : c₀.Run (fun _ c a => a.HasName c ∧ a.SparesShutdown c i) past c)
    (alone : c₀.nodes = []) (allowed : a.HasName c ∧ a.SparesShutdown c i)
    (down : c.ShutsDown a c' i ticket n) :
    (∀ number, ticket = some number → (number, .done) ∈ n.outbox) ∧
    ∀ later c'', c'.Run (fun _ c a => a.HasName c) later c'' → ∃ m, c''.IsOut i m ∧
      m.name = n.name ∧ m.desk.finished = n.desk.finished ∧
      ∀ name, c''.store.Owns n.name name → c₀.store.Owns n.name name ∧
        ¬ Cluster.Noted (fun _ c a => a.HasName c ∧ a.SparesShutdown c i) c₀ c i
          ⟨name, n.name, .exclusive⟩ := by
  obtain ⟨f, shows, spared⟩ := spared_run run (.bare alone) (.bare c₀ i)
  obtain ⟨f', step, shows'⟩ := shows.act down.acted
  refine ⟨(retires_of_over down shows spared step shows').2, fun later c'' run' => ?_⟩
  obtain ⟨g, shows'', spared'', retires⟩ := retires_after shows spared allowed down run'
  obtain ⟨q, post, name, retired⟩ := id retires
  obtain ⟨m, node, shown⟩ := shows''.node post
  refine ⟨m, isOut_of_retired node shown (spared''.fenced.tidy.posts i q post)
    (spared''.opened i q post) retired, ?_, ?_, fun lock owns => ⟨?_, ?_⟩⟩
  · rw [Node.name, shown.desk, name]
  · rw [shown.desk, retired.finished]
  · exact retires.owns spared'' (shows''.store ▸ owns)
  · rintro ⟨past₁, c₁, between, n₁, run₁, run₂, node₁, noted⟩
    obtain ⟨f₁, shows₁, spared₁⟩ := spared_run run₁ (.bare alone) (.bare c₀ i)
    exact not_owns_of_noted shows₁ spared₁ run₂ node₁ noted allowed down run' owns

/-! ## A shutdown that leaves jobs behind -/

instance (c : Cluster) (i : Nat) : (a : Action) → Decidable (a.SparesShutdown c i)
  | .answer j number fault =>
    inferInstanceAs (Decidable (j = i → c.isShutdown i number = true → fault = none))
  | .pass _ | .join _ _ _ | .register _ _ | .submit _ _ _ | .send _ _ _ | .leave _ | .receive _
  | .tickItself _ | .proceed _ _ | .finish _ _ _ | .wake _ _ => isTrue trivial

/-- A node shuts down while it runs a job and another one waits for its permit. It has given up the
lock of their slice when the shutdown is over, and goes on with both jobs. -/
theorem Cluster.Run.shut_down_abandoned : ∃ past c c' n later c'' m,
    (Cluster.start .newYear2024).Run (fun _ c a => a.HasName c ∧ a.SparesShutdown c 0) past c ∧
      (Cluster.start .newYear2024).nodes = [] ∧
      (Action.answer 0 6 none).HasName c ∧ (Action.answer 0 6 none).SparesShutdown c 0 ∧
      c.store.Owns "a" (Slice.mk .newYear2024).advanceLock ∧
      c.ShutsDown (.answer 0 6 none) c' 0 (some 4) n ∧
      c'.Run (fun _ c a => a.HasName c) later c'' ∧ c''.IsOut 0 m ∧
      n.desk.starts Job.other.id ⟨.newYear2024⟩ = 0 ∧
      m.desk.starts Job.other.id ⟨.newYear2024⟩ = 1 ∧ m.desk.finished = n.desk.finished ∧
      (4, Reply.done) ∈ n.outbox ∧
      ¬ c''.store.Owns "a" (Slice.mk .newYear2024).advanceLock := by
  have played : ((Cluster.start .newYear2024).play?
      (fun _ c a => a.HasName c ∧ a.SparesShutdown c 0) [] (Action.abandoned.take 29)).bind
      (fun r => (r.2.act? (.answer 0 6 none)).bind fun c' =>
        (c'.play? (fun _ c a => a.HasName c) []
          (Action.abandoned.drop 30 ++ [.answer 0 7 none])).bind fun r' =>
          r.2.nodes[0]?.bind fun before => c'.nodes[0]?.bind fun n => r'.2.nodes[0]?.map fun m =>
            (r.2.store.owner (Slice.mk .newYear2024).advanceLock, n.name,
              before.tasks.map fun t => (t.number, t.role), n.isAtWork 6,
              n.desk.starts Job.other.id ⟨.newYear2024⟩,
              m.desk.starts Job.other.id ⟨.newYear2024⟩)) =
      some (some "a", "a", [(4, .drain ⟨.newYear2024⟩), (5, .job 4), (6, .command (some 4) .shutdown)],
        false, 0, 1) := rfl
  obtain ⟨⟨past, c⟩, ends, shown⟩ := Option.bind_eq_some_iff.mp played
  obtain ⟨c', acted, shown⟩ := Option.bind_eq_some_iff.mp shown
  obtain ⟨⟨later, c''⟩, ends', shown⟩ := Option.bind_eq_some_iff.mp shown
  obtain ⟨before, there, shown⟩ := Option.bind_eq_some_iff.mp shown
  obtain ⟨n, node, shown⟩ := Option.bind_eq_some_iff.mp shown
  obtain ⟨m, node', facts⟩ := Option.map_eq_some_iff.mp shown
  simp only [Prod.mk.injEq] at facts
  obtain ⟨owned, name, tasks, gone, zero, one⟩ := facts
  have mem : (6, Role.command (some 4) .shutdown) ∈ before.tasks.map fun t => (t.number, t.role) := by
    rw [tasks]
    simp
  obtain ⟨t, there', same⟩ := List.mem_map.mp mem
  obtain ⟨number, role⟩ := Prod.mk.inj same
  have down : c.ShutsDown (.answer 0 6 none) c' 0 (some 4) n :=
    ⟨acted, node, before, t, there, there', role, number ▸ gone⟩
  have run := Cluster.Run.of_play _ .nil ends
  have run' : c'.Run (fun _ c a => a.HasName c) later c'' := Cluster.Run.of_play _ .nil ends'
  have name' : (Action.answer 0 6 none).HasName c := trivial
  have spares : (Action.answer 0 6 none).SparesShutdown c 0 := fun _ _ => rfl
  obtain ⟨told, after⟩ := run.shut_down rfl ⟨name', spares⟩ down
  obtain ⟨m', out, -, finished, owns⟩ := after later c'' run'
  obtain rfl := Option.some.inj (node'.symm.trans out.node)
  refine ⟨past, c, c', n, later, c'', m, run, rfl, name', spares, .inl owned, down, run', out, zero,
    one, finished, told 4 rfl, fun mine => ?_⟩
  rcases (owns _ (name ▸ mine)).1 with free | shared
  · cases free
  · cases shared

/-! ## A lock from before -/

/-- A node joins and shuts down before it ticks. -/
def Action.visit : List Action :=
  [.join (.standard "a") .errands 0, .answer 0 0 none, .send 0 1 .shutdown, .receive 0]

/-- A node breaks off while it has a slice, and another one joins under its name. When that one has
shut down, its name still owns the lock, which it never took itself. -/
theorem Cluster.Run.shut_down_of_brokenOff : ∃ past₀ c₀ past c c' n,
    (Cluster.start .newYear2024).Run (fun _ c a => a.HasName c) past₀ c₀ ∧
      Cluster.Run (fun _ c a => a.HasName c ∧ a.SparesShutdown c 0) { c₀ with nodes := [] } past c ∧
      (Action.proceed 0 1).HasName c ∧ (Action.proceed 0 1).SparesShutdown c 0 ∧
      c.ShutsDown (.proceed 0 1) c' 0 (some 1) n ∧
      c'.store.Owns n.name (Slice.mk .newYear2024).advanceLock := by
  have played : ((Cluster.start .newYear2024).play? (fun _ c a => a.HasName c) []
      Action.errand).bind (fun r₀ => (Cluster.play? (fun _ c a => a.HasName c ∧ a.SparesShutdown c 0)
        [] { r₀.2 with nodes := [] } Action.visit).bind fun r =>
          (r.2.act? (.proceed 0 1)).bind fun c' => r.2.nodes[0]?.bind fun before =>
            c'.nodes[0]?.map fun n =>
              (before.tasks.map fun t => (t.number, t.role), n.isAtWork 1, n.name,
                c'.store.owner (Slice.mk .newYear2024).advanceLock)) =
      some ([(1, .command (some 1) .shutdown)], false, "a", some "a") := rfl
  obtain ⟨⟨past₀, c₀⟩, ends₀, shown⟩ := Option.bind_eq_some_iff.mp played
  obtain ⟨⟨past, c⟩, ends, shown⟩ := Option.bind_eq_some_iff.mp shown
  obtain ⟨c', acted, shown⟩ := Option.bind_eq_some_iff.mp shown
  obtain ⟨before, there, shown⟩ := Option.bind_eq_some_iff.mp shown
  obtain ⟨n, node, facts⟩ := Option.map_eq_some_iff.mp shown
  obtain ⟨tasks, gone, name, owned⟩ := by simpa only [Prod.mk.injEq] using facts
  obtain ⟨t, mem, same⟩ : ∃ t ∈ before.tasks,
      (t.number, t.role) = (1, Role.command (some 1) .shutdown) :=
    List.mem_map.mp (tasks ▸ List.mem_singleton_self _)
  obtain ⟨number, role⟩ := Prod.mk.inj same
  exact ⟨past₀, c₀, past, c, c', n, Cluster.Run.of_play _ .nil ends₀, Cluster.Run.of_play _ .nil ends,
    trivial, trivial, ⟨acted, node, before, t, there, mem, role, number ▸ gone⟩,
    .inl (name ▸ owned)⟩

end SliceScheduler
