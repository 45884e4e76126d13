import SliceScheduler.Proofs.Ownership
import SliceScheduler.Proofs.Shows
import SliceScheduler.Proofs.Closing
/-!
# One node for each slice

A node that works on a slice owns its lock until it shuts down and has waited for the slice as long
as it may. So no two nodes of different names work on one slice before.

1. `Fleet.Tidy` says that all nodes are tidy, that they own the locks of the slices that they work
   on unless they have let go of their locks, and that their names differ;
2. `Fleet.Tidy.step` says that every step keeps this up;
3. `Fleet.Tidy.exclusive` is the result: a slice is worked on by one node at a time.
-/
namespace SliceScheduler

/-- All nodes are tidy and have different names. They own the locks of the slices that they work on
until they let go of their locks, which only a shutdown does. -/
structure Fleet.Tidy (f : Fleet) : Prop where
  posts : ∀ i p, f.posts i = some p → p.Tidy f.store.pointer
  closes : ∀ i p, f.posts i = some p → p.Closes
  locks : ∀ i p x, f.posts i = some p → ¬ p.desk.HasLetGo → p.desk.progressOf x ≠ none →
    f.store.owner x.advanceLock = some p.desk.settings.node
  names : ∀ i j p q, f.posts i = some p → f.posts j = some q →
    p.desk.settings.node = q.desk.settings.node → i = j

/-- A node that joins has another name than the nodes that are there. -/
def Fleet.IsNew (f : Fleet) : Action → Prop
  | .join settings _ _ => ∀ i p, f.posts i = some p → p.desk.settings.node ≠ settings.node
  | _ => True

/-- A node that joins the cluster has a name that no post of the fleet has. -/
theorem Cluster.Shows.isNew {c : Cluster} {f : Fleet} {a : Action} (shows : c.Shows f)
    (name : a.HasName c) : f.IsNew a := by
  cases a with
  | join settings registry ticket =>
    intro i p post same
    obtain ⟨n, node, shown⟩ := shows.node post
    refine name n (List.mem_of_getElem? node) ?_
    rw [shown.desk, same]
  | _ => trivial

namespace ExclusionLemmas

open Post TidyLemmas

variable {pointer pointer' : Option Slice} {p q : Post} {e : Effect} {k : Nat} {s : TaskStage}
  {now : Instant} {store store' : MemoryStore} {prompt : Prompt}

/-! ## Steps from outside -/

/-- What a task relies on and does when it has just begun. -/
theorem opens_facts {a : Action} {t : TaskStage} (opens : t.Opens a) :
    (∀ progress : Slice → Option Progress, t.Fits progress pointer) ∧ t.drains? = none ∧
      t.returns? = none ∧ t.walks? = none := by
  cases t with
  | submission | rest | hold => exact ⟨fun _ => trivial, rfl, rfl, rfl⟩
  | guard mover => exact ⟨fun _ => trivial, rfl, rfl, rfl⟩
  | _ => cases opens

/-- A new task that has nothing to do with slices yet. -/
theorem tidy_begin {a : Action} (tidy : p.Tidy pointer) {inbox : List (Nat × Command)}
    (desk : e.desk.progress = p.desk.progress) (handles : ∀ s, { p with inbox }.Handles s e)
    (spawned : e.spawned = none)
    (next : ∀ t, e.next = some t →
      t.Opens a ∧ (t.isCommand = true → p.loop = .idle ∧ e.loop = .busy))
    (loop : e.loop = p.loop ∨ p.loop = .idle) : ({ p with inbox }.begin e).Tidy pointer := by
  have guarded : { p with inbox }.Guarded := tidy.guarded.congr rfl rfl rfl
  have same : e.desk.progressOf = p.desk.progressOf := progressOf_of_same desk
  have old {j : Nat} {t : TaskStage} (stage : ({ p with inbox }.begin e).stages j = some t) :
      e.next = some t ∧ j = p.nextNumber ∨ p.stages j = some t ∧ j ≠ p.nextNumber := by
    rcases stages_apply stage with ⟨rfl, same⟩ | ⟨-, -, some⟩ | ⟨other, before⟩
    · exact .inl ⟨same, rfl⟩
    · cases spawned.symm.trans some
    · exact .inr ⟨before, other⟩
  have plain {t : TaskStage} (new : e.next = some t) := @opens_facts pointer a t (next t new).1
  have idle {j : Nat} {t : TaskStage} (stage : p.stages j = some t) (command : t.isCommand = true) :
      p.loop ≠ .idle := by
    rw [tidy.busy j t stage command]
    nofun
  refine ⟨guarded.begin handles, ?busy, ?oneCommand, ?fits, ?oneDrain, ?behind⟩
  case busy =>
    intro j t stage command
    show e.loop = _
    rcases old stage with ⟨new, -⟩ | ⟨before, -⟩
    · exact ((next t new).2 command).2
    · rcases loop with same | free
      · rw [same]
        exact tidy.busy j t before command
      · exact absurd free (idle before command)
  case oneCommand =>
    intro j j' t t' first command second command'
    rcases old first with ⟨new, rfl⟩ | ⟨before, -⟩
    · rcases old second with ⟨-, rfl⟩ | ⟨before', -⟩
      · rfl
      · exact absurd ((next t new).2 command).1 (idle before' command')
    · rcases old second with ⟨new, -⟩ | ⟨before', -⟩
      · exact absurd ((next t' new).2 command').1 (idle before command)
      · exact tidy.oneCommand j j' t t' before command before' command'
  case fits =>
    intro j t stage
    show t.Fits e.desk.progressOf pointer
    rw [same]
    rcases old stage with ⟨new, -⟩ | ⟨before, -⟩
    · exact (plain new).1 _
    · exact tidy.fits j t before
  case oneDrain =>
    intro j j' t t' x first drains second drains'
    rcases old first with ⟨new, -⟩ | ⟨before, -⟩
    · cases drains.symm.trans (plain new).2.1
    · rcases old second with ⟨new, -⟩ | ⟨before', -⟩
      · cases drains'.symm.trans (plain new).2.1
      · exact tidy.oneDrain j j' t t' x before drains before' drains'
  case behind =>
    intro j j' t t' x y first returns second walks le
    show e.desk.progressOf x = _
    rw [same]
    rcases old first with ⟨new, -⟩ | ⟨before, -⟩
    · cases returns.symm.trans (plain new).2.2.1
    · rcases old second with ⟨new, -⟩ | ⟨before', -⟩
      · cases walks.symm.trans (plain new).2.2.2
      · exact tidy.behind j j' t t' x y before returns before' walks le

/-- A node begins to carry out a command. -/
theorem tidy_obey (tidy : p.Tidy pointer) {ticket : Option Nat} {command : Command}
    {inbox : List (Nat × Command)} (idle : p.loop = .idle)
    (obeys : { p with inbox }.Obeys ticket command e) :
    ({ p with inbox }.begin e).Tidy pointer := by
  have handles := obeys.handles
  cases obeys <;>
  · refine tidy_begin (a := .pass default) tidy rfl handles rfl (fun t new => ?_) (.inr idle)
    cases new <;> exact ⟨trivial, fun _ => ⟨idle, rfl⟩⟩

/-- A node begins with a submission. -/
theorem tidy_submit (tidy : p.Tidy pointer) (ticket : Nat) (job : Job) :
    (p.begin (p.submitting ticket job)).Tidy pointer := by
  unfold submitting
  split <;>
  · refine tidy_begin (a := .submit 0 ticket job) tidy rfl (fun s => .of_outside rfl rfl rfl) rfl
      (fun t new => ?_) (.inl rfl)
    cases new <;> exact ⟨⟨0, rfl⟩, fun none => (by cases none)⟩

/-- A node that has just begun to set the pointer. -/
theorem tidy_joining (settings : NodeSettings) (registry : Registry) (ticket : Nat) :
    (joining settings registry ticket).Tidy pointer := by
  refine ⟨.joining .., ?busy, ?oneCommand, ?fits, ?oneDrain, ?behind⟩
  case busy =>
    intro k s stage command
    obtain ⟨-, rfl⟩ := stages_joining stage
    cases command
  case oneCommand =>
    intro k k' s s' stage command
    obtain ⟨-, rfl⟩ := stages_joining stage
    cases command
  case fits =>
    intro k s stage
    obtain ⟨-, rfl⟩ := stages_joining stage
    trivial
  case oneDrain =>
    intro k k' s s' x stage drains
    obtain ⟨-, rfl⟩ := stages_joining stage
    cases drains
  case behind =>
    intro k k' s s' x q stage returns
    obtain ⟨-, rfl⟩ := stages_joining stage
    cases returns

/-- A node whose tasks and slices stay as they are. -/
theorem tidy_congr (tidy : p.Tidy pointer) (desk : q.desk.progress = p.desk.progress)
    (stages : q.stages = p.stages) (nextNumber : q.nextNumber = p.nextNumber)
    (advancing : q.advancing = p.advancing) (loop : q.loop = p.loop) : q.Tidy pointer := by
  have same : q.desk.progressOf = p.desk.progressOf := progressOf_of_same desk
  refine ⟨tidy.guarded.congr stages nextNumber advancing, ?busy, ?oneCommand, ?fits, ?oneDrain,
    ?behind⟩
  case busy =>
    rw [stages, loop]
    exact tidy.busy
  case oneCommand =>
    rw [stages]
    exact tidy.oneCommand
  case fits =>
    rw [stages, same]
    exact tidy.fits
  case oneDrain =>
    rw [stages]
    exact tidy.oneDrain
  case behind =>
    rw [stages, same]
    exact tidy.behind

/-- The pointer moves on while the node does nothing. -/
theorem tidy_pointer (tidy : p.Tidy pointer)
    (moves : pointer' = pointer ∨ pointer = none ∨ ∃ x y, pointer = some x ∧ pointer' = some y ∧
      x ≤ y ∧ ∀ k s, p.stages k = some s → s.moves? ≠ some x) : p.Tidy pointer' := by
  refine { tidy with fits := fun k s stage => ?_ }
  have fits := tidy.fits k s stage
  rcases moves with rfl | rfl | ⟨x, y, rfl, rfl, le, other⟩
  · exact fits
  · exact fits_of_none fits
  · refine fits_forward fits le ?_
    cases moves : s.moves? with
    | none => rfl
    | some z =>
      obtain rfl := Option.some.inj (fits_of_moves fits moves).2
      exact absurd moves (other k s stage)

/-! ## Steps of a task -/

/-- Who gives back a lock gives back its own, of a slice that it forgets or in a shutdown. -/
theorem frees_of_unlock (closes : p.Closes) (stage : p.stages k = some s) {name owner : String}
    (calls : s.op? p.desk.settings = some (.unlockExclusive name owner)) :
    owner = p.desk.settings.node ∧
      (p.desk.HasLetGo ∨ ∃ x, s.frees? = some x ∧ name = x.advanceLock) := by
  rcases TaskStage.makes calls with ⟨mover, announced, x, moved, rfl, same, own⟩ |
    ⟨ticket, dispatch, announced, q, x, others, rfl, same, own⟩ | ⟨ticket, lock, others, live, rfl⟩
  · exact ⟨own, .inr ⟨x, rfl, same⟩⟩
  · exact ⟨own, .inr ⟨x, rfl, same⟩⟩
  · have own := closes.gives k _ stage lock List.mem_cons_self
    refine ⟨?_, .inl (closes.letGo k _ stage nofun)⟩
    obtain ⟨lockName, lockOwner, mode⟩ := lock
    cases mode with
    | exclusive =>
      obtain ⟨-, rfl⟩ := Operation.unlockExclusive.inj (Option.some.inj calls)
      exact own
    | shared => cases calls

/-- Who sets off the draining of a slice that it walked to has its lock. -/
theorem owner_taken (works : p.Works now store k s prompt e store') {x : Slice}
    (takes : s.takes? = some x) (sets : e.spawned = some (.sets x)) :
    store'.owner x.advanceLock = some p.desk.settings.node := by
  cases works with
  | @walk ticket dispatch announced t fault answer store' made =>
    cases t with
    | take q current limit y before =>
      obtain rfl := Option.some.inj takes
      rw [spawned_afterWalk] at sets
      rcases answer with e | _ | _
      · cases sets
      · cases sets
      · exact MemoryStore.owner_of_taken made rfl
    | _ => cases takes
  | _ => cases takes

/-- A node keeps the locks of the slices that it goes on working on. -/
theorem locks_work {x : Slice} (works : p.Works now store k s prompt e store')
    (tidy : p.Tidy store.pointer) (closes : p.Closes) (stage : p.stages k = some s)
    (distinct : p.Distinct) (here : ¬ p.desk.HasLetGo)
    (locks : ∀ x, p.desk.progressOf x ≠ none →
      store.owner x.advanceLock = some p.desk.settings.node)
    (at_work : e.desk.progressOf x ≠ none) :
    store'.owner x.advanceLock = some p.desk.settings.node := by
  have fits := tidy.fits k s stage
  rcases ClosingLemmas.at_work_cases fits (works.shift fits).change at_work with
    before | ⟨takes, sets⟩
  · have mine := locks x before
    rcases works.store with rfl | ⟨op, fault, answer, calls, -, made⟩
    · exact mine
    · rcases MemoryStore.owner_cases made x.advanceLock with same | ⟨o, rfl, free, -⟩ | ⟨o, rfl, -⟩
      · rw [same, mine]
      · cases free.symm.trans mine
      · -- a lock that the node gives back is that of a slice that it forgets
        rcases (frees_of_unlock closes stage calls).2 with gone | ⟨y, frees, name⟩
        · exact absurd gone here
        · obtain rfl := distinct k s x y stage frees before name
          exact absurd (forgets works frees) at_work
  · exact owner_taken works takes sets

/-- A node leaves alone the locks of other nodes. -/
theorem locks_others (works : p.Works now store k s prompt e store') (closes : p.Closes)
    (stage : p.stages k = some s) {name node : String} (owned : store.owner name = some node)
    (other : node ≠ p.desk.settings.node) :
    store'.owner name = some node := by
  rcases works.store with rfl | ⟨op, fault, answer, calls, -, made⟩
  · exact owned
  · rcases MemoryStore.owner_cases made name with same | ⟨o, rfl, free, -⟩ | ⟨o, rfl, mine⟩
    · rw [same, owned]
    · cases free.symm.trans owned
    · rw [owned, Option.some.injEq] at mine
      exact absurd (mine.trans (frees_of_unlock closes stage calls).1) other

end ExclusionLemmas

open ExclusionLemmas TidyLemmas

namespace Fleet

variable {f f' : Fleet} {i j : Nat} {p q : Post} {store : MemoryStore} {x : Slice}

/-- A slice is worked on by one node at a time. -/
theorem Tidy.exclusive (tidy : f.Tidy) (post : f.posts i = some p) (post' : f.posts j = some q)
    (here : ¬ p.desk.HasLetGo) (here' : ¬ q.desk.HasLetGo)
    (at_work : p.desk.progressOf x ≠ none) (at_work' : q.desk.progressOf x ≠ none) : i = j := by
  refine tidy.names i j p q post post' (Option.some.inj ?_)
  rw [← tidy.locks i p x post here at_work, ← tidy.locks j q x post' here' at_work']

theorem Tidy.bare (c : Cluster) : (bare c).Tidy := by
  have absent {i : Nat} {p : Post} : (Fleet.bare c).posts i ≠ some p := nofun
  exact ⟨fun _ _ post => absurd post absent, fun _ _ post => absurd post absent,
    fun _ _ _ post => absurd post absent, fun _ _ _ _ post => absurd post absent⟩

/-- One node changes, and the others keep what they rely on. -/
theorem Tidy.put (tidy : f.Tidy) (post : f.posts i = some p) (here : q.Tidy store.pointer)
    (closes : q.Closes) (settings : q.desk.settings = p.desk.settings)
    (locks : ∀ x, ¬ q.desk.HasLetGo → q.desk.progressOf x ≠ none →
      store.owner x.advanceLock = some p.desk.settings.node)
    (others : ∀ j r, j ≠ i → f.posts j = some r → r.Tidy store.pointer)
    (locks' : ∀ j r x, j ≠ i → f.posts j = some r → ¬ r.desk.HasLetGo →
      r.desk.progressOf x ≠ none → store.owner x.advanceLock = some r.desk.settings.node) :
    ({ f with store }.put i q).Tidy := by
  refine ⟨?_, ?_, ?_, ?_⟩
  · intro j r placed
    rcases posts_put placed with ⟨-, rfl⟩ | ⟨other, before⟩
    · exact here
    · exact others j r other before
  · intro j r placed
    rcases posts_put placed with ⟨-, rfl⟩ | ⟨-, before⟩
    · exact closes
    · exact tidy.closes j r before
  · intro j r x placed still at_work
    rcases posts_put placed with ⟨-, rfl⟩ | ⟨other, before⟩
    · rw [settings]
      exact locks x still at_work
    · exact locks' j r x other before still at_work
  · intro j j' r r' placed placed' same
    rcases posts_put placed with ⟨rfl, rfl⟩ | ⟨-, before⟩
    · rcases posts_put placed' with ⟨rfl, -⟩ | ⟨-, before'⟩
      · rfl
      · exact tidy.names j j' p r' post before' (settings ▸ same)
    · rcases posts_put placed' with ⟨rfl, rfl⟩ | ⟨-, before'⟩
      · exact tidy.names j j' r p before post (settings ▸ same)
      · exact tidy.names j j' r r' before before' same

/-- One node changes, and neither the store nor its slices do. -/
theorem Tidy.keep (tidy : f.Tidy) (post : f.posts i = some p) (here : q.Tidy f.store.pointer)
    (closes : q.Closes) (settings : q.desk.settings = p.desk.settings)
    (progress : q.desk.progress = p.desk.progress) (held : q.desk.held = p.desk.held)
    (stopped : p.desk.stopped = true → q.desk.stopped = true) : (f.put i q).Tidy := by
  refine @Tidy.put f i p q f.store tidy post here closes settings (fun x still at_work => ?_)
    (fun j r _ => tidy.posts j r) (fun j r x _ => tidy.locks j r x)
  rw [progressOf_of_same progress] at at_work
  exact tidy.locks i p x post (fun gone => still ⟨stopped gone.1, held ▸ gone.2⟩) at_work

/-- A node begins to carry out a command. -/
theorem Tidy.obey (tidy : f.Tidy) (inbox : List (Nat × Command)) (post : f.posts i = some p)
    {ticket : Option Nat} {command : Command} {e : Effect} (idle : p.loop = .idle)
    (obeys : { p with inbox }.Obeys ticket command e) :
    (f.put i ({ p with inbox }.begin e)).Tidy := by
  have here := tidy.posts i p post
  have begins := obeys.begins (a := .pass default) inbox
  exact tidy.keep post (tidy_obey here idle obeys) ((tidy.closes i p post).obey here idle obeys)
    begins.settings begins.progress begins.held obeys.stopped

/-- A new node, with a name of its own. -/
theorem Tidy.join (tidy : f.Tidy) {settings : NodeSettings} {registry : Registry} {ticket : Nat}
    (isNew : f.IsNew (.join settings registry ticket)) :
    (f.put i (.joining settings registry ticket)).Tidy := by
  refine ⟨?_, ?_, ?_, ?_⟩
  · intro j r placed
    rcases posts_put placed with ⟨-, rfl⟩ | ⟨-, before⟩
    · exact tidy_joining ..
    · exact tidy.posts j r before
  · intro j r placed
    rcases posts_put placed with ⟨-, rfl⟩ | ⟨-, before⟩
    · exact .joining ..
    · exact tidy.closes j r before
  · intro j r x placed still at_work
    rcases posts_put placed with ⟨-, rfl⟩ | ⟨-, before⟩
    · exact absurd Std.ExtTreeMap.getElem?_empty at_work
    · exact tidy.locks j r x before still at_work
  · intro j j' r r' placed placed' same
    rcases posts_put placed with ⟨rfl, rfl⟩ | ⟨-, before⟩
    · rcases posts_put placed' with ⟨rfl, -⟩ | ⟨-, before'⟩
      · rfl
      · exact absurd same.symm (isNew j' r' before')
    · rcases posts_put placed' with ⟨rfl, rfl⟩ | ⟨-, before'⟩
      · exact absurd same (isNew j r before)
      · exact tidy.names j j' r r' before before' same

/-- A node that moves the pointer past a slice has its lock. -/
theorem Tidy.moves (tidy : f.Tidy) (post : f.posts i = some p) {k : Nat} {s : TaskStage}
    (stage : p.stages k = some s) (moves : s.moves? = some x) :
    ¬ p.desk.HasLetGo ∧ p.desk.progressOf x ≠ none := by
  have drained := (fits_of_moves ((tidy.posts i p post).fits k s stage) moves).1
  have at_work : p.desk.progressOf x ≠ none := by
    rw [drained]
    nofun
  refine ⟨fun gone => ?_, at_work⟩
  rcases (tidy.closes i p post).notes with noted | ⟨-, idle⟩
  · have noted := noted x at_work
    rw [gone.2] at noted
    cases noted
  · cases s with
    | turn => cases idle k _ stage
    | _ => cases moves

/-- A task takes a step. -/
theorem Tidy.work {k : Nat} {s : TaskStage} {prompt : Prompt} {e : Effect} (tidy : f.Tidy)
    (distinct : p.Distinct) (post : f.posts i = some p) (stage : p.stages k = some s)
    (works : p.Works f.now f.store k s prompt e store) :
    ({ f with store }.put i (p.apply k e)).Tidy := by
  have here := tidy.posts i p post
  have closes := tidy.closes i p post
  have shift := works.shift (here.fits k s stage)
  refine tidy.put post (here.apply stage (works.handles here.guarded stage) shift)
    (closes.apply here distinct stage works) works.settings (fun x still => ?_)
    (fun j r other before => ?_) (fun j r x other before still at_work => ?_)
  · have still (gone : p.desk.HasLetGo) : False :=
      still (closes.hasLetGo here stage works.letting gone)
    exact locks_work works here closes stage distinct still fun x => tidy.locks i p x post still
  · -- a slice that the pointer moves past is at work on this node only
    refine tidy_pointer (tidy.posts j r before) ?_
    have alone {x : Slice} (moves : s.moves? = some x) (k' : Nat) (s' : TaskStage)
        (stage' : r.stages k' = some s') : s'.moves? ≠ some x := fun moves' => by
      obtain ⟨still, at_work⟩ := tidy.moves post stage moves
      obtain ⟨still', at_work'⟩ := tidy.moves before stage' moves'
      exact other (tidy.exclusive before post still' still at_work' at_work)
    cases shift.change with
    | same _ pointers =>
      rcases pointers with same | none
      · exact .inl same
      · exact .inr (.inl none)
    | @move x y moves there moved le =>
      exact .inr (.inr ⟨x, y, there, moved, le, alone moves⟩)
    | forget _ same => exact .inl same
    | take _ same => exact .inl same
    | redrain _ same => exact .inl same
    | drained _ same => exact .inl same
  · exact locks_others works closes stage (tidy.locks j r x before still at_work) fun same =>
      other (tidy.names j i r p before post same)

/-- Every step of a fleet keeps it tidy. -/
theorem Tidy.step {a : Action} (tidy : f.Tidy) (distinct : ∀ i p, f.posts i = some p → p.Distinct)
    (isNew : f.IsNew a) (step : f.Step a f') : f'.Tidy := by
  cases step with
  | pass now => exact ⟨tidy.posts, tidy.closes, tidy.locks, tidy.names⟩
  | join free => exact tidy.join isNew
  | @register i p registry post =>
    exact tidy.keep post (tidy_congr (tidy.posts i p post) rfl rfl rfl rfl rfl)
      ((tidy.closes i p post).congr rfl rfl rfl rfl rfl rfl) rfl rfl rfl id
  | @submit i p ticket job post opened =>
    have here := tidy.posts i p post
    refine tidy.keep post (tidy_submit here ticket job)
      ((tidy.closes i p post).submit here.guarded.fresh ticket job) (Post.settings_submitting ..)
      ?_ ?_ ?_ <;>
    · unfold Post.submitting
      split <;> first | rfl | exact id
  | @send i p ticket command post opened =>
    unfold Post.send
    split <;>
    · exact tidy.keep post (tidy_congr (tidy.posts i p post) rfl rfl rfl rfl rfl)
        ((tidy.closes i p post).congr rfl rfl rfl rfl rfl rfl) rfl rfl rfl id
  | @leave i p post opened =>
    exact tidy.keep post (tidy_congr (tidy.posts i p post) rfl rfl rfl rfl rfl)
      ((tidy.closes i p post).congr rfl rfl rfl rfl rfl rfl) rfl rfl rfl id
  | @receive i p ticket command inbox e post opened idle waits obeys =>
    exact tidy.obey inbox post idle obeys
  | @abandon i p e post opened idle alone obeys =>
    exact tidy.obey p.inbox post idle obeys
  | @tickItself i p e post opened idle obeys =>
    exact tidy.obey p.inbox post idle obeys
  | @work i p k s prompt e store a post stage works same =>
    exact tidy.work (distinct i p post) post stage works

end Fleet

end SliceScheduler
