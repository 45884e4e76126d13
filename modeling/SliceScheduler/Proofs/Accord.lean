import SliceScheduler.Proofs.Clearing
import SliceScheduler.Proofs.Coverage
import SliceScheduler.Proofs.Scenario
import SliceScheduler.Proofs.Visits
/-!
# Slices at work and their locks

Where a lock belongs is said in three places: the store has the owner of each lock, the progress of
a node its slices at work, and its record the locks that it has taken. As long as no call fails and
nothing is shut down the three agree between any two calls to the store.

1. `Cluster.Accord` is what the three say about each other;
2. `Fleet.Calm` puts together what holds of a fleet in such a run;
3. `Cluster.Run.accord` is the result, together with what a tick is rid of once it has given back
   its stale slices, and `Cluster.Run.slice_iff_of_isWhole` says what becomes of it when all slices
   are of whole milliseconds.
-/
namespace SliceScheduler

open ClearingLemmas TidyLemmas VisitsLemmas

/-! ## Runs -/

/-- No call fails, nothing is shut down, and a node that joins has a name of its own. -/
abbrev Action.IsCalmIn (c : Cluster) (a : Action) : Prop := a.IsCalm ∧ a.HasName c

/-- No other slice that the node works on has the lock of the slice. Slices of whole milliseconds
have locks of their own; only the first pointer may begin between milliseconds. -/
def Desk.Tells (d : Desk) (x : Slice) : Prop :=
  ∀ y, d.progressOf y ≠ none → y.advanceLock = x.advanceLock → y = x

/-- Nodes that work on slices of whole milliseconds tell all of these by their locks. -/
theorem Desk.tells_of_isWhole {d : Desk} {x : Slice} (whole : x.IsWhole)
    (at_work : ∀ y, d.progressOf y ≠ none → y.IsWhole) : d.Tells x := fun y here same =>
  (at_work y here).eq_of_millis_eq whole (Slice.millis_of_advanceLock same)

/-- The owners of locks in the store, the progress of nodes, and the locks that they note say the
same about slices and locks. -/
structure Cluster.Accord (c : Cluster) : Prop where
  slice_iff : ∀ n ∈ c.nodes, ∀ x, n.desk.Tells x →
    (c.store.owner x.advanceLock = some n.name ↔ n.desk.progressOf x ≠ none) ∧
    (n.desk.progressOf x ≠ none ↔ n.desk.advanceLock x ∈ n.desk.held.held)
  owner_iff : ∀ n ∈ c.nodes, ∀ name, c.store.owner name = some n.name ↔
    ∃ x, n.desk.progressOf x ≠ none ∧ x.advanceLock = name
  held_iff : ∀ n ∈ c.nodes, ∀ lock, lock ∈ n.desk.held.held ↔
    ∃ x, n.desk.progressOf x ≠ none ∧ n.desk.advanceLock x = lock
  /-- No lock is left over. -/
  owned : ∀ name node, c.store.owner name = some node → ∃ n ∈ c.nodes, n.name = node
  /-- No two nodes work on one slice, or on slices of one lock. -/
  apart : ∀ (i j : Nat) n n' x y, c.nodes[i]? = some n → c.nodes[j]? = some n' →
    n.desk.progressOf x ≠ none → n'.desk.progressOf y ≠ none →
    x.advanceLock = y.advanceLock → i = j ∧ x = y

namespace Fleet

variable {f f' : Fleet} {first : Option Slice} {i j : Nat} {p q : Post} {x y : Slice}

/-- What holds of a fleet at any time while no call fails and nothing is shut down. -/
structure Calm (first : Option Slice) (f : Fleet) : Prop where
  visits : f.Visits first
  tidy : f.Tidy
  runs : f.Runs
  covered : f.Covered

theorem Calm.bare {c : Cluster} (empty : c.store = .empty) : (bare c).Calm c.store.pointer :=
  ⟨.bare c, .bare c, .bare c, .bare empty⟩

theorem Calm.step {c : Cluster} {a : Action} (calm : f.Calm first) (shows : c.Shows f)
    (allowed : a.IsCalmIn c) (step : f.Step a f') :
    ∃ first', (first = none ∨ first' = first) ∧ f'.Calm first' := by
  obtain ⟨first', grows, visits⟩ := calm.visits.grows calm.tidy.posts step
  exact ⟨first', grows, visits,
    calm.tidy.step (fun i p => calm.visits.distinct) (shows.isNew allowed.2) step,
    calm.runs.step calm.tidy.posts allowed.1.keepsRunning step,
    calm.covered.step calm.tidy calm.runs allowed.1 step⟩

/-- Slices at work on any two nodes are told apart by their locks. -/
theorem Calm.eq_of_advanceLock (calm : f.Calm first) (post : f.posts i = some p)
    (at_work : p.desk.progressOf x ≠ none) (follows : y.Follows first)
    (same : x.advanceLock = y.advanceLock) : x = y :=
  eq_of_follows ((calm.visits.posts i p post).desk x at_work) follows
    (Slice.millis_of_advanceLock same)

theorem Calm.owner_iff (calm : f.Calm first) (post : f.posts i = some p) (name : String) :
    f.store.owner name = some p.desk.settings.node ↔
      ∃ x, p.desk.progressOf x ≠ none ∧ x.advanceLock = name := by
  constructor
  · intro owned
    obtain ⟨j, q, x, there, same, facts⟩ := calm.covered.owned name _ owned
    obtain rfl := calm.tidy.names j i q p there post same
    obtain rfl := Option.some.inj (post.symm.trans there)
    exact ⟨x, facts⟩
  · rintro ⟨x, at_work, rfl⟩
    exact calm.tidy.locks i p x post (calm.runs.hasLetGo post) at_work

theorem Calm.held_iff (calm : f.Calm first) (post : f.posts i = some p) (lock : HeldLock) :
    lock ∈ p.desk.held.held ↔
      ∃ x, p.desk.progressOf x ≠ none ∧ p.desk.advanceLock x = lock := by
  constructor
  · intro mem
    obtain ⟨x, at_work, same⟩ := calm.covered.held i p post lock mem
    exact ⟨x, at_work, same.symm⟩
  · rintro ⟨x, at_work, rfl⟩
    rcases (calm.tidy.closes i p post).notes with noted | ⟨gone, -⟩
    · exact noted x at_work
    · exact absurd gone (calm.runs.hasLetGo post)

end Fleet

namespace AccordLemmas

variable {c₀ c : Cluster} {past : List Action} {first : Option Slice} {f : Fleet}

theorem calm_run (run : c₀.Run (fun _ c a => a.IsCalmIn c) past c) (alone : c₀.nodes = [])
    (empty : c₀.store = .empty) : ∃ f first, c.Shows f ∧ f.Calm first := by
  obtain ⟨f, shows, first, calm⟩ := run.invariant (P := fun _ f => ∃ first, f.Calm first) alone
    ⟨_, .bare empty⟩ fun past c f a f' _ shows ⟨first, calm⟩ allowed step => by
      obtain ⟨first', -, calm'⟩ := calm.step shows allowed step
      exact ⟨first', calm'⟩
  exact ⟨f, first, shows, calm⟩

theorem accord_of_calm (shows : c.Shows f) (calm : f.Calm first) : c.Accord := by
  have posts {i : Nat} {n : Node} (node : c.nodes[i]? = some n) :
      ∃ p, f.posts i = some p ∧ n.desk = p.desk := by
    obtain ⟨p, post, shown⟩ := shows.post node
    exact ⟨p, post, shown.desk⟩
  have owner_iff (n : Node) (mem : n ∈ c.nodes) (name : String) :
      c.store.owner name = some n.name ↔
        ∃ x, n.desk.progressOf x ≠ none ∧ x.advanceLock = name := by
    obtain ⟨i, node⟩ := List.mem_iff_getElem?.mp mem
    obtain ⟨p, post, desk⟩ := posts node
    rw [shows.store, Node.name, desk]
    exact calm.owner_iff post name
  have held_iff (n : Node) (mem : n ∈ c.nodes) (lock : HeldLock) :
      lock ∈ n.desk.held.held ↔
        ∃ x, n.desk.progressOf x ≠ none ∧ n.desk.advanceLock x = lock := by
    obtain ⟨i, node⟩ := List.mem_iff_getElem?.mp mem
    obtain ⟨p, post, desk⟩ := posts node
    rw [desk]
    exact calm.held_iff post lock
  refine ⟨fun n mem x tells => ⟨?_, ?_⟩, owner_iff, held_iff, fun name node owned => ?_,
    fun i j n n' x y node node' at_work at_work' same => ?_⟩
  · rw [owner_iff n mem]
    constructor
    · rintro ⟨y, at_work, same⟩
      exact tells y at_work same ▸ at_work
    · exact fun at_work => ⟨x, at_work, rfl⟩
  · rw [held_iff n mem]
    constructor
    · exact fun at_work => ⟨x, at_work, rfl⟩
    · rintro ⟨y, at_work, same⟩
      exact tells y at_work (congrArg HeldLock.name same) ▸ at_work
  · rw [shows.store] at owned
    obtain ⟨i, p, x, post, same, -⟩ := calm.covered.owned name node owned
    obtain ⟨n, there, shown⟩ := shows.node post
    exact ⟨n, List.mem_of_getElem? there, by rw [Node.name, shown.desk, same]⟩
  · obtain ⟨p, post, desk⟩ := posts node
    obtain ⟨q, post', desk'⟩ := posts node'
    rw [desk] at at_work
    rw [desk'] at at_work'
    obtain rfl := calm.eq_of_advanceLock post at_work
      ((calm.visits.posts j q post').desk y at_work') same
    exact ⟨calm.tidy.exclusive post post' (calm.runs.hasLetGo post) (calm.runs.hasLetGo post')
      at_work at_work', rfl⟩

/-- A tick that reads the pointer gives back the drained slices before it. -/
theorem clears_of_reads {c' : Cluster} {i k : Nat} {pointer x : Slice} {n : Node}
    (shows : c.Shows f) (calm : f.Calm first) (reads : c.Reads c' i k pointer)
    (node : c'.nodes[i]? = some n) (before : x < pointer)
    (drained : n.desk.progressOf x = some .drained) :
    ∃ f' first', c'.Shows f' ∧ f'.Calm first' ∧ x.Follows first' ∧ f'.Clears i k pointer x := by
  obtain ⟨f', step, shows'⟩ := shows.act reads.acted
  obtain ⟨m, op, node', waits, seeks⟩ := reads.seeks
  obtain ⟨p', post', shown'⟩ := shows'.post node
  have allowed : Action.IsCalmIn c (.answer i k none) := ⟨rfl, trivial⟩
  obtain ⟨first', -, calm'⟩ := calm.step shows allowed step
  rw [shown'.desk] at drained
  have at_work : p'.desk.progressOf x ≠ none := by
    rw [drained]
    nofun
  refine ⟨f', first', shows', calm', (calm'.visits.posts i p' post').desk x at_work, ?_⟩
  have there := reads.pointer
  rw [shows'.store] at there
  generalize acted : Action.answer i k none = a at step
  cases step with
  | @work j p l s prompt e store a post stage works same =>
    subst same
    cases prompt with
    | answer fault =>
      obtain ⟨rfl, rfl, rfl⟩ := Action.answer.inj acted
      obtain ⟨q, post'', shown⟩ := shows.post node'
      obtain rfl := Option.some.inj (post.symm.trans post'')
      have placed : ({ f with store }.put i (p.apply k e)).posts i = some (p.apply k e) :=
        Function.update_self ..
      obtain rfl := Option.some.inj (placed.symm.trans post')
      rw [walkCall_shows shown, stage] at waits
      cases s with
      | walk ticket dispatch announced t =>
        obtain rfl := Option.some.inj waits
        refine ⟨before, ⟨pointer, there, le_refl _⟩, _, post',
          clears_reads (calm.tidy.posts i p post) stage works seeks there ?_ before drained⟩
        intro s op next waits'
        refine reads.sought n op node ?_
        rw [walkCall_shows shown', show (p.apply k e).stages k = some s from
          (Function.update_self ..).trans next, show (p.apply k e).desk.settings = p.desk.settings
          from works.settings]
        exact waits'
      | _ => cases waits
    | _ => cases acted
  | _ => cases acted

/-- What a slice is like that a tick has given back, whatever happens afterwards. -/
theorem cleared_run {c' : Cluster} {later : List Action} {i k : Nat} {pointer x : Slice}
    (run : c.Run (fun _ c a => a.IsCalmIn c) later c') (shows : c.Shows f) (calm : f.Calm first)
    (follows : x.Follows first) (clears : f.Clears i k pointer x) :
    ∃ f' first', c'.Shows f' ∧ f'.Calm first' ∧ x.Follows first' ∧ f'.Clears i k pointer x := by
  obtain ⟨f', shows', first', kept⟩ := run.invariant_of_shows shows
    (P := fun _ f => ∃ first, f.Calm first ∧ x.Follows first ∧ f.Clears i k pointer x)
    ⟨first, calm, follows, clears⟩ (by
      rintro _ _ g a g' _ shows ⟨first', calm, follows, clears⟩ allowed step
      obtain ⟨first'', grows, calm'⟩ := calm.step shows allowed step
      exact ⟨first'', calm', follows_grow grows follows, clears.step calm.tidy step⟩)
  exact ⟨f', first', shows', kept⟩

end AccordLemmas

open AccordLemmas

/-- Between any two calls to the store, owners of locks, progress of nodes and noted locks say the
same. A slice that was drained and before the pointer when a tick read the pointer is not at work on
the node once the tick has given back its stale slices, nor is its lock owned or noted. -/
theorem Cluster.Run.accord {c₀ c : Cluster} {past : List Action}
    (run : c₀.Run (fun _ c a => a.IsCalmIn c) past c) (alone : c₀.nodes = [])
    (empty : c₀.store = .empty) :
    c.Accord ∧
    ∀ c' i k pointer n x, c.Reads c' i k pointer → c'.nodes[i]? = some n →
      x < pointer → n.desk.progressOf x = some .drained →
      ∀ later c'' n', c'.Run (fun _ c a => a.IsCalmIn c) later c'' → c''.nodes[i]? = some n' →
        (∀ op, n'.walkCall? k = some op → op.isReturn = false) →
        n'.desk.progressOf x = none ∧ n'.desk.advanceLock x ∉ n'.desk.held.held ∧
          c''.store.owner x.advanceLock ≠ some n'.name := by
  obtain ⟨f, first, shows, calm⟩ := calm_run run alone empty
  refine ⟨accord_of_calm shows calm, ?_⟩
  intro c' i k pointer n x reads node before drained later c'' n' run' node' released
  obtain ⟨f', first', shows', calm', follows', clears'⟩ :=
    clears_of_reads shows calm reads node before drained
  obtain ⟨g, last, shows'', calm'', follows, clears⟩ :=
    cleared_run run' shows' calm' follows' clears'
  obtain ⟨p, post, left, -⟩ := clears.post
  obtain ⟨q, post', shown⟩ := shows''.post node'
  obtain rfl := Option.some.inj (post.symm.trans post')
  have away : p.desk.progressOf x = none := by
    rcases left with away | ⟨ticket, dispatch, announced, y, others, stage, -⟩
    · exact away
    · have waits := walkCall_shows shown k
      rw [stage] at waits
      cases released _ waits
  have alone {y : Slice} (at_work : p.desk.progressOf y ≠ none)
      (same : y.advanceLock = x.advanceLock) : False := by
    obtain rfl := calm''.eq_of_advanceLock post at_work follows same
    exact at_work away
  rw [shows''.store, Node.name, shown.desk, Ne, calm''.owner_iff post, calm''.held_iff post]
  refine ⟨away, ?_, ?_⟩
  · rintro ⟨y, at_work, same⟩
    exact alone at_work (congrArg HeldLock.name same)
  · rintro ⟨y, at_work, same⟩
    exact alone at_work same

/-- A node that works on slices of whole milliseconds owns the lock of such a slice just if the slice
is at work on it, and just if it has noted the lock. -/
theorem Cluster.Run.slice_iff_of_isWhole {c₀ c : Cluster} {past : List Action}
    (run : c₀.Run (fun _ c a => a.IsCalmIn c) past c) (alone : c₀.nodes = [])
    (empty : c₀.store = .empty) {n : Node} (mem : n ∈ c.nodes)
    (at_work : ∀ y, n.desk.progressOf y ≠ none → y.IsWhole) {x : Slice} (whole : x.IsWhole) :
    (c.store.owner x.advanceLock = some n.name ↔ n.desk.progressOf x ≠ none) ∧
    (n.desk.progressOf x ≠ none ↔ n.desk.advanceLock x ∈ n.desk.held.held) := by
  obtain ⟨f, first, shows, calm⟩ := calm_run run alone empty
  exact (accord_of_calm shows calm).slice_iff n mem x (Desk.tells_of_isWhole whole at_work)

/-! ## A slice that another node has moved the pointer past -/

/-- Two nodes tick. The second one reads the pointer, the first one drains the slice there and moves
the pointer past it, and only then the second one takes the slice. It drains the slice in vain, and
ticks once more. -/
def Action.overtaken : List Action :=
  [.join (.standard "a") .errands 0, .answer 0 0 none, .answer 0 0 none,
    .join (.standard "b") .errands 0, .answer 1 0 none,
    .send 1 1 .tick, .receive 1, .proceed 1 1, .answer 1 1 none, .proceed 1 1, .answer 1 1 none,
    .send 0 1 .tick, .receive 0, .proceed 0 1, .answer 0 1 none, .proceed 0 1, .answer 0 1 none,
    .answer 0 1 none, .answer 0 2 none, .proceed 0 2, .proceed 0 2, .answer 0 2 none,
    .answer 0 2 none, .answer 0 2 none, .answer 0 2 none, .answer 0 2 none,
    .answer 1 1 none, .answer 1 2 none, .proceed 1 2, .proceed 1 2, .answer 1 2 none,
    .proceed 1 2, .send 1 2 .tick, .receive 1, .proceed 1 3, .answer 1 3 none, .proceed 1 3]

/-- The second node owns the lock of the slice that it drained in vain until its tick gives it
back. -/
theorem Cluster.Run.accord_overtaken : ∃ past c c' pointer n later c'' n',
    (Cluster.start .newYear2024).Run (fun _ c a => a.IsCalmIn c) past c ∧
      (Cluster.start .newYear2024).nodes = [] ∧ (Cluster.start .newYear2024).store = .empty ∧
      c.Reads c' 1 3 pointer ∧ c'.nodes[1]? = some n ∧ ⟨.newYear2024⟩ < pointer ∧
      n.desk.progressOf ⟨.newYear2024⟩ = some .drained ∧
      c'.store.owner (Slice.mk .newYear2024).advanceLock = some "b" ∧
      c'.Run (fun _ c a => a.IsCalmIn c) later c'' ∧ c''.nodes[1]? = some n' ∧
      (∀ op, n'.walkCall? 3 = some op → op.isReturn = false) ∧ c.Accord ∧
      n'.desk.progressOf ⟨.newYear2024⟩ = none ∧
      n'.desk.advanceLock ⟨.newYear2024⟩ ∉ n'.desk.held.held ∧
      c''.store.owner (Slice.mk .newYear2024).advanceLock ≠ some n'.name := by
  let next : Slice := (Slice.mk .newYear2024).next (Duration.ofSeconds 60)
  have played : ((Cluster.start .newYear2024).play? (fun _ c a => a.IsCalmIn c) []
      Action.overtaken).bind (fun r => (r.2.act? (.answer 1 3 none)).bind fun c' =>
        (c'.play? (fun _ c a => a.IsCalmIn c) [] [.answer 1 3 none]).bind fun r' =>
          r.2.nodes[1]?.bind fun m => c'.nodes[1]?.bind fun n => r'.2.nodes[1]?.map fun n' =>
            ((m.walkCall? 3).map (·.isSeek), (n.walkCall? 3).map (·.isSeek), c'.store.pointer,
              n.desk.progressOf ⟨.newYear2024⟩,
              c'.store.owner (Slice.mk .newYear2024).advanceLock,
              (n'.walkCall? 3).map (·.isReturn))) =
      some (some true, some false, some next, some .drained, some "b", none) := rfl
  obtain ⟨⟨past, c⟩, ends, shown⟩ := Option.bind_eq_some_iff.mp played
  obtain ⟨c', acted, shown⟩ := Option.bind_eq_some_iff.mp shown
  obtain ⟨⟨later, c''⟩, ends', shown⟩ := Option.bind_eq_some_iff.mp shown
  obtain ⟨m, node, shown⟩ := Option.bind_eq_some_iff.mp shown
  obtain ⟨n, node', shown⟩ := Option.bind_eq_some_iff.mp shown
  obtain ⟨n', node'', facts⟩ := Option.map_eq_some_iff.mp shown
  simp only [Prod.mk.injEq, Option.map_eq_some_iff, Option.map_eq_none_iff] at facts
  obtain ⟨⟨op, waits, seeks⟩, ⟨op', waits', sought⟩, pointer, drained, owner, released⟩ := facts
  have run := Cluster.Run.of_play _ .nil ends
  have run' : c'.Run (fun _ c a => a.IsCalmIn c) later c'' := Cluster.Run.of_play _ .nil ends'
  have reads : c.Reads c' 1 3 next := by
    refine ⟨acted, ⟨m, op, node, waits, seeks⟩, fun l op'' there calls => ?_, pointer⟩
    obtain rfl := Option.some.inj (node'.symm.trans there)
    obtain rfl := Option.some.inj (waits'.symm.trans calls)
    exact sought
  have before : Slice.mk .newYear2024 < next := by decide
  have idle (op : Operation) (calls : n'.walkCall? 3 = some op) : op.isReturn = false := by
    rw [released] at calls
    cases calls
  have accord := run.accord rfl rfl
  exact ⟨past, c, c', next, n, later, c'', n', run, rfl, rfl, reads, node', before, drained, owner,
    run', node'', idle, accord.1,
    accord.2 c' 1 3 next n _ reads node' before drained later c'' n' run' node'' idle⟩

end SliceScheduler
