import SliceScheduler.Proofs.Exclusion
import SliceScheduler.Proofs.Running
/-!
# Locks that are left over

A node that works on a slice owns its lock and has noted it. As long as no call fails and nothing is
shut down the converse holds as well: the store has no other owners and the nodes no other notes.

1. `Post.Retains` and `CoverageLemmas.owner_work` say which notes and which owners a step of a task
   leaves;
2. `Fleet.Covered` says that every lock that is owned or noted is that of a slice at work, and
   `Fleet.Covered.step` that every step keeps this up.
-/
namespace SliceScheduler

/-- The locks that the node notes are those of its slices at work. -/
def Post.Covers (p : Post) : Prop :=
  ∀ lock ∈ p.desk.held.held,
    ∃ x, p.desk.progressOf x ≠ none ∧ lock = TurnStage.lock p.desk.settings x

/-- Locks that are noted or owned are those of slices at work on the node in question. -/
structure Fleet.Covered (f : Fleet) : Prop where
  held : ∀ i p, f.posts i = some p → p.Covers
  owned : ∀ name node, f.store.owner name = some node → ∃ i p x, f.posts i = some p ∧
    p.desk.settings.node = node ∧ p.desk.progressOf x ≠ none ∧ x.advanceLock = name

namespace CoverageLemmas

open Post TidyLemmas ClosingLemmas

variable {pointer pointer' : Option Slice} {p q : Post} {e : Effect} {k : Nat} {s : TaskStage}
  {now : Instant} {store store' : MemoryStore} {prompt : Prompt}

/-- A slice at work stays at work, unless its lock is given back. -/
theorem stays_at_work (change : Change pointer pointer' p s e) {y : Slice}
    (at_work : p.desk.progressOf y ≠ none) :
    e.desk.progressOf y ≠ none ∨ s.frees? = some y := by
  have updated {x : Slice} {v : Progress}
      (same : e.desk.progressOf = Function.update p.desk.progressOf x (some v)) :
      e.desk.progressOf y ≠ none := by
    rw [same]
    by_cases equal : y = x
    · rw [equal, Function.update_self]
      nofun
    · rwa [Function.update_of_ne equal]
  cases change with
  | same same => exact .inl (same ▸ at_work)
  | move moves there moved le same => exact .inl (same ▸ at_work)
  | @forget x leaves pointers same =>
    by_cases equal : y = x
    · refine .inr ?_
      rw [equal]
      rcases leaves with returns | ⟨ticket, dispatch, announced, q, others, rfl⟩
      · cases s with
        | turn mover announced t =>
          cases t with
          | back => exact returns
          | _ => cases returns
        | _ => cases returns
      · rfl
    · refine .inl ?_
      rwa [same, Function.update_of_ne equal]
  | take takes pointers same => exact .inl (updated same)
  | redrain turns pointers same => exact .inl (updated same)
  | drained drains pointers same => exact .inl (updated same)

/-- The call of a task that gives back the lock of a slice. -/
theorem op_of_frees {set : NodeSettings} {x : Slice} (frees : s.frees? = some x) :
    s.op? set = some (.unlockExclusive x.advanceLock set.node) := by
  cases s with
  | turn mover announced t =>
    cases t with
    | back => exact Option.some.inj frees ▸ rfl
    | _ => cases frees
  | walk ticket dispatch announced t =>
    cases t with
    | release => exact Option.some.inj frees ▸ rfl
    | _ => cases frees
  | _ => cases frees

/-- The only task that takes a lock. -/
theorem takes_of_lock {set : NodeSettings} {name owner : String}
    (calls : s.op? set = some (.lockExclusive name owner)) :
    ∃ x, s.takes? = some x ∧ name = x.advanceLock ∧ owner = set.node := by
  obtain ⟨ticket, dispatch, announced, q, current, limit, x, before, rfl, same, own⟩ :=
    TaskStage.makes calls
  exact ⟨x, rfl, same, own⟩

/-- A lock that is given back by a call that does not fail is struck out. -/
theorem struck_afterRelease {h : Holder} {lock l : HeldLock} {name owner : String}
    {answer : Except StoreError Bool}
    (made : store.attempt now none (.unlockExclusive name owner) = (answer, store'))
    (mem : l ∈ (h.afterRelease lock answer).held) : l ∈ h.held ∧ l ≠ lock := by
  cases answer with
  | error e => cases congrArg Prod.fst made
  | ok answer =>
    obtain ⟨there, other⟩ := List.mem_filter.mp mem
    exact ⟨there, of_decide_eq_true other⟩

/-- A lock is noted only if it is taken. -/
theorem taken_afterAcquire {h : Holder} {lock l : HeldLock} {answer : Except StoreError Bool}
    (mem : l ∈ (h.afterAcquire lock answer).2.held) :
    l ∈ h.held ∨ answer = .ok true ∧ l = lock := by
  rcases answer with e | _ | _
  · exact .inl mem
  · exact .inl mem
  · exact (held_afterAcquire mem).imp_right fun same => ⟨rfl, same⟩

/-- The locks that a step of a task leaves in the record: one that was there and is not given back,
or the lock of a slice whose draining is set off. -/
def Retains (p : Post) (s : TaskStage) (e : Effect) : Prop :=
  ∀ lock ∈ e.desk.held.held,
    (lock ∈ p.desk.held.held ∧
      ∀ x, s.frees? = some x → lock ≠ TurnStage.lock p.desk.settings x) ∨
    ∃ x, s.takes? = some x ∧ e.spawned = some (.sets x) ∧
      lock = TurnStage.lock p.desk.settings x

theorem retains_same (held : e.desk.held = p.desk.held) (frees : s.frees? = none) :
    Retains p s e := by
  intro lock mem
  rw [held] at mem
  refine .inl ⟨mem, fun x same => ?_⟩
  rw [frees] at same
  cases same

theorem retains_turn {mover : Mover} {announced : List Slice} {t : TurnStage}
    {answer : (t.op p.desk.settings).Result}
    (made : store.attempt now none (t.op p.desk.settings) = (answer, store')) :
    Retains p (.turn mover announced t)
      (p.afterTurn mover announced (t.react mover.fromTick p.desk.settings p.desk answer)) := by
  cases t with
  | seek =>
    refine retains_same ?_ rfl
    rcases answer with e | _ | x
    · rfl
    · rfl
    · simp only [TurnStage.react, afterTurn]
      split <;> rfl
  | recheck x =>
    refine retains_same ?_ rfl
    rcases answer with e | index
    · rfl
    · simp only [TurnStage.react, afterTurn]
      split
      · split <;> rfl
      · rfl
  | clear x => rcases answer with e | _ <;> exact retains_same rfl rfl
  | move x => rcases answer with e | _ <;> exact retains_same rfl rfl
  | back x moved =>
    cases moved <;>
    · intro lock mem
      obtain ⟨there, other⟩ := struck_afterRelease made mem
      exact .inl ⟨there, fun y same => Option.some.inj same ▸ other⟩

theorem retains_walk {ticket : Option Nat} {dispatch : Bool} {announced : List Slice}
    {t : WalkStage} {answer : (t.op p.desk.settings).Result}
    (made : store.attempt now none (t.op p.desk.settings) = (answer, store')) :
    Retains p (.walk ticket dispatch announced t) (p.afterWalk ticket dispatch announced
      (t.react now dispatch announced p.desk.settings p.desk answer)) := by
  cases t with
  | read =>
    refine retains_same ?_ rfl
    rw [desk_afterWalk]
    rcases answer with e | _ | x <;> rfl
  | ensure s =>
    refine retains_same ?_ rfl
    rw [desk_afterWalk]
    simp only [WalkStage.react]
    split <;> rfl
  | release q x others =>
    intro lock mem
    rw [desk_afterWalk] at mem
    obtain ⟨there, other⟩ := struck_afterRelease made mem
    exact .inl ⟨there, fun y same => Option.some.inj same ▸ other⟩
  | take q current limit x before =>
    intro lock mem
    rw [desk_afterWalk] at mem
    rw [spawned_afterWalk]
    have noted : lock ∈ (WalkStage.noted p.desk x answer).held.held := by
      rcases answer with e | _ | _ <;> exact mem
    rcases taken_afterAcquire noted with there | ⟨rfl, same⟩
    · exact .inl ⟨there, fun y same => (by cases same)⟩
    · exact .inr ⟨x, rfl, rfl, same⟩

theorem retains_work (works : p.Works now store k s prompt e store') (runs : s.stops = false)
    (calm : ∀ fault, prompt = .answer fault → fault = none) : Retains p s e := by
  cases works with
  | start made =>
    refine retains_same ?_ rfl
    unfold afterSeek
    split <;> rfl
  | submission made =>
    refine retains_same ?_ rfl
    unfold afterSubmit
    split <;> rfl
  | turn made =>
    obtain rfl := calm _ rfl
    exact retains_turn made
  | @stay mover announced => cases mover <;> exact retains_same rfl rfl
  | walk made =>
    obtain rfl := calm _ rfl
    exact retains_walk made
  | @sets slice fault answer store' made => cases answer <;> exact retains_same rfl rfl
  | job made => exact retains_same (announceAll_same ..).2 rfl
  | @running parent slice id job registration outcome =>
    exact retains_same (announceAll_same p.desk _).2 rfl
  | hold | giveUp | look | halt => cases runs
  | _ => exact retains_same rfl rfl

/-- A lock that comes to be owned is that of a slice whose draining is set off. -/
theorem sets_of_taken (works : p.Works now store k s prompt e store') {x : Slice}
    (takes : s.takes? = some x) (free : store.owner x.advanceLock = none)
    (owned : store'.owner x.advanceLock ≠ none) : e.spawned = some (.sets x) := by
  cases works with
  | @walk ticket dispatch announced t fault answer store' made =>
    cases t with
    | take q current limit y before =>
      obtain rfl := Option.some.inj takes
      obtain rfl := MemoryStore.taken_of_owner made free owned
      rw [spawned_afterWalk]
      rfl
    | _ => cases takes
  | _ => cases takes

/-- The owners that a step of a task leaves: one that was there and does not give back its lock, or
the node of a slice whose draining is set off. -/
theorem owner_work (works : p.Works now store k s prompt e store')
    (calm : ∀ fault, prompt = .answer fault → fault = none) {name node : String}
    (owned : store'.owner name = some node) :
    (store.owner name = some node ∧
      ∀ x, s.frees? = some x → ¬ (name = x.advanceLock ∧ node = p.desk.settings.node)) ∨
    ∃ x, s.takes? = some x ∧ e.spawned = some (.sets x) ∧ name = x.advanceLock ∧
      node = p.desk.settings.node := by
  have kept (same : store.owner name = some node) (x : Slice) (frees : s.frees? = some x) :
      ¬ (name = x.advanceLock ∧ node = p.desk.settings.node) := by
    rintro ⟨rfl, rfl⟩
    obtain ⟨fault, answer, asked, made⟩ := works.called (op_of_frees frees)
    obtain rfl := calm fault asked
    cases owned.symm.trans (MemoryStore.owner_of_returned made same)
  rcases works.store with rfl | ⟨op, fault, answer, calls, asked, made⟩
  · exact .inl ⟨owned, kept owned⟩
  · obtain rfl := calm fault asked
    rcases MemoryStore.owner_cases made name with same | ⟨o, rfl, free, taken⟩ | ⟨o, rfl, mine⟩
    · exact .inl ⟨same ▸ owned, kept (same ▸ owned)⟩
    · obtain ⟨x, takes, rfl, rfl⟩ := takes_of_lock calls
      refine .inr ⟨x, takes, sets_of_taken works takes free ?_, rfl, ?_⟩
      · rw [taken]
        nofun
      · exact Option.some.inj (owned.symm.trans taken)
    · cases owned.symm.trans (MemoryStore.owner_of_returned made mine)

end CoverageLemmas

open CoverageLemmas TidyLemmas

namespace Fleet

variable {f f' : Fleet} {i : Nat} {p q : Post}

theorem Covered.bare {c : Cluster} (empty : c.store = .empty) : (bare c).Covered := by
  refine ⟨nofun, fun name node owned => ?_⟩
  have owned : c.store.owner name = some node := owned
  have free : c.store.owner name = none := by
    rw [empty, MemoryStore.owner, MemoryStore.empty, Std.ExtTreeMap.getD_empty]
    rfl
  cases owned.symm.trans free

/-- One node changes; the locks of its slices at work are still its own. -/
theorem Covered.put {store : MemoryStore} (covered : f.Covered) (here : q.Covers)
    (owned : ∀ name node, store.owner name = some node →
      (q.desk.settings.node = node ∧ ∃ x, q.desk.progressOf x ≠ none ∧ x.advanceLock = name) ∨
      ∃ j r x, j ≠ i ∧ f.posts j = some r ∧ r.desk.settings.node = node ∧
        r.desk.progressOf x ≠ none ∧ x.advanceLock = name) :
    ({ f with store }.put i q).Covered := by
  refine ⟨fun j r placed => ?_, fun name node owns => ?_⟩
  · rcases posts_put placed with ⟨-, rfl⟩ | ⟨-, before⟩
    · exact here
    · exact covered.held j r before
  · rcases owned name node owns with ⟨mine, x, at_work, same⟩ | ⟨j, r, x, other, post, facts⟩
    · exact ⟨i, q, x, Function.update_self .., mine, at_work, same⟩
    · exact ⟨j, r, x, (Function.update_of_ne other ..).trans post, facts⟩

/-- A node whose slices and noted locks stay as they are. -/
theorem Covered.keep (covered : f.Covered) (post : f.posts i = some p)
    (settings : q.desk.settings = p.desk.settings) (progress : q.desk.progress = p.desk.progress)
    (held : q.desk.held = p.desk.held) : (f.put i q).Covered := by
  have same := progressOf_of_same progress
  refine covered.put (fun lock mem => ?_) fun name node owns => ?_
  · rw [held] at mem
    rw [same, settings]
    exact covered.held i p post lock mem
  · obtain ⟨j, r, x, there, facts⟩ := covered.owned name node owns
    by_cases here : j = i
    · subst here
      obtain rfl := Option.some.inj (post.symm.trans there)
      refine .inl ?_
      rw [settings, same]
      exact ⟨facts.1, x, facts.2⟩
    · exact .inr ⟨j, r, x, here, there, facts⟩

/-- A task takes a step. -/
theorem Covered.work {store : MemoryStore} {k : Nat} {s : TaskStage} {prompt : Prompt} {e : Effect}
    (covered : f.Covered) (tidy : f.Tidy) (runs : f.Runs) (post : f.posts i = some p)
    (stage : p.stages k = some s) (works : p.Works f.now f.store k s prompt e store)
    (calm : ∀ fault, prompt = .answer fault → fault = none) :
    ({ f with store }.put i (p.apply k e)).Covered := by
  have shift := works.shift ((tidy.posts i p post).fits k s stage)
  have stays {x : Slice} := @stays_at_work _ _ p e s shift.change x
  have draining {x : Slice} (sets : e.spawned = some (.sets x)) : e.desk.progressOf x ≠ none := by
    have fits := shift.spawned
    rw [sets] at fits
    rw [show e.desk.progressOf x = some .draining from fits.2.2.2]
    nofun
  have settings : (p.apply k e).desk.settings = p.desk.settings := works.settings
  refine covered.put (fun lock mem => ?_) fun name node owns => ?_
  · rw [settings]
    rcases retains_work works ((runs i p post).stages k s stage) calm lock mem with
      ⟨there, kept⟩ | ⟨x, -, sets, same⟩
    · obtain ⟨x, at_work, same⟩ := covered.held i p post lock there
      rcases stays at_work with still | frees
      · exact ⟨x, still, same⟩
      · exact absurd same (kept x frees)
    · exact ⟨x, draining sets, same⟩
  · rw [settings]
    rcases owner_work works calm owns with ⟨owned, kept⟩ | ⟨x, -, sets, rfl, rfl⟩
    · obtain ⟨j, r, x, there, mine, at_work, same⟩ := covered.owned name node owned
      by_cases here : j = i
      · subst here
        obtain rfl := Option.some.inj (post.symm.trans there)
        rcases stays at_work with still | frees
        · exact .inl ⟨mine, x, still, same⟩
        · exact absurd ⟨same.symm, mine.symm⟩ (kept x frees)
      · exact .inr ⟨j, r, x, here, there, mine, at_work, same⟩
    · exact .inl ⟨rfl, x, draining sets, rfl⟩

/-- While no call fails and nothing is shut down, no lock is left over. -/
theorem Covered.step {a : Action} (covered : f.Covered) (tidy : f.Tidy) (runs : f.Runs)
    (calm : a.IsCalm) (step : f.Step a f') : f'.Covered := by
  rcases step.kinds with ⟨now, -, rfl⟩ | ⟨i, settings, registry, ticket, -, free, rfl⟩ |
    ⟨i, p, q, post, begins, rfl⟩ | ⟨i, p, k, s, prompt, e, store, post, stage, works, rfl, rfl⟩
  · exact ⟨covered.held, covered.owned⟩
  · refine covered.put (fun lock mem => absurd mem List.not_mem_nil) fun name node owns => ?_
    obtain ⟨j, r, x, there, facts⟩ := covered.owned name node owns
    refine .inr ⟨j, r, x, ?_, there, facts⟩
    rintro rfl
    cases free.symm.trans there
  · exact covered.keep post begins.settings begins.progress begins.held
  · refine covered.work tidy runs post stage works ?_
    rintro fault rfl
    exact calm

end Fleet

end SliceScheduler
