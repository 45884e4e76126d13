import SliceScheduler.Proofs.Coverage
/-!
# Locks that a node accounts for

A node may own locks of slices that it works on no more, when a call failed by which it gave them
back. It has noted them nevertheless, and a shutdown gives up all that is noted.

1. `Post.Accounts` says that a lock is noted, or about to be given up in a shutdown;
2. `Action.SparesShutdown` says that no call fails by which a shutdown gives up a lock;
3. `Fleet.Accounted` says that a node accounts for every lock that it owns, apart from those that
   were left to it, and `Fleet.Accounted.step` that it goes on doing so;
4. `Fleet.Accounted.without` says that a lock which the node has noted is not one of those.

What is left to a name at first is what it owned before the first node joined.
-/
namespace SliceScheduler

/-! ## What a node accounts for -/

namespace Post

/-- The node has noted the lock, or is about to give it up in a shutdown. -/
def Accounts (p : Post) (name : String) : Prop :=
  ⟨name, p.desk.settings.node, .exclusive⟩ ∈ p.desk.held.held ∨
    ∃ k s, p.stages k = some s ∧ ⟨name, p.desk.settings.node, .exclusive⟩ ∈ s.gives

end Post

namespace Role

/-- The task is a shutdown. -/
def isShutdown : Role → Bool
  | command _ .shutdown => true
  | _ => false

end Role

/-- The task of a number on the node of a place is a shutdown. -/
def Cluster.isShutdown (c : Cluster) (i number : Nat) : Bool :=
  c.nodes[i]?.any fun n => n.tasks.any fun t => t.number == number && t.role.isShutdown

/-- No call fails by which the node of a place gives up a lock in a shutdown. -/
def Action.SparesShutdown (c : Cluster) (i : Nat) : Action → Prop
  | answer j number fault => j = i → c.isShutdown i number = true → fault = none
  | _ => True

/-- No call fails by which the node of a place gives up a lock in a shutdown. -/
def Fleet.Spares (f : Fleet) (i : Nat) (a : Action) : Prop :=
  ∀ p k s fault, f.posts i = some p → p.stages k = some s → s.shuts = true →
    a = .answer i k fault → fault = none

theorem Cluster.Shows.spares {c : Cluster} {f : Fleet} {i : Nat} {a : Action} (shows : c.Shows f)
    (spares : a.SparesShutdown c i) : f.Spares i a := by
  rintro p k s fault post stage shuts rfl
  refine spares rfl ?_
  obtain ⟨n, node, shown⟩ := shows.node post
  simp only [isShutdown, node, Option.any_some, List.any_eq_true, Bool.and_eq_true, beq_iff_eq]
  refine ⟨s.task p.desk.settings k, (shown.tasks _).mpr ⟨s, stage, rfl⟩, rfl, ?_⟩
  cases s with
  | hold | giveUp => rfl
  | _ => cases shuts

/-- The owners of locks are nodes of the cluster, or the locks were left to them. The node of a place
accounts for the locks that it owns. Nobody has a share of a lock that a node has noted. -/
structure Fleet.Accounted (left : String → String → Prop) (i : Nat) (f : Fleet) : Prop where
  owned : ∀ name node, f.store.owner name = some node → left node name ∨
    ∃ j p, f.posts j = some p ∧ p.desk.settings.node = node ∧ (j = i → p.Accounts name)
  shared : ∀ name node, f.store.Shares node name → left node name
  alone : ∀ j p, f.posts j = some p → ∀ lock ∈ p.desk.held.held, ∀ node,
    ¬ f.store.Shares node lock.name

namespace AccountsLemmas

open Post TidyLemmas ClosingLemmas CoverageLemmas

variable {p q : Post} {e : Effect} {k : Nat} {s : TaskStage} {now : Instant}
  {store store' : MemoryStore} {prompt : Prompt} {name node : String}

/-- No task takes a share of a lock. -/
theorem op_ne_lockShared {set : NodeSettings} {op : Operation} (calls : s.op? set = some op)
    (n o : String) (ttl : Duration) : op ≠ .lockShared n o ttl := by
  rintro rfl
  exact TaskStage.makes calls

/-- A node that fails to give back the lock of a slice goes on noting it. -/
theorem held_of_failed {fault : StoreError} {x : Slice}
    (works : p.Works now store k s (.answer (some fault)) e store') (frees : s.frees? = some x) :
    e.desk.held = p.desk.held := by
  cases works with
  | @turn mover announced t fault answer store' made =>
    cases t with
    | back y moved =>
      obtain rfl := congrArg Prod.fst made
      cases moved <;> rfl
    | _ => cases frees
  | @walk ticket dispatch announced t fault answer store' made =>
    cases t with
    | release q y others =>
      obtain rfl := congrArg Prod.fst made
      rw [desk_afterWalk]
      rfl
    | _ => cases frees
  | _ => cases frees

/-- A shutdown that has waited for the guard gives up all locks that are noted. -/
theorem gives_hold {ticket : Option Nat} {lock : HeldLock}
    (works : p.Works now store k (.hold ticket) prompt e store')
    (noted : lock ∈ p.desk.held.held) : ∃ t, e.next = some t ∧ lock ∈ t.gives := by
  cases works with
  | hold free =>
    cases locks : p.desk.held.held with
    | nil =>
      rw [locks] at noted
      cases noted
    | cons first others =>
      rw [locks] at noted
      exact ⟨_, rfl, noted⟩

/-- A node goes on accounting for a lock as long as it owns it. -/
theorem accounts_work (works : p.Works now store k s prompt e store') (fresh : p.Fresh)
    (stage : p.stages k = some s)
    (spares : ∀ fault, s.shuts = true → prompt = .answer fault → fault = none)
    (before : store.owner name = some p.desk.settings.node)
    (owned : store'.owner name = some p.desk.settings.node) (accounts : p.Accounts name) :
    (p.apply k e).Accounts name := by
  have settings : (p.apply k e).desk.settings = p.desk.settings := works.settings
  have onto {t : TaskStage} (next : e.next = some t) : (p.apply k e).stages k = some t :=
    (Function.update_self ..).trans next
  unfold Accounts
  rw [settings]
  rcases accounts with noted | ⟨j, t, there, gives⟩
  · cases works.letting with
    | work mine plain same held kept =>
      rcases kept _ noted with still | ⟨x, frees, same⟩
      · exact .inl still
      · -- the lock was not given back, for it is still owned
        obtain rfl : name = x.advanceLock := congrArg HeldLock.name same
        obtain ⟨fault, answer, rfl, made⟩ := works.called (op_of_frees frees)
        cases fault with
        | none => cases owned.symm.trans (MemoryStore.owner_of_returned made before)
        | some fault => exact .inl (held_of_failed works frees ▸ noted)
    | halt halts stops held => exact .inl (held ▸ noted)
    | shut locks mine =>
      cases s with
      | hold ticket =>
        obtain ⟨t, next, gives⟩ := gives_hold works noted
        exact .inr ⟨k, t, onto next, gives⟩
      | giveUp ticket lock others live =>
        cases works
        cases others <;> exact .inl noted
      | _ => cases mine
  · by_cases mine : j = k
    · subst mine
      obtain rfl := Option.some.inj (stage.symm.trans there)
      cases works with
      | @giveUp ticket lock others live fault answer store' made live' =>
        rcases List.mem_cons.mp gives with rfl | rest
        · obtain rfl := spares fault rfl rfl
          cases owned.symm.trans (MemoryStore.owner_of_returned made before)
        · cases others with
          | nil => cases rest
          | cons next others => exact .inr ⟨j, _, onto rfl, rest⟩
      | _ => cases gives
    · exact .inr ⟨j, t, fresh.stages_apply there mine e, gives⟩

/-- A node accounts for a lock that it takes. -/
theorem accounts_taken (works : p.Works now store k s prompt e store')
    (owned : store'.owner name = some node) (differs : store.owner name ≠ some node) :
    node = p.desk.settings.node ∧ (p.apply k e).Accounts name := by
  rcases works.store with rfl | ⟨op, fault, answer, calls, -, made⟩
  · exact absurd owned differs
  · obtain ⟨rfl, free⟩ := MemoryStore.taken_of_owner_ne made owned differs
    obtain ⟨x, takes, rfl, rfl⟩ := takes_of_lock calls
    have sets := sets_of_taken works takes free (by rw [owned]; nofun)
    have settings : (p.apply k e).desk.settings = p.desk.settings := works.settings
    refine ⟨rfl, .inl ?_⟩
    rw [settings]
    exact noted_taken works takes sets

/-- A lock that a step notes is shared with nobody. -/
theorem alone_work (works : p.Works now store k s prompt e store') {lock : HeldLock}
    (noted : lock ∈ e.desk.held.held) :
    lock ∈ p.desk.held.held ∨ ∀ node, ¬ store'.Shares node lock.name := by
  cases works.letting with
  | work mine plain same held kept =>
    rcases held lock noted with there | ⟨x, takes, -⟩
    · exact .inl there
    · cases works with
      | @walk ticket dispatch announced t fault answer store' made =>
        cases t with
        | take q current limit y before =>
          rw [desk_afterWalk] at noted
          have noted : lock ∈ (WalkStage.noted p.desk y answer).held.held := by
            rcases answer with e | _ | _ <;> exact noted
          rcases taken_afterAcquire noted with there | ⟨taken, rfl⟩
          · exact .inl there
          · exact .inr fun node => MemoryStore.not_shares_of_taken made taken
        | _ => cases takes
      | _ => cases takes
  | halt halts stops held => exact .inl (held ▸ noted)
  | shut locks mine same held =>
    rcases held with ⟨-, struck, -⟩ | ⟨-, -, held⟩
    · rw [struck] at noted
      cases noted
    · exact .inl (held ▸ noted)

/-- What happens from outside leaves alone what a node accounts for. -/
theorem accounts_begins {a : Action} (begins : p.Begins a q) (fresh : p.Fresh)
    (accounts : p.Accounts name) : q.Accounts name := by
  unfold Accounts
  rw [begins.settings, begins.held]
  rcases accounts with noted | ⟨j, t, there, gives⟩
  · exact .inl noted
  · exact .inr ⟨j, t, begins.kept j t (fresh j t there) there, gives⟩

end AccountsLemmas

open AccountsLemmas

namespace Fleet

variable {left : String → String → Prop} {store : MemoryStore} {f f' : Fleet} {i j : Nat}
  {p q : Post} {name : String}

theorem Accounted.bare (c : Cluster) (i : Nat) :
    (bare c).Accounted (fun node name => c.store.Owns node name) i :=
  ⟨fun _ _ => .inl ∘ .inl, fun _ _ => .inr, nofun⟩

/-- One node changes, which may take locks for itself. -/
theorem Accounted.put (accounted : f.Accounted left i) (post : f.posts j = some p)
    (settings : q.desk.settings = p.desk.settings)
    (owned : ∀ name node, store.owner name = some node →
      (f.store.owner name = some node ∧
        (j = i → node = p.desk.settings.node → p.Accounts name → q.Accounts name)) ∨
      node = p.desk.settings.node ∧ q.Accounts name)
    (shared : ∀ name node, store.Shares node name → f.store.Shares node name)
    (alone : ∀ lock ∈ q.desk.held.held, lock ∈ p.desk.held.held ∨
      ∀ node, ¬ store.Shares node lock.name) :
    ({ f with store }.put j q).Accounted left i := by
  refine ⟨fun name node owns => ?_, fun name node mem =>
    accounted.shared name node (shared name node mem), fun l r there lock noted node mem => ?_⟩
  · rcases owned name node owns with ⟨before, keeps⟩ | ⟨rfl, accounts⟩
    · rcases accounted.owned name node before with old | ⟨l, r, there, mine, accounts⟩
      · exact .inl old
      · by_cases here : l = j
        · subst here
          obtain rfl := Option.some.inj (post.symm.trans there)
          exact .inr ⟨l, q, Function.update_self .., settings ▸ mine,
            fun same => keeps same mine.symm (accounts same)⟩
        · exact .inr ⟨l, r, (Function.update_of_ne here ..).trans there, mine, accounts⟩
    · exact .inr ⟨j, q, Function.update_self .., congrArg NodeSettings.node settings,
        fun _ => accounts⟩
  · have before : f.store.Shares node lock.name := shared _ _ mem
    rcases posts_put there with ⟨rfl, rfl⟩ | ⟨-, there⟩
    · rcases alone lock noted with noted | unshared
      · exact accounted.alone l p post lock noted node before
      · exact unshared node mem
    · exact accounted.alone l r there lock noted node before

/-- Whatever happens, a node accounts for the locks that it owns, as long as no call fails by which
a shutdown gives up one of them. -/
theorem Accounted.step {a : Action} (accounted : f.Accounted left i) (tidy : f.Tidy)
    (spares : f.Spares i a) (step : f.Step a f') : f'.Accounted left i := by
  rcases step.kinds with ⟨now, -, rfl⟩ | ⟨j, settings, registry, ticket, -, free, rfl⟩ |
    ⟨j, p, q, post, begins, rfl⟩ | ⟨j, p, k, s, prompt, e, store, post, stage, works, same, rfl⟩
  · exact ⟨accounted.owned, accounted.shared, accounted.alone⟩
  · refine ⟨fun name node owns => ?_, accounted.shared, fun l r there lock noted => ?_⟩
    · rcases accounted.owned name node owns with old | ⟨l, r, there, facts⟩
      · exact .inl old
      · have other : l ≠ j := by
          rintro rfl
          cases free.symm.trans there
        exact .inr ⟨l, r, (Function.update_of_ne other ..).trans there, facts⟩
    · rcases posts_put there with ⟨-, rfl⟩ | ⟨-, there⟩
      · cases noted
      · exact accounted.alone l r there lock noted
  · have fresh := (tidy.posts j p post).guarded.fresh
    exact @Accounted.put left f.store f i j p q accounted post begins.settings
      (fun name node owns => .inl ⟨owns, fun _ _ => accounts_begins begins fresh⟩)
      (fun name node => id) fun lock noted => .inl (begins.held ▸ noted)
  · refine accounted.put post works.settings (fun name node owns => ?_) (fun name node mem => ?_)
      fun lock => alone_work works
    · by_cases before : f.store.owner name = some node
      · refine .inl ⟨before, ?_⟩
        rintro rfl rfl accounts
        refine accounts_work works (tidy.posts j p post).guarded.fresh stage ?_ before owns accounts
        rintro fault shuts rfl
        exact spares p k s fault post stage shuts same
      · exact .inr (accounts_taken works owns before)
    · rcases works.store with rfl | ⟨op, fault, answer, calls, -, made⟩
      · exact mem
      · exact MemoryStore.shares_attempt made (op_ne_lockShared calls) mem

/-- A lock that the node has noted was not left to it. -/
theorem Accounted.without (accounted : f.Accounted left i) (post : f.posts i = some p)
    (noted : ⟨name, p.desk.settings.node, .exclusive⟩ ∈ p.desk.held.held) :
    f.Accounted (fun node lock => left node lock ∧ ¬ (node = p.desk.settings.node ∧ lock = name))
      i := by
  refine ⟨fun lock node owned => ?_, fun lock node mem => ⟨accounted.shared lock node mem, ?_⟩,
    accounted.alone⟩
  · by_cases mine : node = p.desk.settings.node ∧ lock = name
    · obtain ⟨rfl, rfl⟩ := mine
      exact .inr ⟨i, p, post, rfl, fun _ => .inl noted⟩
    · exact (accounted.owned lock node owned).imp_left (⟨·, mine⟩)
  · rintro ⟨-, rfl⟩
    exact accounted.alone i p post _ noted node mem

/-- A node that has nothing noted and nothing to give up owns no lock but those that were left to
it. -/
theorem Accounted.owns (accounted : f.Accounted left i) (tidy : f.Tidy) (post : f.posts i = some p)
    (held : p.desk.held.held = []) (gives : ∀ k s, p.stages k = some s → s.gives = [])
    (owns : f.store.Owns p.desk.settings.node name) : left p.desk.settings.node name := by
  rcases owns with owned | mem
  · rcases accounted.owned name _ owned with old | ⟨j, q, there, same, accounts⟩
    · exact old
    · obtain rfl := tidy.names j i q p there post same
      obtain rfl := Option.some.inj (post.symm.trans there)
      rcases accounts rfl with noted | ⟨k, s, stage, mem⟩
      · rw [held] at noted
        cases noted
      · rw [gives k s stage] at mem
        cases mem
  · exact accounted.shared name _ mem

end Fleet

end SliceScheduler
