import Mathlib.Logic.Relation
import SliceScheduler.Proofs.Shows
import SliceScheduler.Store.Backend
/-!
# One task at a time

A node whose other tasks wait while one of them goes on, over a store of either kind in which no call
is made to fail.

1. `Lone.step?` lets the task of a number go on, and `Lone.Steps` lets it go on any number of times;
2. `Cluster.act?_of_step` says that these are steps of a cluster over a store in memory;
3. `Code.turns` is what is left of a task that moves the pointer, by the stage that its turn is at,
   and `Lone.step?_turns` is its step: its stage reacts to the answer of the store.
-/
namespace SliceScheduler

open Program (Turn ofSum)

/-- A node by itself, over a store of either kind. -/
structure Lone where
  node : Node
  store : Backend
  now : Instant

namespace Lone

/-- The task of a number goes on: the store answers its call, or what it waits for on the node is
there. -/
def step? (number : Nat) (s : Lone) : Option Lone := do
  let t ← s.node.task? number
  match t.code.call? with
  | some ⟨op, next⟩ =>
    let (answer, store) := s.store.perform s.now op
    some { s with node := s.node.goOn s.now t (next answer), store }
  | none => (s.node.proceed? s.now t).map fun node => { s with node }

/-- One step of the task of a number. -/
def Step (number : Nat) (s s' : Lone) : Prop := s.step? number = some s'

/-- Any number of steps of the task of a number. -/
abbrev Steps (number : Nat) : Lone → Lone → Prop := Relation.ReflTransGen (Step number)

end Lone

/-- The steps of a task by itself are steps of a cluster. -/
theorem Cluster.act?_of_step {c : Cluster} {i number : Nat} {n : Node} {s' : Lone}
    (node : c.nodes[i]? = some n) (step : Lone.Step number ⟨n, .memory c.store, c.now⟩ s') :
    ∃ a store, (a = .answer i number none ∨ a = .proceed i number) ∧ s'.store = .memory store ∧
      s'.now = c.now ∧ c.act? a = some ({ c with store }.putNode i s'.node) := by
  unfold Lone.Step Lone.step? at step
  cases there : n.task? number with
  | none => simp [there] at step
  | some t =>
    simp only [there, Option.bind_eq_bind, Option.bind_some] at step
    cases calls : t.code.call? with
    | some call =>
      obtain ⟨op, next⟩ := call
      simp only [calls, Option.some.injEq] at step
      subst step
      refine ⟨.answer i number none, (c.store.perform c.now op).2, .inl rfl, rfl, rfl, ?_⟩
      simp only [act?, onTask?, node, there, Option.bind_eq_bind, Option.bind_some, answerCall?,
        calls]
      exact congrArg some
        (modifyNode_eq (c := { c with store := (c.store.perform c.now op).2 }) node _)
    | none =>
      simp only [calls] at step
      obtain ⟨n', proceeded, rfl⟩ := Option.map_eq_some_iff.mp step
      refine ⟨.proceed i number, c.store, .inr rfl, rfl, rfl, ?_⟩
      simp only [act?, onTask?, node, there, Option.bind_eq_bind, Option.bind_some, proceed?,
        proceeded, Option.map_some]

namespace Node

variable {n : Node} {t : Task} {code code' : Code t.role.Result}

theorem task?_requeue (n : Node) (t : Task) (code : Code t.role.Result) :
    (n.requeue t code).task? t.number = some { t with code } := by
  have gone : (n.tasks.filter (·.number != t.number)).find? (·.number == t.number) = none := by
    simp
  simp [task?, requeue, remove, gone]

theorem goOn_advance (n : Node) (now : Instant) (t : Task) (fromTick : Bool)
    (announced : List Slice) (turn : Program Turn) (rest : List Slice → Program t.role.Result) :
    n.goOn now t (.advance fromTick announced turn rest) =
      (n.settle now t.number turn).1.requeue t
        (.advance fromTick announced (n.settle now t.number turn).2 rest) := rfl

theorem requeue_requeue (n : Node) (t : Task) (code code' : Code t.role.Result) (desk : Desk)
    (drained : Option Slice) (begun : t.number < n.nextNumber) :
    ((n.requeue t code).work desk drained).requeue { t with code } code' =
      (n.work desk drained).requeue t code' := by
  cases drained with
  | none => simp [work, drainAny, requeue, remove]
  | some slice => simp [work, drainAny, startDrain, spawn, requeue, remove, Nat.ne_of_gt begun]

end Node

/-- What is left of a task that moves the pointer: the slices announced so far, the stage that its
turn is at or what the turn came to, and the program after the last turn. -/
def Code.turns {α : Type} (fromTick : Bool) (set : NodeSettings) (rest : List Slice → Program α)
    (announced : List Slice) (x : TurnStage ⊕ Turn) : Code α :=
  .advance fromTick announced (ofSum (TurnStage.program fromTick set) x) rest

namespace Lone

variable {fromTick : Bool} {n : Node} {t : Task} {rest : List Slice → Program t.role.Result}
  {set : NodeSettings} {announced : List Slice} {store : Backend} {now : Instant}

/-- A step within a turn: the stage of the turn reacts to the answer of the store. -/
theorem step_turns {stage : TurnStage} {answer : (stage.op set).Result} {store' : Backend}
    {reaction : TurnReaction} (settings : n.desk.settings = set) (begun : t.number < n.nextNumber)
    (made : store.perform now (stage.op set) = (answer, store'))
    (reacts : stage.react fromTick set n.desk answer = reaction) :
    Step t.number ⟨n.requeue t (.turns fromTick set rest announced (.inl stage)), store, now⟩
      ⟨(n.work reaction.desk reaction.drained).requeue t
        (.turns fromTick set rest announced reaction.next), store', now⟩ := by
  obtain ⟨next, shape, settles⟩ := stage.calls set now t.number fromTick
  have call : (Code.turns fromTick set rest announced (.inl stage)).call? =
      some ⟨stage.op set, fun a => .advance fromTick announced (next a) rest⟩ := by
    rw [Code.turns, ofSum, shape]
    rfl
  have settled := settles (n.requeue t (.turns fromTick set rest announced (.inl stage))) answer
    settings
  subst reacts
  unfold Step step?
  simp only [Node.task?_requeue, Option.bind_eq_bind, Option.bind_some, call, made,
    Node.goOn_advance, settled]
  exact congrArg (fun node => some (Lone.mk node store' now))
    (Node.requeue_requeue n t _ _ _ _ begun)

theorem step_of_proceed {n' : Node} (there : n.task? t.number = some t)
    (silent : t.code.call? = none) (proceeds : n.proceed? now t = some n') :
    Step t.number ⟨n, store, now⟩ ⟨n', store, now⟩ := by
  unfold Step step?
  simp only [there, Option.bind_eq_bind, Option.bind_some, silent, proceeds, Option.map_some]

/-- A task that waits to move the pointer begins with its first turn. -/
theorem step_begin {next : List Slice → Program t.role.Result}
    (there : n.task? t.number = some t) (waits : t.code = .run (.ask (.advance fromTick) next))
    (free : n.advancing = false) :
    Step t.number ⟨n, store, now⟩ ⟨{ n with advancing := true }.requeue t
      (.turns fromTick n.desk.settings next [] (TurnStage.first n.desk)), store, now⟩ := by
  refine step_of_proceed there (by rw [waits]; rfl) ?_
  have proceeds : n.proceed? now t = some ({ n with advancing := true }.goOn now t
      (.advance fromTick [] (Program.advanceTurn fromTick) next)) := by
    simp [Node.proceed?, waits, free]
  rw [proceeds, Node.goOn_advance, TurnStage.settle_first n.desk.settings]
  rfl

/-- After a turn that moved the pointer there is another turn. -/
theorem step_moved (begun : t.number < n.nextNumber) (slice : Slice) :
    Step t.number
      ⟨n.requeue t (.turns fromTick set rest announced (.inr (.moved (some slice)))), store, now⟩
      ⟨n.requeue t (.turns fromTick set rest (announced ++ [slice]) (TurnStage.first n.desk)),
        store, now⟩ := by
  let moved : Code t.role.Result :=
    .turns fromTick set rest announced (.inr (.moved (some slice)))
  refine step_of_proceed (t := { t with code := moved }) (n.task?_requeue t _) rfl ?_
  show some ((n.requeue t moved).goOn now { t with code := moved }
    (.advance fromTick (announced ++ [slice]) (Program.advanceTurn fromTick) rest)) = _
  rw [Node.goOn_advance, TurnStage.settle_first set]
  exact congrArg some (Node.requeue_requeue n t _ _ n.desk none begun)

/-- After the last turn the task goes on with the slices that it announced. -/
theorem step_stay (there : n.task? t.number = some t)
    (stays : t.code = .turns fromTick set rest announced (.inr .stay)) :
    Step t.number ⟨n, store, now⟩
      ⟨{ n with advancing := false }.goOn now t (.run (rest announced)), store, now⟩ := by
  refine step_of_proceed there (by rw [stays]; rfl) ?_
  simp [Node.proceed?, stays, Code.turns, ofSum]

end Lone

end SliceScheduler
