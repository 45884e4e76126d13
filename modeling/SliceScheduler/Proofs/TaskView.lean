import SliceScheduler.Proofs.Guard
/-!
# What the tasks of a fleet show

What a fleet shows of a job is read off the stages of its tasks, by a view that says what a stage has
to do with the job.

1. `Fleet.viewed` is what a view finds at the tasks of a fleet. Tasks are given by the place of their
   node and their number;
2. `Fleet.viewed_apply` says how it changes by the step of a task, `Fleet.viewed_begins` by a step
   from outside, and `Fleet.viewed_join` by a node that joins.
-/
namespace SliceScheduler

/-- What a view of stages finds at the tasks of a fleet. -/
def Fleet.viewed {α : Type} (view : TaskStage → Option α) (f : Fleet) (t : Nat × Nat) : Option α :=
  ((f.posts t.1).bind (·.stages t.2)).bind view

/-- No task has the number of the next one. -/
theorem Post.Fresh.free {p : Post} (fresh : p.Fresh) : p.stages p.nextNumber = none := by
  cases stage : p.stages p.nextNumber with
  | none => rfl
  | some s => exact absurd (fresh _ s stage) (Nat.lt_irrefl _)

/-- The task of a post after a step from outside is as before, unless it is the one that begins. -/
theorem Post.Begins.stages_of_ne {a : Action} {p q : Post} (begins : p.Begins a q)
    (fresh : p.Fresh) {k : Nat} (other : k ≠ p.nextNumber) : q.stages k = p.stages k := by
  cases after : q.stages k with
  | none =>
    cases before : p.stages k with
    | none => rfl
    | some s => cases after.symm.trans (begins.kept k s (fresh k s before) before)
  | some s =>
    rcases begins.stages k s after with before | ⟨new, -⟩
    · exact before.symm
    · exact absurd new other

namespace Fleet

variable {α : Type} {view : TaskStage → Option α} {f : Fleet} {i k : Nat} {p q : Post} {e : Effect}
  {store : MemoryStore}

theorem viewed_of_stage {s : TaskStage} (post : f.posts i = some p) (stage : p.stages k = some s) :
    f.viewed view (i, k) = view s := by
  simp only [viewed, post, Option.bind_some, stage]

theorem viewed_of_free (post : f.posts i = some p) (free : p.stages k = none) :
    f.viewed view (i, k) = none := by
  simp only [viewed, post, Option.bind_some, free, Option.bind_none]

/-- What is viewed belongs to a task. -/
theorem of_viewed {t : Nat × Nat} {x : α} (there : f.viewed view t = some x) :
    ∃ p s, f.posts t.1 = some p ∧ p.stages t.2 = some s ∧ view s = some x := by
  obtain ⟨s, stage, found⟩ := Option.bind_eq_some_iff.mp there
  obtain ⟨p, post, stage⟩ := Option.bind_eq_some_iff.mp stage
  exact ⟨p, s, post, stage, found⟩

theorem viewed_put (i : Nat) (q : Post) (j n : Nat) :
    ({ f with store }.put i q).viewed view (j, n) =
      if j = i then (q.stages n).bind view else f.viewed view (j, n) := by
  simp only [viewed, put]
  by_cases here : j = i
  · rw [here, Function.update_self, if_pos rfl]
    rfl
  · rw [Function.update_of_ne here, if_neg here]

/-- The step of a task changes what is viewed of the task, and of the one that it sets off. -/
theorem viewed_apply (post : f.posts i = some p) (fresh : p.Fresh) :
    ({ f with store }.put i (p.apply k e)).viewed view =
      Function.update (Function.update (f.viewed view) (i, p.nextNumber) (e.spawned.bind view))
        (i, k) (e.next.bind view) := by
  funext ⟨j, n⟩
  rw [viewed_put]
  by_cases here : j = i
  · subst here
    rw [if_pos rfl]
    simp only [Post.apply]
    by_cases mine : n = k
    · subst mine
      rw [Function.update_self, Function.update_self]
    · rw [Function.update_of_ne mine, Function.update_of_ne (by simp [mine])]
      by_cases new : n = p.nextNumber
      · subst new
        rw [Function.update_self]
        cases e.spawned with
        | none => simp only [Post.spawn, fresh.free, Option.bind_none]
        | some s => simp only [Post.spawn, Function.update_self]
      · rw [Function.update_of_ne (by simp [new])]
        simp only [viewed, post, Option.bind_some]
        cases e.spawned with
        | none => rfl
        | some s => simp only [Post.spawn, Function.update_of_ne new]
  · rw [if_neg here, Function.update_of_ne (by simp [here]), Function.update_of_ne (by simp [here])]

/-- A step from outside changes what is viewed of the task that begins. -/
theorem viewed_begins {a : Action} (post : f.posts i = some p) (fresh : p.Fresh)
    (begins : p.Begins a q) :
    (f.put i q).viewed view =
      Function.update (f.viewed view) (i, p.nextNumber) ((q.stages p.nextNumber).bind view) := by
  funext ⟨j, n⟩
  refine (viewed_put i q j n).trans ?_
  by_cases here : j = i
  · subst here
    rw [if_pos rfl]
    by_cases mine : n = p.nextNumber
    · rw [mine, Function.update_self]
    · rw [Function.update_of_ne (by simp [mine]), begins.stages_of_ne fresh mine]
      simp only [viewed, post, Option.bind_some]
  · rw [if_neg here, Function.update_of_ne (by simp [here])]

/-- A node that joins changes nothing for a view that does not look at nodes that join. -/
theorem viewed_join (free : f.posts i = none) (settings : NodeSettings) (registry : Registry)
    (ticket : Nat) (blind : view (.start ticket .read) = none) :
    (f.put i (.joining settings registry ticket)).viewed view = f.viewed view := by
  funext ⟨j, n⟩
  refine (viewed_put i _ j n).trans ?_
  by_cases here : j = i
  · subst here
    rw [if_pos rfl]
    simp only [viewed, free, Option.bind_none]
    cases stage : (Post.joining settings registry ticket).stages n with
    | none => rfl
    | some s =>
      obtain ⟨-, rfl⟩ := Post.stages_joining stage
      exact blind
  · rw [if_neg here]

end Fleet

end SliceScheduler
