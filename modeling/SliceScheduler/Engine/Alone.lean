import SliceScheduler.Engine.Program
/-!
# A node by itself

A program that waits for nobody can be run from end to end over any store.

1. `Alone` is the desk of a node, a store and a clock that stands still;
2. `Program.runAlone?` runs a program that makes calls to the store and does local work of the desk.
   A program that asks for anything else needs a cluster.
-/
namespace SliceScheduler

/-- A node by itself, over a store. -/
structure Alone (σ : Type) where
  desk : Desk
  store : σ
  now : Instant

/-- Answers a call to a store. -/
abbrev Performer (σ : Type) := σ → Instant → (op : Operation) → op.Result × σ

/-- Runs a program on a node by itself. -/
def Program.runAlone? {σ α : Type} (perform : Performer σ) :
    Program α → Alone σ → Option (α × Alone σ)
  | .done a, s => some (a, s)
  | .ask (.call op) next, s =>
    let (answer, store) := perform s.store s.now op
    (next answer).runAlone? perform { s with store }
  | .ask .look next, s => (next s.desk).runAlone? perform s
  | .ask (.change f) next, s => (next ()).runAlone? perform { s with desk := f s.desk }
  | .ask .now next, s => (next s.now).runAlone? perform s
  | .ask _ _, _ => none

end SliceScheduler
