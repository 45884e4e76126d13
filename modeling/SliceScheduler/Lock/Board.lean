import SliceScheduler.Lock.Holder
import SliceScheduler.Store.Memory
import SliceScheduler.Store.Table
/-!
# Several holders over one store

A board is a store with several lock holders that take and release locks in it at will, under a
clock. It is written for any store, by the function that performs a call.

1. `Board.acquire` and `Board.release` are the calls of one holder;
2. `Board.giveUp` makes one holder release all that it has noted.
-/
namespace SliceScheduler

/-- A store of some kind with the holders over it. -/
structure Board (σ : Type) where
  store : σ
  now : Instant
  holders : List Holder

namespace Board

variable {σ : Type} (perform : σ → Instant → (op : Operation) → op.Result × σ)

/-- A board with so many holders that have nothing. -/
def start (store : σ) (now : Instant) (holders : Nat) : Board σ :=
  ⟨store, now, List.replicate holders .empty⟩

/-- A call to the store at an instant. -/
def call (now : Instant) (op : Operation) : StateM σ op.Result := fun s => perform s now op

/-- The holder of a number. -/
def holder (b : Board σ) (i : Nat) : Holder := b.holders.getD i .empty

/-- What a holder does with the store, and the board after it. -/
def act {α : Type} (b : Board σ) (i : Nat) (action : Holder → StateM σ (α × Holder)) : α × Board σ :=
  let ((result, h), store) := action (b.holder i) b.store
  (result, { b with store, holders := b.holders.set i h })

/-- A holder takes a lock, or takes or renews a share of it for a length of time. -/
def acquire (b : Board σ) (i : Nat) (name owner : String) (ttl : Option Duration) :
    LockOutcome × Board σ :=
  b.act i fun h =>
    match ttl with
    | none => h.acquireExclusive (call perform b.now) name owner
    | some ttl => h.acquireShared (call perform b.now) name owner ttl

/-- A holder gives up a lock, or a share of it. -/
def release (b : Board σ) (i : Nat) (name owner : String) (mode : LockMode) :
    Except StoreError Bool × Board σ :=
  b.act i fun h =>
    match mode with
    | .exclusive => h.releaseExclusive (call perform b.now) name owner
    | .shared => h.releaseShared (call perform b.now) name owner

/-- A holder gives up all that it has noted; the number of ownerships that were live. -/
def giveUp (b : Board σ) (i : Nat) : Nat × Board σ :=
  b.act i fun h => do return (← Holder.giveUpAll (call perform b.now) h.held, .empty)

/-- A lock as the store shows it. -/
def look (b : Board σ) (name : String) : Except StoreError (Option LockView) :=
  (perform b.store b.now (.getLock name)).1

end Board

end SliceScheduler
