import SliceScheduler.Engine.Alone
import SliceScheduler.Engine.Tick
import SliceScheduler.Proofs.Course
/-!
# A node that is watched

A program is run from end to end on a node by itself, and what it does is written down.

1. `Watched` is the node with the calls that it made and their answers, the events that it announced
   with the store at the time, the jobs that executors have run, and the slices whose draining was
   set off;
2. `Surroundings` are what the node finds: a store that answers as it likes, executors, and what
   comes of moving the pointer. Nothing is assumed about any of them;
3. `Program.watch?` runs a program, and `Program.watch?_bind` takes it apart;
4. `Watched.askAll` makes calls one after the other, and `Program.watch?_writeAll` says that writes
   of which the first that fails is the last are made up to that one.
-/
namespace SliceScheduler

/-- A call to a store and its answer. -/
abbrev Exchange := (op : Operation) × op.Result

/-- A node by itself, with what it has done. -/
structure Watched (σ : Type) where
  desk : Desk
  store : σ
  now : Instant
  calls : List Exchange
  /-- Each event with the store at the time. -/
  told : List (Event × σ)
  executed : List (Registration × Job)
  drains : List Slice

/-- What a node finds around it. -/
structure Surroundings (σ : Type) where
  perform : Performer σ
  execute : Executors
  /-- What comes of moving the pointer past the slices that are over. -/
  advance : Bool → Watched σ → List Slice × Watched σ

namespace Watched

variable {σ : Type}

/-- A node that has done nothing yet. -/
def start (desk : Desk) (store : σ) (now : Instant) : Watched σ := ⟨desk, store, now, [], [], [], []⟩

/-- After a change of the desk. What is new in the log is written down. -/
def change (s : Watched σ) (f : Desk → Desk) : Watched σ :=
  { s with
    desk := f s.desk
    told := s.told ++ ((f s.desk).log.toList.drop s.desk.log.size).map (·, s.store) }

/-- After an event. -/
def tell (s : Watched σ) (e : Event) : Watched σ :=
  { s with desk := s.desk.announce e, told := s.told ++ [(e, s.store)] }

theorem change_announce (s : Watched σ) (e : Event) : s.change (·.announce e) = s.tell e := by
  simp [change, tell, Desk.announce]

variable (W : Surroundings σ)

/-- The answer to a call. -/
def answer (s : Watched σ) (op : Operation) : op.Result := (W.perform s.store s.now op).1

/-- After a call. -/
def ask (s : Watched σ) (op : Operation) : Watched σ :=
  { s with
    store := (W.perform s.store s.now op).2
    calls := s.calls ++ [⟨op, s.answer W op⟩] }

/-- After the run of an executor. -/
def ran (s : Watched σ) (registration : Registration) (job : Job) : Watched σ :=
  { s with
    now := (W.execute registration job).2
    executed := s.executed ++ [(registration, job)] }

/-- After calls, one after the other. -/
def askAll (s : Watched σ) : List Operation → Watched σ := List.foldl (ask W) s

/-- The calls that are made one after the other, with their answers. -/
def exchanges (s : Watched σ) : List Operation → List Exchange
  | [] => []
  | op :: ops => ⟨op, s.answer W op⟩ :: (s.ask W op).exchanges ops

/-- Calls that are made one after the other succeed. -/
def Succeed (s : Watched σ) : List Operation → Prop
  | [] => True
  | op :: ops => (∃ a, s.answer W op = .ok a) ∧ (s.ask W op).Succeed ops

variable {W} (s : Watched σ)

@[simp] theorem desk_ask (op : Operation) : (s.ask W op).desk = s.desk := rfl
@[simp] theorem drains_ask (op : Operation) : (s.ask W op).drains = s.drains := rfl
@[simp] theorem drains_tell (e : Event) : (s.tell e).drains = s.drains := rfl
@[simp] theorem told_ask (op : Operation) : (s.ask W op).told = s.told := rfl
@[simp] theorem told_tell (e : Event) : (s.tell e).told = s.told ++ [(e, s.store)] := rfl
@[simp] theorem told_ran (r : Registration) (j : Job) : (s.ran W r j).told = s.told := rfl
@[simp] theorem executed_ask (op : Operation) : (s.ask W op).executed = s.executed := rfl
@[simp] theorem executed_tell (e : Event) : (s.tell e).executed = s.executed := rfl
@[simp] theorem executed_ran (r : Registration) (j : Job) :
    (s.ran W r j).executed = s.executed ++ [(r, j)] := rfl
@[simp] theorem calls_ask (op : Operation) :
    (s.ask W op).calls = s.calls ++ [⟨op, s.answer W op⟩] := rfl
@[simp] theorem calls_tell (e : Event) : (s.tell e).calls = s.calls := rfl
@[simp] theorem calls_ran (r : Registration) (j : Job) : (s.ran W r j).calls = s.calls := rfl

@[simp] theorem askAll_nil : s.askAll W [] = s := rfl

@[simp] theorem askAll_cons (op : Operation) (ops : List Operation) :
    s.askAll W (op :: ops) = (s.ask W op).askAll W ops := rfl

theorem calls_askAll (ops : List Operation) :
    (s.askAll W ops).calls = s.calls ++ s.exchanges W ops := by
  induction ops generalizing s with
  | nil => exact (List.append_nil _).symm
  | cons op ops ih => rw [askAll_cons, ih, ask, exchanges, List.append_assoc]; rfl

@[simp] theorem desk_askAll (ops : List Operation) : (s.askAll W ops).desk = s.desk := by
  induction ops generalizing s with
  | nil => rfl
  | cons op ops ih => exact ih (s.ask W op)

@[simp] theorem told_askAll (ops : List Operation) : (s.askAll W ops).told = s.told := by
  induction ops generalizing s with
  | nil => rfl
  | cons op ops ih => exact ih (s.ask W op)

@[simp] theorem executed_askAll (ops : List Operation) :
    (s.askAll W ops).executed = s.executed := by
  induction ops generalizing s with
  | nil => rfl
  | cons op ops ih => exact ih (s.ask W op)

theorem mem_of_mem_exchanges {ops : List Operation} {x : Exchange}
    (mem : x ∈ s.exchanges W ops) : x.1 ∈ ops := by
  induction ops generalizing s with
  | nil => cases mem
  | cons op ops ih =>
    rcases List.mem_cons.mp mem with rfl | mem
    · exact List.mem_cons_self
    · exact List.mem_cons_of_mem _ (ih _ mem)

theorem exchanges_of_succeed {ops : List Operation} (succeed : s.Succeed W ops) {op : Operation}
    (mem : op ∈ ops) : ∃ a, ⟨op, .ok a⟩ ∈ s.exchanges W ops := by
  induction ops generalizing s with
  | nil => cases mem
  | cons op' ops ih =>
    obtain ⟨⟨a, answered⟩, rest⟩ := succeed
    rcases List.mem_cons.mp mem with rfl | mem
    · exact ⟨a, by rw [exchanges, answered]; exact List.mem_cons_self⟩
    · obtain ⟨a, mem⟩ := ih _ rest mem
      exact ⟨a, List.mem_cons_of_mem _ mem⟩

end Watched

namespace Program

variable {σ α β : Type} (W : Surroundings σ)

/-- Runs a program that waits for nobody but executors. -/
def watch? : Program α → Watched σ → Option (α × Watched σ)
  | .done a, s => some (a, s)
  | .ask (.call op) next, s => (next (s.answer W op)).watch? (s.ask W op)
  | .ask .look next, s => (next s.desk).watch? s
  | .ask (.change f) next, s => (next ()).watch? (s.change f)
  | .ask .now next, s => (next s.now).watch? s
  | .ask (.startDrain slice) next, s => (next ()).watch? { s with drains := s.drains ++ [slice] }
  | .ask (.advance fromTick) next, s =>
    (next (W.advance fromTick s).1).watch? (W.advance fromTick s).2
  | .ask (.execute registration job) next, s =>
    (next (W.execute registration job).1).watch? (s.ran W registration job)
  | .ask _ _, _ => none

theorem watch?_andThen (p : Program α) (f : α → Program β) (s : Watched σ) :
    (p.andThen f).watch? W s = (p.watch? W s).bind fun (a, s') => (f a).watch? W s' := by
  induction p generalizing s with
  | done a => rfl
  | ask r next ih =>
    cases r with
    | call | look | change | now | startDrain | advance | execute => exact ih _ _
    | _ => rfl

theorem watch?_bind (p : Program α) (f : α → Program β) (s : Watched σ) :
    (p >>= f).watch? W s = (p.watch? W s).bind fun (a, s') => (f a).watch? W s' :=
  watch?_andThen W p f s

/-! ## The requests of a program -/

variable {W} (s : Watched σ)

@[simp] theorem watch?_pure (a : α) : (pure a : Program α).watch? W s = some (a, s) := rfl

theorem watch?_call (op : Operation) (f : op.Result → Program α) :
    (call op >>= f).watch? W s = (f (s.answer W op)).watch? W (s.ask W op) := rfl

theorem watch?_look (f : Desk → Program α) :
    (look >>= f).watch? W s = (f s.desk).watch? W s := rfl

theorem watch?_now (f : Instant → Program α) :
    (now >>= f).watch? W s = (f s.now).watch? W s := rfl

theorem watch?_announce (e : Event) (f : Unit → Program α) :
    (announce e >>= f).watch? W s = (f ()).watch? W (s.tell e) := by
  rw [← s.change_announce e]
  rfl

theorem watch?_announce_last (e : Event) : (announce e).watch? W s = some ((), s.tell e) := by
  rw [← s.change_announce e]
  rfl

theorem watch?_execute (registration : Registration) (job : Job) (f : Outcome → Program α) :
    (request (.execute registration job) >>= f).watch? W s =
      (f (W.execute registration job).1).watch? W (s.ran W registration job) := rfl

/-! ## Writes one after the other -/

/-- Writes of which the first that fails is the last. -/
def writeAll : List Operation → Writing Unit
  | [] => pure ()
  | op :: ops => do
    let _ ← write op
    writeAll ops

/-- The writes are made up to the first that fails. -/
theorem watch?_writeAll (ops : List Operation) (s : Watched σ) :
    s.Succeed W ops ∧ (writeAll ops).run.watch? W s = some (.ok (), s.askAll W ops) ∨
    ∃ made op rest e, ops = made ++ op :: rest ∧ s.Succeed W made ∧
      (s.askAll W made).answer W op = .error e ∧
      (writeAll ops).run.watch? W s = some (.error e, (s.askAll W made).ask W op) := by
  induction ops generalizing s with
  | nil => exact .inl ⟨trivial, rfl⟩
  | cons op ops ih =>
    have first : (writeAll (op :: ops)).run.watch? W s =
        ((ExceptT.bindCont (fun _ => writeAll ops) (s.answer W op)).watch? W (s.ask W op)) := rfl
    rw [first]
    cases answered : s.answer W op with
    | error e => exact .inr ⟨[], op, ops, e, rfl, trivial, answered, rfl⟩
    | ok a =>
      rcases ih (s.ask W op) with ⟨succeed, ran⟩ | ⟨made, op', rest, e, rfl, succeed, fails, ran⟩
      · exact .inl ⟨⟨⟨a, answered⟩, succeed⟩, ran⟩
      · exact .inr ⟨op :: made, op', rest, e, rfl, ⟨⟨a, answered⟩, succeed⟩, fails, ran⟩

end Program

end SliceScheduler
