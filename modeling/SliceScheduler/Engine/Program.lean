import SliceScheduler.Engine.Desk
/-!
# Programs of a node

The work of a node is written as programs that make one request at a time. Between two requests
nothing happens, so that programs of one node and of several can be interleaved at every request.

1. `Request` lists what a program may ask for and `Request.Answer` what it gets;
2. `Program` is a program with a result: it is done, or it makes a request and goes on with the
   answer;
3. the rest of the module names the requests.

A request is a call to the store, a wait, or local work. Local work takes no time: it goes on until
the next call or wait.
-/
namespace SliceScheduler

/-- What a program asks for. -/
inductive Request where
  /-- A call to the store. -/
  | call (op : Operation)
  /-- Local work: look at the desk. -/
  | look
  /-- Local work: change the desk. -/
  | change (f : Desk → Desk)
  /-- Local work: look at the clock. -/
  | now
  /-- Local work: set off the draining of a slice. -/
  | startDrain (slice : Slice)
  /-- Local work: set off a job of a slice under the permit taken last. -/
  | startJob (slice : Slice) (id : JobId)
  /-- Local work: count the slices whose draining is not over. -/
  | openDrains
  /-- Local work: let others move the pointer again. -/
  | leavePointer
  /-- A wait until nobody else on the node moves the pointer. -/
  | holdPointer
  /-- Moving the pointer past the slices that are over, under the guard of the pointer. -/
  | advance (fromTick : Bool)
  /-- A wait for a permit to run a job. -/
  | takePermit
  /-- A wait for the jobs that the program has set off. -/
  | awaitJobs
  /-- A wait for an executor to run a job. -/
  | execute (registration : Registration) (job : Job)
  /-- A wait for a length of time. -/
  | pause (d : Duration)

/-- The answer to a request. -/
abbrev Request.Answer : Request → Type
  | call op => op.Result
  | look => Desk
  | change _ => Unit
  | now => Instant
  | startDrain _ | startJob _ _ => Unit
  | openDrains => Nat
  | leavePointer | holdPointer => Unit
  | advance _ => List Slice
  | takePermit | awaitJobs => Unit
  | execute _ _ => Outcome
  | pause _ => Unit

/-- A program of a node. -/
inductive Program (α : Type) : Type where
  | done (a : α)
  | ask (r : Request) (next : r.Answer → Program α)

namespace Program

/-- Goes on with the result of a program. -/
def andThen {α β : Type} : Program α → (α → Program β) → Program β
  | done a, f => f a
  | ask r next, f => ask r fun answer => (next answer).andThen f

instance : Monad Program where
  pure := done
  bind := andThen

theorem pure_eq {α : Type} (a : α) : (pure a : Program α) = done a := rfl

theorem bind_eq {α β : Type} (p : Program α) (f : α → Program β) : p >>= f = p.andThen f := rfl

theorem andThen_done {α : Type} (p : Program α) : p.andThen done = p := by
  induction p with
  | done a => rfl
  | ask r next ih => simp [andThen, ih]

theorem andThen_assoc {α β γ : Type} (p : Program α) (f : α → Program β) (g : β → Program γ) :
    (p.andThen f).andThen g = p.andThen fun a => (f a).andThen g := by
  induction p with
  | done a => rfl
  | ask r next ih => simp [andThen, ih]

/-- Makes a request. -/
def request (r : Request) : Program r.Answer := ask r done

/-- Makes a call to the store. -/
def call (op : Operation) : Program op.Result := request (.call op)

/-- Looks at the desk. -/
def look : Program Desk := request .look

/-- Changes the desk. -/
def change (f : Desk → Desk) : Program Unit := request (.change f)

/-- Looks at the clock. -/
def now : Program Instant := request .now

/-- Announces an event. -/
def announce (e : Event) : Program Unit := change (·.announce e)

/-- The slice of the clock. -/
def currentSlice : Program Slice := do
  let desk ← look
  return Slice.containing (← now) desk.width

end Program

end SliceScheduler
