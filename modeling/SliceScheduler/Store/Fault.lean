import SliceScheduler.Store.Operation
/-!
# Calls that are made to fail

To see how a cluster bears faults, calls to its store are made to fail on demand. A call that is
made to fail does not reach the store.

1. `Faults.failNext` makes the next calls of a kind fail and counts those that did;
2. `Faults.failAfter` lets some calls of a kind pass before it makes calls fail;
3. `Faults.meet` says whether a call fails. A call that the second setting fails does not use up the
   first.
-/
namespace SliceScheduler

/-- Calls that still pass, and calls that fail after them. -/
structure FaultPlan where
  skip : Nat
  times : Nat
deriving DecidableEq, Repr

/-- The calls that are going to fail, by the name of the call. -/
structure Faults where
  next : Std.ExtTreeMap String Nat
  injected : Nat
  plans : Std.ExtTreeMap String FaultPlan

namespace Faults

/-- No call fails. -/
def none : Faults := ⟨∅, 0, ∅⟩

instance : Inhabited Faults := ⟨none⟩

/-- Makes the next `times` calls fail. -/
def failNext (f : Faults) (call : String) (times : Nat) : Faults :=
  { f with next := f.next.insert call times }

/-- Lets `skip` calls pass and makes the next `times` calls fail. -/
def failAfter (f : Faults) (call : String) (skip times : Nat) : Faults :=
  { f with plans := f.plans.insert call ⟨skip, times⟩ }

/-- The error of a call that is made to fail. -/
def error (call : String) : StoreError := .other ("injected " ++ call ++ " failure")

/-- The fault that a plan has for a call. -/
def meetPlan (f : Faults) (call : String) : Option StoreError × Faults :=
  match f.plans[call]? with
  | some ⟨0, times + 1⟩ => (some (error call), f.failAfter call 0 times)
  | some ⟨skip + 1, times⟩ => (.none, f.failAfter call skip times)
  | _ => (.none, f)

/-- The fault that is next for a call. -/
def meetNext (f : Faults) (call : String) : Option StoreError × Faults :=
  match f.next[call]? with
  | some (times + 1) =>
    (some (error call), { f.failNext call times with injected := f.injected + 1 })
  | _ => (.none, f)

/-- The fault that a call meets. -/
def meet (f : Faults) (call : String) : Option StoreError × Faults :=
  match f.meetPlan call with
  | (some e, f) => (some e, f)
  | (.none, f) => f.meetNext call

end Faults

end SliceScheduler
