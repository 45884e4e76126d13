/-!
# Counts

How often something has happened, kept in 32 bits. A count that is full stays full.
-/
namespace SliceScheduler

/-- A number of executions, retries or attempts. -/
structure Count where
  val : Nat
  val_le : val ≤ 4294967295
deriving DecidableEq, Repr

namespace Count

def zero : Count := ⟨0, by decide⟩

/-- The greatest count. -/
def full : Count := ⟨4294967295, by decide⟩

instance : Inhabited Count := ⟨zero⟩

/-- A number that is in range. -/
def ofNat? (n : Nat) : Option Count :=
  if h : n ≤ 4294967295 then some ⟨n, h⟩ else none

/-- One more, unless the count is full. -/
def succ (c : Count) : Count :=
  (ofNat? (c.val + 1)).getD full

theorem val_succ (c : Count) : c.succ.val = min (c.val + 1) 4294967295 := by
  unfold succ ofNat?
  have := c.val_le
  split <;> simp [full] <;> omega

end Count

end SliceScheduler
