import Resumption.Proofs.Conduct.Upkeep

/-!
# Faults are counted

Exceptions that leave a function and calls that are refused are faults.  Nothing that a script does
takes one back, so a run without faults had none at any time.
-/

namespace Resumption

/-- The number of exceptions that left a function and of calls that were refused. -/
def Machine.faults (m : Machine) : Nat := m.chronicle.escaped + m.chronicle.refused

/-- Faults are not taken back. -/
def Upkeep.tally : Upkeep where
  keeps m m' := m.faults ≤ m'.faults
  refl _ := Nat.le_refl _
  trans := Nat.le_trans
  quietly h := Nat.add_le_add h.escaped h.refused
  suspend _ _ := Nat.le_refl _
  release _ := Nat.le_refl _

/-- The policy under which faults are counted. -/
def Policy.tally : Policy :=
  Upkeep.tally.policy fun hx _ => Upkeep.ends_afterwards (hx _) (fun _ h => h) fun _ _ => trivial

end Resumption
