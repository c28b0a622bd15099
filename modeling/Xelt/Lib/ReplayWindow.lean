import Mathlib.Data.Finset.Lattice.Fold
import Mathlib.Order.Lattice.Nat

/-!
# Replay windows

A receiver that accepts every number at most once, and none that lies more
than `n` behind the next one it expects. Its state is the set of the numbers
it has accepted; `window` is what of it is not too far back.
-/

namespace Xelt.ReplayWindow

/-- One more than the highest number accepted. -/
def next (seen : Finset Nat) : Nat := seen.sup (· + 1)

/-- Not accepted before, and not too far back. -/
def Admits (n : Nat) (seen : Finset Nat) (c : Nat) : Prop := c ∉ seen ∧ next seen ≤ c + n

instance : Decidable (Admits n seen c) := inferInstanceAs (Decidable (_ ∧ _))

def step (n : Nat) (seen : Finset Nat) (c : Nat) : Finset Nat :=
  if Admits n seen c then insert c seen else seen

/-- What was accepted after a list of numbers, tried in order. -/
def accepted (n : Nat) (seen : Finset Nat) (cs : List Nat) : Finset Nat := cs.foldl (step n) seen

def window (n : Nat) (seen : Finset Nat) : Finset Nat := seen.filter fun c => next seen ≤ c + n

theorem next_insert : next (insert c seen) = max (next seen) (c + 1) := by
  rw [next, Finset.sup_insert, next]
  exact Nat.max_comm ..

@[simp] theorem mem_window : c ∈ window n seen ↔ c ∈ seen ∧ next seen ≤ c + n :=
  Finset.mem_filter

theorem not_admits : ¬ Admits n seen c ↔ c ∈ seen ∨ c + n < next seen := by
  rw [Admits, not_and_or, not_not, Nat.not_le]

theorem step_admits (h : Admits n seen c) : step n seen c = insert c seen := if_pos h

theorem step_refuses (h : ¬ Admits n seen c) : step n seen c = seen := if_neg h

end Xelt.ReplayWindow
