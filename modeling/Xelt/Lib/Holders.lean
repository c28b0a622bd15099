import Mathlib.Data.Finset.Basic

/-!
# What threads hold

A lock says who holds it; where a thread is in its program says it too. Here the
two are kept in step: `holds` tells of a place in the program whether the lock is
held there, and `pc` where each thread is.
-/

namespace Xelt

variable {ι π : Type} {holds : π → Bool}

/-- An exclusive lock is held by `owner`, if by anyone. -/
def Held (holds : π → Bool) (pc : ι → π) (owner : Option ι) : Prop :=
  ∀ i, holds (pc i) = true ↔ owner = some i

/-- A shared lock is held by `owners`. -/
def HeldBy (holds : π → Bool) (pc : ι → π) (owners : Finset ι) : Prop :=
  ∀ i, holds (pc i) = true ↔ i ∈ owners

variable {pc pc' : ι → π} {owner : Option ι} {owners : Finset ι}

theorem Held.congr (h : Held holds pc owner) (hpc : ∀ i, holds (pc' i) = holds (pc i)) :
    Held holds pc' owner := fun i => by rw [hpc, h]

theorem HeldBy.congr (h : HeldBy holds pc owners) (hpc : ∀ i, holds (pc' i) = holds (pc i)) :
    HeldBy holds pc' owners := fun i => by rw [hpc, h]

theorem Held.unique (h : Held holds pc owner) (hi : holds (pc i) = true)
    (hj : holds (pc j) = true) : i = j :=
  Option.some.inj (((h i).mp hi).symm.trans ((h j).mp hj))

theorem Held.eq_some (h : Held holds pc owner) (hi : holds (pc i) = true) : owner = some i :=
  (h i).mp hi

/-- Nobody else holds what a thread holds. -/
theorem Held.others (h : Held holds pc owner) (hi : holds (pc i) = true) (hj : j ≠ i) :
    holds (pc j) = false := by
  rw [← Bool.not_eq_true]
  exact fun hheld => hj (h.unique hheld hi)

theorem Held.nobody (h : Held holds pc none) (i : ι) : holds (pc i) = false := by
  rw [← Bool.not_eq_true, h]
  exact nofun

variable [DecidableEq ι]

/-- Where the others are does not change. -/
theorem forall_update {P : π → Prop} (h : ∀ j, j ≠ i → P (pc j)) (hp : P p) (j : ι) :
    P (Function.update pc i p j) := by
  by_cases hj : j = i
  · subst hj
    rwa [Function.update_self]
  · rw [Function.update_of_ne hj]
    exact h j hj

/-- One thread goes on, and neither takes nor gives the lock. -/
theorem update_holds (hp : holds p = holds (pc i)) (j : ι) :
    holds (Function.update pc i p j) = holds (pc j) := by
  by_cases hj : j = i
  · subst hj
    rw [Function.update_self, hp]
  · rw [Function.update_of_ne hj]

theorem Held.keep (h : Held holds pc owner) (hp : holds p = holds (pc i)) :
    Held holds (Function.update pc i p) owner := h.congr (update_holds hp)

theorem HeldBy.keep (h : HeldBy holds pc owners) (hp : holds p = holds (pc i)) :
    HeldBy holds (Function.update pc i p) owners := h.congr (update_holds hp)

theorem Held.take (h : Held holds pc none) (hp : holds p = true) :
    Held holds (Function.update pc i p) (some i) := by
  intro j
  by_cases hj : j = i
  · subst hj
    simp [hp]
  · rw [Function.update_of_ne hj, h.nobody j]
    simp [Ne.symm hj]

theorem Held.give (h : Held holds pc owner) (hi : holds (pc i) = true) (hp : holds p = false) :
    Held holds (Function.update pc i p) none := by
  intro j
  by_cases hj : j = i
  · subst hj
    simp [hp]
  · rw [Function.update_of_ne hj, h.others hi hj]
    simp

theorem HeldBy.take (h : HeldBy holds pc owners) (hp : holds p = true) :
    HeldBy holds (Function.update pc i p) (insert i owners) := by
  intro j
  by_cases hj : j = i
  · subst hj
    simp [hp]
  · rw [Function.update_of_ne hj, h j]
    simp [hj]

theorem HeldBy.give (h : HeldBy holds pc owners) (hp : holds p = false) :
    HeldBy holds (Function.update pc i p) (owners.erase i) := by
  intro j
  by_cases hj : j = i
  · subst hj
    simp [hp]
  · rw [Function.update_of_ne hj, h j]
    simp [hj]

end Xelt
