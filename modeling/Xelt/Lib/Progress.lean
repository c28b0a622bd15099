import Mathlib.Algebra.BigOperators.Group.Finset.Basic
import Mathlib.Algebra.Order.BigOperators.Group.Finset
import Mathlib.Data.Fintype.Card
import Xelt.Lib.Runs

/-!
# Runs that come to an end

A measure that every step takes down bounds the length of runs, and a run that
is continued as long as it can be ends where no step is possible. The measures
here are sums over threads: of a step of one thread, or of one that touches
every thread a little and its own a lot.
-/

namespace Xelt.Runs

universe u v

variable {σ : Type u} {κ : Type v} {step : σ → κ → Option σ} {I : σ → Prop} {μ : σ → Nat}

/-- A run is no longer than the measure it begins with. -/
theorem length_le_measure (hkeep : ∀ s m s', I s → step s m = some s' → I s')
    (hdown : ∀ s m s', I s → step s m = some s' → μ s' < μ s) (h : I s)
    (he : exec step s ms = some t) : ms.length + μ t ≤ μ s := by
  induction ms generalizing s with
  | nil =>
    cases he
    simp
  | cons m ms ih =>
    obtain ⟨s', hs, he⟩ := (exec_cons_some step).mp he
    have hrest := ih (hkeep s m s' h hs) he
    have hlt := hdown s m s' h hs
    rw [List.length_cons]
    omega

/-- No step is possible. -/
def Stuck (step : σ → κ → Option σ) (s : σ) : Prop := ∀ m, step s m = none

/-- Every run can be continued to one that ends. -/
theorem exists_stuck (hkeep : ∀ s m s', I s → step s m = some s' → I s')
    (hdown : ∀ s m s', I s → step s m = some s' → μ s' < μ s) (h : I s) :
    ∃ ms t, exec step s ms = some t ∧ Stuck step t := by
  by_cases hstuck : Stuck step s
  · exact ⟨[], s, rfl, hstuck⟩
  · obtain ⟨m, hm⟩ := not_forall.mp hstuck
    obtain ⟨s', hs⟩ := Option.ne_none_iff_exists'.mp hm
    have hlt := hdown s m s' h hs
    obtain ⟨ms, t, he, ht⟩ := exists_stuck hkeep hdown (hkeep s m s' h hs)
    exact ⟨m :: ms, t, (exec_cons_some step).mpr ⟨s', hs, he⟩, ht⟩
termination_by μ s

end Xelt.Runs

namespace Xelt

variable {ι : Type} [Fintype ι] [DecidableEq ι]

/-- One thread goes down, the others stay. -/
theorem sum_lt_of_one {r r' : ι → Nat} (i : ι) (hi : r' i < r i) (hj : ∀ j, j ≠ i → r' j = r j) :
    ∑ j, r' j < ∑ j, r j := by
  refine Finset.sum_lt_sum (fun j _ => ?_) ⟨i, Finset.mem_univ i, hi⟩
  by_cases h : j = i
  · exact h ▸ hi.le
  · exact (hj j h).le

/-- The others go up by at most `k` each, and one thread pays for all of them. -/
theorem sum_lt_of_paid {r r' : ι → Nat} (i : ι) (k : Nat)
    (hi : r' i + k * Fintype.card ι < r i + k) (hj : ∀ j, j ≠ i → r' j ≤ r j + k) :
    ∑ j, r' j < ∑ j, r j := by
  have hothers : ∑ j ∈ Finset.univ.erase i, r' j ≤
      ∑ j ∈ Finset.univ.erase i, r j + k * (Fintype.card ι - 1) := by
    calc ∑ j ∈ Finset.univ.erase i, r' j
        ≤ ∑ j ∈ Finset.univ.erase i, (r j + k) :=
          Finset.sum_le_sum fun j h => hj j (Finset.ne_of_mem_erase h)
      _ = ∑ j ∈ Finset.univ.erase i, r j + k * (Fintype.card ι - 1) := by
          rw [Finset.sum_add_distrib, Finset.sum_const_nat fun _ _ => rfl,
            Finset.card_erase_of_mem (Finset.mem_univ i), Finset.card_univ, Nat.mul_comm]
  have hcard : k * (Fintype.card ι - 1) + k = k * Fintype.card ι := by
    rw [← Nat.mul_succ, Nat.succ_eq_add_one, Nat.sub_add_cancel (Fintype.card_pos_iff.mpr ⟨i⟩)]
  rw [← Finset.add_sum_erase _ r (Finset.mem_univ i),
    ← Finset.add_sum_erase _ r' (Finset.mem_univ i)]
  omega

end Xelt
