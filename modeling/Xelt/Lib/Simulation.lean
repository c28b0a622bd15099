import Mathlib.Data.List.Forall2
import Xelt.Lib.Runs

/-!
# Systems within systems

A system embeds another one when each of its steps is a step of the other or
leaves the other alone; `view` tells which. Runs of the whole are then runs
of the part, with the same emissions and the same conditions on their steps.
-/

namespace Xelt.Runs

universe u v w x

variable {σ : Type u} {ι : Type v} {τ : Type w} {κ : Type x}

/-- The states of the whole and of the part are related by `R`. -/
structure Embeds (step : σ → ι → Option σ) (step' : τ → κ → Option τ) (view : σ → ι → Option κ)
    (R : σ → τ → Prop) : Prop where
  stuck : ∀ s i, step s i = none → view s i = none
  idle : ∀ s v i s', R s v → step s i = some s' → view s i = none → R s' v
  moves : ∀ s v i s' j, R s v → step s i = some s' → view s i = some j →
    ∃ v', step' v j = some v' ∧ R s' v'

/-- The part of a run that the embedded system takes. -/
def viewed (step : σ → ι → Option σ) (view : σ → ι → Option κ) : σ → List ι → List κ :=
  trace step fun s i => (view s i).toList

variable {step : σ → ι → Option σ} {step' : τ → κ → Option τ} {view : σ → ι → Option κ}
  {R : σ → τ → Prop}

theorem viewed_stuck (hE : Embeds step step' view R) (hs : step s i = none) :
    viewed step view s (i :: is) = [] := by
  rw [viewed, trace_cons_none hs, hE.stuck s i hs]
  rfl

theorem viewed_idle (hs : step s i = some s') (hv : view s i = none) :
    viewed step view s (i :: is) = viewed step view s' is := by
  rw [viewed, trace_cons_some hs, hv]
  rfl

theorem viewed_moves (hs : step s i = some s') (hv : view s i = some j) :
    viewed step view s (i :: is) = j :: viewed step view s' is := by
  rw [viewed, trace_cons_some hs, hv]
  rfl

/-- A run of the whole is a run of the part. -/
theorem Embeds.run (hE : Embeds step step' view R) (h : R s v) (he : exec step s is = some t) :
    ∃ w, exec step' v (viewed step view s is) = some w ∧ R t w := by
  induction is generalizing s v with
  | nil =>
    cases he
    exact ⟨v, rfl, h⟩
  | cons i is ih =>
    obtain ⟨s', hs, he⟩ := (exec_cons_some step).mp he
    cases hv : view s i with
    | none =>
      rw [viewed_idle hs hv]
      exact ih (hE.idle s v i s' h hs hv) he
    | some j =>
      obtain ⟨v', hs', h'⟩ := hE.moves s v i s' j h hs hv
      obtain ⟨w, hw, ht⟩ := ih h' he
      rw [viewed_moves hs hv]
      exact ⟨w, (exec_cons_some step').mpr ⟨v', hs', hw⟩, ht⟩

/-- What the whole emits are the emissions of the part, one by one, up to `S`. -/
theorem Embeds.trace_forall₂ {emit : σ → ι → List ε} {emit' : τ → κ → List ε'} {S : ε → ε' → Prop}
    (hE : Embeds step step' view R)
    (hidle : ∀ s i, view s i = none → emit s i = [])
    (hmoves : ∀ s v i s' j, R s v → step s i = some s' → view s i = some j →
      List.Forall₂ S (emit s i) (emit' v j)) (h : R s v) :
    List.Forall₂ S (trace step emit s is) (trace step' emit' v (viewed step view s is)) := by
  induction is generalizing s v with
  | nil => exact .nil
  | cons i is ih =>
    cases hs : step s i with
    | none =>
      rw [viewed_stuck hE hs, trace_cons_none hs, hidle s i (hE.stuck s i hs)]
      exact .nil
    | some s' =>
      rw [trace_cons_some hs]
      cases hv : view s i with
      | none =>
        rw [viewed_idle hs hv, hidle s i hv]
        exact ih (hE.idle s v i s' h hs hv)
      | some j =>
        obtain ⟨v', hs', h'⟩ := hE.moves s v i s' j h hs hv
        rw [viewed_moves hs hv, trace_cons_some hs']
        exact List.rel_append (hmoves s v i s' j h hs hv) (ih h')

theorem Embeds.trace {emit : σ → ι → List ε} {emit' : τ → κ → List ε}
    (hE : Embeds step step' view R)
    (hemit : ∀ s v i, R s v → emit s i = (view s i).elim [] (emit' v)) (h : R s v) :
    trace step emit s is = trace step' emit' v (viewed step view s is) := by
  induction is generalizing s v with
  | nil => rfl
  | cons i is ih =>
    cases hs : step s i with
    | none =>
      rw [viewed_stuck hE hs, trace_cons_none hs, hemit s v i h, hE.stuck s i hs]
      rfl
    | some s' =>
      rw [trace_cons_some hs, hemit s v i h]
      cases hv : view s i with
      | none =>
        rw [viewed_idle hs hv]
        exact ih (hE.idle s v i s' h hs hv)
      | some j =>
        obtain ⟨v', hs', h'⟩ := hE.moves s v i s' j h hs hv
        rw [viewed_moves hs hv, trace_cons_some hs', ih h']
        rfl

theorem Embeds.along {P : σ → ι → Prop} {Q : τ → κ → Prop} (hE : Embeds step step' view R)
    (hnone : ∀ s i, view s i = none → P s i)
    (hsome : ∀ s v i j, R s v → view s i = some j → (P s i ↔ Q v j)) (h : R s v) :
    Along step P s is ↔ Along step' Q v (viewed step view s is) := by
  induction is generalizing s v with
  | nil => exact Iff.rfl
  | cons i is ih =>
    cases hs : step s i with
    | none =>
      rw [viewed_stuck hE hs]
      exact ⟨fun _ => trivial, fun _ => ⟨hnone s i (hE.stuck s i hs), by simp [hs]⟩⟩
    | some s' =>
      cases hv : view s i with
      | none =>
        rw [viewed_idle hs hv, ← ih (hE.idle s v i s' h hs hv)]
        exact ⟨fun ha => ha.2 s' hs, fun ha => Along.cons (hnone s i hv) hs ha⟩
      | some j =>
        obtain ⟨v', hs', h'⟩ := hE.moves s v i s' j h hs hv
        have hrest := ih h'
        rw [viewed_moves hs hv]
        constructor
        · rintro ⟨hp, ha⟩
          exact Along.cons ((hsome s v i j h hv).mp hp) hs' (hrest.mp (ha s' hs))
        · rintro ⟨hq, ha⟩
          exact Along.cons ((hsome s v i j h hv).mpr hq) hs (hrest.mpr (ha v' hs'))

end Xelt.Runs
