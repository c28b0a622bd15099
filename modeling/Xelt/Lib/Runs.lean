/-!
# Runs of a partial step function

A system is a step function `σ → ι → Option σ`: the input says which party
moves and what its surroundings answered, and `none` says that this move is
not possible. A run is a list of inputs executed in order. `Along` speaks of
every step of a run; an invariant is carried by the rules below, once for
all systems.
-/

namespace Xelt.Runs

universe u v w

section
variable {σ : Type u} {ι : Type v} {ε : Type w} (step : σ → ι → Option σ)

/-- The state after a run, when every move in it was possible. -/
def exec : σ → List ι → Option σ
  | s, [] => some s
  | s, i :: is => (step s i).bind fun s' => exec s' is

/-- `P` holds of every state and input met while the run is executed. -/
def Along (P : σ → ι → Prop) : σ → List ι → Prop
  | _, [] => True
  | s, i :: is => P s i ∧ ∀ s', step s i = some s' → Along P s' is

/-- `P` holds of some state and input met while the run is executed. -/
def Sometime (P : σ → ι → Prop) : σ → List ι → Prop
  | _, [] => False
  | s, i :: is => P s i ∨ ∃ s', step s i = some s' ∧ Sometime P s' is

/-- `P` holds of every state met while the run is executed, the last one
included, and the moves still to come there. -/
def Ahead (P : σ → List ι → Prop) : σ → List ι → Prop
  | s, [] => P s []
  | s, i :: is => P s (i :: is) ∧ ∀ s', step s i = some s' → Ahead P s' is

/-- What the steps of a run emit, in order, when `emit` tells it for one step. -/
def trace (emit : σ → ι → List ε) : σ → List ι → List ε
  | _, [] => []
  | s, i :: is =>
    emit s i ++ match step s i with
      | some s' => trace emit s' is
      | none => []

@[simp] theorem exec_nil : exec step s [] = some s := rfl

theorem exec_cons : exec step s (i :: is) = (step s i).bind fun s' => exec step s' is := rfl

theorem exec_cons_some :
    exec step s (i :: is) = some t ↔ ∃ s', step s i = some s' ∧ exec step s' is = some t := by
  simp [exec_cons, Option.bind_eq_some_iff]

theorem exec_append :
    exec step s (is ++ js) = (exec step s is).bind fun s' => exec step s' js := by
  induction is generalizing s with
  | nil => rfl
  | cons i is ih => cases h : step s i <;> simp [exec_cons, h, ih]

theorem exec_append_some :
    exec step s (is ++ js) = some t ↔
      ∃ s', exec step s is = some s' ∧ exec step s' js = some t := by
  simp [exec_append, Option.bind_eq_some_iff]

/-- A system whose moves are always possible runs any list of inputs. -/
theorem exec_total (h : ∀ s i, ∃ s', step s i = some s') (s : σ) (is : List ι) :
    ∃ t, exec step s is = some t := by
  induction is generalizing s with
  | nil => exact ⟨s, rfl⟩
  | cons i is ih =>
    obtain ⟨s', hs⟩ := h s i
    obtain ⟨t, ht⟩ := ih s'
    exact ⟨t, (exec_cons_some step).mpr ⟨s', hs, ht⟩⟩

variable {step}

theorem Along.cons {P : σ → ι → Prop} (h : P s i) (hs : step s i = some s')
    (ht : Along step P s' is) : Along step P s (i :: is) :=
  ⟨h, fun _ hst => Option.some.inj (hs.symm.trans hst) ▸ ht⟩

theorem along_cons_some {P : σ → ι → Prop} (hs : step s i = some s') :
    Along step P s (i :: is) ↔ P s i ∧ Along step P s' is :=
  ⟨fun h => ⟨h.1, h.2 s' hs⟩, fun h => Along.cons h.1 hs h.2⟩

theorem along_cons_none {P : σ → ι → Prop} (hs : step s i = none) :
    Along step P s (i :: is) ↔ P s i := by
  simp [Along, hs]

theorem along_append {P : σ → ι → Prop} :
    Along step P s (is ++ js) ↔
      Along step P s is ∧ ∀ t, exec step s is = some t → Along step P t js := by
  induction is generalizing s with
  | nil => simp [Along]
  | cons i is ih =>
    simp only [List.cons_append, Along, ih, exec_cons_some]
    constructor
    · rintro ⟨h, ht⟩
      exact ⟨⟨h, fun s' hs => (ht s' hs).1⟩, fun t ⟨s', hs, he⟩ => (ht s' hs).2 t he⟩
    · rintro ⟨⟨h, ht⟩, hj⟩
      exact ⟨h, fun s' hs => ⟨ht s' hs, fun t he => hj t ⟨s', hs, he⟩⟩⟩

/-- `Along`, read at one position of the run. -/
theorem Along.at {P : σ → ι → Prop} (h : Along step P s (is ++ i :: js))
    (he : exec step s is = some t) : P t i := ((along_append.mp h).2 t he).1

theorem along_iff_at {P : σ → ι → Prop} :
    Along step P s is ↔
      ∀ pre i post t, is = pre ++ i :: post → exec step s pre = some t → P t i := by
  constructor
  · rintro h pre i post t rfl he
    exact h.at he
  · intro h
    induction is generalizing s with
    | nil => trivial
    | cons i is ih =>
      refine ⟨h [] i is s rfl rfl, fun s' hs => ih fun pre j post t hsplit he => ?_⟩
      exact h (i :: pre) j post t (by rw [hsplit]; rfl) ((exec_cons_some step).mpr ⟨s', hs, he⟩)

theorem Along.and {P Q : σ → ι → Prop} (hp : Along step P s is) (hq : Along step Q s is) :
    Along step (fun s i => P s i ∧ Q s i) s is := by
  induction is generalizing s with
  | nil => trivial
  | cons i is ih => exact ⟨⟨hp.1, hq.1⟩, fun s' hs => ih (hp.2 s' hs) (hq.2 s' hs)⟩

/-- The invariant rule for runs whose steps all meet `C`: what holds at the
start and is kept by every step meeting `C` holds of every state reached. -/
theorem invariant {C : σ → ι → Prop} {I : σ → Prop}
    (hstep : ∀ s i s', I s → C s i → step s i = some s' → I s')
    (h : I s) (hc : Along step C s is) (he : exec step s is = some t) : I t := by
  induction is generalizing s with
  | nil => cases he; exact h
  | cons i is ih =>
    obtain ⟨s', hs, he⟩ := (exec_cons_some step).mp he
    exact ih (hstep s i s' h hc.1 hs) (hc.2 s' hs) he

/-- The invariant rule for unconditional steps. -/
theorem invariant_run {I : σ → Prop} (hstep : ∀ s i s', I s → step s i = some s' → I s')
    (h : I s) (he : exec step s is = some t) : I t :=
  invariant (C := fun _ _ => True) (fun s i s' hi _ => hstep s i s' hi) h
    (along_iff_at.mpr fun _ _ _ _ _ _ => trivial) he

/-- What a step brings about exactly when it meets `P`, and no step undoes, holds
at the end of a run exactly when it held at its start or `P` was met. -/
theorem sometime_rule {C : ι → Prop} {I Q : σ → Prop} {P : σ → ι → Prop}
    (hkeep : ∀ s i s', I s → C i → step s i = some s' → I s')
    (hstep : ∀ s i s', I s → C i → step s i = some s' → (Q s' ↔ Q s ∨ P s i))
    (h : I s) (hc : ∀ i ∈ is, C i) (he : exec step s is = some t) :
    Q t ↔ Q s ∨ Sometime step P s is := by
  induction is generalizing s with
  | nil =>
    cases he
    simp [Sometime]
  | cons i is ih =>
    obtain ⟨s', hs, he⟩ := (exec_cons_some step).mp he
    obtain ⟨hi, his⟩ := List.forall_mem_cons.mp hc
    rw [ih (hkeep s i s' h hi hs) his he, hstep s i s' h hi hs, or_assoc, Sometime]
    simp [hs]

/-- Where `C` is what a possible step needs to keep the invariant, the invariant
holds of every state reached exactly when `C` does along the run. -/
theorem invariant_iff_along {C : σ → ι → Prop} {I : σ → Prop}
    (hnone : ∀ s i, I s → step s i = none → C s i)
    (hstep : ∀ s i s', I s → step s i = some s' → (C s i ↔ I s')) (h : I s) :
    (∀ pre post t, is = pre ++ post → exec step s pre = some t → I t) ↔ Along step C s is := by
  induction is generalizing s with
  | nil =>
    refine ⟨fun _ => trivial, fun _ pre post t hsplit he => ?_⟩
    obtain ⟨rfl, rfl⟩ := List.append_eq_nil_iff.mp hsplit.symm
    exact Option.some.inj he ▸ h
  | cons i is ih =>
    constructor
    · intro hall
      have hnext : ∀ s', step s i = some s' → I s' := fun s' hs =>
        hall [i] is s' rfl ((exec_cons_some step).mpr ⟨s', hs, rfl⟩)
      refine ⟨?_, fun s' hs => (ih (hnext s' hs)).mp fun pre post t hsplit he => ?_⟩
      · cases hs : step s i with
        | none => exact hnone s i h hs
        | some s' => exact (hstep s i s' h hs).mpr (hnext s' hs)
      · exact hall (i :: pre) post t (by rw [hsplit]; rfl) ((exec_cons_some step).mpr ⟨s', hs, he⟩)
    · intro hc pre post t hsplit he
      cases pre with
      | nil => exact Option.some.inj he ▸ h
      | cons j pre =>
        obtain ⟨rfl, htail⟩ := List.cons.inj hsplit
        obtain ⟨s', hs, he⟩ := (exec_cons_some step).mp he
        exact (ih ((hstep s i s' h hs).mp hc.1)).mpr (hc.2 s' hs) pre post t htail he

theorem Along.imp {P Q : σ → ι → Prop} (hpq : ∀ s i, P s i → Q s i) (hp : Along step P s is) :
    Along step Q s is := by
  induction is generalizing s with
  | nil => trivial
  | cons i is ih => exact ⟨hpq s i hp.1, fun s' hs => ih (hp.2 s' hs)⟩

/-- Under an invariant, one step predicate may stand for another. -/
theorem Along.mono {P Q : σ → ι → Prop} {I : σ → Prop}
    (hstep : ∀ s i s', I s → P s i → step s i = some s' → I s')
    (hpq : ∀ s i, I s → P s i → Q s i) (h : I s) (hp : Along step P s is) :
    Along step Q s is := by
  induction is generalizing s with
  | nil => trivial
  | cons i is ih =>
    exact ⟨hpq s i h hp.1, fun s' hs => ih (hstep s i s' h hp.1 hs) (hp.2 s' hs)⟩

/-- A check of every step, on a concrete run. -/
instance decidableAlong {P : σ → ι → Prop} [∀ s i, Decidable (P s i)] :
    (s : σ) → (is : List ι) → Decidable (Along step P s is)
  | _, [] => .isTrue trivial
  | s, i :: is =>
    match h : step s i with
    | none => decidable_of_iff (P s i) (along_cons_none h).symm
    | some s' =>
      have : Decidable (Along step P s' is) := decidableAlong s' is
      decidable_of_iff (P s i ∧ Along step P s' is) (along_cons_some h).symm

theorem Ahead.now {P : σ → List ι → Prop} (h : Ahead step P s is) : P s is := by
  cases is with
  | nil => exact h
  | cons i is => exact h.1

theorem ahead_cons_some {P : σ → List ι → Prop} (hs : step s i = some s') :
    Ahead step P s (i :: is) ↔ P s (i :: is) ∧ Ahead step P s' is :=
  ⟨fun h => ⟨h.1, h.2 s' hs⟩, fun h =>
    ⟨h.1, fun _ hst => Option.some.inj (hs.symm.trans hst) ▸ h.2⟩⟩

-- ---------------------------------------------------------------------------
-- Traces
-- ---------------------------------------------------------------------------

variable {emit : σ → ι → List ε}

@[simp] theorem trace_nil : trace step emit s [] = [] := rfl

theorem trace_cons_some (h : step s i = some s') :
    trace step emit s (i :: is) = emit s i ++ trace step emit s' is := by
  simp [trace, h]

theorem trace_cons_none (h : step s i = none) : trace step emit s (i :: is) = emit s i := by
  simp [trace, h]

theorem trace_append (he : exec step s is = some t) :
    trace step emit s (is ++ js) = trace step emit s is ++ trace step emit t js := by
  induction is generalizing s with
  | nil => cases he; rfl
  | cons i is ih =>
    obtain ⟨s', hs, he⟩ := (exec_cons_some step).mp he
    simp [trace_cons_some hs, ih he]

/-- What a run emits, one of its steps emits. -/
theorem mem_trace :
    e ∈ trace step emit s is ↔
      ∃ pre i post t, is = pre ++ i :: post ∧ exec step s pre = some t ∧ e ∈ emit t i := by
  constructor
  · intro h
    induction is generalizing s with
    | nil => simp at h
    | cons i is ih =>
      rcases List.mem_append.mp h with h | h
      · exact ⟨[], i, is, s, rfl, rfl, h⟩
      · cases hs : step s i with
        | none => simp [hs] at h
        | some s' =>
          rw [hs] at h
          obtain ⟨pre, j, post, t, rfl, he, hmem⟩ := ih h
          exact ⟨i :: pre, j, post, t, rfl, (exec_cons_some step).mpr ⟨s', hs, he⟩, hmem⟩
  · rintro ⟨pre, i, post, t, rfl, he, hmem⟩
    rw [trace_append he]
    exact List.mem_append_right _ (List.mem_append_left _ hmem)

/-- No emission of a run satisfies `Q` exactly when no step emits such a one. -/
theorem forall_trace {Q : ε → Prop} :
    (∀ e ∈ trace step emit s is, Q e) ↔ Along step (fun s i => ∀ e ∈ emit s i, Q e) s is := by
  induction is generalizing s with
  | nil => simp [Along]
  | cons i is ih =>
    cases h : step s i with
    | none => simp [trace_cons_none h, Along, h]
    | some s' => simp [trace_cons_some h, Along, h, ← ih, or_imp, forall_and]

/-- The invariant rule with the emissions so far: `I` relates the state
reached to everything emitted on the way. -/
theorem invariant_trace (emit : σ → ι → List ε) {C : σ → ι → Prop} {I : σ → List ε → Prop}
    (past : List ε)
    (hstep : ∀ s i s' past, I s past → C s i → step s i = some s' → I s' (past ++ emit s i))
    (h : I s past) (hc : Along step C s is) (he : exec step s is = some t) :
    I t (past ++ trace step emit s is) := by
  induction is generalizing s past with
  | nil => cases he; simpa using h
  | cons i is ih =>
    obtain ⟨s', hs, he⟩ := (exec_cons_some step).mp he
    have hi := ih _ (hstep s i s' past h hc.1 hs) (hc.2 s' hs) he
    simpa [trace_cons_some hs] using hi

/-- A property of everything emitted, which a run inherits from its
continuations, is a condition on every step. -/
theorem trace_iff_along {C : σ → ι → Prop} {I : σ → List ε → Prop} {P : List ε → Prop}
    (past : List ε)
    (hearlier : ∀ s past is, I s past → P (past ++ trace step emit s is) → P past)
    (hstep : ∀ s i s' past, I s past → step s i = some s' → I s' (past ++ emit s i))
    (hP : ∀ s i past, I s past → P past → (P (past ++ emit s i) ↔ C s i))
    (h : I s past) (hp : P past) :
    P (past ++ trace step emit s is) ↔ Along step C s is := by
  induction is generalizing s past with
  | nil => simpa [Along] using hp
  | cons i is ih =>
    cases hs : step s i with
    | none => simp [trace_cons_none hs, Along, hs, hP s i past h hp]
    | some s' =>
      have h' := hstep s i s' past h hs
      rw [trace_cons_some hs, ← List.append_assoc]
      constructor
      · intro hall
        have hi := hearlier s' _ is h' hall
        exact Along.cons ((hP s i past h hp).mp hi) hs ((ih _ h' hi).mp hall)
      · rintro ⟨hc, hlater⟩
        exact (ih _ h' ((hP s i past h hp).mpr hc)).mpr (hlater s' hs)

end

end Xelt.Runs
