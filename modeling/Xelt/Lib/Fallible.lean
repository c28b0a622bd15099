/-!
# Fallible computations over a state

A computation reads and writes a state and may fail; what it had written until
then stays written. `Triple` states what holds of either outcome, `guarded`
unwinds a stack of undo steps when a computation fails.
-/

namespace Xelt

universe u v w

abbrev Fallible (σ ε : Type u) := ExceptT ε (StateM σ)

namespace Fallible

variable {σ ε α β : Type u}

/-- The outcome, and the state behind it. -/
def exec (m : Fallible σ ε α) (s : σ) : Except ε α × σ := m.run s

theorem exec_bind (m : Fallible σ ε α) (f : α → Fallible σ ε β) (s : σ) :
    exec (m >>= f) s = match exec m s with
      | (.ok a, s') => exec (f a) s'
      | (.error e, s') => (.error e, s') := by
  have hrun : exec (m >>= f) s = match exec m s with
      | (result, s') => ExceptT.bindCont f result s' := rfl
  rw [hrun]
  cases hm : exec m s with
  | mk result s' => cases result <;> rfl

/-- `Q` holds of a result and the state behind it, `E` of a failure. -/
def Triple (m : Fallible σ ε α) (s : σ) (Q : α → σ → Prop) (E : ε → σ → Prop) : Prop :=
  match exec m s with
  | (.ok a, s') => Q a s'
  | (.error e, s') => E e s'

variable {m : Fallible σ ε α} {s : σ} {Q : α → σ → Prop} {E : ε → σ → Prop}

theorem Triple.ok (h : Triple m s Q E) (he : exec m s = (.ok a, s')) : Q a s' := by
  simpa [Triple, he] using h

theorem Triple.error (h : Triple m s Q E) (he : exec m s = (.error e, s')) : E e s' := by
  simpa [Triple, he] using h

theorem Triple.of_pure {a : α} (h : Q a s) : Triple (pure a) s Q E := h

theorem Triple.of_throw {e : ε} (h : E e s) : Triple (throw e) s Q E := h

theorem Triple.of_modify {f : σ → σ} {Q : PUnit → σ → Prop} (h : Q ⟨⟩ (f s)) :
    Triple (modify f) s Q E := h

theorem Triple.mono {Q' : α → σ → Prop} {E' : ε → σ → Prop} (h : Triple m s Q E)
    (hq : ∀ a s', Q a s' → Q' a s') (he : ∀ e s', E e s' → E' e s') : Triple m s Q' E' := by
  unfold Triple at h ⊢
  split
  · rename_i hm
    rw [hm] at h
    exact hq _ _ h
  · rename_i hm
    rw [hm] at h
    exact he _ _ h

theorem Triple.bind {f : α → Fallible σ ε β} {R : β → σ → Prop} (h : Triple m s Q E)
    (hf : ∀ a s', Q a s' → Triple (f a) s' R E) : Triple (m >>= f) s R E := by
  unfold Triple at h ⊢
  rw [exec_bind]
  cases hm : exec m s with
  | mk result next =>
    rw [hm] at h
    cases result with
    | ok a => exact hf a next h
    | error e => exact h

/-- Where the first computation succeeds in one state only, the rest is
about that state. -/
theorem Triple.bind_eq {f : α → Fallible σ ε β} {R : β → σ → Prop} {t : σ}
    (h : Triple m s (fun _ s' => s' = t) E) (hf : ∀ a, Triple (f a) t R E) :
    Triple (m >>= f) s R E := by
  refine h.bind fun a s' hs => ?_
  rw [hs]
  exact hf a

theorem Triple.bind_and {f : α → Fallible σ ε β} {R : β → σ → Prop} {t : σ} {P : α → Prop}
    (h : Triple m s (fun a s' => s' = t ∧ P a) E) (hf : ∀ a, P a → Triple (f a) t R E) :
    Triple (m >>= f) s R E := by
  refine h.bind fun a s' hs => ?_
  rw [hs.1]
  exact hf a hs.2

-- ---------------------------------------------------------------------------
-- Undoing
-- ---------------------------------------------------------------------------

/-- The undo steps are run from the latest on. -/
def unwind (undo : List (σ → σ)) (s : σ) : σ := undo.foldr (fun u s => u s) s

/-- A computation behind which the undo steps are run when it fails. -/
def guarded (undo : List (σ → σ)) (m : Fallible σ ε α) : Fallible σ ε α :=
  ExceptT.mk fun s => match exec m s with
    | (.ok a, s') => (.ok a, s')
    | (.error e, s') => (.error e, unwind undo s')

theorem Triple.guarded {undo : List (σ → σ)}
    (h : Triple m s Q fun e s' => E e (unwind undo s')) : Triple (guarded undo m) s Q E := by
  unfold Triple at h ⊢
  simp only [Fallible.guarded, exec, ExceptT.run, ExceptT.mk] at h ⊢
  cases hm : m s with
  | mk result next =>
    rw [hm] at h
    cases result with
    | ok a => exact h
    | error e => exact h

end Fallible

end Xelt
