import Mathlib.Data.List.Basic

/-!
# Latches over a log

A log of events, some of which set a latch and some of which reset it. The
latch is `Pending` when one set it and none has reset it since; the setting
events are `Spaced` when a reset stands between any two of them.
-/

namespace Xelt.Latch

universe u

variable {ε : Type u}

def Pending (sets resets : ε → Prop) (log : List ε) : Prop :=
  ∃ a x b, log = a ++ x :: b ∧ sets x ∧ ∀ y ∈ b, ¬ resets y

def Spaced (sets resets : ε → Prop) (log : List ε) : Prop :=
  ∀ a x b y c, log = a ++ x :: (b ++ y :: c) → sets x → sets y → ∃ z ∈ b, resets z

variable {sets resets : ε → Prop}

/-- Where a split of a longer log falls: at its last event, or before it. -/
theorem concat_eq_split (h : log ++ [e] = a ++ x :: b) :
    (a = log ∧ x = e ∧ b = []) ∨ ∃ b', b = b' ++ [e] ∧ log = a ++ x :: b' := by
  rcases List.eq_nil_or_concat b with rfl | ⟨b', y, rfl⟩
  · obtain ⟨rfl, hx⟩ := List.append_inj' h rfl
    exact .inl ⟨rfl, by simpa using hx.symm, rfl⟩
  · have h' : log ++ [e] = (a ++ x :: b') ++ [y] := by simpa using h
    obtain ⟨hlog, he⟩ := List.append_inj' h' rfl
    obtain rfl := List.singleton_inj.mp he
    exact .inr ⟨b', by simp, hlog⟩

theorem not_pending_nil : ¬ Pending sets resets [] := by
  rintro ⟨a, x, b, h, -⟩
  simp at h

theorem pending_concat :
    Pending sets resets (log ++ [e]) ↔ sets e ∨ (Pending sets resets log ∧ ¬ resets e) := by
  constructor
  · rintro ⟨a, x, b, h, hx, hb⟩
    rcases concat_eq_split h with ⟨-, rfl, -⟩ | ⟨b', rfl, hlog⟩
    · exact .inl hx
    · exact .inr ⟨⟨a, x, b', hlog, hx, fun y hy => hb y (by simp [hy])⟩, hb e (by simp)⟩
  · rintro (he | ⟨⟨a, x, b, rfl, hx, hb⟩, he⟩)
    · exact ⟨log, e, [], rfl, he, by simp⟩
    · refine ⟨a, x, b ++ [e], by simp, hx, fun y hy => ?_⟩
      rcases List.mem_append.mp hy with hy | hy
      · exact hb y hy
      · rw [List.mem_singleton.mp hy]
        exact he

theorem spaced_nil : Spaced sets resets [] := by
  intro a x b y c h
  simp at h

/-- A setting event may come when the latch is not pending. -/
theorem spaced_concat :
    Spaced sets resets (log ++ [e]) ↔
      Spaced sets resets log ∧ (sets e → ¬ Pending sets resets log) := by
  constructor
  · intro h
    refine ⟨fun a x b y c hl => h a x b y (c ++ [e]) (by simp [hl]), ?_⟩
    rintro he ⟨a, x, b, rfl, hx, hb⟩
    obtain ⟨z, hz, hr⟩ := h a x b e [] (by simp) hx he
    exact hb z hz hr
  · rintro ⟨hs, he⟩ a x b y c h hx hy
    have h' : log ++ [e] = (a ++ x :: b) ++ y :: c := by simpa using h
    rcases concat_eq_split h' with ⟨rfl, rfl, -⟩ | ⟨c', rfl, rfl⟩
    · by_contra hn
      exact he hy ⟨a, x, b, rfl, hx, fun z hz hr => hn ⟨z, hz, hr⟩⟩
    · exact hs a x b y c' (by simp) hx hy

end Xelt.Latch
