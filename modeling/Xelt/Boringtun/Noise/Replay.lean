import Xelt.Boringtun.Noise.Window
import Xelt.Lib.ReplayWindow
import Xelt.Lib.Runs

/-!
# The validator as a set of counters

`Represents v seen`: the ring of bits decides every counter as the set of all
counters accepted so far does. It holds at the start, and marking a counter
is a step of `ReplayWindow` with a window of `nBits`, so it holds after any
sequence of counters that stay `nBits` below the wrap of a `u64`.
-/

namespace Xelt.Boringtun.Noise.Crypto.ReceivingKeyCounterValidator

open Runs

/-- The validator after a counter was marked, accepted or not. -/
def feed (v : ReceivingKeyCounterValidator) (counter : Nat) :
    Option ReceivingKeyCounterValidator :=
  match v.markDidReceive counter with
  | some (.ok v') => some v'
  | some (.error _) => some v
  | none => none

def Accepts (v : ReceivingKeyCounterValidator) (counter : Nat) : Prop :=
  ∃ v', v.markDidReceive counter = some (.ok v')

instance : Decidable (Accepts v counter) :=
  match h : v.markDidReceive counter with
  | some (.ok v') => .isTrue ⟨v', h⟩
  | some (.error _) => .isFalse fun ⟨_, h'⟩ => nomatch h.symm.trans h'
  | none => .isFalse fun ⟨_, h'⟩ => nomatch h.symm.trans h'

def marked (v : ReceivingKeyCounterValidator) (counter : Nat) : List Nat :=
  if v.Accepts counter then [counter] else []

/-- The counters accepted when a fresh validator is fed these. -/
def accepted (cs : List Nat) : Finset Nat := (trace feed marked default cs).toFinset

/-- The counters of the window whose bit is set. -/
def held (v : ReceivingKeyCounterValidator) : Finset Nat :=
  (Finset.range v.next).filter fun c => v.next ≤ c + nBits ∧ v.checkBit c = true

structure Represents (v : ReceivingKeyCounterValidator) (seen : Finset Nat) : Prop where
  tracks : v.Tracks seen
  next : v.next = ReplayWindow.next seen

theorem represents_default : Represents default ∅ where
  tracks := by
    rw [Finset.coe_empty]
    exact tracks_default
  next := rfl

variable {v : ReceivingKeyCounterValidator} {seen : Finset Nat}

theorem Represents.held_eq (h : Represents v seen) : v.held = ReplayWindow.window nBits seen := by
  ext c
  rw [held, Finset.mem_filter, Finset.mem_range, ReplayWindow.mem_window, ← h.next]
  constructor
  · rintro ⟨hlt, hwin, hbit⟩
    exact ⟨Finset.mem_coe.mp ((h.tracks.window c hlt hwin).mp hbit), hwin⟩
  · rintro ⟨hs, hwin⟩
    have hlt : c < v.next := h.tracks.lt_next c hs
    exact ⟨hlt, hwin, (h.tracks.window c hlt hwin).mpr hs⟩

/-- What marking a counter does, once the set has decided it. -/
theorem Represents.mark_cases (h : Represents v seen) (hc : counter < 2 ^ 64 - nBits) :
    (ReplayWindow.Admits nBits seen counter ∧ v.willAccept counter = .ok () ∧
      ∃ v', v.markDidReceive counter = some (.ok v') ∧ Represents v' (insert counter seen)) ∨
    (¬ ReplayWindow.Admits nBits seen counter ∧ (∃ e, v.willAccept counter = .error e) ∧
      v.markDidReceive counter = some (.error .invalidCounter)) := by
  have hroom : counter + nBits < 2 ^ 64 := Nat.add_lt_of_lt_sub hc
  by_cases hadmits : ReplayWindow.Admits nBits seen counter
  · have hback : ¬ counter + nBits < v.next := Nat.not_lt.mpr (h.next ▸ hadmits.2)
    obtain ⟨v', hmark, htracks, hnext⟩ := markDidReceive_fresh h.tracks hroom hadmits.1 hback
    refine .inl ⟨hadmits, willAccept_fresh h.tracks hroom hadmits.1 hback, v', hmark, ?_, ?_⟩
    · rwa [Finset.coe_insert]
    · rw [hnext, h.next, ReplayWindow.next_insert]
  · have hs : counter ∈ (seen : Set Nat) ∨ counter + nBits < v.next := by
      rw [h.next]
      exact ReplayWindow.not_admits.mp hadmits
    exact .inr ⟨hadmits, willAccept_refused h.tracks hroom hs,
      markDidReceive_refused h.tracks hroom hs⟩

theorem Represents.accepts_iff (h : Represents v seen) (hc : counter < 2 ^ 64 - nBits) :
    v.Accepts counter ↔ ReplayWindow.Admits nBits seen counter := by
  rcases h.mark_cases hc with ⟨hadmits, -, v', hmark, -⟩ | ⟨hrefuses, -, hmark⟩
  · exact ⟨fun _ => hadmits, fun _ => ⟨v', hmark⟩⟩
  · refine ⟨fun ⟨v', he⟩ => ?_, fun hadmits => absurd hadmits hrefuses⟩
    rw [hmark] at he
    cases he

theorem Represents.willAccept_iff (h : Represents v seen) (hc : counter < 2 ^ 64 - nBits) :
    v.willAccept counter = .ok () ↔ ReplayWindow.Admits nBits seen counter := by
  rcases h.mark_cases hc with ⟨hadmits, haccept, -⟩ | ⟨hrefuses, ⟨e, haccept⟩, -⟩
  · exact ⟨fun _ => hadmits, fun _ => haccept⟩
  · refine ⟨fun he => ?_, fun hadmits => absurd hadmits hrefuses⟩
    rw [haccept] at he
    cases he

/-- Feeding a counter is a step of the set. -/
theorem Represents.feed (h : Represents v seen) (hc : counter < 2 ^ 64 - nBits) :
    ∃ v', v.feed counter = some v' ∧ Represents v' (ReplayWindow.step nBits seen counter) ∧
      ReplayWindow.step nBits seen counter = seen ∪ (v.marked counter).toFinset := by
  have haccepts := h.accepts_iff hc
  rcases h.mark_cases hc with ⟨hadmits, -, v', hmark, hrep⟩ | ⟨hrefuses, -, hmark⟩
  · refine ⟨v', by rw [ReceivingKeyCounterValidator.feed, hmark], ?_, ?_⟩
    · rwa [ReplayWindow.step_admits hadmits]
    · rw [ReplayWindow.step_admits hadmits, marked, if_pos (haccepts.mpr hadmits)]
      simp
  · refine ⟨v, by rw [ReceivingKeyCounterValidator.feed, hmark], ?_, ?_⟩
    · rwa [ReplayWindow.step_refuses hrefuses]
    · rw [ReplayWindow.step_refuses hrefuses, marked, if_neg (fun ha => hrefuses (haccepts.mp ha))]
      simp

theorem Represents.run (h : Represents v seen) (hcs : ∀ c ∈ cs, c < 2 ^ 64 - nBits) :
    ∃ t, exec ReceivingKeyCounterValidator.feed v cs = some t ∧
      Represents t (ReplayWindow.accepted nBits seen cs) ∧
      ReplayWindow.accepted nBits seen cs =
        seen ∪ (trace ReceivingKeyCounterValidator.feed marked v cs).toFinset := by
  induction cs generalizing v seen with
  | nil => exact ⟨v, rfl, h, by simp [ReplayWindow.accepted]⟩
  | cons c cs ih =>
    obtain ⟨hc, hcs⟩ := List.forall_mem_cons.mp hcs
    obtain ⟨v', hfeed, hrep, hstep⟩ := h.feed hc
    obtain ⟨t, he, hrep, hall⟩ := ih hrep hcs
    refine ⟨t, (exec_cons_some _).mpr ⟨v', hfeed, he⟩, hrep, ?_⟩
    rw [trace_cons_some hfeed, List.toFinset_append, ← Finset.union_assoc, ← hstep]
    exact hall

/-- A fresh validator, fed any sequence of counters below the bound, is the set
of the counters it has accepted, restricted to the window. -/
theorem replay_window (cs : List Nat) (hcs : ∀ c ∈ cs, c < 2 ^ 64 - nBits) :
    ∃ v, exec feed default cs = some v ∧ v.next = ReplayWindow.next (accepted cs) ∧
      (∀ c < 2 ^ 64 - nBits,
        (v.Accepts c ↔ c ∉ accepted cs ∧ c + nBits ≥ v.next) ∧
        (v.willAccept c = .ok () ↔ v.Accepts c)) ∧
      v.held = ReplayWindow.window nBits (accepted cs) ∧
      accepted cs = ReplayWindow.accepted nBits ∅ cs := by
  obtain ⟨v, he, hrep, hall⟩ := represents_default.run hcs
  rw [Finset.empty_union] at hall
  have hseen : Represents v (accepted cs) := by
    rw [accepted, ← hall]
    exact hrep
  refine ⟨v, he, hseen.next, fun c hc => ⟨?_, ?_⟩, hseen.held_eq, hall.symm⟩
  · rw [hseen.accepts_iff hc, hseen.next]
    rfl
  · rw [hseen.accepts_iff hc, hseen.willAccept_iff hc]

/-- Reordered and repeated counters, with skips inside the ring and past it. -/
def sampleCounters : List Nat := [0, 3, 1, 3, 200, 1100, 70, 90, 90, 5000, 1100, 4000]

theorem replay_window_sample :
    accepted sampleCounters = {0, 3, 1, 200, 1100, 90, 5000, 4000} ∧
      ∃ v, exec feed default sampleCounters = some v ∧
        v.next = ReplayWindow.next (accepted sampleCounters) ∧
        (∀ c < 2 ^ 64 - nBits,
          (v.Accepts c ↔ c ∉ accepted sampleCounters ∧ c + nBits ≥ v.next) ∧
          (v.willAccept c = .ok () ↔ v.Accepts c)) ∧
        v.held = ReplayWindow.window nBits (accepted sampleCounters) ∧
        accepted sampleCounters = ReplayWindow.accepted nBits ∅ sampleCounters :=
  ⟨by decide +kernel, replay_window sampleCounters (by decide)⟩

end Xelt.Boringtun.Noise.Crypto.ReceivingKeyCounterValidator
