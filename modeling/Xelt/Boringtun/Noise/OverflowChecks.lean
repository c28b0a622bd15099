import Xelt.Boringtun.Noise.Channel

/-!
# Sums of counters

The two functions of the window as a build with overflow checks runs them:
the first sum of two `u64` that reaches `2 ^ 64` ends the program. While none
does, the result is that of the build whose sums wrap.

`will_accept` adds only to a counter behind the next one. `mark_did_receive`
adds before it compares anything, so a counter within `nBits` of the wrap
passes the first and overflows in the second.
-/

namespace Xelt.Boringtun.Noise.Crypto

open Bytes Runs

namespace OverflowChecks

/-- How a call may end without a result. -/
inductive Abort
  | overflow
  | rounds

abbrev Trapping := Except Abort

/-- A sum of two `u64`. -/
def add (a b : Nat) : Trapping Nat := if a + b < 2 ^ 64 then .ok (a + b) else .error .overflow

def willAccept (v : ReceivingKeyCounterValidator) (counter : Nat) :
    Trapping (Except WireGuardError Unit) :=
  if counter ≥ v.next then .ok (.ok ())
  else do
    let reach ← add counter nBits
    if reach < v.next then .ok (.error .invalidCounter)
    else if !v.checkBit counter then .ok (.ok ())
    else .ok (.error .duplicateCounter)

/-- Clear until i is aligned to the word size. -/
def clearToAligned (counter : Nat) :
    Nat → ReceivingKeyCounterValidator → Nat → Trapping (ReceivingKeyCounterValidator × Nat)
  | 0, _, _ => .error .rounds
  | rounds + 1, v, i =>
    if i % wordSize ≠ 0 ∧ i < counter then do
      let i' ← add i 1
      clearToAligned counter rounds (v.clearBit i) i'
    else .ok (v, i)

/-- Clear a whole word at a time; the sum of the condition is also the step. -/
def clearWords (counter : Nat) :
    Nat → ReceivingKeyCounterValidator → Nat → Trapping (ReceivingKeyCounterValidator × Nat)
  | 0, _, _ => .error .rounds
  | rounds + 1, v, i => do
    let i' ← add i wordSize
    if i' < counter then
      clearWords counter rounds (v.clearWord i) (i' &&& (2 ^ 64 - wordSize))
    else .ok (v, i)

/-- Clear any remaining bits. -/
def clearRest (counter : Nat) :
    Nat → ReceivingKeyCounterValidator → Nat → Trapping ReceivingKeyCounterValidator
  | 0, _, _ => .error .rounds
  | rounds + 1, v, i =>
    if i < counter then do
      let i' ← add i 1
      clearRest counter rounds (v.clearBit i) i'
    else .ok v

/-- The three loops, from the next counter to the one received. -/
def clearSkipped (v : ReceivingKeyCounterValidator) (counter : Nat) :
    Trapping ReceivingKeyCounterValidator := do
  let (v, i) ← clearToAligned counter nBits v v.next
  let (v, i) ← clearWords counter nBits v i
  clearRest counter nBits v i

/-- Marks the counter as received, if it is still good. -/
def markDidReceive (v : ReceivingKeyCounterValidator) (counter : Nat) :
    Trapping (Except WireGuardError ReceivingKeyCounterValidator) := do
  let reach ← add counter nBits
  if reach < v.next then .ok (.error .invalidCounter)
  else if counter = v.next then do
    let next ← add v.next 1
    .ok (.ok { v.setBit counter with next })
  else if counter < v.next then
    if v.checkBit counter then .ok (.error .invalidCounter) else .ok (.ok (v.setBit counter))
  else do
    let v ←
      if counter - v.next ≥ nBits then .ok { v with bitmap := .empty wordSize nWords }
      else clearSkipped v counter
    let next ← add counter 1
    .ok (.ok { v.setBit counter with next })

/-- The call returns: no sum has reached `2 ^ 64`, and the loops have ended. -/
inductive Fits : Trapping α → Prop
  | ok (a : α) : Fits (.ok a)

instance : (r : Trapping α) → Decidable (Fits r)
  | .ok a => .isTrue (.ok a)
  | .error _ => .isFalse nofun

-- ---------------------------------------------------------------------------
-- Against the sums that wrap
-- ---------------------------------------------------------------------------

/-- A call of the other build, where only the rounds of a loop may run out. -/
def ofRounds : Option α → Trapping α
  | some a => .ok a
  | none => .error .rounds

@[simp] theorem ok_bind (a : α) (f : α → Trapping β) : ((.ok a : Trapping α) >>= f) = f a := rfl

@[simp] theorem ofRounds_some (a : α) : ofRounds (some a) = .ok a := rfl

theorem not_fits_overflow : ¬ Fits (.error .overflow : Trapping α) := nofun

theorem add_ok (h : a + b < 2 ^ 64) : add a b = .ok (a + b) := if_pos h

theorem add_overflow (h : ¬ a + b < 2 ^ 64) : add a b = .error .overflow := if_neg h

open ReceivingKeyCounterValidator (u64_of_lt)

variable {v : ReceivingKeyCounterValidator}

theorem clearToAligned_eq (hc : counter < 2 ^ 64) :
    clearToAligned counter rounds v i = ofRounds (v.clearToAligned counter rounds i) := by
  induction rounds generalizing v i with
  | zero => rfl
  | succ rounds ih =>
    rw [clearToAligned, ReceivingKeyCounterValidator.clearToAligned]
    by_cases h : i % wordSize ≠ 0 ∧ i < counter
    · have hstep : i + 1 < 2 ^ 64 := Nat.lt_of_le_of_lt h.2 hc
      rw [if_pos h, if_pos h, add_ok hstep, u64_of_lt hstep, ok_bind, ih]
    · rw [if_neg h, if_neg h, ofRounds_some]

theorem clearWords_eq (hc : counter + wordSize < 2 ^ 64) (hi : i ≤ counter) :
    clearWords counter rounds v i = ofRounds (v.clearWords counter rounds i) := by
  induction rounds generalizing v i with
  | zero => rfl
  | succ rounds ih =>
    have hstep : i + wordSize < 2 ^ 64 := Nat.lt_of_le_of_lt (Nat.add_le_add_right hi _) hc
    rw [clearWords, ReceivingKeyCounterValidator.clearWords, add_ok hstep, u64_of_lt hstep, ok_bind]
    by_cases h : i + wordSize < counter
    · rw [if_pos h, if_pos h, ih (Nat.le_trans Nat.and_le_left (Nat.le_of_lt h))]
    · rw [if_neg h, if_neg h, ofRounds_some]

theorem clearRest_eq (hc : counter < 2 ^ 64) :
    clearRest counter rounds v i = ofRounds (v.clearRest counter rounds i) := by
  induction rounds generalizing v i with
  | zero => rfl
  | succ rounds ih =>
    rw [clearRest, ReceivingKeyCounterValidator.clearRest]
    by_cases h : i < counter
    · have hstep : i + 1 < 2 ^ 64 := Nat.lt_of_le_of_lt h hc
      rw [if_pos h, if_pos h, add_ok hstep, u64_of_lt hstep, ok_bind, ih]
    · rw [if_neg h, if_neg h, ofRounds_some]

theorem clearSkipped_eq (hc : counter + nBits < 2 ^ 64) (hle : v.next ≤ counter)
    (hfar : counter - v.next < nBits) :
    clearSkipped v counter = ofRounds (v.clearSkipped counter) := by
  have hword : wordSize ≤ nBits := by decide
  obtain ⟨v₁, i₁, he₁, -, hle₁, -⟩ :=
    ReceivingKeyCounterValidator.clearToAligned_spec (v := v) (by omega) hle hfar
  have hfirst : clearToAligned counter nBits v v.next = .ok (v₁, i₁) := by
    rw [clearToAligned_eq (by omega), he₁, ofRounds_some]
  have hwords : clearWords counter nBits v₁ i₁ = ofRounds (v₁.clearWords counter nBits i₁) :=
    clearWords_eq (by omega) hle₁
  simp only [clearSkipped, ReceivingKeyCounterValidator.clearSkipped, hfirst, he₁, hwords, ok_bind,
    Option.bind_eq_bind, Option.bind_some]
  cases v₁.clearWords counter nBits i₁ with
  | none => rfl
  | some vi => exact clearRest_eq (by omega)

theorem willAccept_eq (h : counter < v.next → counter + nBits < 2 ^ 64) :
    willAccept v counter = .ok (v.willAccept counter) := by
  rw [willAccept, ReceivingKeyCounterValidator.willAccept]
  by_cases hge : counter ≥ v.next
  · rw [if_pos hge, if_pos hge]
  · have hroom := h (Nat.not_le.mp hge)
    rw [if_neg hge, if_neg hge, add_ok hroom, u64_of_lt hroom, ok_bind]
    split_ifs <;> rfl

theorem markDidReceive_eq (hc : counter + nBits < 2 ^ 64) :
    markDidReceive v counter = ofRounds (v.markDidReceive counter) := by
  have hone : 1 ≤ nBits := by decide
  have hsucc : counter + 1 < 2 ^ 64 := by omega
  rw [markDidReceive, ReceivingKeyCounterValidator.markDidReceive, add_ok hc, u64_of_lt hc,
    u64_of_lt hsucc, add_ok hsucc, ok_bind]
  by_cases hback : counter + nBits < v.next
  · rw [if_pos hback, if_pos hback, ofRounds_some]
  rw [if_neg hback, if_neg hback]
  rcases Nat.lt_trichotomy counter v.next with hlt | heq | hgt
  · rw [if_neg (Nat.ne_of_lt hlt), if_neg (Nat.ne_of_lt hlt), if_pos hlt, if_pos hlt]
    split_ifs <;> rfl
  · rw [if_pos heq, if_pos heq, ← heq, add_ok hsucc, u64_of_lt hsucc, ok_bind, ofRounds_some]
  · have hle := Nat.not_lt.mpr (Nat.le_of_lt hgt)
    rw [if_neg (Nat.ne_of_gt hgt), if_neg (Nat.ne_of_gt hgt), if_neg hle, if_neg hle]
    by_cases hfar : counter - v.next ≥ nBits
    · rw [if_pos hfar, if_pos hfar]
      rfl
    · rw [if_neg hfar, if_neg hfar, clearSkipped_eq hc (Nat.le_of_lt hgt) (Nat.not_le.mp hfar)]
      cases v.clearSkipped counter <;> rfl

/-- Marking overflows where the counter is within `nBits` of the wrap, whatever
the state. -/
theorem markDidReceive_fits_iff :
    Fits (markDidReceive v counter) ↔ counter < 2 ^ 64 - nBits := by
  by_cases hc : counter + nBits < 2 ^ 64
  · obtain ⟨r, hr⟩ := v.markDidReceive_returns hc
    rw [markDidReceive_eq hc, hr, ofRounds_some]
    exact ⟨fun _ => Nat.lt_sub_of_add_lt hc, fun _ => .ok r⟩
  · rw [markDidReceive, add_overflow hc]
    exact ⟨fun h => absurd h not_fits_overflow, fun h => absurd (Nat.add_lt_of_lt_sub h) hc⟩

end OverflowChecks

namespace Endpoint

open OverflowChecks

/-- A session that nothing has been done with. -/
def fresh (session : Session) : Endpoint := ⟨session, fun _ => none, [], []⟩

/-- The sums that a move makes on the window stay below `2 ^ 64`, and its loops end. -/
def SumsFit (e : Endpoint) : Move → Prop
  | .check _ packet _ =>
    packet.receiverIdx = e.session.receivingIndex →
      Fits (willAccept e.session.receivingKeyCounter packet.counter.toNat)
  | .mark thread =>
    match e.threads thread with
    | some (.opened packet _) =>
      Fits (markDidReceive e.session.receivingKeyCounter packet.counter.toNat)
    | _ => True
  | .send .. | .decrypt _ => True

/-- A packet that was opened stands at its mark with a counter `nBits` below the wrap. -/
def CountersFit (e : Endpoint) : Move → Prop
  | .mark thread =>
    match e.threads thread with
    | some (.opened packet _) => packet.counter.toNat < 2 ^ 64 - nBits
    | _ => True
  | _ => True

/-- What holds while no sum has overflowed. -/
structure Guarded (e : Endpoint) : Prop where
  tracks : e.session.receivingKeyCounter.Tracks e.received
  next_le : e.session.receivingKeyCounter.next ≤ 2 ^ 64 - nBits
  once : (e.delivered.map Prod.fst).Nodup

theorem guarded_fresh (localIndex peerIndex : UInt32) (receivingKey sendingKey : Bytes32) :
    Guarded (fresh (.new localIndex peerIndex receivingKey sendingKey)) where
  tracks := by
    have hnone : (fresh (.new localIndex peerIndex receivingKey sendingKey)).received = ∅ := by
      simp [received, fresh]
    rw [hnone]
    exact ReceivingKeyCounterValidator.tracks_default
  next_le := Nat.zero_le _
  once := List.nodup_nil

variable {p : Primitives} {e e' : Endpoint}

theorem window_kept (h : e.step p m = some e') (hm : ∀ thread, m ≠ .mark thread) :
    e'.session.receivingKeyCounter = e.session.receivingKeyCounter ∧
      e'.delivered = e.delivered := by
  cases m with
  | send src dst =>
    simp only [step, Session.formatPacketData] at h
    split at h
    · cases h
    · cases h
      exact ⟨rfl, rfl⟩
  | check thread packet dst =>
    simp only [step] at h
    split at h
    · cases h
    · split at h <;> cases h <;> exact ⟨rfl, rfl⟩
  | decrypt thread =>
    simp only [step] at h
    split at h
    · split at h <;> cases h <;> exact ⟨rfl, rfl⟩
    · cases h
  | mark thread => exact absurd rfl (hm thread)

theorem Guarded.same (h : Guarded e)
    (hs : e'.session.receivingKeyCounter = e.session.receivingKeyCounter ∧
      e'.delivered = e.delivered) : Guarded e' where
  tracks := by
    rw [hs.1, received, hs.2]
    exact h.tracks
  next_le := hs.1 ▸ h.next_le
  once := hs.2 ▸ h.once

theorem Guarded.kept (h : Guarded e) (hc : e.CountersFit m) (hs : e.step p m = some e') :
    Guarded e' := by
  cases m with
  | send | check | decrypt => exact h.same (window_kept hs (by simp))
  | mark thread =>
    obtain ⟨packet, plain, ht⟩ := opened_of_mark hs
    have hlt : packet.counter.toNat < 2 ^ 64 - nBits := by simpa only [CountersFit, ht] using hc
    rcases mark_cases p ht h.tracks (Nat.add_lt_of_lt_sub hlt) with
      hmark | ⟨hnew, v, htracks, hnext, hmark⟩
    · rw [hmark] at hs
      cases hs
      exact h.same ⟨rfl, rfl⟩
    · rw [hmark] at hs
      cases hs
      refine ⟨?_, ?_, once_append h.once hnew⟩
      · show ReceivingKeyCounterValidator.Tracks v {c | c ∈ List.map Prod.fst _}
        rw [received_append]
        exact htracks
      · show v.next ≤ 2 ^ 64 - nBits
        rw [hnext]
        exact Nat.max_le.mpr ⟨h.next_le, hlt⟩

/-- The check before the decryption adds to a counter only when it lies behind
the next one. -/
theorem Guarded.check_fits (h : Guarded e) :
    Fits (willAccept e.session.receivingKeyCounter counter) := by
  have hroom : counter < e.session.receivingKeyCounter.next → counter + nBits < 2 ^ 64 :=
    fun hlt => Nat.add_lt_of_lt_sub (Nat.lt_of_lt_of_le hlt h.next_le)
  rw [willAccept_eq hroom]
  exact .ok _

theorem Guarded.sums_iff (h : Guarded e) : e.SumsFit m ↔ e.CountersFit m := by
  cases m with
  | send | decrypt => exact Iff.rfl
  | check thread packet dst => exact ⟨fun _ => trivial, fun _ _ => h.check_fits⟩
  | mark thread =>
    simp only [SumsFit, CountersFit]
    split
    · exact markDidReceive_fits_iff
    · exact Iff.rfl

theorem Guarded.along_iff (h : Guarded e) :
    Along (step p) SumsFit e ms ↔ Along (step p) CountersFit e ms := by
  constructor
  · refine Along.mono (I := Guarded) (fun e m e' hg hf hs => hg.kept (hg.sums_iff.mp hf) hs)
      (fun e m hg hf => hg.sums_iff.mp hf) h
  · exact Along.mono (I := Guarded) (fun e m e' hg hc hs => hg.kept hc hs)
      (fun e m hg hc => hg.sums_iff.mpr hc) h

/-- Of the packets that open, receiving one overflows exactly when its counter
is within `nBits` of the wrap: the check lets such a counter through. -/
theorem Guarded.receive_iff (h : Guarded e) (ht : e.threads thread = none)
    (hdst : packet.encryptedEncapsulatedPacket.length ≤ dst)
    (hindex : packet.receiverIdx = e.session.receivingIndex)
    (hopen : e.session.openPacket p packet = .ok plain) :
    Along (step p) SumsFit e [.check thread packet dst, .decrypt thread, .mark thread] ↔
      packet.counter.toNat < 2 ^ 64 - nBits := by
  rw [h.along_iff]
  have hquick : e.session.receivingCounterQuickCheck packet =
      e.session.receivingKeyCounter.willAccept packet.counter.toNat := by
    simp [Session.receivingCounterQuickCheck, hindex]
  cases hcheck : e.session.receivingKeyCounter.willAccept packet.counter.toNat with
  | error err =>
    -- a counter that the check refuses lies behind the next one
    have hlt : packet.counter.toNat < e.session.receivingKeyCounter.next := by
      by_contra hge
      rw [ReceivingKeyCounterValidator.willAccept, if_pos (Nat.not_lt.mp hge)] at hcheck
      cases hcheck
    have hchecked : e.step p (.check thread packet dst) = some e := by
      simp [step, Nat.not_lt.mpr hdst, ht, hquick, hcheck]
    have hdecrypt : e.step p (.decrypt thread) = none := by simp [step, ht]
    rw [along_cons_some hchecked, along_cons_none hdecrypt]
    exact ⟨fun _ => Nat.lt_of_lt_of_le hlt h.next_le, fun _ => ⟨trivial, trivial⟩⟩
  | ok _ =>
    have hchecked : e.step p (.check thread packet dst) =
        some (e.setThread thread (some (.checked packet))) := by
      simp [step, Nat.not_lt.mpr hdst, ht, hquick, hcheck]
    have hdecrypt : (e.setThread thread (some (.checked packet))).step p (.decrypt thread) =
        some ((e.setThread thread (some (.checked packet))).setThread thread
          (some (.opened packet plain))) := by
      simp only [step, setThread, Function.update_self, hopen]
    rw [along_cons_some hchecked, along_cons_some hdecrypt]
    simp [Along, CountersFit, setThread]

/-- From a new session, whatever is called on it from any number of threads: the
sums on the window stay in range as long as the counters of the packets that
reach their mark do. The window then accepts no counter twice, and in every
state reached a packet that opens can be received without an overflow exactly
when its own counter is in range. -/
theorem sums_fit_iff (p : Primitives) (localIndex peerIndex : UInt32)
    (receivingKey sendingKey : Bytes32) (ms : List Move) :
    let e := fresh (.new localIndex peerIndex receivingKey sendingKey)
    (Along (step p) SumsFit e ms ↔ Along (step p) CountersFit e ms) ∧
      (Along (step p) CountersFit e ms → ∀ t, exec (step p) e ms = some t →
        (t.delivered.map Prod.fst).Nodup ∧
        (∀ c ∈ t.delivered.map Prod.fst, c < t.session.receivingKeyCounter.next) ∧
        ∀ thread packet plain dst, t.threads thread = none →
          packet.encryptedEncapsulatedPacket.length ≤ dst →
          packet.receiverIdx = t.session.receivingIndex →
          t.session.openPacket p packet = .ok plain →
          (Along (step p) SumsFit t [.check thread packet dst, .decrypt thread, .mark thread] ↔
            packet.counter.toNat < 2 ^ 64 - nBits)) := by
  intro e
  have hfresh : Guarded e := guarded_fresh localIndex peerIndex receivingKey sendingKey
  refine ⟨hfresh.along_iff, fun hc t he => ?_⟩
  have hreached : Guarded t := invariant (fun _ _ _ hg hc hs => hg.kept hc hs) hfresh hc he
  exact ⟨hreached.once, hreached.tracks.lt_next, fun thread packet plain dst ht hdst hindex hopen =>
    hreached.receive_iff ht hdst hindex hopen⟩

instance decidableSumsFit (e : Endpoint) : (m : Move) → Decidable (e.SumsFit m)
  | .send .. | .decrypt _ => .isTrue trivial
  | .check _ packet _ =>
    inferInstanceAs (Decidable (packet.receiverIdx = e.session.receivingIndex → Fits _))
  | .mark thread =>
    match h : e.threads thread with
    | some (.opened packet _) =>
      decidable_of_iff (Fits (markDidReceive e.session.receivingKeyCounter packet.counter.toNat))
        (by simp [SumsFit, h])
    | some (.checked _) | none => .isTrue (by simp [SumsFit, h])

/-- A packet that the peer seals under a counter of its choice, received in full. -/
def receiving (counter : UInt64) (src : Bytes) : List Move :=
  let packet : PacketData :=
    { receiverIdx := 1
      counter
      encryptedEncapsulatedPacket :=
        samplePrimitives.sealBytes (beArray 32 1) (nonceOf counter.toNat) src }
  [.check 0 packet 2048, .decrypt 0, .mark 0]

/-- After the first packet the peer sends one under the highest counter. The
check passes and the mark overflows; where sums wrap, the next counter is zero
again, and the first packet is delivered a second time. -/
theorem highest_counter_reopens :
    let e := fresh (.new 1 2 (beArray 32 1) (beArray 32 2))
    let replay := receiving 0 [0x45, 0] ++ receiving 0xffffffffffffffff [0x45, 1] ++
      receiving 0 [0x45, 0]
    Along (step samplePrimitives) SumsFit e (receiving 0 [0x45, 0]) ∧
      ¬ Along (step samplePrimitives) SumsFit e replay ∧
      (exec (step samplePrimitives) e (receiving 0 [0x45, 0] ++
        receiving 0xffffffffffffffff [0x45, 1])).map (·.session.receivingKeyCounter.next) = some 0 ∧
      (exec (step samplePrimitives) e replay).map (·.delivered) =
        some [(0, [0x45, 0]), (2 ^ 64 - 1, [0x45, 1]), (0, [0x45, 0])] := by
  decide +kernel

end Endpoint

end Xelt.Boringtun.Noise.Crypto
