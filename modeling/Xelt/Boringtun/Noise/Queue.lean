import Xelt.Boringtun.Noise.Timers
import Xelt.Boringtun.Noise.Wire

/-!
# The queue of a tunnel without a session

`send_queued_packet` takes the packet at the head, hands it to `encapsulate`,
and puts it back at the head when that fails. Without a session `encapsulate`
queues the packet itself, at the back.
-/

namespace Xelt.Boringtun.Noise.TimedTunn

open Bytes
open Crypto (dataOverheadSz)

-- ---------------------------------------------------------------------------
-- Calls that may panic
-- ---------------------------------------------------------------------------

/-- `encapsulate` into a buffer of `dst` bytes; `none` where the session
panics on a buffer too small for the packet. -/
def encapsulateInto (t : TimedTunn) (src : InnerPacket) (dst : Nat) :
    TimedTunn × Option TunnResult :=
  if t.currentSession.isSome ∧ dst < src.bytes.length + dataOverheadSz then (t, none)
  else ((t.encapsulate src dst).1, some (t.encapsulate src dst).2)

def sendQueuedPacketInto (t : TimedTunn) (dst : Nat) : TimedTunn × Option TunnResult :=
  match t.packetQueue with
  | [] => (t, some .done)
  | packet :: rest =>
    match ({ t with packetQueue := rest } : TimedTunn).encapsulateInto packet dst with
    | (t', some (.err _)) => ({ t' with toTunn := t'.requeuePacket packet }, some .done)
    | r => r

/-- A call that returns is the call of the tunnel without panics. -/
theorem sendQueuedPacketInto_eq (t : TimedTunn) (dst : Nat)
    (h : (t.sendQueuedPacketInto dst).2 ≠ none) :
    t.sendQueuedPacketInto dst = ((t.sendQueuedPacket dst).1, some (t.sendQueuedPacket dst).2) := by
  unfold sendQueuedPacketInto sendQueuedPacket at *
  cases hq : t.packetQueue with
  | nil => rfl
  | cons packet rest =>
    simp only [hq] at h ⊢
    generalize ({ t with packetQueue := rest } : TimedTunn) = u at h ⊢
    by_cases hsmall : u.currentSession.isSome ∧ dst < packet.bytes.length + dataOverheadSz
    · rw [encapsulateInto, if_pos hsmall] at h
      exact absurd rfl h
    · rw [encapsulateInto, if_neg hsmall]
      cases hr : u.encapsulate packet dst with
      | mk t' r => cases r <;> rfl

-- ---------------------------------------------------------------------------
-- The queue
-- ---------------------------------------------------------------------------

/-- The packets that wait, as the code stores them. -/
def queued (t : TimedTunn) : List Bytes := t.packetQueue.map (·.bytes)

/-- The queue lost the one packet that was emitted, if any, and kept the
others in their order. -/
def QueueKept (before after : List Bytes) : Option TunnResult → Prop
  | some (.writeToNetwork (.data _ inner)) =>
    ∃ front back, before = front ++ inner.bytes :: back ∧ after = front ++ back
  | _ => after = before

/-- With a session the buffer takes the packet at the head. Without one, all
packets that wait are the same, so that it does not matter which goes to the
back; and no initiation fails on its buffer while there is room to put the
packet at the head as well. -/
def QueueStays (t : TimedTunn) (dst : Nat) : Prop :=
  match t.queued with
  | [] => True
  | packet :: rest =>
    if t.currentSession.isSome then packet.length + dataOverheadSz ≤ dst
    else
      rest.length < maxQueueDepth ∧ (∀ other ∈ rest, other = packet) ∧
        (t.handshake.isInProgress ∨ handshakeInitSz ≤ dst ∨ rest.length + 1 = maxQueueDepth)

theorem append_singleton_eq_cons {α : Type} {x : α} {xs : List α} :
    xs ++ [x] = x :: xs ↔ ∀ y ∈ xs, y = x := by
  induction xs with
  | nil => simp
  | cons y ys ih =>
    constructor
    · intro h
      obtain ⟨rfl, h⟩ := List.cons.inj h
      intro z hz
      rcases List.mem_cons.mp hz with rfl | hz
      · rfl
      · exact ih.mp h z hz
    · intro h
      obtain rfl : y = x := h y List.mem_cons_self
      have hys : ys ++ [y] = y :: ys := ih.mpr fun z hz => h z (List.mem_cons_of_mem _ hz)
      rw [List.cons_append, hys]

/-- A packet put at the back, and at the head as well where the call fails,
is where it was only if it cannot be told from the others. -/
theorem requeued_eq_iff {α : Type} {x : α} {xs back : List α} {limit : Nat} (fails : Prop)
    [Decidable fails] (hback : back = if xs.length < limit then xs ++ [x] else xs) :
    (if fails ∧ back.length < limit then x :: back else back) = x :: xs ↔
      xs.length < limit ∧ (∀ y ∈ xs, y = x) ∧ (fails → xs.length + 1 = limit) := by
  have hlong {ys : List α} : ys.length ≠ xs.length + 1 → ys ≠ x :: xs := by
    rintro hys rfl
    exact hys rfl
  by_cases hroom : xs.length < limit
  · rw [if_pos hroom] at hback
    have hlen : back.length = xs.length + 1 := by simp [hback]
    by_cases hfails : fails ∧ back.length < limit
    · rw [if_pos hfails]
      refine iff_of_false (hlong (by simp [hlen])) fun h => ?_
      have := h.2.2 hfails.1
      omega
    · have hfull : fails → xs.length + 1 = limit := fun h => by
        have : ¬back.length < limit := fun hlt => hfails ⟨h, hlt⟩
        omega
      rw [if_neg hfails, hback, append_singleton_eq_cons]
      exact ⟨fun h => ⟨hroom, h, hfull⟩, fun h => h.2.1⟩
  · rw [if_neg hroom] at hback
    rw [hback, if_neg (by omega)]
    exact iff_of_false (hlong (by omega)) fun h => hroom h.1

theorem queued_queuePacket (t : TimedTunn) (packet : InnerPacket) :
    ({ t with toTunn := t.queuePacket packet } : TimedTunn).queued =
      if t.queued.length < maxQueueDepth then t.queued ++ [packet.bytes] else t.queued := by
  simp only [queued, Tunn.queuePacket, List.length_map]
  split
  · simp
  · rfl

theorem queued_requeuePacket (t : TimedTunn) (packet : InnerPacket) :
    ({ t with toTunn := t.requeuePacket packet } : TimedTunn).queued =
      if t.queued.length < maxQueueDepth then packet.bytes :: t.queued else t.queued := by
  simp only [queued, Tunn.requeuePacket, List.length_map]
  split
  · simp
  · rfl

theorem queued_initiation (t : TimedTunn) (dst : Nat) (force : Bool) :
    (t.formatHandshakeInitiation dst force).1.queued = t.queued := by
  obtain ⟨u, hu, hstate, -⟩ := initiation_untimed t dst force
  have hqueue : (u.formatHandshakeInitiation dst force).1.packetQueue = u.packetQueue := by
    unfold Tunn.formatHandshakeInitiation
    split
    · rfl
    · split <;> rfl
  have hu : u.packetQueue = t.packetQueue := by
    rcases hu with rfl | rfl <;> rfl
  simp only [queued, hstate, hqueue, hu]

/-- What a new initiation that is not forced answers. -/
theorem initiation_result (t : TimedTunn) (dst : Nat) :
    (t.formatHandshakeInitiation dst false).2 =
      if t.handshake.isInProgress then .done
      else if dst < handshakeInitSz then .err .destinationBufferTooSmall
      else .writeToNetwork .handshakeInit := by
  obtain ⟨u, hu, -, hresult⟩ := initiation_untimed t dst false
  have hhandshake : u.handshake = t.handshake := by
    rcases hu with rfl | rfl <;> rfl
  rw [hresult, ← hhandshake]
  unfold Tunn.formatHandshakeInitiation
  cases hp : u.handshake.isInProgress with
  | true => simp
  | false =>
    simp only [Bool.false_and, Bool.false_eq_true, if_false]
    split <;> rfl

/-- Without a session the packet goes to the back of the queue, and to its
head as well when the initiation fails. -/
theorem sendQueuedPacket_idle (t : TimedTunn) (dst : Nat) {packet : InnerPacket}
    {rest : List InnerPacket} (hq : t.packetQueue = packet :: rest)
    (hs : t.currentSession = none) :
    let back := if rest.length < maxQueueDepth then rest.map (·.bytes) ++ [packet.bytes]
      else rest.map (·.bytes)
    (t.sendQueuedPacketInto dst).1.queued =
        (if (!t.handshake.isInProgress ∧ dst < handshakeInitSz) ∧ back.length < maxQueueDepth then
          packet.bytes :: back else back) ∧
      (t.sendQueuedPacketInto dst).2 ≠ none ∧
      ∀ session inner, (t.sendQueuedPacketInto dst).2 ≠
        some (.writeToNetwork (.data session inner)) := by
  intro back
  generalize hu : ({ t with packetQueue := rest } : TimedTunn) = u
  have hnone : u.currentSession = none := by rw [← hu]; exact hs
  have hback : (u.encapsulate packet dst).1.queued = back := by
    simp only [encapsulate, hnone]
    rw [queued_initiation, queued_queuePacket, ← hu]
    simp [queued, back]
  have hresult : (u.encapsulate packet dst).2 =
      if t.handshake.isInProgress then .done
      else if dst < handshakeInitSz then .err .destinationBufferTooSmall
      else .writeToNetwork .handshakeInit := by
    have hhandshake : (u.queuePacket packet).handshake = t.handshake := by
      rw [← hu]
      unfold Tunn.queuePacket
      split <;> rfl
    simp only [encapsulate, hnone]
    rw [initiation_result, hhandshake]
  have hinto : u.encapsulateInto packet dst =
      ((u.encapsulate packet dst).1, some (u.encapsulate packet dst).2) := by
    rw [encapsulateInto, if_neg]
    simp [hnone]
  simp only [sendQueuedPacketInto, hq, hu, hinto, hresult]
  cases hp : t.handshake.isInProgress with
  | true => simpa using hback
  | false =>
    by_cases hdst : dst < handshakeInitSz
    · simp only [Bool.false_eq_true, if_false, hdst, if_true]
      refine ⟨?_, by simp, by simp⟩
      rw [queued_requeuePacket, hback]
      simp
    · simpa [hdst] using hback

theorem sendQueuedPacket_session (t : TimedTunn) (dst : Nat) {packet : InnerPacket}
    {rest : List InnerPacket} {session : Session} (hq : t.packetQueue = packet :: rest)
    (hs : t.currentSession = some session) :
    (t.sendQueuedPacketInto dst).1.queued = rest.map (·.bytes) ∧
      (t.sendQueuedPacketInto dst).2 =
        if dst < packet.bytes.length + dataOverheadSz then none
        else some (.writeToNetwork (.data session packet)) := by
  have hsome : ({ t with packetQueue := rest } : TimedTunn).currentSession = some session := hs
  simp only [sendQueuedPacketInto, hq, encapsulateInto, hsome, Option.isSome_some, true_and]
  by_cases hdst : dst < packet.bytes.length + dataOverheadSz
  · simp [hdst, queued]
  · simp only [hdst, if_false, encapsulate, hsome, and_true]
    split <;> simp [queued]

/-- Asking for a queued packet keeps the queue, but for the packet sent, just
when the queue stays. -/
theorem queueKept_iff (t : TimedTunn) (dst : Nat) :
    QueueKept t.queued (t.sendQueuedPacketInto dst).1.queued (t.sendQueuedPacketInto dst).2 ↔
      t.QueueStays dst := by
  cases hq : t.packetQueue with
  | nil => simp [sendQueuedPacketInto, QueueStays, QueueKept, queued, hq]
  | cons packet rest =>
    have hbefore : t.queued = packet.bytes :: rest.map (·.bytes) := by simp [queued, hq]
    cases hs : t.currentSession with
    | some session =>
      obtain ⟨hafter, hresult⟩ := sendQueuedPacket_session t dst hq hs
      simp only [QueueStays, hbefore, hafter, hresult, hs, Option.isSome_some, if_true]
      by_cases hdst : dst < packet.bytes.length + dataOverheadSz
      · simp [hdst, QueueKept]
      · have hsent : ∃ front back, packet.bytes :: rest.map (·.bytes) =
            front ++ packet.bytes :: back ∧ rest.map (·.bytes) = front ++ back :=
          ⟨[], rest.map (·.bytes), rfl, rfl⟩
        simpa only [hdst, if_false, QueueKept, hsent, true_iff] using not_lt.mp hdst
    | none =>
      obtain ⟨hafter, hreturns, hdata⟩ := sendQueuedPacket_idle t dst hq hs
      have hkept : QueueKept t.queued (t.sendQueuedPacketInto dst).1.queued
          (t.sendQueuedPacketInto dst).2 ↔
            (t.sendQueuedPacketInto dst).1.queued = t.queued := by
        unfold QueueKept
        split
        · rename_i session inner hr
          exact absurd hr (hdata session inner)
        · rfl
      rw [hkept, hafter, hbefore]
      simp only [QueueStays, hbefore, hs, Option.isSome_none, Bool.false_eq_true, if_false,
        List.length_map]
      rw [requeued_eq_iff _ (by rw [List.length_map]), List.length_map]
      refine and_congr_right fun _ => and_congr_right fun _ => ?_
      cases t.handshake.isInProgress with
      | true => simp
      | false => simp [Decidable.imp_iff_not_or]

/-- Two packets wait for the response to an initiation; asking for one of
them swaps the two. -/
theorem waiting_swapped :
    let t := (((new none).encapsulate ⟨[1], .interface⟩ 2048).1.encapsulate ⟨[2],
      .interface⟩ 2048).1
    let r := t.sendQueuedPacketInto 2048
    t.queued = [[1], [2]] ∧ r.1.queued = [[2], [1]] ∧ r.2 = some .done ∧
      ¬QueueKept t.queued r.1.queued r.2 := by
  refine ⟨by decide, by decide, by decide, fun h => ?_⟩
  exact absurd (show ([[2], [1]] : List Bytes) = [[1], [2]] from h) (by decide)

end Xelt.Boringtun.Noise.TimedTunn
