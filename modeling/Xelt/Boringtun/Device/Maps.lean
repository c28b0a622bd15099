import Xelt.Boringtun.Device.Steps

/-!
# The maps of the device

Who a peer is does not change while it is served: handlers leave its index
and its allowed addresses alone. So the maps stay true as long as the three
operations on the set of peers keep them true, and these operations are read
here once: a peer is added, one is removed, or all are.
-/

namespace Xelt.Boringtun

open Noise Payment

/-- The parts of a peer that are set when it is made. -/
structure SamePeer (p p' : Peer) : Prop where
  index : p'.index = p.index
  allowedIps : p'.allowedIps = p.allowedIps

theorem SamePeer.refl (p : Peer) : SamePeer p p := ⟨rfl, rfl⟩

theorem SamePeer.trans (h : SamePeer p p') (h' : SamePeer p' p'') : SamePeer p p'' :=
  ⟨h'.index.trans h.index, h'.allowedIps.trans h.allowedIps⟩

theorem sendSignal_same (p : Peer) : SamePeer p (sendSignal p b).1 := by
  unfold sendSignal
  split <;> exact ⟨rfl, rfl⟩

theorem sendPaymentRequired_same (p : Peer) : SamePeer p (sendPaymentRequired d env p).1 := by
  unfold sendPaymentRequired
  split
  · exact .refl p
  split
  · exact .refl p
  · exact sendSignal_same p

theorem sendPaymentAccepted_same (p : Peer) : SamePeer p (sendPaymentAccepted d p).1 := by
  unfold sendPaymentAccepted
  split
  · exact .refl p
  · exact sendSignal_same p

theorem creditPeer_same (p : Peer) : SamePeer p (creditPeer d p).1 := by
  unfold creditPeer
  split <;> exact ⟨rfl, rfl⟩

theorem recordNonce_same (p : Peer) : SamePeer p (recordNonce p nonce).2 := by
  unfold recordNonce
  split <;> exact ⟨rfl, rfl⟩

theorem handlePaymentSubmit_same (p : Peer) :
    SamePeer p (handlePaymentSubmit prim d env p payload).1 := by
  have hcredit (nonce : Bytes32) :
      SamePeer p (sendPaymentAccepted d (creditPeer d (recordNonce p nonce).2).1).1 :=
    ((recordNonce_same p).trans (creditPeer_same _)).trans (sendPaymentAccepted_same _)
  unfold handlePaymentSubmit
  split
  · exact .refl p
  split
  · exact .refl p
  rename_i submit _
  split
  · exact .refl p
  split
  · exact .refl p
  simp only
  split
  · exact recordNonce_same p
  split
  · exact recordNonce_same p
  split
  · exact hcredit _
  split
  · exact hcredit _
  · exact recordNonce_same p
  · exact recordNonce_same p

theorem handlePaymentSignalClient_same (p : Peer) :
    SamePeer p (handlePaymentSignalClient prim d env p payload).1 := by
  unfold handlePaymentSignalClient
  split
  · exact .refl p
  split
  · split
    · exact .refl p
    split
    · exact .refl p
    simp only
    split
    · exact .refl p
    · exact sendSignal_same p
  · exact .refl p

theorem meterPeer_same (p : Peer) : SamePeer p (meterPeer d p len).2.1 := by
  unfold meterPeer
  split
  · split
    · exact .refl p
    split <;> exact ⟨rfl, rfl⟩
  · exact .refl p

theorem inboundV4_same (p : Peer) : SamePeer p (inboundV4 prim d env p packet src).1 := by
  have hmeter : SamePeer p (meterPeer d p packet.length).2.1 := meterPeer_same p
  unfold inboundV4
  split
  · split
    · split
      · exact handlePaymentSubmit_same p
      split
      · exact handlePaymentSignalClient_same p
      · exact .refl p
    · exact .refl p
  split
  · split
    · rename_i hm
      rw [hm] at hmeter
      exact hmeter
    · rename_i hm
      rw [hm] at hmeter
      exact hmeter.trans (sendPaymentRequired_same _)
    · rename_i hm
      rw [hm] at hmeter
      exact hmeter
  · exact .refl p

theorem inboundV6_same (p : Peer) : SamePeer p (inboundV6 d p packet src).1 := by
  have hmeter : SamePeer p (meterPeer d p packet.length).2.1 := meterPeer_same p
  unfold inboundV6
  split
  · split
    · rename_i hm
      rw [hm] at hmeter
      exact hmeter
    · rename_i hm
      rw [hm] at hmeter
      exact hmeter
  · exact .refl p

theorem inbound_same (p : Peer) : SamePeer p (inbound prim d env p packet).1 := by
  unfold inbound
  split
  · exact ⟨rfl, rfl⟩
  · rename_i tunnel packet src _
    have h : SamePeer { p with tunnel } (inboundV4 prim d env { p with tunnel } packet src).1 :=
      inboundV4_same _
    exact ⟨h.index, h.allowedIps⟩
  · rename_i tunnel packet src _
    have h : SamePeer { p with tunnel } (inboundV6 d { p with tunnel } packet src).1 :=
      inboundV6_same _
    exact ⟨h.index, h.allowedIps⟩
  · exact ⟨rfl, rfl⟩
  · exact ⟨rfl, rfl⟩

theorem udpHandler_same (p : Peer) : SamePeer p (udpHandler prim d env p addr packet).1 := by
  have h : SamePeer p (inbound prim d env p packet).1 := inbound_same p
  unfold udpHandler
  split
  · rename_i he
    rw [he] at h
    exact h
  · rename_i he
    rw [he] at h
    exact ⟨h.index, h.allowedIps⟩

theorem ifaceHandler_same (p : Peer) : SamePeer p (ifaceHandler d env p src).1 := by
  have hmeter : SamePeer p (meterPeer d p src.length).2.1 := meterPeer_same p
  unfold ifaceHandler
  split
  · rename_i hm
    rw [hm] at hmeter
    exact hmeter
  · rename_i hm
    rw [hm] at hmeter
    split
    · exact hmeter.trans (sendPaymentRequired_same _)
    · exact hmeter
  · rename_i hm
    rw [hm] at hmeter
    split <;> exact ⟨hmeter.index, hmeter.allowedIps⟩

theorem timerHandler_same (p : Peer) : SamePeer p (timerHandler p outcome).1 := by
  unfold timerHandler
  split
  · split <;> exact ⟨rfl, rfl⟩
  · exact .refl p

namespace Device

variable {prim : Primitives} {d d' : Device}

theorem call_same (h : d.call prim e = some (pid, f)) (p : Peer) : SamePeer p (f p).1 := by
  cases e with
  | udp env addr packet =>
    obtain ⟨_, _, he⟩ := Option.map_eq_some_iff.mp h
    cases he
    exact udpHandler_same p
  | conn env target packet =>
    cases h
    exact inbound_same p
  | iface env src =>
    simp only [call] at h
    split at h
    · obtain ⟨_, _, he⟩ := Option.map_eq_some_iff.mp h
      cases he
      exact ifaceHandler_same p
    · cases h
  | timer target outcome =>
    cases h
    exact timerHandler_same p
  | setKey privateKey => cases h
  | updatePeer pubKey remove endpoint allowedIps => cases h
  | clearPeers => cases h

-- ---------------------------------------------------------------------------
-- What a step does to the set of peers
-- ---------------------------------------------------------------------------

/-- Two devices with the same maps, whose peer objects are the same peers. -/
structure SameMaps (d d' : Device) : Prop where
  nextIndex : d'.nextIndex = d.nextIndex
  peers : d'.peers = d.peers
  peersByIp : d'.peersByIp = d.peersByIp
  peersByIdx : d'.peersByIdx = d.peersByIdx
  heapSize : d'.heapSize = d.heapSize
  heap : ∀ pid p', d'.heap pid = some p' → ∃ p, d.heap pid = some p ∧ SamePeer p p'
  kept : ∀ pid p, d.heap pid = some p → ∃ p', d'.heap pid = some p' ∧ SamePeer p p'

theorem SameMaps.refl (d : Device) : SameMaps d d :=
  ⟨rfl, rfl, rfl, rfl, rfl, fun _ p h => ⟨p, h, .refl p⟩, fun _ p h => ⟨p, h, .refl p⟩⟩

theorem handle_same (h : d.call prim e = some (pid, f)) : SameMaps d (d.handle pid f) := by
  unfold handle
  cases hp : d.heap pid with
  | none => exact .refl d
  | some p =>
    refine ⟨rfl, rfl, rfl, rfl, rfl, fun target p' ht => ?_, fun target q hq => ?_⟩
    · by_cases hne : target = pid
      · subst hne
        obtain rfl : (f p).1 = p' := by simpa using ht
        exact ⟨p, hp, call_same h p⟩
      · exact ⟨p', by simpa [hne] using ht, .refl p'⟩
    · by_cases hne : target = pid
      · subst hne
        obtain rfl : p = q := Option.some.inj (hp.symm.trans hq)
        exact ⟨(f p).1, by simp, call_same h p⟩
      · exact ⟨q, by simpa [hne] using hq, .refl q⟩

theorem setKey_same (prim : Primitives) (d : Device) (k : Bytes32) :
    SameMaps d (d.setKey prim k) := by
  unfold setKey
  simp only
  split
  · exact .refl d
  · refine ⟨rfl, rfl, rfl, rfl, rfl, fun pid p' h => ?_, fun pid p h => ?_⟩
    · obtain ⟨p, hp, rfl⟩ := Option.map_eq_some_iff.mp h
      exact ⟨p, hp, by split <;> exact ⟨rfl, rfl⟩⟩
    · refine ⟨_, by simp only [h, Option.map_some]; rfl, ?_⟩
      split <;> exact ⟨rfl, rfl⟩

/-- The peer an addition makes, and where it is entered. -/
structure Adds (d d' : Device) (key : Bytes32) (ips : List AllowedIP) (p : Peer) : Prop where
  absent : d.peers.lookup key = none
  keyPair : d'.keyPair.isSome
  nextIndex : d.nextIndex.next = some (p.index, d'.nextIndex)
  allowedIps : p.allowedIps = .ofList ips ()
  peers : d'.peers = d.peers.insert key d.heapSize
  peersByIp : d'.peersByIp = ips.foldl (fun t ip => t.insert ip d.heapSize) d.peersByIp
  peersByIdx : d'.peersByIdx = d.peersByIdx.insert p.index d.heapSize
  heap : d'.heap = Function.update d.heap d.heapSize (some p)
  heapSize : d'.heapSize = d.heapSize + 1

theorem updatePeer_adds (h : d.updatePeer key false endpoint ips = some d') :
    ∃ p, Adds d d' key ips p := by
  simp only [updatePeer, Bool.false_eq_true, if_false] at h
  split at h
  · cases h
  rename_i hnone
  split at h
  · rename_i index nextIndex _ hnext hkey
    cases h
    exact ⟨_, by simpa using hnone, by simp [hkey], hnext, rfl, rfl, rfl, rfl, rfl, rfl⟩
  · cases h

theorem removePeer_lookup (d : Device) (key k : Bytes32) :
    (d.removePeer key).peers.lookup k = if k = key then none else d.peers.lookup k := by
  cases hl : d.peers.lookup key with
  | none =>
    simp only [removePeer, hl]
    split
    · rename_i hk
      rw [hk, hl]
    · rfl
  | some pid =>
    simp only [removePeer, hl]
    split
    · rename_i hk
      rw [hk, AList.lookup_erase]
    · rename_i hk
      exact AList.lookup_erase_ne hk

theorem step_maps (h : d.step prim e = some d') :
    SameMaps d d' ∨
      (∃ key endpoint ips p, e = .updatePeer key false endpoint ips ∧ Adds d d' key ips p) ∨
      (∃ key endpoint ips, e = .updatePeer key true endpoint ips ∧ d' = d.removePeer key) ∨
      (e = .clearPeers ∧ d' = d.clearPeers) := by
  cases e with
  | setKey k =>
    cases h
    exact .inl (setKey_same prim d k)
  | clearPeers =>
    cases h
    exact .inr (.inr (.inr ⟨rfl, rfl⟩))
  | updatePeer key remove endpoint ips =>
    cases remove with
    | true =>
      simp only [step, updatePeer, if_true, Option.some.injEq] at h
      exact .inr (.inr (.inl ⟨key, endpoint, ips, rfl, h.symm⟩))
    | false =>
      obtain ⟨p, hp⟩ := updatePeer_adds h
      exact .inr (.inl ⟨key, endpoint, ips, p, rfl, hp⟩)
  | _ =>
    left
    simp only [step] at h
    split at h
    · cases h
      exact .refl _
    · rename_i hc
      cases h
      exact handle_same hc

end Device

end Xelt.Boringtun
