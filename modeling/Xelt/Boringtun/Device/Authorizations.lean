import Xelt.Boringtun.Device.Signing
import Xelt.Boringtun.Device.Submits

/-!
# One authorization, many peers

An authorization is a global value, a from address and a nonce, but the nonces
already used are kept in the quota of each peer. A peer object never accepts a
nonce twice; another one, or the one made when the peer is registered again,
knows nothing of it. So an authorization is credited once in total exactly when
no two peer objects accept it.
-/

namespace Xelt.Boringtun

open Noise Payment Runs Bytes Tagged

/-- What an EIP-3009 authorization is told apart by. -/
abbrev Authorization := Address × Bytes32

def Payment.PaymentSubmit.authorization (submit : PaymentSubmit) : Authorization :=
  (submit.fromAddr, submit.nonce)

/-- The payload of a packet that goes to `handle_payment_submit`. -/
def submitPayload (packet : Bytes) : Option Bytes :=
  if isPaymentSignal packet ∧ dstIpv4 packet = some paymentGatewayIp ∧
      (srcIpv4 packet).isSome then extractSignalPayload packet
  else none

/-- The payload a packet from the network brings to `handle_payment_submit`. -/
def inboundSubmit (p : Peer) (packet : Packet) : Option Bytes :=
  match (p.tunnel.handleVerifiedPacket packet).2 with
  | .writeToTunnelV4 packet _ => submitPayload packet
  | _ => none

section
variable {prim : Primitives} {d : PaymentState} {env : Env} {p : Peer}

theorem submitPayload_of_ask (h : signalAsk d packet = .submit) (hs : isPaymentSignal packet) :
    ∃ payload, submitPayload packet = some payload := by
  unfold signalAsk at h
  split at h
  · rename_i payload dst src hx hd hsrc
    split at h
    · rename_i hgw
      exact ⟨payload, by simp [submitPayload, hs, hd, hgw, hsrc, hx]⟩
    · split at h <;> cases h
  · cases h

theorem inboundSubmit_of_ask (h : inboundAsk d p packet = .submit) :
    ∃ payload, inboundSubmit p packet = some payload := by
  unfold inboundAsk at h
  split at h
  · rename_i inner src hv
    split at h
    · rename_i hs
      simpa [inboundSubmit, hv] using submitPayload_of_ask h hs
    · split at h <;> cases h
  · split at h <;> cases h
  · cases h

theorem inbound_submit (prim : Primitives) (d : PaymentState) (env : Env)
    (h : inboundSubmit p packet = some payload) :
    ∃ tunnel, inbound prim d env p packet =
      ((handlePaymentSubmit prim d env { p with tunnel } payload).1,
        (handlePaymentSubmit prim d env { p with tunnel } payload).2, .continue) := by
  unfold inboundSubmit at h
  split at h
  · rename_i inner src hv
    unfold submitPayload at h
    split at h
    · rename_i hs
      obtain ⟨hsignal, hdst, hsrc⟩ := hs
      obtain ⟨src', hsrc⟩ := Option.isSome_iff_exists.mp hsrc
      refine ⟨(p.tunnel.handleVerifiedPacket packet).1, ?_⟩
      unfold inbound
      split
      all_goals
        rename_i heq
        rw [heq] at hv
        cases hv
      simp only [heq, inboundV4, hsignal, if_true, h, hdst, hsrc]
    · cases h
  · cases h

end

theorem Charge.submit_of_credit (h : Charge quotaBytes q ask q' pays)
    (hc : .credit bytes ∈ pays) : ask = .submit := by
  cases h <;> simp_all

theorem Charge.nonces (h : Charge quotaBytes q ask q' pays) : q.usedNonces ⊆ q'.usedNonces := by
  cases h with
  | rejected nonce => exact Finset.subset_insert _ _
  | credited nonce => exact Finset.subset_insert _ _
  | forwarded hm => exact (q.meter_payments _).2.ge
  | refused hm => exact (q.meter_payments _).2.ge
  | reported hm => exact (q.meter_payments _).2.ge
  | _ => exact Finset.Subset.refl _

namespace Device

variable {prim : Primitives} {d : Device}

/-- The packet an event brings to a peer object from the network. -/
def packetFor (d : Device) : Event → Option (PeerId × Env × Packet)
  | .udp env _ packet => (d.findPeer packet).map fun pid => (pid, env, packet)
  | .conn env pid packet => some (pid, env, packet)
  | _ => none

/-- An event brings the payload to `handle_payment_submit` for a peer. -/
def Submits (d : Device) (e : Event) (pid : PeerId) (env : Env) (p : Peer) (payload : Bytes) :
    Prop :=
  ∃ packet, d.packetFor e = some (pid, env, packet) ∧ d.heap pid = some p ∧
    inboundSubmit p packet = some payload

/-- An event brings a peer a submit that meets every check, the nonces of the
peer's own quota among them. -/
def Accepts (prim : Primitives) (d : Device) (e : Event) (pid : PeerId) (auth : Authorization) :
    Prop :=
  ∃ env p payload submit, d.Submits e pid env p payload ∧
    PaymentSubmit.decode payload = some submit ∧ submit.authorization = auth ∧
    Passes prim d.toPaymentState env p submit

/-- The authorization of the submit an event brings. -/
def authorization? (d : Device) (e : Event) : Option Authorization := do
  let (pid, _, packet) ← d.packetFor e
  let p ← d.heap pid
  let payload ← inboundSubmit p packet
  let submit ← PaymentSubmit.decode payload
  return submit.authorization

/-- The authorizations a step credits, one for each time it credits a quota,
with the peer object that has the quota. -/
def credited (prim : Primitives) (d : Device) (e : Event) : List (PeerId × Authorization) :=
  ((d.effects prim e).filter (·.2.isCredit)).filterMap fun x =>
    (d.authorization? e).map fun auth => (x.1, auth)

theorem submits_of_ask (h : d.ask pid e = some .submit) :
    ∃ env p payload, d.Submits e pid env p payload := by
  obtain ⟨p, hp, ha⟩ := Option.bind_eq_some_iff.mp h
  cases e with
  | udp env addr packet =>
    simp only at ha
    split at ha
    · rename_i hfind
      obtain ⟨payload, hx⟩ := inboundSubmit_of_ask (Option.some.inj ha)
      exact ⟨env, p, payload, packet, by simp [packetFor, hfind], hp, hx⟩
    · cases ha
  | conn env target packet =>
    simp only at ha
    split at ha
    · rename_i ht
      subst ht
      obtain ⟨payload, hx⟩ := inboundSubmit_of_ask (Option.some.inj ha)
      exact ⟨env, p, payload, packet, rfl, hp, hx⟩
    · cases ha
  | iface env src =>
    simp only at ha
    split at ha <;> cases ha
  | timer target outcome =>
    simp only at ha
    split at ha <;> cases ha
  | setKey privateKey => cases ha
  | updatePeer pubKey remove endpoint allowedIps => cases ha
  | clearPeers => cases ha

theorem step_submits (prim : Primitives) (h : d.Submits e pid env p payload) :
    ∃ tunnel,
      d.step prim e = some { d with heap := Function.update d.heap pid (some
        (handlePaymentSubmit prim d.toPaymentState env { p with tunnel } payload).1) } ∧
      d.effects prim e =
        (handlePaymentSubmit prim d.toPaymentState env { p with tunnel } payload).2.map
          fun eff => (pid, eff) := by
  obtain ⟨packet, hpacket, hp, hx⟩ := h
  obtain ⟨tunnel, hin⟩ := inbound_submit prim d.toPaymentState env hx
  refine ⟨tunnel, ?_⟩
  cases e with
  | udp env' addr packet' =>
    simp only [packetFor, Option.map_eq_some_iff, Prod.mk.injEq] at hpacket
    obtain ⟨_, hfind, rfl, rfl, rfl⟩ := hpacket
    simp [step, effects, call, hfind, handle, hp, udpHandler, hin]
  | conn env' target packet' =>
    simp only [packetFor, Option.some.injEq, Prod.mk.injEq] at hpacket
    obtain ⟨rfl, rfl, rfl⟩ := hpacket
    simp [step, effects, call, handle, hp, connHandler, hin]
  | _ => cases hpacket

theorem authorization_submits (h : d.Submits e pid env p payload) :
    d.authorization? e = (PaymentSubmit.decode payload).map (·.authorization) := by
  obtain ⟨packet, hpacket, hp, hx⟩ := h
  cases hs : PaymentSubmit.decode payload <;> simp [authorization?, hpacket, hp, hx, hs]

/-- Only a payload makes a step credit a quota, and it does so exactly when
the submit in it is accepted. -/
theorem credits_step (hd : d.Metered) (h : d.step prim e = some d') :
    (∃ bytes, (pid, .credit bytes) ∈ d.effects prim e) ↔ ∃ auth, d.Accepts prim e pid auth := by
  constructor
  · rintro ⟨bytes, hmem⟩
    have hsel : .credit bytes ∈ select pid (d.effects prim e) := mem_select.mpr hmem
    cases hask : d.ask pid e with
    | none =>
      rw [(step_idle hd h hask).1] at hsel
      cases hsel
    | some a =>
      obtain ⟨_, _, _, _, -, -, -, -, hcharge⟩ := step_charge hd h hask
      have hpays : .credit bytes ∈ payments (select pid (d.effects prim e)) := by
        simpa [payments] using hsel
      have hsubmit := hcharge.submit_of_credit hpays
      obtain ⟨env, p, payload, hsub⟩ := submits_of_ask (hask.trans (by rw [hsubmit]))
      obtain ⟨tunnel, -, heff⟩ := step_submits prim hsub
      obtain ⟨q, hq⟩ := hd.quota pid p hsub.choose_spec.2.1
      rw [heff] at hmem
      obtain ⟨eff, hmem, heq⟩ := List.mem_map.mp hmem
      obtain ⟨-, rfl⟩ := Prod.mk.inj heq
      obtain ⟨submit, hs, hp⟩ := (credits_iff (p := { p with tunnel }) hq).mp ⟨bytes, hmem⟩
      exact ⟨submit.authorization, env, p, payload, submit, hsub, hs, rfl, hp⟩
  · rintro ⟨auth, env, p, payload, submit, hsub, hs, rfl, ha, hp, q, hq, hn⟩
    obtain ⟨tunnel, -, heff⟩ := step_submits prim hsub
    have hcredits := (credits_iff (p := { p with tunnel }) hq).mpr ⟨submit, hs, ha, hp, q, hq, hn⟩
    obtain ⟨bytes, hmem⟩ := hcredits
    exact ⟨bytes, heff ▸ List.mem_map_of_mem hmem⟩

theorem credited_accepts (h : d.Accepts prim e pid auth) : d.credited prim e = [(pid, auth)] := by
  obtain ⟨env, p, payload, submit, hsub, hs, rfl, ha, hp, q, hq, hn⟩ := h
  obtain ⟨tunnel, -, heff⟩ := step_submits prim hsub
  have hpays := (handlePaymentSubmit_credited (p := { p with tunnel }) hq hs ha hn hp).2
  have hfilter := filter_credit_payments
    (handlePaymentSubmit prim d.toPaymentState env { p with tunnel } payload).2
  rw [hpays] at hfilter
  rw [credited, heff, authorization_submits hsub, hs, List.filter_map]
  simp only [Function.comp_def, ← hfilter]
  rfl

theorem credited_none (hd : d.Metered) (h : ∀ pid auth, ¬ d.Accepts prim e pid auth) :
    d.credited prim e = [] := by
  have hnone : (d.effects prim e).filter (·.2.isCredit) = [] := by
    refine List.filter_eq_nil_iff.mpr fun x hx hc => ?_
    obtain ⟨pid, eff⟩ := x
    obtain ⟨d', hs⟩ := step_of_effect hx
    cases eff with
    | credit bytes =>
      obtain ⟨auth, ha⟩ := (credits_step hd hs).mp ⟨bytes, hx⟩
      exact h pid auth ha
    | _ => cases hc
  simp [credited, hnone]

theorem mem_credited (hd : d.Metered) :
    (pid, auth) ∈ d.credited prim e ↔ d.Accepts prim e pid auth := by
  constructor
  · intro h
    by_contra hnot
    by_cases hacc : ∃ pid auth, d.Accepts prim e pid auth
    · obtain ⟨pid', auth', hacc⟩ := hacc
      rw [credited_accepts hacc, List.mem_singleton] at h
      cases h
      exact hnot hacc
    · rw [credited_none hd fun pid auth ha => hacc ⟨pid, auth, ha⟩] at h
      cases h
  · intro h
    rw [credited_accepts h]
    exact List.mem_singleton_self _

/-- The peer objects that credited an authorization know its nonce. -/
def Known (d : Device) (past : List (PeerId × Authorization)) : Prop :=
  ∀ x ∈ past, ∃ p q, d.heap x.1 = some p ∧ p.quota = some q ∧ x.2.2 ∈ q.usedNonces

theorem Known.step (hk : d.Known past) (hd : d.Metered) (h : d.step prim e = some d') :
    d'.Known past := by
  intro x hx
  obtain ⟨p, q, hp, hq, hn⟩ := hk x hx
  cases ha : d.ask x.1 e with
  | none =>
    obtain ⟨p', hp', hq'⟩ := (step_idle hd h ha).2 p q hp hq
    exact ⟨p', q, hp', hq', hn⟩
  | some a =>
    obtain ⟨p₀, q₀, p', q', hp₀, hq₀, hp', hq', hcharge⟩ := step_charge hd h ha
    obtain rfl := Option.some.inj (hp₀.symm.trans hp)
    obtain rfl := Option.some.inj (hq₀.symm.trans hq)
    exact ⟨p', q', hp', hq', hcharge.nonces hn⟩

theorem Known.credited (hk : d.Known past) (hd : d.Metered) (h : d.step prim e = some d') :
    d'.Known (past ++ d.credited prim e) := by
  intro x hx
  rcases List.mem_append.mp hx with hx | hx
  · exact hk.step hd h x hx
  · obtain ⟨env, p, payload, submit, hsub, hs, heq, ha, hp, q, hq, hfresh⟩ :=
      (mem_credited hd).mp hx
    obtain ⟨tunnel, hstep, -⟩ := step_submits prim hsub
    have hquota :=
      (handlePaymentSubmit_credited (p := { p with tunnel }) hq hs ha hfresh hp).1
    obtain rfl := Option.some.inj (hstep.symm.trans h)
    refine ⟨_, _, Function.update_self .., hquota, ?_⟩
    rw [← heq]
    exact Finset.mem_insert_self _ _

theorem Known.fresh (hk : d.Known past) (h : d.Accepts prim e pid auth) : (pid, auth) ∉ past := by
  obtain ⟨env, p, payload, submit, ⟨packet, -, hp, -⟩, -, rfl, -, -, q, hq, hfresh⟩ := h
  intro hx
  obtain ⟨p', q', hp', hq', hused⟩ := hk _ hx
  obtain rfl := Option.some.inj (hp'.symm.trans hp)
  obtain rfl := Option.some.inj (hq'.symm.trans hq)
  exact hfresh hused

theorem nodup_credited (hd : d.Metered) (hk : d.Known past) (hn : past.Nodup) :
    (past ++ d.credited prim e).Nodup := by
  by_cases hacc : ∃ pid auth, d.Accepts prim e pid auth
  · obtain ⟨pid, auth, hacc⟩ := hacc
    rw [credited_accepts hacc]
    refine List.nodup_append.mpr ⟨hn, List.nodup_singleton _, ?_⟩
    rintro x hx y hy rfl
    rw [List.mem_singleton.mp hy] at hx
    exact hk.fresh hacc hx
  · rw [credited_none hd fun pid auth ha => hacc ⟨pid, auth, ha⟩, List.append_nil]
    exact hn

theorem nodup_trace_credited (prim : Primitives) (hd : d.Metered) (es : List Event) :
    (trace (step prim) (credited prim) d es).Nodup := by
  refine (trace_iff_along (P := List.Nodup) (C := fun _ _ => True)
    (I := fun d past => d.Metered ∧ d.Known past) [] ?_ ?_ ?_ ⟨hd, by simp [Known]⟩
    List.nodup_nil).mpr (along_iff_at.mpr fun _ _ _ _ _ _ => trivial)
  · exact fun _ _ _ _ h => (List.nodup_append.mp h).1
  · exact fun d e d' past hi hs => ⟨step_metered hi.1 hs, hi.2.credited hi.1 hs⟩
  · exact fun d e past hi hn => iff_of_true (nodup_credited hi.1 hi.2 hn) trivial

/-- Somewhere in a run, a peer object accepts an authorization. -/
def AcceptedIn (prim : Primitives) (d : Device) (es : List Event) (pid : PeerId)
    (auth : Authorization) : Prop :=
  ∃ pre e post d₁, es = pre ++ e :: post ∧ exec (step prim) d pre = some d₁ ∧
    d₁.Accepts prim e pid auth

theorem mem_trace_credited (prim : Primitives) (hd : d.Metered) (es : List Event) :
    (pid, auth) ∈ trace (step prim) (credited prim) d es ↔ AcceptedIn prim d es pid auth := by
  rw [mem_trace]
  refine exists₄_congr fun pre e post d₁ => and_congr_right fun _ => and_congr_right fun he => ?_
  exact mem_credited (invariant_run (fun _ _ _ => step_metered) hd he)

/-- In a run of a server over any set of peers, removed and registered again
as they like, an authorization credits quota at most once in total exactly
when no two peer objects accept it. -/
theorem authorization_once_iff (config : ServerConfig) (nextIndex : IndexLfsr) (es : List Event) :
    ((trace (step prim) (credited prim) (start config nextIndex) es).map (·.2)).Nodup ↔
      ∀ pid pid' auth, AcceptedIn prim (start config nextIndex) es pid auth →
        AcceptedIn prim (start config nextIndex) es pid' auth → pid = pid' := by
  have hd := start_metered config nextIndex
  rw [List.nodup_map_iff_inj_on (nodup_trace_credited prim hd es)]
  simp only [← mem_trace_credited prim hd]
  constructor
  · intro h pid pid' auth hx hy
    exact (Prod.mk.inj (h _ hx _ hy rfl)).1
  · rintro h ⟨pid, auth⟩ hx ⟨pid', auth'⟩ hy rfl
    rw [h pid pid' _ hx hy]

def samplePayment : Bytes :=
  buildSignalPacket (.new 10 0 0 1) paymentGatewayIp samplePayload (by simp [samplePayload])

/-- A peer is registered, pays, is removed and registered again, and pays with
the same authorization. -/
def sampleReplay : List Event :=
  [.setKey sampleKey, addSamplePeer, .udp sampleEnv 1 sampleHandshake,
    .udp sampleSettled 1 (.data 257 (.ok samplePayment)),
    .updatePeer samplePeerKey true none [], addSamplePeer,
    .udp sampleEnv 1 (.handshakeInit (some samplePeerKey) (.ok ⟨0xd7fffe01, 2⟩)),
    .udp sampleSettled 1 (.data 0xd7fffe01 (.ok samplePayment))]

theorem authorization_credited_twice :
    ¬ ((trace (step payingPrimitives) (credited payingPrimitives) (start sampleConfig sampleIndex)
        sampleReplay).map (·.2)).Nodup := by
  have htrace : trace (step payingPrimitives) (credited payingPrimitives)
      (start sampleConfig sampleIndex) sampleReplay =
      [(0, sampleSubmit.authorization), (1, sampleSubmit.authorization)] := by decide +kernel
  simp [htrace]

end Device

end Xelt.Boringtun
