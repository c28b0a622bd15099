import Xelt.Boringtun.Device.Handlers
import Xelt.Boringtun.Noise.Flow

/-!
# What one handler call does

Each handler of a server, read once as two facts about the peer it leaves
and the effects it had. Its charge: what the packet asks of the quota and the
wallet, and what they did. Its flow: what it let out and what it leaves in
the queue of the tunnel is no more than what was queued before and what the
quota let through. The theorems about runs use these facts and open no
handler.
-/

namespace Xelt.Boringtun

open Noise Payment

-- ---------------------------------------------------------------------------
-- Readings of the effects
-- ---------------------------------------------------------------------------

def Effect.isPayment : Effect → Bool
  | .consume .. | .credit _ | .paymentRequired | .signDigest _ => true
  | _ => false

@[simp] theorem isPayment_consume : (Effect.consume taken ok).isPayment = true := rfl
@[simp] theorem isPayment_credit : (Effect.credit bytes).isPayment = true := rfl
@[simp] theorem isPayment_paymentRequired : Effect.paymentRequired.isPayment = true := rfl
@[simp] theorem isPayment_signDigest : (Effect.signDigest digest).isPayment = true := rfl
@[simp] theorem isPayment_settle : (Effect.settle submit).isPayment = false := rfl
@[simp] theorem isPayment_network : (Effect.network datagram).isPayment = false := rfl
@[simp] theorem isPayment_noEndpoint : (Effect.noEndpoint datagram).isPayment = false := rfl
@[simp] theorem isPayment_write4 : (Effect.write4 packet).isPayment = false := rfl
@[simp] theorem isPayment_write6 : (Effect.write6 packet).isPayment = false := rfl

def payments (effects : List Effect) : List Effect := effects.filter (·.isPayment)

def Effect.allowed : Effect → Nat
  | .consume taken true => taken.toNat
  | _ => 0

def allowed (effects : List Effect) : Nat := (effects.map (·.allowed)).sum

/-- A way to weigh what passes the device. The packets a server makes by
itself weigh nothing, and a byte at the interface no more than `rate`. -/
structure Gauge where
  weight : InnerPacket → Nat
  rate : Nat
  keepalive : weight ⟨[], .keepalive⟩ = 0
  required : ∀ src dst (m : PaymentRequired) h,
    weight ⟨buildSignalPacket src dst m.encode h, .signal⟩ = 0
  accepted : ∀ src dst (m : PaymentAccepted) h,
    weight ⟨buildSignalPacket src dst m.encode h, .signal⟩ = 0
  interface : ∀ src, weight ⟨src, .interface⟩ ≤ rate * src.length

def Effect.weight (g : Gauge) : Effect → Nat
  | .network datagram | .noEndpoint datagram => datagram.weight g.weight
  | .write4 packet | .write6 packet => g.rate * packet.length
  | _ => 0

def emitted (g : Gauge) (effects : List Effect) : Nat := (effects.map (·.weight g)).sum

section
variable (g : Gauge) (a b : List Effect)

@[simp] theorem payments_nil : payments [] = [] := rfl
@[simp] theorem payments_append : payments (a ++ b) = payments a ++ payments b :=
  List.filter_append ..
theorem payments_cons (e : Effect) :
    payments (e :: a) = if e.isPayment then e :: payments a else payments a := by
  simp [payments, List.filter_cons]

@[simp] theorem payments_network (datagrams : List Datagram) :
    payments (datagrams.map .network) = [] := by
  simp [payments]

@[simp] theorem emitted_nil : emitted g [] = 0 := rfl
@[simp] theorem emitted_cons (e : Effect) : emitted g (e :: a) = e.weight g + emitted g a := by
  simp [emitted]
@[simp] theorem emitted_append : emitted g (a ++ b) = emitted g a + emitted g b := by
  simp [emitted]

@[simp] theorem emitted_network (datagrams : List Datagram) :
    emitted g (datagrams.map .network) = (datagrams.map (·.weight g.weight)).sum := by
  simp [emitted, Effect.weight, Function.comp_def]

@[simp] theorem allowed_nil : allowed [] = 0 := rfl
@[simp] theorem allowed_cons (e : Effect) : allowed (e :: a) = e.allowed + allowed a := by
  simp [allowed]
@[simp] theorem allowed_append : allowed (a ++ b) = allowed a + allowed b := by simp [allowed]

theorem allowed_payments : allowed (payments a) = allowed a := by
  induction a with
  | nil => rfl
  | cons e a ih => cases e <;> simp [payments_cons, ih, Effect.allowed]

theorem sign_mem_payments : .signDigest digest ∈ payments a ↔ .signDigest digest ∈ a := by
  simp [payments]

end

-- ---------------------------------------------------------------------------
-- Charges
-- ---------------------------------------------------------------------------

/-- What a packet asks of the quota and the wallet of the device. -/
inductive Ask
  | nothing
  | submit
  | sign
  | meter (len : Nat)
  deriving DecidableEq, Repr

/-- What a quota can become under an ask, with the payment effects it takes. -/
inductive Charge (quotaBytes : UInt64) (q : BandwidthQuota) :
    Ask → BandwidthQuota → List Effect → Prop
  | nothing : Charge quotaBytes q .nothing q []
  | dropped : Charge quotaBytes q .submit q []
  | rejected (nonce) : Charge quotaBytes q .submit (q.checkAndRecordNonce nonce).2 []
  | credited (nonce) : Charge quotaBytes q .submit
      ((q.checkAndRecordNonce nonce).2.credit quotaBytes) [.credit quotaBytes]
  | signed (digest) : Charge quotaBytes q .sign q [.signDigest digest]
  | blocked (h : q.blocked = true) : Charge quotaBytes q (.meter len) q []
  | forwarded (h : (q.meter (.ofNat len)).1 = .forward) :
      Charge quotaBytes q (.meter len) (q.meter (.ofNat len)).2 [.consume (.ofNat len) true]
  | refused (h : (q.meter (.ofNat len)).1 = .exhausted) :
      Charge quotaBytes q (.meter len) (q.meter (.ofNat len)).2
        [.consume (q.taken (.ofNat len)) false]
  | reported (h : (q.meter (.ofNat len)).1 = .exhausted) :
      Charge quotaBytes q (.meter len) (q.meter (.ofNat len)).2
        [.consume (q.taken (.ofNat len)) false, .paymentRequired]

/-- The spec of a handler call on a peer with quota `q`. Only a submit the
device signs can bring in weight of its own. -/
structure Served (g : Gauge) (quotaBytes : UInt64) (p : Peer) (q : BandwidthQuota) (ask : Ask)
    (r : Peer × List Effect) : Prop where
  charge : ∃ q', r.1.quota = some q' ∧ Charge quotaBytes q ask q' (payments r.2)
  flow : (ask = .sign → ∀ b, g.weight ⟨b, .signal⟩ = 0) →
    r.1.tunnel.queued g.weight + emitted g r.2 ≤
      p.tunnel.queued g.weight + g.rate * allowed r.2

-- ---------------------------------------------------------------------------
-- Signals
-- ---------------------------------------------------------------------------

/-- A call that leaves the quota alone, with the payment effects `pays`, and
puts no more than `supply` into the tunnel. -/
structure Sends (g : Gauge) (p : Peer) (pays : List Effect) (supply : Nat)
    (r : Peer × List Effect) : Prop where
  quota : r.1.quota = p.quota
  payments : payments r.2 = pays
  flow : r.1.tunnel.queued g.weight + emitted g r.2 ≤ p.tunnel.queued g.weight + supply

namespace Sends

variable {g : Gauge}

theorem nothing : Sends g p [] 0 (p, []) := ⟨rfl, rfl, Nat.le_refl _⟩

theorem free (h : Sends g p pays supply r) (h0 : supply = 0) : Sends g p pays 0 r := h0 ▸ h

theorem pay (h : Sends g p pays supply r) (e : Effect) (he : e.isPayment = true) :
    Sends g p (e :: pays) supply (r.1, e :: r.2) where
  quota := h.quota
  payments := by rw [payments_cons, if_pos he, h.payments]
  flow := by
    have h0 : e.weight g = 0 := by cases e <;> first | rfl | cases he
    simpa [h0] using h.flow

theorem served (h : Sends g p₁ pays 0 r) (ht : p₁.tunnel = p.tunnel)
    (h0 : emitted g pre = 0) (hq : p₁.quota = some q')
    (hc : Charge quotaBytes q ask q' (Boringtun.payments pre ++ pays)) :
    Served g quotaBytes p q ask (r.1, pre ++ r.2) where
  charge := ⟨q', h.quota.trans hq, by rw [payments_append, h.payments]; exact hc⟩
  flow _ := by
    have hf := h.flow
    rw [ht] at hf
    simp only [emitted_append, h0]
    omega

end Sends

section
variable {g : Gauge}

theorem sendSignal_sends : Sends g p [] (g.weight ⟨b, .signal⟩) (sendSignal p b) := by
  have hflow := p.tunnel.encapsulate_flow (w := g.weight) ⟨b, .signal⟩ maxPaymentPacketSize
  unfold sendSignal
  split
  · rename_i tunnel enc he
    rw [he] at hflow
    exact ⟨rfl, rfl, by simpa [Effect.weight, TunnResult.weight] using hflow⟩
  · rename_i tunnel r hr he
    rw [he] at hflow
    exact ⟨rfl, rfl, le_trans (Nat.le_add_right ..) hflow⟩

theorem sendPaymentRequired_sends :
    Sends g p [.paymentRequired] 0 (sendPaymentRequired d env p) := by
  unfold sendPaymentRequired
  split
  · exact Sends.nothing.pay _ rfl
  · split
    · exact Sends.nothing.pay _ rfl
    · exact (sendSignal_sends.free (g.required ..)).pay _ rfl

theorem sendPaymentAccepted_sends : Sends g p [] 0 (sendPaymentAccepted d p) := by
  unfold sendPaymentAccepted
  split
  · exact .nothing
  · exact sendSignal_sends.free (g.accepted ..)

theorem credit_served (hq : p.quota = some q) (nonce : Bytes32) (pre : List Effect)
    (hp : payments pre = []) (h0 : emitted g pre = 0) :
    Served g d.paymentConfig.quotaBytes p q .submit
      (let c := creditPeer d (recordNonce p nonce).2
       let s := sendPaymentAccepted d c.1
       (s.1, pre ++ c.2 ++ s.2)) := by
  simp only [creditPeer, recordNonce, hq]
  exact sendPaymentAccepted_sends.served rfl (by simp [h0, Effect.weight]) rfl
    (by simpa [hp, payments_cons] using Charge.credited nonce)

theorem handlePaymentSubmit_served (hq : p.quota = some q) :
    Served g d.paymentConfig.quotaBytes p q .submit
      (handlePaymentSubmit prim d env p payload) := by
  have hdropped : Served g d.paymentConfig.quotaBytes p q .submit (p, []) :=
    ⟨⟨q, hq, .dropped⟩, fun _ => by simp⟩
  have hrejected (nonce pre) (hp : payments pre = []) (h0 : emitted g pre = 0) :
      Served g d.paymentConfig.quotaBytes p q .submit ((recordNonce p nonce).2, pre) := by
    simp only [recordNonce, hq]
    exact ⟨⟨_, rfl, by rw [hp]; exact .rejected nonce⟩, fun _ => by simp [h0]⟩
  unfold handlePaymentSubmit
  split
  · exact hdropped
  · split
    · exact hdropped
    · rename_i submit _
      split
      · exact hdropped
      · split
        · exact hdropped
        · simp only
          split
          · exact hrejected _ [] rfl rfl
          · split
            · exact hrejected _ [] rfl rfl
            · split
              · exact credit_served hq _ [] rfl rfl
              · split
                · exact credit_served hq _ [.settle submit] rfl rfl
                · exact hrejected _ [.settle submit] rfl rfl
                · exact hrejected _ [.settle submit] rfl rfl

theorem required_kind (h : PaymentRequired.decode payload = some m) :
    ∃ rest, payload = msgPaymentRequired :: rest := by
  cases payload with
  | nil => simp [PaymentRequired.decode, body?] at h
  | cons kind rest =>
    refine ⟨rest, ?_⟩
    by_contra hne
    have hk : kind ≠ msgPaymentRequired := fun hk => hne (by rw [hk])
    simp [PaymentRequired.decode, body?, hk] at h

theorem handlePaymentSignalClient_quiet
    (h : ¬ (d.paymentWallet.isSome ∧ (PaymentRequired.decode payload).isSome)) :
    handlePaymentSignalClient prim d env p payload = (p, []) := by
  unfold handlePaymentSignalClient
  split
  · rfl
  · split
    · split
      · rfl
      · rename_i hreq
        split
        · rfl
        · rename_i hwallet
          exact absurd ⟨by simp [hwallet], by simp [hreq]⟩ h
    · rfl

theorem handlePaymentSignalClient_sends (hw : d.paymentWallet.isSome)
    (hr : (PaymentRequired.decode payload).isSome) :
    ∃ digest b, Sends g p [.signDigest digest] (g.weight ⟨b, .signal⟩)
      (handlePaymentSignalClient prim d env p payload) := by
  obtain ⟨wallet, hw⟩ := Option.isSome_iff_exists.mp hw
  obtain ⟨req, hr⟩ := Option.isSome_iff_exists.mp hr
  obtain ⟨rest, rfl⟩ := required_kind hr
  simp only [handlePaymentSignalClient, hr, hw, if_true]
  split
  · refine ⟨_, [], rfl, rfl, ?_⟩
    simp [Effect.weight]
  · exact ⟨_, _, sendSignal_sends.pay _ rfl⟩

theorem handlePaymentSignalClient_served (hq : p.quota = some q) :
    Served g quotaBytes p q
      (if d.paymentWallet.isSome ∧ (PaymentRequired.decode payload).isSome then .sign
        else .nothing)
      (handlePaymentSignalClient prim d env p payload) := by
  split
  · rename_i h
    obtain ⟨digest, b, hs⟩ := handlePaymentSignalClient_sends (g := g) (p := p) h.1 h.2
    refine ⟨⟨q, hs.quota.trans hq, by rw [hs.payments]; exact .signed digest⟩, fun h0 => ?_⟩
    have hf := hs.flow
    rw [h0 rfl b] at hf
    omega
  · rename_i h
    rw [handlePaymentSignalClient_quiet h]
    exact ⟨⟨q, hq, .nothing⟩, fun _ => by simp⟩

-- ---------------------------------------------------------------------------
-- Metering
-- ---------------------------------------------------------------------------

variable {d : PaymentState} (hs : d.paymentConfig.isServer = true)
include hs

theorem meterPeer_cases (hq : p.quota = some q) (len : Nat) :
    (q.blocked = true ∧ meterPeer d p len = (.blocked, p, [])) ∨
    ((q.meter (.ofNat len)).1 = .exhausted ∧ meterPeer d p len =
      (.exhausted, { p with quota := some (q.meter (.ofNat len)).2 },
        [.consume (q.taken (.ofNat len)) false])) ∨
    ((q.meter (.ofNat len)).1 = .forward ∧ meterPeer d p len =
      (.forward, { p with quota := some (q.meter (.ofNat len)).2 },
        [.consume (.ofNat len) true])) := by
  rcases q.meter_cases
    (.ofNat len) with ⟨hb, hm⟩ | ⟨hst, hm⟩ | ⟨hb, hgt, h0, hm⟩ | ⟨hb, hle, h0, hm⟩
  · exact .inl ⟨hb, by simp [meterPeer, hs, hq, hm]⟩
  · exact .inr (.inl ⟨by rw [hm], by simp [meterPeer, hs, hq, hm]⟩)
  · exact .inr (.inl ⟨by rw [hm], by simp [meterPeer, hs, hq, hm]⟩)
  · have ht : q.taken (.ofNat len) = .ofNat len := by
      simp [BandwidthQuota.taken, UInt64.not_lt.mpr hle]
    exact .inr (.inr ⟨by rw [hm], by simp [meterPeer, hs, hq, hm, ht]⟩)

omit hs in
theorem Served.retunnel (h : Served g quotaBytes { p with tunnel } q ask r)
    (ht : tunnel.queued g.weight ≤ p.tunnel.queued g.weight) :
    Served g quotaBytes p q ask r where
  charge := h.charge
  flow h0 := le_trans (h.flow h0) (Nat.add_le_add_right ht _)

omit hs in
theorem blocked_served (hq : p.quota = some q) (hb : q.blocked = true) :
    Served g quotaBytes p q (.meter len) (p, []) :=
  ⟨⟨q, hq, .blocked hb⟩, fun _ => by simp⟩

omit hs in
theorem refused_served (h : (q.meter (.ofNat len)).1 = .exhausted) :
    Served g quotaBytes p q (.meter len) ({ p with quota := some (q.meter (.ofNat len)).2 },
      [.consume (q.taken (.ofNat len)) false]) :=
  ⟨⟨_, rfl, .refused h⟩, fun _ => by simp [Effect.weight, Effect.allowed]⟩

omit hs in
theorem reported_served (h : (q.meter (.ofNat len)).1 = .exhausted) :
    Served g quotaBytes p q (.meter len)
      (let r := sendPaymentRequired d env { p with quota := some (q.meter (.ofNat len)).2 }
       (r.1, [.consume (q.taken (.ofNat len)) false] ++ r.2)) :=
  sendPaymentRequired_sends.served rfl (by simp [Effect.weight]) rfl
    (by simpa [payments_cons] using Charge.reported h)

-- ---------------------------------------------------------------------------
-- Handlers
-- ---------------------------------------------------------------------------

omit hs in
/-- What a payment signal asks: its addresses choose the handler, and the
role of the node is not among them. -/
def signalAsk (d : PaymentState) (packet : Bytes) : Ask :=
  match extractSignalPayload packet, dstIpv4 packet, srcIpv4 packet with
  | some payload, some dst, some src =>
    if dst = paymentGatewayIp then .submit
    else if src = paymentGatewayIp ∧ d.paymentWallet.isSome ∧
        (PaymentRequired.decode payload).isSome then .sign
    else .nothing
  | _, _, _ => .nothing

/-- What a packet from the network asks of a peer. -/
def inboundAsk (d : PaymentState) (p : Peer) (packet : Packet) : Ask :=
  match (p.tunnel.handleVerifiedPacket packet).2 with
  | .writeToTunnelV4 packet src =>
    if isPaymentSignal packet then signalAsk d packet
    else if p.isAllowedIp (.v4 src) then .meter packet.length
    else .nothing
  | .writeToTunnelV6 packet src =>
    if p.isAllowedIp (.v6 src) then .meter packet.length else .nothing
  | _ => .nothing

omit hs in
theorem nothing_served (hq : p.quota = some q) : Served g quotaBytes p q .nothing (p, []) :=
  ⟨⟨q, hq, .nothing⟩, fun _ => by simp⟩

omit hs in
theorem forwarded_served (h : (q.meter (.ofNat len)).1 = .forward) (hl : len < 2 ^ 64)
    (he : eff.isPayment = false) (hw : eff.weight g = g.rate * len) :
    Served g quotaBytes p q (.meter len) ({ p with quota := some (q.meter (.ofNat len)).2 },
      [.consume (.ofNat len) true] ++ [eff]) := by
  have hn : (UInt64.ofNat len).toNat = len := UInt64.toNat_ofNat_of_lt' hl
  have ha : eff.allowed = 0 := by cases eff <;> first | rfl | cases he
  refine ⟨⟨_, rfl, ?_⟩, fun _ => ?_⟩
  · have hp : payments ([.consume (.ofNat len) true] ++ [eff]) = [.consume (.ofNat len) true] := by
      simp only [payments_append, payments_cons, he]
      rfl
    rw [hp]
    exact .forwarded h
  · simp only [emitted_append, allowed_append, emitted_cons, allowed_cons, hw, ha]
    simp [Effect.weight, Effect.allowed, hn]

theorem inboundV4_served (hq : p.quota = some q) (hl : packet.length < 65536) :
    Served g d.paymentConfig.quotaBytes p q
      (if isPaymentSignal packet then signalAsk d packet
        else if p.isAllowedIp (.v4 src) then .meter packet.length
        else .nothing)
      (let r := inboundV4 prim d env p packet src
       (r.1, r.2.1)) := by
  unfold inboundV4
  split
  · rcases hx : extractSignalPayload packet with _ | payload
    · simpa only [signalAsk, hx] using nothing_served hq
    rcases hd : dstIpv4 packet with _ | dst
    · simpa only [signalAsk, hx, hd] using nothing_served hq
    rcases hsrc : srcIpv4 packet with _ | src
    · simpa only [signalAsk, hx, hd, hsrc] using nothing_served hq
    simp only [signalAsk, hx, hd, hsrc]
    by_cases hdst : dst = paymentGatewayIp
    · simpa only [hdst, if_true] using handlePaymentSubmit_served hq
    · by_cases hgw : src = paymentGatewayIp
      · simpa only [hdst, hgw, if_true, if_false, true_and] using
          handlePaymentSignalClient_served hq
      · simpa only [hdst, hgw, if_false, false_and] using nothing_served hq
  · split
    · rcases meterPeer_cases hs hq packet.length with ⟨hb, hm⟩ | ⟨hx, hm⟩ | ⟨hf, hm⟩
      · rw [hm]
        exact blocked_served hq hb
      · rw [hm]
        exact reported_served hx
      · rw [hm]
        exact forwarded_served hf (by omega) rfl rfl
    · exact nothing_served hq

theorem inboundV6_served (hq : p.quota = some q) (hl : packet.length < 65576) :
    Served g d.paymentConfig.quotaBytes p q
      (if p.isAllowedIp (.v6 src) then .meter packet.length else .nothing)
      (let r := inboundV6 d p packet src
       (r.1, r.2.1)) := by
  unfold inboundV6
  split
  · rcases meterPeer_cases hs hq packet.length with ⟨hb, hm⟩ | ⟨hx, hm⟩ | ⟨hf, hm⟩
    · rw [hm]
      exact blocked_served hq hb
    · rw [hm]
      exact refused_served hx
    · rw [hm]
      exact forwarded_served hf (by omega) rfl rfl
  · exact nothing_served hq

theorem inbound_served (prim : Primitives) (env : Env) (hq : p.quota = some q) (packet : Packet) :
    Served g d.paymentConfig.quotaBytes p q (inboundAsk d p packet)
      (let r := inbound prim d env p packet
       (r.1, r.2.1)) := by
  have hqueued := p.tunnel.handleVerifiedPacket_queued (w := g.weight) packet
  have hweight := p.tunnel.handleVerifiedPacket_weight g.keepalive packet
  obtain ⟨tunnel, r, he⟩ : ∃ tunnel r, p.tunnel.handleVerifiedPacket packet = (tunnel, r) :=
    ⟨_, _, rfl⟩
  simp only [inbound, inboundAsk, he] at hqueued hweight ⊢
  cases r with
  | done => exact (nothing_served (p := { p with tunnel }) hq).retunnel hqueued.le
  | err e => exact (nothing_served (p := { p with tunnel }) hq).retunnel hqueued.le
  | writeToNetwork datagram =>
    have hflush := Tunn.flush_flow (w := g.weight) (show handshakeInitSz ≤ maxUdpSize by decide)
      (tunnel.packetQueue.length + 1) tunnel
    simp only [TunnResult.weight] at hweight
    refine ⟨⟨q, hq, by simpa [payments_cons] using Charge.nothing⟩,
      fun _ => ?_⟩
    simp only [emitted_cons, emitted_network, Effect.weight, hweight, Tunn.flushQueue]
    omega
  | writeToTunnelV4 packet' src =>
    obtain ⟨inner, hv⟩ := Tunn.handleVerifiedPacket_tunnel (congrArg Prod.snd he)
      (.inl ⟨_, _, rfl⟩)
    exact (inboundV4_served hs (p := { p with tunnel }) hq (Tunn.validate_v4_length hv)).retunnel
      hqueued.le
  | writeToTunnelV6 packet' src =>
    obtain ⟨inner, hv⟩ := Tunn.handleVerifiedPacket_tunnel (congrArg Prod.snd he)
      (.inr ⟨_, _, rfl⟩)
    exact (inboundV6_served hs (p := { p with tunnel }) hq (Tunn.validate_v6_length hv)).retunnel
      hqueued.le

theorem udpHandler_served (hq : p.quota = some q) (packet : Packet) :
    Served g d.paymentConfig.quotaBytes p q (inboundAsk d p packet)
      (udpHandler prim d env p addr packet) := by
  have h := inbound_served (g := g) hs prim env hq packet
  unfold udpHandler
  split
  · rename_i he
    simpa [he] using h
  · rename_i he
    simp only [he] at h
    exact ⟨h.charge, h.flow⟩

theorem connHandler_served (hq : p.quota = some q) (packet : Packet) :
    Served g d.paymentConfig.quotaBytes p q (inboundAsk d p packet)
      (connHandler prim d env p packet) := inbound_served hs prim env hq packet

theorem ifaceHandler_served (hq : p.quota = some q) (hl : src.length ≤ maxUdpSize) :
    Served g d.paymentConfig.quotaBytes p q (.meter src.length) (ifaceHandler d env p src) := by
  unfold ifaceHandler
  rcases meterPeer_cases hs hq src.length with ⟨hb, hm⟩ | ⟨hx, hm⟩ | ⟨hf, hm⟩
  · rw [hm]
    exact blocked_served hq hb
  · rw [hm]
    simp only
    split
    · exact reported_served hx
    · exact refused_served hx
  · rw [hm]
    have hflow := p.tunnel.encapsulate_flow (w := g.weight) ⟨src, .interface⟩ maxUdpSize
    have hsrc := g.interface src
    have h64 : src.length < 2 ^ 64 := by simp only [maxUdpSize] at hl; omega
    have hn : (UInt64.ofNat src.length).toNat = src.length := UInt64.toNat_ofNat_of_lt' h64
    simp only
    split
    · rename_i tunnel datagram he
      simp only [he, TunnResult.weight] at hflow
      refine ⟨⟨_, rfl, ?_⟩, fun _ => ?_⟩
      · split <;> simpa [payments_cons] using Charge.forwarded hf
      · split <;> simp [Effect.weight, Effect.allowed, hn] <;> omega
    · rename_i tunnel r hr he
      simp only [he] at hflow
      refine ⟨⟨_, rfl, by simpa [payments_cons] using Charge.forwarded hf⟩,
        fun _ => ?_⟩
      simp only [emitted_cons, allowed_cons, Effect.weight, Effect.allowed, hn, emitted_nil,
        allowed_nil, Nat.add_zero]
      omega

omit hs in
theorem timerHandler_served (hq : p.quota = some q) (outcome : Tunn.TimerOutcome) :
    Served g quotaBytes p q .nothing (timerHandler p outcome) := by
  have hflow := p.tunnel.updateTimers_flow maxUdpSize g.keepalive outcome
  unfold timerHandler
  split
  · split
    · rename_i tunnel datagram he
      simp only [he, TunnResult.weight] at hflow
      refine ⟨⟨q, hq, by simpa [payments_cons] using Charge.nothing⟩,
        fun _ => ?_⟩
      simpa [Effect.weight, Effect.allowed] using hflow
    · rename_i tunnel r hr he
      simp only [he] at hflow
      exact (nothing_served (p := { p with tunnel }) hq).retunnel
        (le_trans (Nat.le_add_right ..) hflow)
  · exact nothing_served hq

end

end Xelt.Boringtun
