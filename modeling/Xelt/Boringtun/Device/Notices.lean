import Xelt.Boringtun.Device.Blocking
import Xelt.Boringtun.Device.Signing
import Xelt.Boringtun.Device.Submits

/-!
# Told before blocked

A blocked peer gets none of its packets, so it should have been asked to pay
when it was blocked. The IPv4 handlers do ask, and the interface handler asks a
peer it knows an endpoint of; a packet that empties the quota on another way
blocks the peer and says nothing.
-/

namespace Xelt.Boringtun

open Noise Payment Runs Latch Tagged Bytes

/-- A payment request among the packets the device makes itself. -/
def InnerPacket.isRequired (packet : InnerPacket) : Prop :=
  packet.source = .signal ∧
    ((extractSignalPayload packet.bytes).bind PaymentRequired.decode).isSome = true

def Effect.EmitsRequired : Effect → Prop
  | .network (.data _ inner) | .noEndpoint (.data _ inner) => InnerPacket.isRequired inner
  | _ => False

open Effect

theorem isRequired_request (d : PaymentState) (env : Env) (wallet : PaymentWallet)
    (peerIp : Ipv4Addr) : InnerPacket.isRequired ⟨requestPacket d env wallet peerIp, .signal⟩ := by
  have hdecode := decode_encode_required (requiredOf d env wallet) []
  rw [List.append_nil] at hdecode
  refine ⟨rfl, ?_⟩
  rw [requestPacket, extract_build, Option.bind_some, hdecode]
  rfl

section
variable {prim : Primitives} {d : PaymentState} {env : Env} {p : Peer}

/-- What a peer needs to be asked: an address of its own, and a session. -/
structure Askable (d : PaymentState) (p : Peer) : Prop where
  wallet : d.paymentWallet.isSome
  address : p.firstAllowedV4.isSome
  session : p.tunnel.currentSession.isSome

theorem sendPaymentRequired_emits (env : Env) (h : Askable d p) :
    ∃ e ∈ (sendPaymentRequired d env p).2, e.EmitsRequired := by
  obtain ⟨wallet, hw⟩ := Option.isSome_iff_exists.mp h.wallet
  obtain ⟨peerIp, hip⟩ := Option.isSome_iff_exists.mp h.address
  obtain ⟨session, hsession⟩ := Option.isSome_iff_exists.mp h.session
  rw [sendPaymentRequired_sent hw hip, sendSignal_session hsession]
  exact ⟨_, List.mem_cons_of_mem _ (List.mem_singleton_self _),
    isRequired_request d env wallet peerIp⟩

end

theorem Noise.Tunn.setCurrentSession_isSome {t : Tunn} (h : t.sessions (slot idx) = some session) :
    (t.setCurrentSession idx).currentSession.isSome := by
  unfold setCurrentSession
  split
  · rename_i hcur
    simp [currentSession, hcur, h]
  · split
    · simp [currentSession, h]
    · rename_i hno
      rw [not_or] at hno
      exact Option.isSome_iff_ne_none.mpr hno.1

theorem Noise.Tunn.currentSession_opened {t : Tunn}
    (h : (t.handleVerifiedPacket packet).2 = .writeToTunnelV4 opened src) :
    (t.handleVerifiedPacket packet).1.currentSession.isSome := by
  cases packet with
  | handshakeInit peer session => cases session <;> cases h
  | handshakeResponse idx session => cases session <;> cases h
  | cookieReply idx accepted => cases accepted <;> cases h
  | data idx opened =>
    simp only [handleVerifiedPacket] at h ⊢
    cases hs : t.sessions (slot idx.toNat) with
    | none => simp [hs] at h
    | some session =>
      simp only [hs] at h ⊢
      split at h
      · cases h
      · rename_i hidx
        cases opened with
        | error e => cases h
        | ok b =>
          simp only [if_neg hidx]
          exact setCurrentSession_isSome hs

theorem Charge.blocked_cases (h : Charge quotaBytes q ask q' pays) (hb : q'.blocked = true) :
    (∀ bytes, .credit bytes ∉ pays) ∧ (q.blocked = true ∨
      ∃ len, ask = .meter len ∧ (q.meter (.ofNat len)).1 = .exhausted ∧ ¬ q.Stuck) := by
  cases h with
  | nothing => exact ⟨by simp, .inl hb⟩
  | dropped => exact ⟨by simp, .inl hb⟩
  | rejected nonce => exact ⟨by simp, .inl hb⟩
  | credited nonce => cases hb
  | signed digest => exact ⟨by simp, .inl hb⟩
  | blocked hblocked => exact ⟨by simp, .inl hblocked⟩
  | forwarded hm =>
    have hsame := BandwidthQuota.meter_blocked_of_ne_exhausted (q := q) (by rw [hm]; simp)
    exact ⟨by simp, .inl (hsame ▸ hb)⟩
  | @refused len hm =>
    exact ⟨by simp, .inr ⟨len, rfl, hm, (BandwidthQuota.meter_exhausted_blocked hm).mp hb⟩⟩
  | @reported len hm =>
    exact ⟨by simp, .inr ⟨len, rfl, hm, (BandwidthQuota.meter_exhausted_blocked hm).mp hb⟩⟩

theorem Charge.blocks (h : Charge quotaBytes q (.meter len) q' pays)
    (hx : (q.meter (.ofNat len)).1 = .exhausted) (hst : ¬ q.Stuck) : q'.blocked = true := by
  have hblocked := (BandwidthQuota.meter_exhausted_blocked hx).mpr hst
  cases h with
  | blocked hb => exact hb
  | forwarded hm =>
    rw [hm] at hx
    cases hx
  | refused hm => exact hblocked
  | reported hm => exact hblocked

section
variable {prim : Primitives} {d : PaymentState} {p : Peer}

theorem signalAsk_ne_meter : signalAsk d packet ≠ .meter len := by
  unfold signalAsk
  split
  · split
    · simp
    · split <;> simp
  · simp

theorem meterPeer_exhausted (hs : d.paymentConfig.isServer = true) (hq : p.quota = some q)
    (hx : (q.meter (.ofNat len)).1 = .exhausted) :
    meterPeer d p len = (.exhausted, { p with quota := some (q.meter (.ofNat len)).2 },
      [.consume (q.taken (.ofNat len)) false]) := by
  rcases meterPeer_cases hs hq len with ⟨hb, -⟩ | ⟨-, hm⟩ | ⟨hf, -⟩
  · rw [BandwidthQuota.not_blocked_of_exhausted hx] at hb
    cases hb
  · exact hm
  · rw [hx] at hf
    cases hf

theorem inbound_exhausted_emits (prim : Primitives) (env : Env)
    (hs : d.paymentConfig.isServer = true) (hq : p.quota = some q)
    (ha : inboundAsk d p packet = .meter len)
    (h6 : ∀ b src, (p.tunnel.handleVerifiedPacket packet).2 ≠ .writeToTunnelV6 b src)
    (hx : (q.meter (.ofNat len)).1 = .exhausted) (hk : Askable d p) :
    ∃ e ∈ (inbound prim d env p packet).2.1, e.EmitsRequired := by
  have hopened (inner src) (h : (p.tunnel.handleVerifiedPacket packet).2 =
      .writeToTunnelV4 inner src) := Noise.Tunn.currentSession_opened h
  obtain ⟨tunnel, r, he⟩ : ∃ tunnel r, p.tunnel.handleVerifiedPacket packet = (tunnel, r) :=
    ⟨_, _, rfl⟩
  simp only [inboundAsk, he] at ha h6 hopened
  cases r with
  | done => cases ha
  | err e => cases ha
  | writeToNetwork datagram => cases ha
  | writeToTunnelV6 inner src => exact absurd rfl (h6 inner src)
  | writeToTunnelV4 inner src =>
    simp only at ha
    split at ha
    · exact absurd ha signalAsk_ne_meter
    · rename_i hsignal
      split at ha
      · rename_i hallowed
        cases ha
        have hallowed : ({ p with tunnel } : Peer).isAllowedIp (.v4 src) = true := hallowed
        have hm := meterPeer_exhausted (p := { p with tunnel }) hs hq hx
        obtain ⟨e, hmem, hemits⟩ := sendPaymentRequired_emits (d := d) env
          (p := { p with tunnel, quota := some (q.meter (.ofNat inner.length)).2 })
          ⟨hk.wallet, hk.address, hopened _ _ rfl⟩
        simp only [inbound, he, inboundV4, hsignal, hallowed, if_true, hm]
        exact ⟨e, List.mem_append_right _ hmem, hemits⟩
      · cases ha

theorem ifaceHandler_exhausted_emits (env : Env) (hs : d.paymentConfig.isServer = true)
    (hq : p.quota = some q) (hep : p.endpointAddr.isSome)
    (hx : (q.meter (.ofNat src.length)).1 = .exhausted) (hk : Askable d p) :
    ∃ e ∈ (ifaceHandler d env p src).2, e.EmitsRequired := by
  obtain ⟨e, hmem, hemits⟩ := sendPaymentRequired_emits (d := d) env
    (p := { p with quota := some (q.meter (.ofNat src.length)).2 })
    ⟨hk.wallet, hk.address, hk.session⟩
  simp only [ifaceHandler, meterPeer_exhausted hs hq hx, hep, if_true]
  exact ⟨e, List.mem_append_right _ hmem, hemits⟩

/-- An IPv6 packet that exhausts it is not. -/
theorem inbound_v6_exhausted (prim : Primitives) (env : Env)
    (hs : d.paymentConfig.isServer = true) (hq : p.quota = some q)
    (ha : inboundAsk d p packet = .meter len)
    (h6 : ∃ b src, (p.tunnel.handleVerifiedPacket packet).2 = .writeToTunnelV6 b src)
    (hx : (q.meter (.ofNat len)).1 = .exhausted) :
    ∃ taken, (inbound prim d env p packet).2.1 = [.consume taken false] := by
  obtain ⟨b, src, h6⟩ := h6
  obtain ⟨tunnel, r, he⟩ : ∃ tunnel r, p.tunnel.handleVerifiedPacket packet = (tunnel, r) :=
    ⟨_, _, rfl⟩
  simp only [inboundAsk, he] at ha h6
  subst h6
  simp only at ha
  split at ha
  · rename_i hallowed
    cases ha
    have hallowed : ({ p with tunnel } : Peer).isAllowedIp (.v6 src) = true := hallowed
    have hm := meterPeer_exhausted (p := { p with tunnel }) hs hq hx
    refine ⟨q.taken (.ofNat b.length), ?_⟩
    simp only [inbound, he, inboundV6, hallowed, if_true, hm]
  · cases ha

theorem udpHandler_effects (prim : Primitives) (d : PaymentState) (env : Env) (p : Peer)
    (addr : SocketAddr) (packet : Packet) :
    (udpHandler prim d env p addr packet).2 = (inbound prim d env p packet).2.1 := by
  unfold udpHandler
  split
  all_goals
    rename_i heq
    rw [heq]

end

namespace Device

variable {prim : Primitives} {d : Device}

/-- An event brings a packet that overshoots what is left of a quota. -/
def Blocks (pid : PeerId) (d : Device) (e : Event) : Prop :=
  ∃ len p q, d.ask pid e = some (.meter len) ∧ d.heap pid = some p ∧ p.quota = some q ∧
    (q.meter (.ofNat len)).1 = .exhausted ∧ ¬ q.Stuck

/-- The packet of an event takes a way on which nobody is asked: an IPv6
packet from the network, or one to a peer without an endpoint. -/
def Unasked (pid : PeerId) (d : Device) (e : Event) : Prop :=
  ∃ p, d.heap pid = some p ∧ match e with
    | .udp _ _ packet | .conn _ _ packet =>
      ∃ b src, (p.tunnel.handleVerifiedPacket packet).2 = .writeToTunnelV6 b src
    | .iface .. => p.endpointAddr = none
    | _ => False

def AskableOn (pid : PeerId) (d : Device) (e : Event) : Prop :=
  Blocks pid d e → ∀ p, d.heap pid = some p → Askable d.toPaymentState p

def Told (pid : PeerId) (d : Device) (log : List Effect) : Prop :=
  ∀ p q, d.heap pid = some p → p.quota = some q → q.blocked = true →
    Pending EmitsRequired Credits log

theorem select_call (hc : d.call prim e = some (pid, f)) (hp : d.heap pid = some p) :
    select pid (d.effects prim e) = (f p).2 := by
  simp [effects, hc, hp, select_self]

/-- A packet is metered on its way from the network or from the interface. -/
theorem metered_cases (prim : Primitives) (hask : d.ask pid e = some (.meter len))
    (hp : d.heap pid = some p) :
    (∃ env packet, inboundAsk d.toPaymentState p packet = .meter len ∧
      select pid (d.effects prim e) = (inbound prim d.toPaymentState env p packet).2.1 ∧
      (Unasked pid d e ↔
        ∃ b src, (p.tunnel.handleVerifiedPacket packet).2 = .writeToTunnelV6 b src)) ∨
    (∃ env src, len = src.length ∧
      select pid (d.effects prim e) = (ifaceHandler d.toPaymentState env p src).2 ∧
      (Unasked pid d e ↔ p.endpointAddr = none)) := by
  simp only [ask, hp, Option.bind_some] at hask
  cases e with
  | udp env addr packet =>
    simp only at hask
    split at hask
    · rename_i hfind
      have hc : d.call prim (.udp env addr packet) = some (pid, fun p =>
        udpHandler prim d.toPaymentState env p addr packet) := by simp [call, hfind]
      refine .inl ⟨env, packet, Option.some.inj hask, ?_, by simp [Unasked, hp]⟩
      rw [select_call hc hp, udpHandler_effects]
    · cases hask
  | conn env target packet =>
    simp only at hask
    split at hask
    · rename_i htarget
      subst htarget
      refine .inl ⟨env, packet, Option.some.inj hask, ?_, by simp [Unasked, hp]⟩
      rw [select_call rfl hp]
      rfl
    · cases hask
  | iface env src =>
    simp only at hask
    split at hask
    · rename_i hfind
      cases hask
      have hc : d.call prim (.iface env src) = some (pid, fun p =>
        ifaceHandler d.toPaymentState env p src) := by simp [call, hfind.1, hfind.2]
      exact .inr ⟨env, src, rfl, select_call hc hp, by simp [Unasked, hp]⟩
    · cases hask
  | timer target outcome =>
    simp only at hask
    split at hask <;> cases hask
  | setKey privateKey => cases hask
  | updatePeer pubKey remove endpoint allowedIps => cases hask
  | clearPeers => cases hask

theorem step_emits (prim : Primitives) (hd : d.Metered) (hb : Blocks pid d e)
    (hu : ¬ Unasked pid d e)
    (hk : AskableOn pid d e) : ∃ x ∈ select pid (d.effects prim e), x.EmitsRequired := by
  have hpeer := hk hb
  obtain ⟨len, p, q, hask, hp, hq, hx, -⟩ := hb
  rcases metered_cases prim hask hp with
    ⟨env, packet, hin, heff, hunasked⟩ | ⟨env, src, rfl, heff, hunasked⟩
  · rw [heff]
    exact inbound_exhausted_emits prim env hd.server hq hin
      (fun b src h => hu (hunasked.mpr ⟨b, src, h⟩)) hx (hpeer p hp)
  · have hep : p.endpointAddr.isSome :=
      Option.isSome_iff_ne_none.mpr fun hnone => hu (hunasked.mpr hnone)
    rw [heff]
    exact ifaceHandler_exhausted_emits env hd.server hq hep hx (hpeer p hp)

theorem step_told (hd : d.Metered) (hi : Told pid d past)
    (hk : AskableOn pid d e) (hc : Blocks pid d e → ¬ Unasked pid d e)
    (h : d.step prim e = some d') : Told pid d' (past ++ select pid (d.effects prim e)) := by
  intro p' q' hp' hq' hb'
  have hpeer := step_peer (g := .zero) hd h pid
  have hemits (hb : Blocks pid d e) := step_emits prim hd hb (hc hb) hk
  unfold Blocks at hemits
  unfold Told at hi
  rw [hp'] at hpeer
  generalize d.ask pid e = a at hpeer hemits
  generalize d.heap pid = p at hpeer hi hemits
  generalize select pid (d.effects prim e) = effs at hpeer hemits ⊢
  cases hpeer with
  | added hnew ht =>
    obtain rfl := Option.some.inj (hnew.symm.trans hq')
    cases hb'
  | idle hsame ht =>
    rw [List.append_nil]
    exact hi _ _ rfl (hsame ▸ hq') hb'
  | served hq hs =>
    rename_i q p a
    obtain ⟨q₁, hq₁, hcharge⟩ := hs.charge
    obtain rfl := Option.some.inj (hq₁.symm.trans hq')
    obtain ⟨hcredit, hcase⟩ := hcharge.blocked_cases hb'
    have hcredit : ∀ x ∈ effs, ¬ Credits x := by
      rintro x hx ⟨bytes, rfl⟩
      exact hcredit bytes (by simpa [payments] using hx)
    rcases hcase with hb | ⟨len, rfl, hx, hst⟩
    · obtain ⟨l, x, r, rfl, hsets, hr⟩ := hi _ _ rfl hq hb
      refine ⟨l, x, r ++ effs, by simp, hsets, fun y hy => ?_⟩
      exact (List.mem_append.mp hy).elim (hr y) (hcredit y)
    · obtain ⟨x, hmem, hx⟩ := hemits ⟨len, p, q, rfl, rfl, hq, hx, hst⟩
      obtain ⟨l, r, rfl⟩ := List.append_of_mem hmem
      exact ⟨past ++ l, x, r, by simp, hx, fun y hy => hcredit y (by simp [hy])⟩

/-- In a run of a server that can ask the peer when it is blocked, a peer is
never blocked without having been asked to pay since its last credit, or since
it was made, as long as no packet blocks it on a way on which nobody is asked. -/
theorem blocked_told (config : ServerConfig) (nextIndex : IndexLfsr) (es : List Event)
    (hk : Along (step prim) (AskableOn pid) (start config nextIndex) es)
    (hc : Along (step prim) (fun d e => Blocks pid d e → ¬ Unasked pid d e)
      (start config nextIndex) es)
    (he : exec (step prim) (start config nextIndex) es = some d) :
    Told pid d ((start config nextIndex).log prim pid es) := by
  have h := invariant_trace (I := fun d past => d.Metered ∧ Told pid d (select pid past))
    (effects prim) []
    (fun d e d' past hi hc hs => ⟨step_metered hi.1 hs, by
      rw [select_append]
      exact step_told hi.1 hi.2 hc.1 hc.2 hs⟩)
    ⟨start_metered config nextIndex, fun p q hp => by cases hp⟩ (hk.and hc) he
  exact h.2

theorem step_unasked (prim : Primitives) (hd : d.Metered) (hb : Blocks pid d e)
    (hu : Unasked pid d e) :
    ∃ taken, select pid (d.effects prim e) = [.consume taken false] := by
  obtain ⟨len, p, q, hask, hp, hq, hx, -⟩ := hb
  rcases metered_cases prim hask hp with
    ⟨env, packet, hin, heff, hunasked⟩ | ⟨env, src, rfl, heff, hunasked⟩
  · rw [heff]
    exact inbound_v6_exhausted prim env hd.server hq hin (hunasked.mp hu) hx
  · refine ⟨q.taken (.ofNat src.length), ?_⟩
    rw [heff]
    simp [ifaceHandler, meterPeer_exhausted hd.server hq hx, hunasked.mp hu]

theorem step_blocks (hd : d.Metered) (hb : Blocks pid d e) (h : d.step prim e = some d') :
    ∃ p q, d'.heap pid = some p ∧ p.quota = some q ∧ q.blocked = true := by
  obtain ⟨len, p, q, hask, hp, hq, hx, hst⟩ := hb
  obtain ⟨p₀, q₀, p', q', hp₀, hq₀, hp', hq', hcharge⟩ := step_charge hd h hask
  obtain rfl := Option.some.inj (hp₀.symm.trans hp)
  obtain rfl := Option.some.inj (hq₀.symm.trans hq)
  exact ⟨p', q', hp', hq', hcharge.blocks hx hst⟩

theorem step_untold (hd : d.Metered) (hb : Blocks pid d e) (hu : Unasked pid d e)
    (h : d.step prim e = some d') (hpast : ¬ Pending EmitsRequired Credits past) :
    ¬ Told pid d' (past ++ select pid (d.effects prim e)) := by
  obtain ⟨taken, heff⟩ := step_unasked prim hd hb hu
  obtain ⟨p, q, hp, hq, hblocked⟩ := step_blocks hd hb h
  intro ht
  rw [heff] at ht
  rcases pending_concat.mp (ht p q hp hq hblocked) with hreq | ⟨hpend, -⟩
  · exact hreq
  · exact hpast hpend

-- ---------------------------------------------------------------------------
-- A sample peer with two addresses
-- ---------------------------------------------------------------------------

def sampleAddr6 : Ipv6Addr := BitVec.ofNat 128 0xfd000000000000000000000000000002

def sampleDualIps : List AllowedIP := [⟨.v4 sampleAddr, 32⟩, ⟨.v6 sampleAddr6, 128⟩]

/-- The tunnel after the first handshake and the first packet of the peer. -/
def sampleTunnel : Tunn :=
  { Tunn.new.storeSession ⟨257, 1⟩ with handshake := .none, current := 257 }

/-- The sample peer, allowed an IPv4 and an IPv6 address. -/
def sampleDualPeer (tunnel : Tunn) (endpoint : Option SocketAddr) (q : BandwidthQuota) : Peer :=
  { samplePeer with
    tunnel := tunnel
    endpointAddr := endpoint
    allowedIps := .ofList sampleDualIps ()
    quota := some q }

def sampleDual (tunnel : Tunn) (endpoint : Option SocketAddr) (q : BandwidthQuota) : Device :=
  { sampleServer samplePrimitives with
    peersByIp := .ofList sampleDualIps 0
    heap := Function.update (fun _ => none) 0 (some (sampleDualPeer tunnel endpoint q)) }

theorem sampleDual_step (hc : (sampleDual t ep q).call samplePrimitives e = some (0, f))
    (hf : (f (sampleDualPeer t ep q)).1 = sampleDualPeer t' ep' q') :
    (sampleDual t ep q).step samplePrimitives e = some (sampleDual t' ep' q') := by
  rw [step_of_call hc]
  simp [handle, sampleDual, hf]

/-- The server gets its key and the peer, who opens a session. -/
def sampleOpening : List Event :=
  [.setKey sampleKey, .updatePeer samplePeerKey false none sampleDualIps,
    .udp sampleEnv 1 sampleHandshake, .udp sampleEnv 1 (.data 257 (.ok []))]

theorem sampleDual_added :
    (sampleKeyed samplePrimitives).step samplePrimitives
        (.updatePeer samplePeerKey false none sampleDualIps) =
      some (sampleDual .new none (.new defaultQuotaBytes)) := by
  have hnext : (sampleKeyed samplePrimitives).nextIndex.next = _ := sampleIndex_next
  have hnone : (sampleKeyed samplePrimitives).peers.lookup samplePeerKey = none := rfl
  have hkey : (sampleKeyed samplePrimitives).keyPair =
      some (sampleKey, samplePrimitives.x25519PublicKey sampleKey) := rfl
  simp only [step, updatePeer, hnext, hnone, hkey]
  rfl

theorem sampleDual_opened :
    (sampleDual .new none (.new defaultQuotaBytes)).step samplePrimitives
        (.udp sampleEnv 1 sampleHandshake) =
      some (sampleDual { sampleTunnel with current := 0 } (some 1) (.new defaultQuotaBytes)) :=
  sampleDual_step rfl rfl

theorem sampleDual_current :
    (sampleDual { sampleTunnel with current := 0 } (some 1) (.new defaultQuotaBytes)).step
        samplePrimitives (.udp sampleEnv 1 (.data 257 (.ok []))) =
      some (sampleDual sampleTunnel (some 1) (.new defaultQuotaBytes)) :=
  sampleDual_step rfl rfl

theorem not_blocks (h : ∀ len, d.ask pid e ≠ some (.meter len)) : ¬ Blocks pid d e := by
  rintro ⟨len, p, q, hask, -⟩
  exact h len hask

theorem sampleOpening_run :
    exec (step samplePrimitives) (start sampleConfig sampleIndex) sampleOpening =
        some (sampleDual sampleTunnel (some 1) (.new defaultQuotaBytes)) ∧
      Along (step samplePrimitives) (fun d e => ¬ Blocks 0 d e) (start sampleConfig sampleIndex)
        sampleOpening ∧
      ∀ x ∈ (start sampleConfig sampleIndex).log samplePrimitives 0 sampleOpening,
        ¬ x.EmitsRequired := by
  refine ⟨(exec_cons_some _).mpr ⟨_, sampleKeyed_step _, (exec_cons_some _).mpr
    ⟨_, sampleDual_added, (exec_cons_some _).mpr ⟨_, sampleDual_opened, (exec_cons_some _).mpr
      ⟨_, sampleDual_current, rfl⟩⟩⟩⟩, ?_, ?_⟩
  · refine .cons (not_blocks fun len => ?_) (sampleKeyed_step _) (.cons (not_blocks fun len => ?_)
      sampleDual_added (.cons (not_blocks fun len => ?_) sampleDual_opened
        (.cons (not_blocks fun len => ?_) sampleDual_current trivial)))
    · exact fun h => by cases h
    · exact fun h => by cases h
    · exact fun h => by cases h
    · exact fun h => by cases h
  · have hlog : (start sampleConfig sampleIndex).log samplePrimitives 0 sampleOpening =
        [.network .handshakeResponse] := by
      rw [log, sampleOpening, trace_cons_some (sampleKeyed_step _),
        trace_cons_some sampleDual_added, trace_cons_some sampleDual_opened,
        trace_cons_some sampleDual_current]
      rfl
    rw [hlog]
    intro x hx
    rw [List.mem_singleton.mp hx]
    exact id

/-- An IPv4 packet to the peer with `n` bytes of payload. -/
def sampleLong (n : Nat) : Bytes :=
  [0x45, 0] ++ beBytes 2 (20 + n) ++ [0, 0, 0x40, 0, 64, 17, 0, 0, 1, 1, 1, 1] ++
    sampleAddr.octets ++ List.replicate n 0

theorem length_sampleLong (n : Nat) : (sampleLong n).length = 20 + n := by
  simp [sampleLong, Ipv4Addr.octets]
  omega

theorem dstAddress_sampleLong (n : Nat) :
    Tunn.dstAddress (sampleLong n) = some (.v4 sampleAddr) := by
  have hlen := length_sampleLong n
  have h0 : (sampleLong n).length ≠ 0 := by omega
  have h4 : (sampleLong n).length ≥ ipv4MinHeaderSize := by simp only [ipv4MinHeaderSize]; omega
  have hversion : (sampleLong n).getD 0 0 >>> 4 = 4 := by
    have hfirst : (sampleLong n).getD 0 0 = 0x45 := by simp [sampleLong]
    rw [hfirst]
    decide
  have hdst : addrAt (sampleLong n) 16 = sampleAddr := by
    obtain ⟨t1, t2, ht⟩ := beBytes_two (20 + n)
    obtain ⟨s1, s2, s3, s4, hs⟩ := octets_eq sampleAddr
    have ha := addr_octets sampleAddr
    rw [hs] at ha
    simp [addrAt, sampleLong, ht, hs, ha]
  simp only [Tunn.dstAddress, h0, if_false, hversion, h4, and_self, if_true, hdst]

theorem sampleLong_call (t : Tunn) (ep : Option SocketAddr) (q : BandwidthQuota)
    (hn : 20 + n ≤ maxUdpSize) :
    (sampleDual t ep q).call samplePrimitives (.iface sampleEnv (sampleLong n)) =
      some (0, fun p =>
        ifaceHandler (sampleDual t ep q).toPaymentState sampleEnv p (sampleLong n)) := by
  have hfind : (AllowedIps.ofList sampleDualIps 0).find (.v4 sampleAddr) = some 0 := by
    decide +kernel
  have hfind : (sampleDual t ep q).peersByIp.find (.v4 sampleAddr) = some 0 := hfind
  simp only [call, length_sampleLong, hn, if_true, dstAddress_sampleLong, Option.bind_some, hfind,
    Option.map_some]

/-- The quota once `k` packets of `len` bytes were let through. -/
def spend (len : UInt64) : Nat → BandwidthQuota → BandwidthQuota
  | 0, q => q
  | k + 1, q => spend len k (q.meter len).2

/-- Packets the quota has room for are let through and used up. -/
theorem spend_forward (hlen : len ≠ 0) (hb : q.blocked = false)
    (hk : k * len.toNat ≤ q.remainingBytes.toNat) :
    (∀ i < k, ((spend len i q).meter len).1 = .forward) ∧
      spend len k q = { q with
        remainingBytes := q.remainingBytes - .ofNat k * len
        totalConsumed := q.totalConsumed + .ofNat k * len } := by
  induction k generalizing q with
  | zero => simp [spend]
  | succ k ih =>
    have hpos : 0 < len.toNat := Nat.pos_of_ne_zero fun h => hlen (UInt64.toNat_inj.mp h)
    rw [Nat.succ_mul] at hk
    have hle : len ≤ q.remainingBytes := UInt64.le_iff_toNat_le.mpr (by omega)
    have hsub : (q.remainingBytes - len).toNat = q.remainingBytes.toNat - len.toNat :=
      UInt64.toNat_sub_of_le _ _ hle
    have hne : q.remainingBytes ≠ 0 := by
      rintro h
      rw [h] at hk
      simp at hk
      omega
    have hm : q.meter len = (.forward, { q with
        remainingBytes := q.remainingBytes - len, totalConsumed := q.totalConsumed + len }) := by
      simp [BandwidthQuota.meter, BandwidthQuota.isBlocked, hb, BandwidthQuota.consume, hne,
        UInt64.not_lt.mpr hle]
    obtain ⟨hforward, hspend⟩ := ih (q := { q with
      remainingBytes := q.remainingBytes - len, totalConsumed := q.totalConsumed + len }) hb
      (by simp only [hsub]; omega)
    constructor
    · intro i hi
      cases i with
      | zero => rw [spend, hm]
      | succ i =>
        rw [spend, hm]
        exact hforward i (by omega)
    · rw [spend, hm, hspend]
      have hcast : UInt64.ofNat (k + 1) = UInt64.ofNat k + 1 := by simp
      rw [hcast]
      congr 1 <;> grind
theorem sampleLong_forward (h : (q.meter (.ofNat (20 + n))).1 = .forward) :
    ifaceHandler sampleState sampleEnv (sampleDualPeer sampleTunnel (some 1) q) (sampleLong n) =
      (sampleDualPeer sampleTunnel (some 1) (q.meter (.ofNat (20 + n))).2,
        [.consume (.ofNat (20 + n)) true,
          .network (.data ⟨257, 1⟩ ⟨sampleLong n, .interface⟩)]) := by
  have hsession : sampleTunnel.currentSession = some ⟨257, 1⟩ := by decide +kernel
  have hencap : (sampleDualPeer sampleTunnel (some 1) q).tunnel.encapsulate
      ⟨sampleLong n, .interface⟩ maxUdpSize =
      (sampleTunnel, .writeToNetwork (.data ⟨257, 1⟩ ⟨sampleLong n, .interface⟩)) := by
    simp [sampleDualPeer, Tunn.encapsulate, hsession]
  rcases meterPeer_cases (d := sampleState) (p := sampleDualPeer sampleTunnel (some 1) q) rfl rfl
    (20 + n) with ⟨hb, -⟩ | ⟨hx, -⟩ | ⟨-, hm⟩
  · simp [BandwidthQuota.meter, BandwidthQuota.isBlocked, hb] at h
  · rw [h] at hx
    cases hx
  · simp only [ifaceHandler, length_sampleLong, hm, hencap]
    rfl

/-- Packets that the quota lets through change nothing but the quota, and ask
nobody. -/
theorem sampleLong_run (hn : 20 + n ≤ maxUdpSize)
    (h : ∀ i < k, ((spend (.ofNat (20 + n)) i q).meter (.ofNat (20 + n))).1 = .forward) :
    let es := List.replicate k (.iface sampleEnv (sampleLong n))
    let d := sampleDual sampleTunnel (some 1) q
    exec (step samplePrimitives) d es =
        some (sampleDual sampleTunnel (some 1) (spend (.ofNat (20 + n)) k q)) ∧
      Along (step samplePrimitives) (fun d e => ¬ Blocks 0 d e) d es ∧
      ∀ x ∈ d.log samplePrimitives 0 es, ¬ x.EmitsRequired := by
  induction k generalizing q with
  | zero => exact ⟨rfl, trivial, fun x hx => by cases hx⟩
  | succ k ih =>
    have h0 : (q.meter (.ofNat (20 + n))).1 = .forward := h 0 (by omega)
    obtain ⟨he, ha, hlog⟩ := ih (q := (q.meter (.ofNat (20 + n))).2) fun i hi =>
      h (i + 1) (by omega)
    have hcall := sampleLong_call sampleTunnel (some 1) q hn
    have hstep : (sampleDual sampleTunnel (some 1) q).step samplePrimitives
        (.iface sampleEnv (sampleLong n)) =
        some (sampleDual sampleTunnel (some 1) (q.meter (.ofNat (20 + n))).2) :=
      sampleDual_step hcall (congrArg Prod.fst (sampleLong_forward h0))
    have heff : select 0 ((sampleDual sampleTunnel (some 1) q).effects samplePrimitives
        (.iface sampleEnv (sampleLong n))) = _ :=
      (select_call hcall rfl).trans (congrArg Prod.snd (sampleLong_forward h0))
    have hblocks : ¬ Blocks 0 (sampleDual sampleTunnel (some 1) q)
        (.iface sampleEnv (sampleLong n)) := by
      rintro ⟨len, p, q', hask, hp, hq, hx, -⟩
      obtain rfl := Option.some.inj hp
      obtain rfl := Option.some.inj hq
      simp only [ask, hp, Option.bind_some] at hask
      split at hask
      · cases hask
        rw [length_sampleLong, h0] at hx
        cases hx
      · cases hask
    rw [List.replicate_succ]
    refine ⟨(exec_cons_some _).mpr ⟨_, hstep, he⟩, .cons hblocks hstep ha, ?_⟩
    intro x hx
    rw [log, trace_cons_some hstep, select_append, heff] at hx
    rcases List.mem_append.mp hx with hx | hx
    · rcases List.mem_cons.mp hx with rfl | hx
      · exact id
      · rw [List.mem_singleton.mp hx]
        rintro ⟨hsource, -⟩
        cases hsource
    · exact hlog x hx

/-- What is left of the quota after 7710 packets of 1360 bytes. -/
def sampleRest : BandwidthQuota where
  remainingBytes := 160
  blocked := false
  totalConsumed := 10485600
  paymentCount := 0
  usedNonces := ∅

def sampleDrain : List Event :=
  sampleOpening ++ List.replicate 7710 (.iface sampleEnv (sampleLong 1340))

theorem sampleDrain_run :
    exec (step samplePrimitives) (start sampleConfig sampleIndex) sampleDrain =
        some (sampleDual sampleTunnel (some 1) sampleRest) ∧
      Along (step samplePrimitives) (fun d e => ¬ Blocks 0 d e) (start sampleConfig sampleIndex)
        sampleDrain ∧
      ∀ x ∈ (start sampleConfig sampleIndex).log samplePrimitives 0 sampleDrain,
        ¬ x.EmitsRequired := by
  have hlen : UInt64.ofNat (20 + 1340) ≠ 0 := by decide
  have hroom : 7710 * (UInt64.ofNat (20 + 1340)).toNat ≤
      (BandwidthQuota.new defaultQuotaBytes).remainingBytes.toNat := by decide
  obtain ⟨hforward, hspend⟩ := spend_forward hlen rfl hroom
  have hrest : spend (.ofNat (20 + 1340)) 7710 (.new defaultQuotaBytes) = sampleRest :=
    hspend.trans (by decide)
  obtain ⟨he, ha, hlog⟩ := sampleOpening_run
  obtain ⟨he', ha', hlog'⟩ := sampleLong_run (by decide) hforward
  rw [hrest] at he'
  refine ⟨(exec_append_some _).mpr ⟨_, he, he'⟩, along_append.mpr ⟨ha, fun t ht => ?_⟩, ?_⟩
  · obtain rfl := Option.some.inj (he.symm.trans ht)
    exact ha'
  · intro x hx
    rw [sampleDrain, log_append he] at hx
    exact (List.mem_append.mp hx).elim (hlog x) (hlog' x)

theorem sampleDual_askable : Askable sampleState (sampleDualPeer sampleTunnel (some 1) q) where
  wallet := rfl
  address := rfl
  session := by
    have h : sampleTunnel.currentSession.isSome := by decide +kernel
    exact h

theorem sampleDrain_askable (e : Event) :
    Along (step samplePrimitives) (AskableOn 0) (start sampleConfig sampleIndex)
      (sampleDrain ++ [e]) := by
  obtain ⟨he, ha, -⟩ := sampleDrain_run
  refine along_append.mpr ⟨ha.imp fun d e hn hb => absurd hb hn, fun t ht => ?_⟩
  obtain rfl := Option.some.inj (he.symm.trans ht)
  refine ⟨fun _ p hp => ?_, fun _ _ => trivial⟩
  obtain rfl := Option.some.inj hp
  exact sampleDual_askable

theorem sampleDrain_blocks (ha : (sampleDual sampleTunnel (some 1) sampleRest).ask 0 e =
    some (.meter len)) (hl : (sampleRest.meter (.ofNat len)).1 = .exhausted) :
    Blocks 0 (sampleDual sampleTunnel (some 1) sampleRest) e :=
  ⟨len, _, _, ha, rfl, rfl, hl, by decide⟩

/-- One more packet on the way that asks: the peer is blocked and told. -/
theorem blocked_told_sample :
    let es := sampleDrain ++ [.iface sampleEnv (sampleLong 1340)]
    ∃ d p q, exec (step samplePrimitives) (start sampleConfig sampleIndex) es = some d ∧
      d.heap 0 = some p ∧ p.quota = some q ∧ q.blocked = true ∧
      Pending EmitsRequired Credits
        ((start sampleConfig sampleIndex).log samplePrimitives 0 es) := by
  intro es
  obtain ⟨he, ha, -⟩ := sampleDrain_run
  have hask : (sampleDual sampleTunnel (some 1) sampleRest).ask 0
      (.iface sampleEnv (sampleLong 1340)) = some (.meter 1360) := by
    have hfind : (sampleDual sampleTunnel (some 1) sampleRest).peersByIp.find (.v4 sampleAddr) =
        some 0 := by decide +kernel
    have hheap : (sampleDual sampleTunnel (some 1) sampleRest).heap 0 = some _ := rfl
    simp only [ask, hheap, Option.bind_some, length_sampleLong, dstAddress_sampleLong, hfind,
      and_true]
    rfl
  obtain ⟨d, hs⟩ := step_of_ask samplePrimitives hask
  have hmetered : (sampleDual sampleTunnel (some 1) sampleRest).Metered :=
    invariant_run (fun _ _ _ => step_metered) (start_metered _ _) he
  obtain ⟨p, q, hp, hq, hblocked⟩ := step_blocks hmetered
    (sampleDrain_blocks hask (by decide)) hs
  have hlast : exec (step samplePrimitives) (start sampleConfig sampleIndex) es = some d :=
    (exec_append_some _).mpr ⟨_, he, (exec_cons_some _).mpr ⟨_, hs, rfl⟩⟩
  have hcond : Along (step samplePrimitives) (fun d e => Blocks 0 d e → ¬ Unasked 0 d e)
      (start sampleConfig sampleIndex) es := by
    refine along_append.mpr ⟨ha.imp fun d e hn hb => absurd hb hn, fun t ht => ?_⟩
    obtain rfl := Option.some.inj (he.symm.trans ht)
    refine ⟨fun _ hu => ?_, fun _ _ => trivial⟩
    obtain ⟨p, hp, hnone⟩ := hu
    obtain rfl := Option.some.inj hp
    cases hnone
  exact ⟨d, p, q, hlast, hp, hq, hblocked,
    blocked_told sampleConfig sampleIndex es (sampleDrain_askable _) hcond hlast p q hp hq hblocked⟩

def samplePacket6 : Bytes :=
  [0x60, 0, 0, 0, 0, 160, 59, 64] ++ beBytes 16 sampleAddr6.toNat ++ beBytes 16 1 ++
    List.replicate 160 0

/-- The same with an IPv6 packet of 200 bytes: the peer is blocked and not
told. -/
theorem blocked_untold :
    let es := sampleDrain ++ [.udp sampleEnv 1 (.data 257 (.ok samplePacket6))]
    Along (step samplePrimitives) (AskableOn 0) (start sampleConfig sampleIndex) es ∧
      ∃ d, exec (step samplePrimitives) (start sampleConfig sampleIndex) es = some d ∧
        ¬ Told 0 d ((start sampleConfig sampleIndex).log samplePrimitives 0 es) := by
  intro es
  obtain ⟨he, -, hlog⟩ := sampleDrain_run
  have hask : (sampleDual sampleTunnel (some 1) sampleRest).ask 0
      (.udp sampleEnv 1 (.data 257 (.ok samplePacket6))) = some (.meter 200) := by decide +kernel
  have hverified : (sampleTunnel.handleVerifiedPacket (.data 257 (.ok samplePacket6))).2 =
      .writeToTunnelV6 samplePacket6 sampleAddr6 := by decide +kernel
  obtain ⟨d, hs⟩ := step_of_ask samplePrimitives hask
  have hmetered : (sampleDual sampleTunnel (some 1) sampleRest).Metered :=
    invariant_run (fun _ _ _ => step_metered) (start_metered _ _) he
  refine ⟨sampleDrain_askable _, d, (exec_append_some _).mpr
    ⟨_, he, (exec_cons_some _).mpr ⟨_, hs, rfl⟩⟩, ?_⟩
  have hpast : ¬ Pending EmitsRequired Credits
      ((start sampleConfig sampleIndex).log samplePrimitives 0 sampleDrain) := by
    rintro ⟨l, x, r, h, hx, -⟩
    exact hlog x (by rw [h]; simp) hx
  have huntold := step_untold hmetered (sampleDrain_blocks hask (by decide))
    ⟨_, rfl, _, _, hverified⟩ hs hpast
  rwa [log_append he, log_single hs]

end Device

end Xelt.Boringtun
