import Xelt.Boringtun.Device.Steps

/-!
# Who a device signs for

A request to pay names its chain, its token and its deadline, and the device
that answers it knows the price of a quota. The handler decodes the request and
compares none of this: it signs whatever it can decode.

Nor does the dispatch of payment signals ask the role of the node, only the
addresses of the packet. A server therefore signs a transfer, and sends it to
its peer, exactly when a peer sends it the packet a server would send.
-/

namespace Xelt.Boringtun

open Noise Payment Runs Bytes Tagged

/-- A payment submit among the packets the device makes itself. -/
def InnerPacket.isSubmit (packet : InnerPacket) : Prop :=
  packet.source = .signal ∧
    ((extractSignalPayload packet.bytes).bind PaymentSubmit.decode).isSome = true

instance (packet : InnerPacket) : Decidable (InnerPacket.isSubmit packet) := by
  unfold InnerPacket.isSubmit; infer_instance

namespace Effect

def Signs (e : Effect) : Prop := ∃ digest, e = .signDigest digest

/-- A payment submit of the device left the tunnel. -/
def EmitsSubmit : Effect → Prop
  | .network (.data _ inner) | .noEndpoint (.data _ inner) => InnerPacket.isSubmit inner
  | _ => False

end Effect

-- ---------------------------------------------------------------------------
-- One request
-- ---------------------------------------------------------------------------

/-- A request the configuration of the device bounds: for its chain and token,
in time, and for no more than the price of a quota. -/
structure Bounded (d : PaymentState) (env : Env) (req : PaymentRequired) : Prop where
  chain : req.chainId = d.paymentConfig.chainId
  token : req.usdcContract = d.paymentConfig.usdcContract
  deadline : env.now ≤ req.deadline
  amount : req.amountUsdc ≤ d.paymentConfig.amountPerQuota

def answerAuth (env : Env) (wallet : PaymentWallet) (req : PaymentRequired) :
    TransferAuthorization where
  fromAddr := wallet.ethereumAddress
  toAddr := req.recipient
  value := req.amountUsdc
  validAfter := 0
  validBefore := env.now + 345600
  nonce := req.nonce

def answerDigest (prim : Primitives) (d : PaymentState) (env : Env) (wallet : PaymentWallet)
    (req : PaymentRequired) : Bytes32 :=
  computeEip712Digest prim d.paymentConfig.gatewayDomain (answerAuth env wallet req)

def answer (prim : Primitives) (d : PaymentState) (env : Env) (wallet : PaymentWallet)
    (req : PaymentRequired) : PaymentSubmit where
  fromAddr := wallet.ethereumAddress
  toAddr := req.recipient
  value := req.amountUsdc
  validAfter := 0
  validBefore := env.now + 345600
  nonce := req.nonce
  v := (prim.signDigest wallet (answerDigest prim d env wallet req)).1
  r := (prim.signDigest wallet (answerDigest prim d env wallet req)).2.1
  s := (prim.signDigest wallet (answerDigest prim d env wallet req)).2.2

theorem submit_of_build (submit : PaymentSubmit) (src dst : Ipv4Addr)
    (h : 28 + submit.encode.length ≤ 65535) :
    (extractSignalPayload (buildSignalPacket src dst submit.encode h)).bind PaymentSubmit.decode =
      some submit := by
  have hdecode := decode_encode_submit submit []
  rw [List.append_nil] at hdecode
  rw [extract_build, Option.bind_some, hdecode]

section
variable {prim : Primitives} {d : PaymentState} {env : Env} {p : Peer}

theorem handlePaymentSignalClient_answers (hw : d.paymentWallet = some wallet)
    (hr : PaymentRequired.decode payload = some req) (hip : p.firstAllowedV4 = some clientIp) :
    handlePaymentSignalClient prim d env p payload =
      (let sent := sendSignal p (buildSignalPacket clientIp paymentGatewayIp
        (answer prim d env wallet req).encode (by simp))
       (sent.1, .signDigest (answerDigest prim d env wallet req) :: sent.2)) := by
  obtain ⟨rest, rfl⟩ := required_kind hr
  simp only [handlePaymentSignalClient, hr, hw, if_true, hip]
  rfl

theorem handlePaymentSignalClient_signs :
    (∃ e ∈ (handlePaymentSignalClient prim d env p payload).2, e.Signs) ↔
      d.paymentWallet.isSome ∧ (PaymentRequired.decode payload).isSome := by
  constructor
  · rintro ⟨e, he, -⟩
    by_contra h
    rw [handlePaymentSignalClient_quiet h] at he
    cases he
  · rintro ⟨hw, hr⟩
    obtain ⟨digest, b, hs⟩ : ∃ digest b, Sends .zero p [.signDigest digest] (Gauge.zero.weight b)
        (handlePaymentSignalClient prim d env p payload) :=
      let ⟨digest, b, hs⟩ := handlePaymentSignalClient_sends hw hr
      ⟨digest, _, hs⟩
    have hmem : .signDigest digest ∈ payments
      (handlePaymentSignalClient prim d env p payload).2 := by
      rw [hs.payments]
      exact List.mem_singleton_self _
    exact ⟨_, (sign_mem_payments _).mp hmem, digest, rfl⟩

/-- What is signed is sent when there is an address to send it from and a
session to send it over. -/
theorem handlePaymentSignalClient_emits :
    (∃ e ∈ (handlePaymentSignalClient prim d env p payload).2, e.EmitsSubmit) ↔
      (d.paymentWallet.isSome ∧ (PaymentRequired.decode payload).isSome) ∧
        p.firstAllowedV4.isSome ∧ p.tunnel.currentSession.isSome := by
  by_cases h : d.paymentWallet.isSome ∧ (PaymentRequired.decode payload).isSome
  · obtain ⟨wallet, hw⟩ := Option.isSome_iff_exists.mp h.1
    obtain ⟨req, hr⟩ := Option.isSome_iff_exists.mp h.2
    cases hip : p.firstAllowedV4 with
    | none =>
      obtain ⟨rest, rfl⟩ := required_kind hr
      simp [handlePaymentSignalClient, hr, hw, hip, Effect.EmitsSubmit]
    | some clientIp =>
      rw [handlePaymentSignalClient_answers hw hr hip]
      cases hsession : p.tunnel.currentSession with
      | none =>
        refine iff_of_false ?_ (by simp)
        rintro ⟨e, he, hemits⟩
        rcases List.mem_cons.mp he with rfl | he
        · exact hemits
        · rw [sendSignal_none hsession e he] at hemits
          exact hemits
      | some session =>
        rw [sendSignal_session hsession]
        refine iff_of_true ⟨_, List.mem_cons_of_mem _ (List.mem_singleton_self _), rfl, ?_⟩
          ⟨h, rfl, rfl⟩
        rw [submit_of_build]
        rfl
  · simp [handlePaymentSignalClient_quiet h, h]

/-- A payload is answered within the bounds of the device exactly when the
request in it keeps them by itself, or cannot be answered: for the signature
when there is no wallet, for the packet also when there is no IPv4 address to
send it from or no session. -/
theorem signs_bounded_iff (prim : Primitives) (d : PaymentState) (env : Env) (p : Peer)
    (payload : Bytes) :
    (((∃ e ∈ (handlePaymentSignalClient prim d env p payload).2, e.Signs) →
        ∀ req, PaymentRequired.decode payload = some req → Bounded d env req) ↔
      (d.paymentWallet.isSome →
        ∀ req, PaymentRequired.decode payload = some req → Bounded d env req)) ∧
    (((∃ e ∈ (handlePaymentSignalClient prim d env p payload).2, e.EmitsSubmit) →
        ∀ req, PaymentRequired.decode payload = some req → Bounded d env req) ↔
      (d.paymentWallet.isSome → p.firstAllowedV4.isSome → p.tunnel.currentSession.isSome →
        ∀ req, PaymentRequired.decode payload = some req → Bounded d env req)) := by
  rw [handlePaymentSignalClient_signs, handlePaymentSignalClient_emits]
  constructor
  · constructor
    · intro h hw req hr
      exact h ⟨hw, by simp [hr]⟩ req hr
    · intro h hs req hr
      exact h hs.1 req hr
  · constructor
    · intro h hw hip hsession req hr
      exact h ⟨⟨hw, by simp [hr]⟩, hip, hsession⟩ req hr
    · intro h hs req hr
      exact h hs.1.1 hs.2.1 hs.2.2 req hr

end

def sampleClient : PaymentState where
  paymentConfig := { sampleConfig.toPaymentConfig with isServer := false }
  paymentWallet := some sampleWallet
  settlementClient := false

/-- The server, as the client holds it, with a current session. -/
def sampleServerPeer : Peer :=
  { samplePeer with tunnel := Tunn.new.storeSession ⟨256, 1⟩, endpointAddr := some 2 }

/-- A request on another chain, for another token, overdue since 1970, and for
a hundred times the price of a quota. -/
def sampleUnbounded : PaymentRequired where
  amountUsdc := 1000000
  nonce := beArray 32 9
  recipient := beArray 20 0xbad
  deadline := 0
  chainId := 1
  usdcContract := beArray 20 0xbad

/-- The client signs it and sends the submit. -/
theorem signs_unbounded :
    let sent := (handlePaymentSignalClient samplePrimitives sampleClient sampleEnv
      sampleServerPeer sampleUnbounded.encode).2
    (∃ e ∈ sent, e.Signs) ∧ (∃ e ∈ sent, e.EmitsSubmit) ∧
      ∃ req, PaymentRequired.decode sampleUnbounded.encode = some req ∧
        req.chainId ≠ sampleClient.paymentConfig.chainId ∧
        req.usdcContract ≠ sampleClient.paymentConfig.usdcContract ∧
        req.deadline < sampleEnv.now ∧
        sampleClient.paymentConfig.amountPerQuota < req.amountUsdc ∧
        ¬ Bounded sampleClient sampleEnv req := by
  have hr : PaymentRequired.decode sampleUnbounded.encode = some sampleUnbounded := by
    have h := decode_encode_required sampleUnbounded []
    rwa [List.append_nil] at h
  have hw : sampleClient.paymentWallet.isSome ∧
      (PaymentRequired.decode sampleUnbounded.encode).isSome := ⟨rfl, by rw [hr]; rfl⟩
  refine ⟨handlePaymentSignalClient_signs.mpr hw,
    handlePaymentSignalClient_emits.mpr ⟨hw, rfl, by decide⟩, sampleUnbounded, hr,
      by decide, by decide,
    by decide, by decide, fun hb => absurd hb.chain (by decide)⟩

-- ---------------------------------------------------------------------------
-- The runs of a server
-- ---------------------------------------------------------------------------

theorem submit_decode_tlv (h : kind ≠ msgPaymentSubmit) :
    PaymentSubmit.decode (tlv kind body) = none := by
  rw [PaymentSubmit.decode, body?_tlv_ne h, Option.map_none]

def submitGauge : Gauge where
  weight packet := if InnerPacket.isSubmit packet then 1 else 0
  rate := 0
  keepalive := rfl
  required src dst m h := by
    simp [InnerPacket.isSubmit, extract_build, PaymentRequired.encode,
      submit_decode_tlv (show msgPaymentRequired ≠ msgPaymentSubmit by decide)]
  accepted src dst m h := by
    simp [InnerPacket.isSubmit, extract_build, PaymentAccepted.encode,
      submit_decode_tlv (show msgPaymentAccepted ≠ msgPaymentSubmit by decide)]
  interface src := by simp [InnerPacket.isSubmit]

theorem weight_submitGauge {e : Effect} (h : e.weight submitGauge = 0) : ¬ e.EmitsSubmit := by
  cases e with
  | network datagram | noEndpoint datagram =>
    cases datagram <;>
      simp_all [Effect.weight, Datagram.weight, Effect.EmitsSubmit, submitGauge]
  | _ => simp [Effect.EmitsSubmit]

theorem Charge.sign_iff (h : Charge quotaBytes q ask q' pays) :
    (∃ digest, .signDigest digest ∈ pays) ↔ ask = .sign := by
  cases h <;> simp

namespace Device

variable {prim : Primitives} {d : Device}

/-- An event brings a peer a packet the client handler signs: a payment
signal from the gateway address, to another one, that holds a payment
request, while the device has a wallet. -/
def AsksToSign (d : Device) (e : Event) : Prop := ∃ pid, d.ask pid e = some .sign

def NoSubmit (d : Device) : Prop :=
  ∀ pid p, d.heap pid = some p → p.tunnel.queued submitGauge.weight = 0

/-- A step of a server that is not asked to sign signs nothing, sends no
submit, and queues none. -/
theorem step_unsigned (hd : d.Metered) (hn : d.NoSubmit) (ha : ¬ d.AsksToSign e)
    (h : d.step prim e = some d') :
    d'.NoSubmit ∧ ∀ x ∈ d.effects prim e, ¬ x.2.Signs ∧ ¬ x.2.EmitsSubmit := by
  suffices hpid : ∀ pid,
      (∀ p, d'.heap pid = some p → p.tunnel.queued submitGauge.weight = 0) ∧
      ∀ eff ∈ select pid (d.effects prim e), ¬ eff.Signs ∧ ¬ eff.EmitsSubmit from
    ⟨fun pid => (hpid pid).1, fun x hx => (hpid x.1).2 x.2 (mem_select.mpr hx)⟩
  intro pid
  have hpeer := step_peer (g := submitGauge) hd h pid
  have hask : d.ask pid e ≠ some .sign := fun hs => ha ⟨pid, hs⟩
  have hp := hn pid
  generalize d.ask pid e = a at hpeer hask
  generalize d.heap pid = p at *
  generalize d'.heap pid = p' at *
  generalize select pid (d.effects prim e) = effs at *
  cases hpeer with
  | absent => simp
  | added hq ht => simp [ht]
  | idle hq ht =>
    simp only [Option.some.injEq, forall_eq', ht, hp _ rfl, List.not_mem_nil, false_implies,
      implies_true, and_self]
  | served hq hs =>
    rename_i p q a p'
    have hne : a ≠ .sign := fun h => hask (by rw [h])
    have hflow := hs.flow fun h => absurd h hne
    have hrate : submitGauge.rate = 0 := rfl
    simp only [hp _ rfl, hrate, Nat.zero_mul, Nat.add_zero, Nat.le_zero, Nat.add_eq_zero_iff]
      at hflow
    obtain ⟨q', hq', hcharge⟩ := hs.charge
    refine ⟨by rintro _ ⟨⟩; exact hflow.1, fun eff heff => ⟨?_, ?_⟩⟩
    · rintro ⟨digest, rfl⟩
      exact hne (hcharge.sign_iff.mp ⟨digest, (sign_mem_payments _).mpr heff⟩)
    · have hsum : (effs.map (·.weight submitGauge)).sum = 0 := hflow.2
      exact weight_submitGauge
        (List.sum_eq_zero_iff_forall_eq_nat.mp hsum _ (List.mem_map_of_mem heff))

theorem signs_of_asked (prim : Primitives) (hd : d.Metered) (ha : d.AsksToSign e) :
    ∃ x ∈ d.effects prim e, x.2.Signs := by
  obtain ⟨pid, ha⟩ := ha
  obtain ⟨d', hs⟩ := step_of_ask prim ha
  obtain ⟨_, _, _, _, -, -, -, -, hcharge⟩ := step_charge hd hs ha
  obtain ⟨digest, hmem⟩ := hcharge.sign_iff.mpr rfl
  rw [sign_mem_payments, mem_select] at hmem
  exact ⟨_, hmem, digest, rfl⟩

/-- In a run of a server its wallet signs nothing and it sends no payment
submit, exactly when no peer ever brings it a payment request from the
gateway address. -/
theorem never_signs_iff (config : ServerConfig) (nextIndex : IndexLfsr) (es : List Event) :
    (∀ x ∈ trace (step prim) (effects prim) (start config nextIndex) es,
        ¬ x.2.Signs ∧ ¬ x.2.EmitsSubmit) ↔
      Along (step prim) (fun d e => ¬ d.AsksToSign e) (start config nextIndex) es := by
  rw [forall_trace]
  have hstart : (start config nextIndex).Metered ∧ (start config nextIndex).NoSubmit :=
    ⟨start_metered config nextIndex, fun pid p hp => by cases hp⟩
  constructor
  · refine Along.mono (I := Metered) (fun d e d' hd _ => step_metered hd) ?_ hstart.1
    intro d e hd hx ha
    obtain ⟨x, hmem, hsigns⟩ := signs_of_asked prim hd ha
    exact (hx x hmem).1 hsigns
  · refine Along.mono (I := fun d => d.Metered ∧ d.NoSubmit) ?_ ?_ hstart
    · intro d e d' hd ha hs
      exact ⟨step_metered hd.1 hs, (step_unsigned hd.1 hd.2 ha hs).1⟩
    · intro d e hd ha x hx
      obtain ⟨d', hs⟩ := step_of_effect hx
      exact (step_unsigned hd.1 hd.2 ha hs).2 x hx

/-- A payment request of the peer's own, in the packet a server would send. -/
def sampleRequired : PaymentRequired where
  amountUsdc := 1000000
  nonce := beArray 32 9
  recipient := beArray 20 0xbad
  deadline := 1700000300
  chainId := 5042002
  usdcContract := beArray 20 0x3600000000000000000000000000000000000000

def sampleRequest : Bytes :=
  buildSignalPacket paymentGatewayIp (.new 10 0 0 1) sampleRequired.encode (by simp)

def sampleHandshake : Packet := .handshakeInit (some samplePeerKey) (.ok ⟨257, 1⟩)

/-- The sample peer with the session of its handshake. -/
def samplePeerConnected : Peer :=
  { samplePeer with
    tunnel := { Tunn.new.storeSession ⟨257, 1⟩ with handshake := .none }
    endpointAddr := some 1 }

/-- The server gets its key and a peer; the peer opens a session and sends
its request. -/
def sampleAttack : List Event :=
  [.setKey sampleKey, addSamplePeer, .udp sampleEnv 1 sampleHandshake,
    .udp sampleEnv 1 (.data 257 (.ok sampleRequest))]

def sampleConnected (prim : Primitives) : Device :=
  { sampleServer prim with
    heap := Function.update (sampleServer prim).heap 0 (some samplePeerConnected) }

theorem sampleHandshake_step (prim : Primitives) :
    (sampleServer prim).step prim (.udp sampleEnv 1 sampleHandshake) =
      some (sampleConnected prim) := by
  have hfind : (sampleServer prim).findPeer sampleHandshake = some 0 := rfl
  have hheap : (sampleServer prim).heap 0 = some samplePeer := rfl
  simp only [step, call, hfind, Option.map_some, handle, hheap]
  rfl

theorem sampleRequest_asks (prim : Primitives) :
    signalAsk (sampleServer prim).toPaymentState sampleRequest = .sign := by
  have hdecode := decode_encode_required sampleRequired []
  rw [List.append_nil] at hdecode
  have hsrc : srcIpv4 sampleRequest = some paymentGatewayIp := by decide +kernel
  have hdst : (Ipv4Addr.new 10 0 0 1) ≠ paymentGatewayIp := by decide
  have hwallet : (sampleServer prim).paymentWallet = some (prim.fromWireguardKey sampleKey) := rfl
  have hx : extractSignalPayload sampleRequest = some sampleRequired.encode := extract_build _
  have hd : dstIpv4 sampleRequest = some (.new 10 0 0 1) := dstIpv4_build _
  simp [signalAsk, hx, hd, hsrc, hdst, hwallet, hdecode]

theorem sampleRequest_verified :
    (samplePeerConnected.tunnel.handleVerifiedPacket (.data 257 (.ok sampleRequest))).2 =
      .writeToTunnelV4 sampleRequest paymentGatewayIp := by decide +kernel

theorem sampleConnected_asked (prim : Primitives) :
    (sampleConnected prim).ask 0 (.udp sampleEnv 1 (.data 257 (.ok sampleRequest))) =
      some .sign := by
  have hheap : (sampleConnected prim).heap 0 = some samplePeerConnected := rfl
  have hfind : (sampleConnected prim).findPeer (.data 257 (.ok sampleRequest)) = some 0 := rfl
  have hsignal : isPaymentSignal sampleRequest = true := by decide +kernel
  have hasks : signalAsk (sampleConnected prim).toPaymentState sampleRequest = .sign :=
    sampleRequest_asks prim
  simp only [ask, hheap, Option.bind_some, hfind, if_true, inboundAsk, sampleRequest_verified,
    hsignal, hasks]

/-- Whatever the keys are, the server signs the request. -/
theorem server_signs : ¬ ∃ prim : Primitives,
    ∀ x ∈ trace (step prim) (effects prim) (start sampleConfig sampleIndex) sampleAttack,
      ¬ x.2.Signs ∧ ¬ x.2.EmitsSubmit := by
  rintro ⟨prim, h⟩
  rw [forall_trace] at h
  have hlast := (((h.2 _ (sampleKeyed_step prim)).2 _ (sampleServer_step prim)).2 _
    (sampleHandshake_step prim)).1
  have hmetered := step_metered (sampleServer_metered prim) (sampleHandshake_step prim)
  obtain ⟨x, hx, hsigns⟩ := signs_of_asked prim hmetered
    ⟨0, sampleConnected_asked prim⟩
  exact (hlast x hx).1 hsigns

end Device

end Xelt.Boringtun
