import Xelt.Boringtun.Noise.Signals
import Xelt.Boringtun.Device.Signing
import Xelt.Boringtun.Device.Submits

/-!
# An honest payment round

The server asks, the client signs, the server credits. The request and the
answer go through both encoders, both decoders and the framing, and the digest
is computed on either side; the tunnel hands over the inner packets unchanged.
The client takes the request for a submit when the address it is sent to is the
gateway address itself, so that address is no tunnel address.
-/

namespace Xelt.Boringtun

open Noise Payment Bytes

def answerPacket (prim : Primitives) (d : PaymentState) (env : Env) (wallet : PaymentWallet)
    (clientIp : Ipv4Addr) (req : PaymentRequired) : Bytes :=
  buildSignalPacket clientIp paymentGatewayIp (answer prim d env wallet req).encode (by simp)

section
variable {prim : Primitives} {d : PaymentState} {env : Env} {p : Peer}

theorem inboundV4_request (hw : d.paymentWallet = some wallet)
    (hip : p.firstAllowedV4 = some clientIp) (hgw : peerIp ≠ paymentGatewayIp)
    (server : PaymentState) (serverEnv : Env) (serverWallet : PaymentWallet) :
    inboundV4 prim d env p (requestPacket server serverEnv serverWallet peerIp) paymentGatewayIp =
      (let req := requiredOf server serverEnv serverWallet
       let sent := sendSignal p (answerPacket prim d env wallet clientIp req)
       (sent.1, .signDigest (answerDigest prim d env wallet req) :: sent.2, .continue)) := by
  have hr : PaymentRequired.decode (requiredOf server serverEnv serverWallet).encode =
      some (requiredOf server serverEnv serverWallet) := by
    have h := decode_encode_required (requiredOf server serverEnv serverWallet) []
    rwa [List.append_nil] at h
  simp only [inboundV4, requestPacket, isPaymentSignal_build _ (.inl rfl), if_true, extract_build,
    dstIpv4_build, srcIpv4_build, hgw, if_false, handlePaymentSignalClient_answers hw hr hip]
  rfl

theorem inboundV4_answer (prim prim' : Primitives) (client : PaymentState) (clientEnv : Env)
    (wallet : PaymentWallet) (clientIp : Ipv4Addr) (req : PaymentRequired) :
    inboundV4 prim d env p (answerPacket prim' client clientEnv wallet clientIp req) clientIp =
      (let r := handlePaymentSubmit prim d env p
        (answer prim' client clientEnv wallet req).encode
       (r.1, r.2, .continue)) := by
  simp only [inboundV4, answerPacket, isPaymentSignal_build _ (.inr rfl), if_true, extract_build,
    dstIpv4_build, srcIpv4_build]

/-- The signature of a wallet on a digest is recovered to its address. -/
def Recovers (prim : Primitives) (wallet : PaymentWallet) (digest : Bytes32) : Prop :=
  prim.recoverAddress digest (prim.signDigest wallet digest).1 (prim.signDigest wallet digest).2.1
    (prim.signDigest wallet digest).2.2 = some wallet.ethereumAddress

variable {server client : PaymentState} {asking signing settling : Env}
  {serverWallet clientWallet : PaymentWallet} {asked paying serverPeer : Peer}

theorem answer_addressed (hw : server.paymentWallet = some serverWallet) :
    Addressed server (answer prim client signing clientWallet
      (requiredOf server asking serverWallet)) :=
  ⟨⟨serverWallet, hw, rfl⟩, UInt64.le_refl _⟩

theorem answer_payable
    (hdomain : server.paymentConfig.gatewayDomain = client.paymentConfig.gatewayDomain)
    (hset : server.settlementClient = false ∨ settling.settlement = .response true)
    (hrec : Recovers prim clientWallet (answerDigest prim client signing clientWallet req)) :
    Payable prim server settling (answer prim client signing clientWallet req) where
  signed := by
    have h := hrec
    rw [Recovers, answerDigest, ← hdomain] at h
    rw [verifyAuthorization, answer, answerDigest, ← hdomain]
    exact h
  settled := hset

/-- The request of a server reaches the client as it was built and is answered
by one signature and one packet; that packet reaches the server as it was
built, and if its nonce is fresh and it is settled, the quota is credited once
and the peer unblocked. -/
theorem honest_round (hsw : server.paymentWallet = some serverWallet)
    (hcw : client.paymentWallet = some clientWallet)
    (hdomain : server.paymentConfig.gatewayDomain = client.paymentConfig.gatewayDomain)
    (hpeer : asked.firstAllowedV4 = some peerIp) (hgw : peerIp ≠ paymentGatewayIp)
    (hclient : serverPeer.firstAllowedV4 = some clientIp)
    (hq : paying.quota = some q) (hfresh : asking.nonce ∉ q.usedNonces)
    (hset : server.settlementClient = false ∨ settling.settlement = .response true)
    (hrec : Recovers prim clientWallet (answerDigest prim client signing clientWallet
      (requiredOf server asking serverWallet))) :
    ∃ request submit digest,
      sendPaymentRequired server asking asked =
        ((sendSignal asked request).1, .paymentRequired :: (sendSignal asked request).2) ∧
      Tunn.validateDecapsulatedPacket request = .writeToTunnelV4 request paymentGatewayIp ∧
      inboundV4 prim client signing serverPeer request paymentGatewayIp =
        ((sendSignal serverPeer submit).1, .signDigest digest :: (sendSignal serverPeer submit).2,
          .continue) ∧
      Tunn.validateDecapsulatedPacket submit = .writeToTunnelV4 submit clientIp ∧
      payments (inboundV4 prim server settling paying submit clientIp).2.1 =
        [.credit server.paymentConfig.quotaBytes] ∧
      ∃ q', (inboundV4 prim server settling paying submit clientIp).1.quota = some q' ∧
        q'.blocked = false ∧
        q'.remainingBytes = q.remainingBytes + server.paymentConfig.quotaBytes ∧
        q'.paymentCount = q.paymentCount + 1 := by
  have hdecode : PaymentSubmit.decode (answer prim client signing clientWallet
      (requiredOf server asking serverWallet)).encode =
      some (answer prim client signing clientWallet (requiredOf server asking serverWallet)) := by
    have h := decode_encode_submit (answer prim client signing clientWallet
      (requiredOf server asking serverWallet)) []
    rwa [List.append_nil] at h
  obtain ⟨hquota, hpays⟩ := handlePaymentSubmit_credited hq hdecode (answer_addressed hsw) hfresh
    (answer_payable hdomain hset hrec)
  refine ⟨requestPacket server asking serverWallet peerIp,
    answerPacket prim client signing clientWallet clientIp (requiredOf server asking serverWallet),
    _, sendPaymentRequired_sent hsw hpeer, validate_build _,
    inboundV4_request hcw hclient hgw server asking serverWallet, validate_build _, ?_, ?_⟩
  · rw [inboundV4_answer]
    exact hpays
  · rw [inboundV4_answer]
    exact ⟨_, hquota, rfl, rfl, rfl⟩

end

/-- The client with the wallet of the sample payment. -/
def samplePaying : PaymentState := { sampleClient with paymentWallet := some samplePayer }

theorem sampleRound_recovers :
    Recovers payingPrimitives samplePayer (answerDigest payingPrimitives samplePaying sampleEnv
      samplePayer (requiredOf sampleState sampleEnv sampleWallet)) := by
  unfold Recovers
  decide +kernel

/-- The round of the sample payment; `sampleAddr` stands on both ends. -/
theorem honest_round_sample :
    ∃ request submit digest,
      sendPaymentRequired sampleState sampleEnv samplePeer =
        ((sendSignal samplePeer request).1, .paymentRequired :: (sendSignal samplePeer request).2) ∧
      inboundV4 payingPrimitives samplePaying sampleEnv sampleServerPeer request
          paymentGatewayIp =
        ((sendSignal sampleServerPeer submit).1,
          .signDigest digest :: (sendSignal sampleServerPeer submit).2, .continue) ∧
      payments (inboundV4 payingPrimitives sampleState sampleSettled samplePeer submit
        sampleAddr).2.1 = [.credit sampleConfig.quotaBytes] := by
  have hsw : sampleState.paymentWallet = some sampleWallet := rfl
  have hcw : samplePaying.paymentWallet = some samplePayer := rfl
  have hdomain : sampleState.paymentConfig.gatewayDomain =
      samplePaying.paymentConfig.gatewayDomain := rfl
  have hpeer : samplePeer.firstAllowedV4 = some sampleAddr := by decide
  have hclient : sampleServerPeer.firstAllowedV4 = some sampleAddr := by decide
  have hgw : sampleAddr ≠ paymentGatewayIp := by decide
  have hq : samplePeer.quota = some (.new defaultQuotaBytes) := rfl
  have hfresh : sampleEnv.nonce ∉ (BandwidthQuota.new defaultQuotaBytes).usedNonces := by
    simp [BandwidthQuota.new]
  have hset : sampleState.settlementClient = false ∨
      sampleSettled.settlement = .response true := .inr rfl
  obtain ⟨request, submit, digest, hasked, -, hsigned, -, hpays, -⟩ :=
    honest_round hsw hcw hdomain hpeer hgw hclient hq hfresh hset sampleRound_recovers
  exact ⟨request, submit, digest, hasked, hsigned, hpays⟩

/-- A peer whose tunnel address is that of the gateway. -/
def sampleGatewayPeer : Peer :=
  { samplePeer with allowedIps := .ofList [⟨.v4 paymentGatewayIp, 32⟩] () }

/-- The request to it is taken for a submit, and not answered. -/
theorem gateway_peer_unanswered :
    sampleGatewayPeer.firstAllowedV4 = some paymentGatewayIp ∧
      inboundV4 payingPrimitives samplePaying sampleEnv sampleServerPeer
        (requestPacket sampleState sampleEnv sampleWallet paymentGatewayIp) paymentGatewayIp =
      (sampleServerPeer, [], .continue) := by
  refine ⟨by decide, ?_⟩
  have hdecode : PaymentSubmit.decode
    (requiredOf sampleState sampleEnv sampleWallet).encode = none :=
    submit_decode_tlv (by decide)
  simp only [inboundV4, requestPacket, isPaymentSignal_build _ (.inl rfl), if_true, extract_build,
    dstIpv4_build, srcIpv4_build]
  rw [handlePaymentSubmit_ignored fun submit hs => by rw [hdecode] at hs; cases hs]

end Xelt.Boringtun
