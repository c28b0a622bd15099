import Xelt.Boringtun.Device.Peer
import Xelt.Boringtun.Payment.Eip3009

/-!
# The payment handlers

`send_payment_required`, `handle_payment_submit` and
`handle_payment_signal_client` of `device/mod.rs`. A handler gets the device
by its read lock and the peer by its mutex, so it is a function to the peer
it leaves and the effects it had, in order. Clock, nonce and the answer of
the settlement service come from outside.
-/

namespace Xelt.Boringtun

open Noise Payment

def maxPaymentPacketSize : Nat := 512

/-- The part of the device that packet handlers read. -/
structure PaymentState where
  paymentConfig : PaymentConfig
  paymentWallet : Option PaymentWallet
  /-- Whether a settlement client is configured. -/
  settlementClient : Bool

/-- The answer of the settlement service. -/
inductive Settlement
  | response (success : Bool)
  | error
  deriving DecidableEq, Repr

/-- What one handler call takes from its surroundings. -/
structure Env where
  now : UInt64
  nonce : Bytes32
  settlement : Settlement

inductive Effect
  | signDigest (digest : Bytes32)
  | settle (submit : PaymentSubmit)
  /-- `send_payment_required` was called. -/
  | paymentRequired
  | consume (taken : UInt64) (allowed : Bool)
  | credit (bytes : UInt64)
  /-- The tunnel wrote a datagram and it was sent. -/
  | network (datagram : Datagram)
  /-- The tunnel wrote a datagram for a peer without an endpoint. -/
  | noEndpoint (datagram : Datagram)
  | write4 (packet : Bytes)
  | write6 (packet : Bytes)
  deriving DecidableEq

/-- Encapsulate a signal packet and send what the tunnel writes. -/
def sendSignal (p : Peer) (ipPacket : Bytes) : Peer × List Effect :=
  match p.tunnel.encapsulate ⟨ipPacket, .signal⟩ maxPaymentPacketSize with
  | (tunnel, .writeToNetwork enc) => ({ p with tunnel }, [.network enc])
  | (tunnel, _) => ({ p with tunnel }, [])

theorem sendSignal_session {p : Peer} (h : p.tunnel.currentSession = some session) :
    sendSignal p b = (p, [.network (.data session ⟨b, .signal⟩)]) := by
  simp [sendSignal, Tunn.encapsulate, h]

theorem sendSignal_none {p : Peer} (h : p.tunnel.currentSession = none) :
    ∀ e ∈ (sendSignal p b).2, e = .network .handshakeInit := by
  simp only [sendSignal, Tunn.encapsulate, h, Tunn.formatHandshakeInitiation]
  intro e he
  split at he
  · rename_i tunnel enc henc
    split at henc
    · cases henc
    · split at henc
      · cases henc
      · cases henc
        exact List.mem_singleton.mp he
  · cases he

def sendPaymentRequired (d : PaymentState) (env : Env) (p : Peer) : Peer × List Effect :=
  match d.paymentWallet with
  | none => (p, [.paymentRequired])
  | some wallet =>
    match p.firstAllowedV4 with
    | none => (p, [.paymentRequired])
    | some peerIp =>
      let msg : PaymentRequired :=
        { amountUsdc := d.paymentConfig.amountPerQuota
          nonce := env.nonce
          recipient := wallet.ethereumAddress
          deadline := env.now + 300
          chainId := d.paymentConfig.chainId
          usdcContract := d.paymentConfig.usdcContract }
      let (p', effects) :=
        sendSignal p (buildSignalPacket paymentGatewayIp peerIp msg.encode (by simp))
      (p', .paymentRequired :: effects)

def requiredOf (d : PaymentState) (env : Env) (wallet : PaymentWallet) : PaymentRequired where
  amountUsdc := d.paymentConfig.amountPerQuota
  nonce := env.nonce
  recipient := wallet.ethereumAddress
  deadline := env.now + 300
  chainId := d.paymentConfig.chainId
  usdcContract := d.paymentConfig.usdcContract

def requestPacket (d : PaymentState) (env : Env) (wallet : PaymentWallet) (peerIp : Ipv4Addr) :
    Bytes :=
  buildSignalPacket paymentGatewayIp peerIp (requiredOf d env wallet).encode (by simp)

theorem sendPaymentRequired_sent {p : Peer} (hw : d.paymentWallet = some wallet)
    (hip : p.firstAllowedV4 = some peerIp) :
    sendPaymentRequired d env p =
      (let sent := sendSignal p (requestPacket d env wallet peerIp)
       (sent.1, .paymentRequired :: sent.2)) := by
  simp only [sendPaymentRequired, hw, hip]
  rfl

/-- The end of a credited submit: tell the peer its new quota. -/
def sendPaymentAccepted (d : PaymentState) (p : Peer) : Peer × List Effect :=
  match p.firstAllowedV4 with
  | none => (p, [])
  | some peerIp =>
    let accepted : PaymentAccepted := { newQuotaBytes := d.paymentConfig.quotaBytes }
    sendSignal p (buildSignalPacket paymentGatewayIp peerIp accepted.encode (by simp))

/-- Credit the quota, when the peer has one. -/
def creditPeer (d : PaymentState) (p : Peer) : Peer × List Effect :=
  match p.quota with
  | none => (p, [])
  | some quota =>
    ({ p with quota := some (quota.credit d.paymentConfig.quotaBytes) },
      [.credit d.paymentConfig.quotaBytes])

/-- The nonce replay check; it passes when the peer has no quota. -/
def recordNonce (p : Peer) (nonce : Bytes32) : Bool × Peer :=
  match p.quota with
  | none => (true, p)
  | some quota =>
    let (fresh, quota) := quota.checkAndRecordNonce nonce
    (fresh, { p with quota := some quota })

/-- The authorization a submit carries, with its signature. -/
def signedOf (submit : PaymentSubmit) : SignedAuthorization where
  auth :=
    { fromAddr := submit.fromAddr
      toAddr := submit.toAddr
      value := submit.value
      validAfter := submit.validAfter
      validBefore := submit.validBefore
      nonce := submit.nonce }
  v := submit.v
  r := submit.r
  s := submit.s

section
variable (prim : Primitives) (d : PaymentState) (env : Env)

def handlePaymentSubmit (p : Peer) (payload : Bytes) : Peer × List Effect :=
  match d.paymentWallet with
  | none => (p, [])
  | some wallet =>
    match PaymentSubmit.decode payload with
    | none => (p, [])
    | some submit =>
      if submit.toAddr ≠ wallet.ethereumAddress then (p, [])
      else if submit.value < d.paymentConfig.amountPerQuota then (p, [])
      else
        -- the nonce is used up before the signature is looked at
        let (fresh, p) := recordNonce p submit.nonce
        if !fresh then (p, [])
        else if verifyAuthorization prim d.paymentConfig.gatewayDomain (signedOf submit)
            ≠ some submit.fromAddr then (p, [])
        else if !d.settlementClient then
          let (p, credited) := creditPeer d p
          let (p, sent) := sendPaymentAccepted d p
          (p, credited ++ sent)
        else
          match env.settlement with
          | .response true =>
            let (p, credited) := creditPeer d p
            let (p, sent) := sendPaymentAccepted d p
            (p, .settle submit :: credited ++ sent)
          | .response false => (p, [.settle submit])
          | .error => (p, [.settle submit])

def handlePaymentSignalClient (p : Peer) (payload : Bytes) : Peer × List Effect :=
  match payload with
  | [] => (p, [])
  | kind :: _ =>
    if kind = msgPaymentRequired then
      match PaymentRequired.decode payload with
      | none => (p, [])
      | some req =>
        match d.paymentWallet with
        | none => (p, [])
        | some wallet =>
          let auth : TransferAuthorization :=
            { fromAddr := wallet.ethereumAddress
              toAddr := req.recipient
              value := req.amountUsdc
              validAfter := 0
              validBefore := env.now + 345600
              nonce := req.nonce }
          let digest := computeEip712Digest prim d.paymentConfig.gatewayDomain auth
          let (v, r, s) := prim.signDigest wallet digest
          let submit : PaymentSubmit :=
            { fromAddr := wallet.ethereumAddress
              toAddr := req.recipient
              value := req.amountUsdc
              validAfter := auth.validAfter
              validBefore := auth.validBefore
              nonce := req.nonce
              v, r, s }
          match p.firstAllowedV4 with
          | none => (p, [.signDigest digest])
          | some clientIp =>
            let (p, sent) :=
              sendSignal p (buildSignalPacket clientIp paymentGatewayIp submit.encode (by simp))
            (p, .signDigest digest :: sent)
    else (p, []) -- PaymentAccepted and unknown types are only logged

end

end Xelt.Boringtun
