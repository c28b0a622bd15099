import Xelt.Boringtun.Noise.Handshake

/-!
# Transcripts

What a handshake computes, apart from who computes it: a chaining key and a
hash, into which the parts of a message and the shared secrets are mixed. The
transcript of an initiation is a function of the message, the responder's
static key and two secrets; a response continues it with its ephemeral key,
two more secrets and the preshared key.

The functions of `noise/handshake.rs` are told here by these transcripts.
-/

namespace Xelt.Boringtun.Noise.Crypto

open Bytes

structure Transcript where
  chainingKey : Bytes32
  hash : Bytes32
  deriving DecidableEq

namespace Transcript

variable (p : Primitives)

def start (responderStatic : Bytes32) : Transcript :=
  ⟨initialChainKey, p.b2sHash initialChainHash responderStatic⟩

def mixHash (t : Transcript) (data : Bytes) : Transcript :=
  { t with hash := p.b2sHash t.hash data }

def mixSecret (t : Transcript) (secret : Bytes32) : Transcript :=
  { t with chainingKey := p.b2sHmac (p.b2sHmac t.chainingKey secret) [0x01] }

/-- The transcript of an initiation, from its parts and the secrets of the
ephemeral and the static key of the initiator with the responder's static key. -/
def initiation (responderStatic : Bytes32) (m : HandshakeInit) (es ss : Bytes32) : Transcript :=
  let t := ((start p responderStatic).mixHash p m.unencryptedEphemeral).mixSecret p
    m.unencryptedEphemeral
  let t := (t.mixSecret p es).mixHash p m.encryptedStatic
  (t.mixSecret p ss).mixHash p m.encryptedTimestamp

/-- Continued with the ephemeral key of a response and its secrets, up to the
preshared key. -/
def mixResponse (t : Transcript) (ephemeral ee se : Bytes32) : Transcript :=
  (((t.mixHash p ephemeral).mixSecret p ephemeral).mixSecret p ee).mixSecret p se

/-- The last step mixes the preshared key into both parts and yields the key
that seals the empty payload. -/
def mixPsk (t : Transcript) (psk : Option Bytes32) : Transcript × Bytes32 :=
  let temp := p.b2sHmac t.chainingKey (psk.getD (beArray 32 0))
  let chainingKey := p.b2sHmac temp [0x01]
  let temp2 := p.b2sHmac2 temp chainingKey [0x02]
  (⟨chainingKey, p.b2sHash t.hash temp2⟩, p.b2sHmac2 temp temp2 [0x03])

/-- The sending key of the initiator and the sending key of the responder. -/
def sessionKeys (t : Transcript) : Bytes32 × Bytes32 :=
  let temp1 := p.b2sHmac t.chainingKey []
  let temp2 := p.b2sHmac temp1 [0x01]
  (temp2, p.b2sHmac2 temp1 temp2 [0x02])

end Transcript

namespace Handshake

variable {p : Primitives} {h h' : Handshake}

-- ---------------------------------------------------------------------------
-- Initiations
-- ---------------------------------------------------------------------------

/-- What an initiation that was formatted leaves behind. -/
structure Initiated (p : Primitives) (h h' : Handshake) (ephemeral : Bytes32) (now : Nat)
    (m : HandshakeInit) : Prop where
  params : h'.params = h.params
  nextIndex : h'.nextIndex = incIndex h.nextIndex
  senderIdx : m.senderIdx = incIndex h.nextIndex
  unencryptedEphemeral : m.unencryptedEphemeral = p.publicKey ephemeral
  previous : h'.previous = h.state
  state : h'.state = .initSent
    { localIndex := incIndex h.nextIndex
      hash := (Transcript.initiation p h.params.peerStaticPublic m
        (p.diffieHellman ephemeral h.params.peerStaticPublic) h.params.staticShared).hash
      chainingKey := (Transcript.initiation p h.params.peerStaticPublic m
        (p.diffieHellman ephemeral h.params.peerStaticPublic) h.params.staticShared).chainingKey
      ephemeralPrivate := ephemeral
      timeSent := now }

theorem formatHandshakeInitiation_cases (p : Primitives) (h : Handshake) (dst : Nat)
    (ephemeral : Bytes32) (now : Nat) :
    h.formatHandshakeInitiation p dst ephemeral now = (h, .error .destinationBufferTooSmall) ∨
      ∃ h' m macs, h.formatHandshakeInitiation p dst ephemeral now = (h', .ok (m.fields ++ macs)) ∧
        macs.length = 32 ∧ Initiated p h h' ephemeral now m := by
  by_cases hdst : dst < handshakeInitSz
  · exact .inl (by rw [formatHandshakeInitiation, if_pos hdst])
  · right
    simp only [formatHandshakeInitiation, if_neg hdst, appendMac1AndMac2]
    exact ⟨_, _, _, rfl, by simp, rfl, rfl, rfl, rfl, rfl, rfl⟩

-- ---------------------------------------------------------------------------
-- Responses
-- ---------------------------------------------------------------------------

/-- The transcript and the key a responder computes for its response. -/
def writtenResponse (p : Primitives) (params : NoiseParams) (ephemeral : Bytes32)
    (request : HandshakeInit) (t : Transcript) : Transcript × Bytes32 :=
  (t.mixResponse p (p.publicKey ephemeral)
    (p.diffieHellman ephemeral request.unencryptedEphemeral)
    (p.diffieHellman ephemeral params.peerStaticPublic)).mixPsk p params.presharedKey

/-- What a response that was formatted says and the session it makes, for an
initiation with this transcript. -/
structure Responds (p : Primitives) (params : NoiseParams) (ephemeral : Bytes32)
    (request : HandshakeInit) (t : Transcript) (r : HandshakeResponse) (session : Session) :
    Prop where
  receiverIdx : r.receiverIdx = request.senderIdx
  unencryptedEphemeral : r.unencryptedEphemeral = p.publicKey ephemeral
  encryptedNothing : ∃ nothing : ByteArr 0, r.encryptedNothing =
    p.aeadChacha20Seal (writtenResponse p params ephemeral request t).2 0 nothing
      (writtenResponse p params ephemeral request t).1.hash
  session : session = .new r.senderIdx request.senderIdx
    ((writtenResponse p params ephemeral request t).1.sessionKeys p).1
    ((writtenResponse p params ephemeral request t).1.sessionKeys p).2

/-- The transcript a responder computes from an initiation. -/
def readTranscript (p : Primitives) (params : NoiseParams) (m : HandshakeInit) : Transcript :=
  .initiation p params.staticPublic m
    (p.diffieHellman params.staticPrivate m.unencryptedEphemeral) params.staticShared

/-- An initiation is refused, or its response fails for want of room, or it is
answered; the initiation in `state` moves to `previous` in the latter two. -/
theorem receiveHandshakeInitialization_cases (p : Primitives) (h : Handshake) (m : HandshakeInit)
    (dst : Nat) (ephemeral : Bytes32) :
    (∃ e, h.receiveHandshakeInitialization p m dst ephemeral = some (h, .error e)) ∨
    (∃ h' hash ck, h.receiveHandshakeInitialization p m dst ephemeral =
        some (h', .error .destinationBufferTooSmall) ∧ h'.params = h.params ∧
      h'.nextIndex = h.nextIndex ∧ h'.previous = h.state ∧
      h'.state = .initReceived hash ck m.unencryptedEphemeral m.senderIdx) ∨
    ∃ h' r macs session, h.receiveHandshakeInitialization p m dst ephemeral =
        some (h', .ok (HandshakeResponse.fields r ++ macs, session)) ∧ macs.length = 32 ∧
      h'.params = h.params ∧ h'.nextIndex = incIndex h.nextIndex ∧ h'.previous = h.state ∧
      h'.state = .none ∧ r.senderIdx = incIndex h.nextIndex ∧
      Responds p h.params ephemeral m (readTranscript p h.params m) r session := by
  simp only [receiveHandshakeInitialization]
  split
  · exact .inl ⟨_, rfl⟩
  split
  · exact .inl ⟨_, rfl⟩
  split
  · exact .inl ⟨_, rfl⟩
  split
  · exact .inl ⟨_, rfl⟩
  right
  by_cases hdst : dst < handshakeRespSz
  · left
    simp only [formatHandshakeResponse, if_pos hdst]
    exact ⟨_, _, _, rfl, rfl, rfl, rfl, rfl⟩
  · right
    simp only [formatHandshakeResponse, if_neg hdst, appendMac1AndMac2]
    exact ⟨_, _, _, _, rfl, by simp, rfl, rfl, rfl, rfl, rfl, rfl, rfl, ⟨_, rfl⟩, rfl⟩

/-- The end that initiated, after the response to one of its initiations. -/
def answered (h : Handshake) (s : HandshakeInitSentState) (isPrevious : Bool) (now : Nat) :
    Handshake :=
  let h := { h with lastRtt := some ((now - s.timeSent) / 10 ^ 6 % 2 ^ 32) }
  if isPrevious then { h with previous := .none } else { h with state := .none }

/-- The transcript and the key an initiator computes from a response. -/
def readResponse (p : Primitives) (params : NoiseParams) (s : HandshakeInitSentState)
    (r : HandshakeResponse) : Transcript × Bytes32 :=
  ((Transcript.mk s.chainingKey s.hash).mixResponse p r.unencryptedEphemeral
    (p.diffieHellman s.ephemeralPrivate r.unencryptedEphemeral)
    (p.diffieHellman params.staticPrivate r.unencryptedEphemeral)).mixPsk p params.presharedKey

theorem receiveHandshakeResponse_eq (ha : h.awaiting r.receiverIdx = some (s, isPrevious)) :
    h.receiveHandshakeResponse p r now =
      match p.aeadChacha20Open (readResponse p h.params s r).2 0 r.encryptedNothing
          (readResponse p h.params s r).1.hash with
      | none => (h, .error .invalidAeadTag)
      | some _ => (h.answered s isPrevious now, .ok (.new s.localIndex r.senderIdx
          ((readResponse p h.params s r).1.sessionKeys p).2
          ((readResponse p h.params s r).1.sessionKeys p).1)) := by
  simp only [receiveHandshakeResponse, ha]
  rfl

theorem receiveHandshakeResponse_none (ha : h.awaiting r.receiverIdx = none) :
    h.receiveHandshakeResponse p r now = (h, .error .unexpectedPacket) := by
  simp only [receiveHandshakeResponse, ha]

theorem receiveHandshakeResponse_cases (p : Primitives) (h : Handshake) (r : HandshakeResponse)
    (now : Nat) :
    (∃ e, h.receiveHandshakeResponse p r now = (h, .error e)) ∨
      ∃ s isPrevious session, h.awaiting r.receiverIdx = some (s, isPrevious) ∧
        h.receiveHandshakeResponse p r now = (h.answered s isPrevious now, .ok session) := by
  cases ha : h.awaiting r.receiverIdx with
  | none => exact .inl ⟨_, receiveHandshakeResponse_none ha⟩
  | some a =>
    rw [receiveHandshakeResponse_eq ha]
    split
    · exact .inl ⟨_, rfl⟩
    · exact .inr ⟨_, _, _, rfl, rfl⟩

end Handshake

end Xelt.Boringtun.Noise.Crypto
