import Xelt.Boringtun.Noise.Session

/-!
# The handshake

`noise/handshake.rs`: one end of the handshake, with the two initiations it
may have in flight. Randomness and the clock are arguments; `dst` is the
length of a destination buffer. A function of the source that panics returns
`none` there.
-/

namespace Xelt.Boringtun.Noise.Crypto

open Bytes

def labelMac1 : Bytes := [109, 97, 99, 49, 45, 45, 45, 45]
def labelCookie : Bytes := [99, 111, 111, 107, 105, 101, 45, 45]

/-- initiator.chaining_key = HASH(CONSTRUCTION) -/
def initialChainKey : Bytes32 :=
  ⟨[96, 226, 109, 174, 243, 39, 239, 192, 46, 195, 53, 226, 160, 37, 210, 208, 22, 235, 66, 6, 248,
    114, 119, 245, 45, 56, 209, 152, 139, 120, 205, 54], rfl⟩

/-- initiator.chaining_hash = HASH(initiator.chaining_key || IDENTIFIER) -/
def initialChainHash : Bytes32 :=
  ⟨[34, 17, 179, 97, 8, 26, 197, 102, 105, 18, 67, 219, 69, 138, 213, 50, 45, 156, 108, 102, 34,
    147, 232, 183, 14, 225, 156, 101, 186, 7, 158, 243], rfl⟩

-- ---------------------------------------------------------------------------
-- Timestamps
-- ---------------------------------------------------------------------------

structure Tai64N where
  secs : Nat
  nano : Nat
  deriving DecidableEq

def Tai64N.zero : Tai64N := ⟨0, 0⟩

def Tai64N.parse (buf : ByteArr 12) : Tai64N :=
  ⟨readBe (buf.toList.take 8), readBe (buf.toList.drop 8)⟩

/-- Chronologically after the time of the other timestamp. -/
def Tai64N.after (t other : Tai64N) : Bool :=
  decide (t.secs > other.secs) || (t.secs == other.secs && decide (t.nano > other.nano))

/-- Both readings in nanoseconds. -/
structure TimeStamper where
  durationAtStart : Nat
  instantAtStart : Nat

def tai64Base : Nat := 2 ^ 62 + 37

/-- Take a time reading and generate a 12 byte timestamp. -/
def TimeStamper.stamp (s : TimeStamper) (now : Nat) : ByteArr 12 :=
  let stamp := (now - s.instantAtStart) + s.durationAtStart
  ⟨beBytes 8 (stamp / 10 ^ 9 + tai64Base) ++ beBytes 4 (stamp % 10 ^ 9), by simp⟩

-- ---------------------------------------------------------------------------
-- State
-- ---------------------------------------------------------------------------

/-- Parameters used by the noise protocol. -/
structure NoiseParams where
  staticPublic : Bytes32
  staticPrivate : Bytes32
  peerStaticPublic : Bytes32
  staticShared : Bytes32
  sendingMac1Key : Bytes32
  presharedKey : Option Bytes32

def NoiseParams.new (p : Primitives) (staticPrivate staticPublic peerStaticPublic : Bytes32)
    (presharedKey : Option Bytes32) : NoiseParams where
  staticPublic := staticPublic
  staticPrivate := staticPrivate
  peerStaticPublic := peerStaticPublic
  staticShared := p.diffieHellman staticPrivate peerStaticPublic
  sendingMac1Key := p.b2sHash labelMac1 peerStaticPublic
  presharedKey := presharedKey

structure HandshakeInitSentState where
  localIndex : UInt32
  hash : Bytes32
  chainingKey : Bytes32
  ephemeralPrivate : Bytes32
  timeSent : Nat
  deriving DecidableEq

inductive HandshakeState
  | none
  | initSent (s : HandshakeInitSentState)
  | initReceived (hash chainingKey peerEphemeralPublic : Bytes32) (peerIndex : UInt32)
  | expired
  deriving DecidableEq

structure Cookies where
  lastMac1 : Option (ByteArr 16)
  index : UInt32
  writeCookie : Option (ByteArr 16)

structure Handshake where
  params : NoiseParams
  nextIndex : UInt32
  previous : HandshakeState
  state : HandshakeState
  cookies : Cookies
  lastHandshakeTimestamp : Tai64N
  stamper : TimeStamper
  lastRtt : Option Nat

namespace Handshake

variable (p : Primitives)

def new (staticPrivate staticPublic peerStaticPublic : Bytes32) (globalIdx : UInt32)
    (presharedKey : Option Bytes32) (stamper : TimeStamper) : Handshake where
  params := .new p staticPrivate staticPublic peerStaticPublic presharedKey
  nextIndex := globalIdx
  previous := .none
  state := .none
  cookies := ⟨none, 0, none⟩
  lastHandshakeTimestamp := .zero
  stamper := stamper
  lastRtt := none

/-- Set a new private key; a public key that does not match it panics. -/
def setStaticPrivate (h : Handshake) (staticPrivate staticPublic : Bytes32) : Option Handshake :=
  if p.publicKey staticPrivate ≠ staticPublic then none
  else some { h with params := { h.params with
    staticPrivate, staticPublic
    staticShared := p.diffieHellman staticPrivate h.params.peerStaticPublic } }

def setExpired (h : Handshake) : Handshake := { h with previous := .expired, state := .expired }

def clearCookie (h : Handshake) : Handshake :=
  { h with cookies := { h.cookies with writeCookie := none } }

/-- 24 bits for the peer index and 8 bits for the cyclic session index. -/
def incIndex (index : UInt32) : UInt32 :=
  (index &&& ~~~0xff) ||| (index.toUInt8 + 1).toUInt32

/-- Compute and append mac1 and mac2 to a handshake message. -/
def appendMac1AndMac2 (h : Handshake) (localIndex : UInt32) (msg : Bytes) : Handshake × Bytes :=
  let msgMac1 := p.b2sKeyedMac16 h.params.sendingMac1Key msg
  let msgMac2 : ByteArr 16 :=
    match h.cookies.writeCookie with
    | some cookie => p.b2sKeyedMac16 cookie (msg ++ msgMac1)
    | none => beArray 16 0
  ({ h with cookies := { h.cookies with index := localIndex, lastMac1 := some msgMac1 } },
    msg ++ (msgMac1.toList ++ msgMac2.toList))

def formatHandshakeInitiation (h : Handshake) (dst : Nat) (ephemeralPrivate : Bytes32)
    (now : Nat) : Handshake × Except WireGuardError Bytes :=
  if dst < handshakeInitSz then (h, .error .destinationBufferTooSmall)
  else
    let localIndex := incIndex h.nextIndex
    let chainingKey := initialChainKey
    let hash := initialChainHash
    let hash := p.b2sHash hash h.params.peerStaticPublic
    let unencryptedEphemeral := p.publicKey ephemeralPrivate
    let hash := p.b2sHash hash unencryptedEphemeral
    let chainingKey := p.b2sHmac (p.b2sHmac chainingKey unencryptedEphemeral) [0x01]
    let ephemeralShared := p.diffieHellman ephemeralPrivate h.params.peerStaticPublic
    let temp := p.b2sHmac chainingKey ephemeralShared
    let chainingKey := p.b2sHmac temp [0x01]
    let key := p.b2sHmac2 temp chainingKey [0x02]
    let encryptedStatic := p.aeadChacha20Seal key 0 h.params.staticPublic hash
    let hash := p.b2sHash hash encryptedStatic
    let temp := p.b2sHmac chainingKey h.params.staticShared
    let chainingKey := p.b2sHmac temp [0x01]
    let key := p.b2sHmac2 temp chainingKey [0x02]
    let timestamp := h.stamper.stamp now
    let encryptedTimestamp := p.aeadChacha20Seal key 0 timestamp hash
    let hash := p.b2sHash hash encryptedTimestamp
    let message : HandshakeInit :=
      { senderIdx := localIndex, unencryptedEphemeral, encryptedStatic, encryptedTimestamp }
    let h := { h with
      nextIndex := localIndex
      previous := h.state
      state := .initSent { localIndex, chainingKey, hash, ephemeralPrivate, timeSent := now } }
    let (h, bytes) := h.appendMac1AndMac2 p localIndex message.fields
    (h, .ok bytes)

def formatHandshakeResponse (h : Handshake) (dst : Nat) (ephemeralPrivate : Bytes32) :
    Option (Handshake × Except WireGuardError (Bytes × Session)) :=
  if dst < handshakeRespSz then some (h, .error .destinationBufferTooSmall)
  else
    match h.state with
    | .initReceived hash chainingKey peerEphemeralPublic peerIndex =>
      let localIndex := incIndex h.nextIndex
      let unencryptedEphemeral := p.publicKey ephemeralPrivate
      let hash := p.b2sHash hash unencryptedEphemeral
      let temp := p.b2sHmac chainingKey unencryptedEphemeral
      let chainingKey := p.b2sHmac temp [0x01]
      let ephemeralShared := p.diffieHellman ephemeralPrivate peerEphemeralPublic
      let temp := p.b2sHmac chainingKey ephemeralShared
      let chainingKey := p.b2sHmac temp [0x01]
      let temp := p.b2sHmac chainingKey
        (p.diffieHellman ephemeralPrivate h.params.peerStaticPublic)
      let chainingKey := p.b2sHmac temp [0x01]
      let temp := p.b2sHmac chainingKey (h.params.presharedKey.getD (beArray 32 0))
      let chainingKey := p.b2sHmac temp [0x01]
      let temp2 := p.b2sHmac2 temp chainingKey [0x02]
      let key := p.b2sHmac2 temp temp2 [0x03]
      let hash := p.b2sHash hash temp2
      let encryptedNothing := p.aeadChacha20Seal key 0 (beArray 0 0) hash
      let temp1 := p.b2sHmac chainingKey []
      let temp2 := p.b2sHmac temp1 [0x01]
      let temp3 := p.b2sHmac2 temp1 temp2 [0x02]
      let message : HandshakeResponse :=
        { senderIdx := localIndex, receiverIdx := peerIndex, unencryptedEphemeral,
          encryptedNothing }
      let h := { h with nextIndex := localIndex, state := .none }
      let (h, bytes) := h.appendMac1AndMac2 p localIndex message.fields
      some (h, .ok (bytes, .new localIndex peerIndex temp2 temp3))
    | _ => none

def receiveHandshakeInitialization (h : Handshake) (packet : HandshakeInit) (dst : Nat)
    (ephemeralPrivate : Bytes32) :
    Option (Handshake × Except WireGuardError (Bytes × Session)) :=
  let chainingKey := initialChainKey
  let hash := initialChainHash
  let hash := p.b2sHash hash h.params.staticPublic
  let peerIndex := packet.senderIdx
  let peerEphemeralPublic := packet.unencryptedEphemeral
  let hash := p.b2sHash hash peerEphemeralPublic
  let chainingKey := p.b2sHmac (p.b2sHmac chainingKey peerEphemeralPublic) [0x01]
  let ephemeralShared := p.diffieHellman h.params.staticPrivate peerEphemeralPublic
  let temp := p.b2sHmac chainingKey ephemeralShared
  let chainingKey := p.b2sHmac temp [0x01]
  let key := p.b2sHmac2 temp chainingKey [0x02]
  match p.aeadChacha20Open key 0 packet.encryptedStatic hash with
  | none => some (h, .error .invalidAeadTag)
  | some peerStaticPublicDecrypted =>
    if h.params.peerStaticPublic ≠ peerStaticPublicDecrypted then some (h, .error .wrongKey)
    else
      let hash := p.b2sHash hash packet.encryptedStatic
      let temp := p.b2sHmac chainingKey h.params.staticShared
      let chainingKey := p.b2sHmac temp [0x01]
      let key := p.b2sHmac2 temp chainingKey [0x02]
      match p.aeadChacha20Open key 0 packet.encryptedTimestamp hash with
      | none => some (h, .error .invalidAeadTag)
      | some timestamp =>
        let timestamp := Tai64N.parse timestamp
        if !timestamp.after h.lastHandshakeTimestamp then
          some (h, .error .wrongTai64nTimestamp)
        else
          let hash := p.b2sHash hash packet.encryptedTimestamp
          let h := { h with
            lastHandshakeTimestamp := timestamp
            previous := h.state
            state := .initReceived hash chainingKey peerEphemeralPublic peerIndex }
          h.formatHandshakeResponse p dst ephemeralPrivate

/-- The initiation a response answers, and whether it is the previous one. -/
def awaiting (h : Handshake) (receiverIdx : UInt32) : Option (HandshakeInitSentState × Bool) :=
  match h.state, h.previous with
  | .initSent s, .initSent s' =>
    if s.localIndex = receiverIdx then some (s, false)
    else if s'.localIndex = receiverIdx then some (s', true)
    else none
  | .initSent s, _ => if s.localIndex = receiverIdx then some (s, false) else none
  | _, .initSent s' => if s'.localIndex = receiverIdx then some (s', true) else none
  | _, _ => none

def receiveHandshakeResponse (h : Handshake) (packet : HandshakeResponse) (now : Nat) :
    Handshake × Except WireGuardError Session :=
  match h.awaiting packet.receiverIdx with
  | none => (h, .error .unexpectedPacket)
  | some (state, isPrevious) =>
    let peerIndex := packet.senderIdx
    let localIndex := state.localIndex
    let unencryptedEphemeral := packet.unencryptedEphemeral
    let hash := p.b2sHash state.hash unencryptedEphemeral
    let temp := p.b2sHmac state.chainingKey unencryptedEphemeral
    let chainingKey := p.b2sHmac temp [0x01]
    let ephemeralShared := p.diffieHellman state.ephemeralPrivate unencryptedEphemeral
    let temp := p.b2sHmac chainingKey ephemeralShared
    let chainingKey := p.b2sHmac temp [0x01]
    let temp := p.b2sHmac chainingKey
      (p.diffieHellman h.params.staticPrivate unencryptedEphemeral)
    let chainingKey := p.b2sHmac temp [0x01]
    let temp := p.b2sHmac chainingKey (h.params.presharedKey.getD (beArray 32 0))
    let chainingKey := p.b2sHmac temp [0x01]
    let temp2 := p.b2sHmac2 temp chainingKey [0x02]
    let key := p.b2sHmac2 temp temp2 [0x03]
    let hash := p.b2sHash hash temp2
    match p.aeadChacha20Open key 0 packet.encryptedNothing hash with
    | none => (h, .error .invalidAeadTag)
    | some _ =>
      let temp1 := p.b2sHmac chainingKey []
      let temp2 := p.b2sHmac temp1 [0x01]
      let temp3 := p.b2sHmac2 temp1 temp2 [0x02]
      let h := { h with lastRtt := some ((now - state.timeSent) / 10 ^ 6 % 2 ^ 32) }
      let h := if isPrevious then { h with previous := .none } else { h with state := .none }
      (h, .ok (.new localIndex peerIndex temp3 temp2))

def receiveCookieReply (h : Handshake) (packet : PacketCookieReply) :
    Handshake × Except WireGuardError Unit :=
  match h.cookies.lastMac1 with
  | none => (h, .error .unexpectedPacket)
  | some mac1 =>
    if packet.receiverIdx ≠ h.cookies.index then (h, .error .wrongIndex)
    else
      let key := p.b2sHash labelCookie h.params.peerStaticPublic
      match p.decryptCookie key packet.nonce mac1 packet.encryptedCookie with
      | none => (h, .error .invalidAeadTag)
      | some cookie => ({ h with cookies := { h.cookies with writeCookie := some cookie } }, .ok ())

-- ---------------------------------------------------------------------------
-- Indices
-- ---------------------------------------------------------------------------

theorem and_not_low (n : Nat) (h : n < 2 ^ 32) : n &&& (2 ^ 24 - 1) <<< 8 = (n / 256) <<< 8 := by
  have hshift : n / 256 = n >>> 8 := (Nat.shiftRight_eq_div_pow n 8).symm
  rw [hshift]
  apply Nat.eq_of_testBit_eq
  intro i
  simp only [Nat.testBit_and, Nat.testBit_shiftLeft, Nat.testBit_shiftRight,
    Nat.testBit_two_pow_sub_one]
  by_cases hi : 8 ≤ i
  · have hback : 8 + (i - 8) = i := Nat.add_sub_cancel' hi
    by_cases hlt : i - 8 < 24
    · simp [hi, hlt, hback]
    · have hbit : n.testBit i = false := Nat.testBit_lt_two_pow (Nat.lt_of_lt_of_le h
        (Nat.pow_le_pow_right (by decide) (by omega)))
      simp [hback, hbit]
  · simp [hi]

theorem toNat_incIndex (index : UInt32) :
    (incIndex index).toNat = index.toNat / 256 * 256 + (index.toNat + 1) % 256 := by
  have hmask : (~~~(0xff : UInt32)).toNat = (2 ^ 24 - 1) <<< 8 := by decide
  have hbyte : (index.toUInt8 + 1).toUInt32.toNat = (index.toNat + 1) % 256 := by
    simp
  rw [incIndex, UInt32.toNat_or, UInt32.toNat_and, hmask, hbyte,
    and_not_low _ index.toNat_lt,
    ← Nat.shiftLeft_add_eq_or_of_lt (Nat.mod_lt (index.toNat + 1) (by decide : 256 > 0)),
    Nat.shiftLeft_eq]

theorem incIndex_upper (index : UInt32) : (incIndex index).toNat / 256 = index.toNat / 256 := by
  rw [toNat_incIndex]
  omega

theorem incIndex_ne (index : UInt32) : incIndex index ≠ index := by
  intro h
  have hnat := congrArg UInt32.toNat h
  rw [toNat_incIndex] at hnat
  omega

end Handshake

end Xelt.Boringtun.Noise.Crypto
