import Xelt.Boringtun.Noise.KeyAgreement

/-!
# Rejected handshake messages

What an error of one of the three receivers of `noise/handshake.rs` leaves of
the handshake. Two of them change nothing before their last check. An
initiation is taken over first and answered after that, and the answer may
still fail for want of room.
-/

namespace Xelt.Boringtun.Noise.Crypto

open Bytes

variable {p : Primitives}

/-- The transcript after a secret, with the key that seals the next part. -/
def Transcript.mixSecretKey (p : Primitives) (t : Transcript) (secret : Bytes32) :
    Transcript × Bytes32 :=
  let temp := p.b2sHmac t.chainingKey secret
  let chainingKey := p.b2sHmac temp [0x01]
  ({ t with chainingKey }, p.b2sHmac2 temp chainingKey [0x02])

theorem Tai64N.after_irrefl (t : Tai64N) : t.after t = false := by
  simp [Tai64N.after]

namespace Handshake

-- ---------------------------------------------------------------------------
-- The checks of an initiation
-- ---------------------------------------------------------------------------

/-- The transcript and the key up to the static key of an initiation. -/
def readStatic (p : Primitives) (params : NoiseParams) (m : HandshakeInit) :
    Transcript × Bytes32 :=
  (((Transcript.start p params.staticPublic).mixHash p m.unencryptedEphemeral).mixSecret p
    m.unencryptedEphemeral).mixSecretKey p
      (p.diffieHellman params.staticPrivate m.unencryptedEphemeral)

def openStatic (p : Primitives) (params : NoiseParams) (m : HandshakeInit) : Option Bytes32 :=
  p.aeadChacha20Open (readStatic p params m).2 0 m.encryptedStatic (readStatic p params m).1.hash

/-- The transcript and the key up to its timestamp. -/
def readStamp (p : Primitives) (params : NoiseParams) (m : HandshakeInit) :
    Transcript × Bytes32 :=
  ((readStatic p params m).1.mixHash p m.encryptedStatic).mixSecretKey p params.staticShared

def openStamp (p : Primitives) (params : NoiseParams) (m : HandshakeInit) :
    Option (ByteArr 12) :=
  p.aeadChacha20Open (readStamp p params m).2 0 m.encryptedTimestamp (readStamp p params m).1.hash

/-- The timestamp of an initiation that passes every check: the static key in
it is the peer's, and it was made after the last one. -/
def checkedTimestamp (p : Primitives) (h : Handshake) (m : HandshakeInit) : Option Tai64N :=
  if openStatic p h.params m = some h.params.peerStaticPublic then
    ((openStamp p h.params m).map Tai64N.parse).filter (·.after h.lastHandshakeTimestamp)
  else none

/-- The initiation was taken over, and waits for its response to be made. -/
def received (p : Primitives) (h : Handshake) (m : HandshakeInit) (timestamp : Tai64N) :
    Handshake :=
  let t := readTranscript p h.params m
  { h with
    lastHandshakeTimestamp := timestamp
    previous := h.state
    state := .initReceived t.hash t.chainingKey m.unencryptedEphemeral m.senderIdx }

theorem receiveHandshakeInitialization_eq (h : Handshake) (m : HandshakeInit) (dst : Nat)
    (ephemeral : Bytes32) :
    h.receiveHandshakeInitialization p m dst ephemeral =
      match openStatic p h.params m with
      | none => some (h, .error .invalidAeadTag)
      | some static =>
        if h.params.peerStaticPublic ≠ static then some (h, .error .wrongKey)
        else match openStamp p h.params m with
          | none => some (h, .error .invalidAeadTag)
          | some stamp =>
            if !(Tai64N.parse stamp).after h.lastHandshakeTimestamp then
              some (h, .error .wrongTai64nTimestamp)
            else (h.received p m (Tai64N.parse stamp)).formatHandshakeResponse p dst ephemeral :=
  rfl

theorem receive_unchecked (h : Handshake) (m : HandshakeInit) (dst : Nat) (ephemeral : Bytes32)
    (hm : h.checkedTimestamp p m = none) :
    ∃ e, h.receiveHandshakeInitialization p m dst ephemeral = some (h, .error e) := by
  rw [receiveHandshakeInitialization_eq]
  rw [checkedTimestamp] at hm
  cases hstatic : openStatic p h.params m with
  | none => exact ⟨_, rfl⟩
  | some static =>
    by_cases hkey : h.params.peerStaticPublic = static
    · rw [hstatic, hkey, if_pos rfl] at hm
      simp only [hkey, ne_eq, not_true_eq_false, if_false]
      cases hstamp : openStamp p h.params m with
      | none => exact ⟨_, rfl⟩
      | some stamp =>
        have hafter : (Tai64N.parse stamp).after h.lastHandshakeTimestamp = false := by
          simpa [hstamp] using hm
        simp only [hafter, Bool.not_false, if_true]
        exact ⟨_, rfl⟩
    · simp only [ne_eq, hkey, not_false_eq_true, if_true]
      exact ⟨_, rfl⟩

theorem receive_checked (h : Handshake) (m : HandshakeInit) (dst : Nat) (ephemeral : Bytes32)
    (hm : h.checkedTimestamp p m = some timestamp) :
    timestamp.after h.lastHandshakeTimestamp ∧
      h.receiveHandshakeInitialization p m dst ephemeral =
        (h.received p m timestamp).formatHandshakeResponse p dst ephemeral := by
  obtain ⟨hstatic, hm⟩ := (ite_eq_iff.mp hm).resolve_right (by simp)
  obtain ⟨hstamp, hafter⟩ := Option.filter_eq_some_iff.mp hm
  obtain ⟨stamp, hopen, rfl⟩ := Option.map_eq_some_iff.mp hstamp
  refine ⟨hafter, ?_⟩
  rw [receiveHandshakeInitialization_eq, hstatic]
  simp only [ne_eq, not_true_eq_false, if_false, hopen, hafter, Bool.not_true, Bool.false_eq_true]

-- ---------------------------------------------------------------------------
-- The receivers
-- ---------------------------------------------------------------------------

inductive Incoming
  | initiation (packet : HandshakeInit) (dst : Nat) (ephemeralPrivate : Bytes32)
  | response (packet : HandshakeResponse) (now : Nat)
  | cookieReply (packet : PacketCookieReply)

/-- The three receivers, but for what they return when they accept. -/
def receiveIncoming (p : Primitives) (h : Handshake) :
    Incoming → Option (Handshake × Except WireGuardError Unit)
  | .initiation packet dst ephemeralPrivate =>
    (h.receiveHandshakeInitialization p packet dst ephemeralPrivate).map
      fun r => (r.1, r.2.map fun _ => ())
  | .response packet now =>
    some ((h.receiveHandshakeResponse p packet now).1,
      (h.receiveHandshakeResponse p packet now).2.map fun _ => ())
  | .cookieReply packet => some (h.receiveCookieReply p packet)

/-- The parts of a handshake that its messages act on are as before. -/
structure Unmoved (h h' : Handshake) : Prop where
  state : h'.state = h.state
  previous : h'.previous = h.previous
  lastHandshakeTimestamp : h'.lastHandshakeTimestamp = h.lastHandshakeTimestamp
  nextIndex : h'.nextIndex = h.nextIndex
  cookies : h'.cookies = h.cookies

theorem Unmoved.refl (h : Handshake) : Unmoved h h := ⟨rfl, rfl, rfl, rfl, rfl⟩

/-- The message is not rejected, or its rejection changes nothing. -/
def RejectsCleanly (p : Primitives) (h : Handshake) (m : Incoming) : Prop :=
  ∀ h' e, h.receiveIncoming p m = some (h', .error e) → Unmoved h h'

theorem map_eq_error {x : Except ε α} {f : α → β} : x.map f = .error e ↔ x = .error e := by
  cases x <;> simp [Except.map]

theorem response_rejectsCleanly (h : Handshake) (r : HandshakeResponse) (now : Nat) :
    h.RejectsCleanly p (.response r now) := by
  intro h' e hr
  obtain ⟨hstate, herr⟩ := Prod.mk.inj (Option.some.inj hr)
  rw [map_eq_error] at herr
  rcases receiveHandshakeResponse_cases p h r now with ⟨e', heq⟩ | ⟨s, isPrevious, session, -, heq⟩
  · rw [heq] at hstate
    rw [← hstate]
    exact .refl h
  · simp [heq] at herr

theorem receiveCookieReply_cases (p : Primitives) (h : Handshake) (m : PacketCookieReply) :
    (∃ e, h.receiveCookieReply p m = (h, .error e)) ∨
      ∃ cookie, h.receiveCookieReply p m =
        ({ h with cookies := { h.cookies with writeCookie := some cookie } }, .ok ()) := by
  unfold receiveCookieReply
  split
  · exact .inl ⟨_, rfl⟩
  · split
    · exact .inl ⟨_, rfl⟩
    · dsimp only
      split
      · exact .inl ⟨_, rfl⟩
      · exact .inr ⟨_, rfl⟩

theorem cookieReply_rejectsCleanly (h : Handshake) (m : PacketCookieReply) :
    h.RejectsCleanly p (.cookieReply m) := by
  intro h' e hr
  rw [receiveIncoming, Option.some.injEq] at hr
  rcases receiveCookieReply_cases p h m with ⟨e', heq⟩ | ⟨cookie, heq⟩
  · rw [heq] at hr
    rw [← (Prod.mk.inj hr).1]
    exact .refl h
  · rw [heq] at hr
    exact absurd (Prod.mk.inj hr).2 (by simp)

/-- An initiation that passes is taken over before there is known to be room
for its response. -/
theorem cramped_moves (h : Handshake) (m : HandshakeInit) (ephemeral : Bytes32)
    (hm : h.checkedTimestamp p m = some timestamp) (hdst : dst < handshakeRespSz) :
    h.receiveIncoming p (.initiation m dst ephemeral) =
        some (h.received p m timestamp, .error .destinationBufferTooSmall) ∧
      ¬Unmoved h (h.received p m timestamp) := by
  obtain ⟨hafter, heq⟩ := receive_checked h m dst ephemeral hm
  constructor
  · simp [receiveIncoming, heq, formatHandshakeResponse, hdst, Except.map]
  · intro hsame
    have htimestamp : timestamp = h.lastHandshakeTimestamp := hsame.lastHandshakeTimestamp
    rw [htimestamp, Tai64N.after_irrefl] at hafter
    exact absurd hafter (by decide)

theorem initiation_rejectsCleanly_iff (h : Handshake) (m : HandshakeInit) (dst : Nat)
    (ephemeral : Bytes32) :
    h.RejectsCleanly p (.initiation m dst ephemeral) ↔
      handshakeRespSz ≤ dst ∨ h.checkedTimestamp p m = none := by
  cases hm : h.checkedTimestamp p m with
  | none =>
    obtain ⟨e, heq⟩ := receive_unchecked h m dst ephemeral hm
    refine iff_of_true (fun h' e' hr => ?_) (.inr rfl)
    simp only [receiveIncoming, heq, Option.map_some] at hr
    rw [← (Prod.mk.inj (Option.some.inj hr)).1]
    exact .refl h
  | some timestamp =>
    by_cases hdst : dst < handshakeRespSz
    · obtain ⟨hreceive, hmoved⟩ := cramped_moves h m ephemeral hm hdst
      exact iff_of_false (fun hclean => hmoved (hclean _ _ hreceive)) (by simp [hdst])
    · refine iff_of_true (fun h' e hr => ?_) (.inl (not_lt.mp hdst))
      obtain ⟨-, heq⟩ := receive_checked h m dst ephemeral hm
      simp [receiveIncoming, heq, formatHandshakeResponse, hdst, received, Except.map] at hr

theorem rejectsCleanly_iff (p : Primitives) (h : Handshake) (m : Incoming) :
    h.RejectsCleanly p m ↔ ∀ packet dst ephemeral, m = .initiation packet dst ephemeral →
      handshakeRespSz ≤ dst ∨ h.checkedTimestamp p packet = none := by
  cases m with
  | initiation packet dst ephemeral =>
    rw [initiation_rejectsCleanly_iff]
    constructor
    · rintro hroom _ _ _ ⟨⟩
      exact hroom
    · intro hroom
      exact hroom packet dst ephemeral rfl
  | response packet now =>
    exact iff_of_true (response_rejectsCleanly h packet now) fun _ _ _ hm => nomatch hm
  | cookieReply packet =>
    exact iff_of_true (cookieReply_rejectsCleanly h packet) fun _ _ _ hm => nomatch hm

/-- A responder with 91 bytes for its answer takes the initiation over, and is
then in the middle of a handshake that it will not finish. -/
theorem cramped_response :
    let h := (Exchange.sampleExchange.ends .responder).handshake
    ∃ packet h', parseIncomingPacket Exchange.sampleRequest = .ok (.handshakeInit packet) ∧
      h.receiveIncoming samplePrimitives (.initiation packet 91 (beArray 32 23)) =
        some (h', .error .destinationBufferTooSmall) ∧
      ¬Unmoved h h' := by
  intro h
  have hchecked : ((parseIncomingPacket Exchange.sampleRequest).toOption.bind fun packet =>
      match packet with
      | .handshakeInit m => h.checkedTimestamp samplePrimitives m
      | _ => none).isSome := by decide +kernel
  obtain ⟨timestamp, hchecked⟩ := Option.isSome_iff_exists.mp hchecked
  obtain ⟨packet, hparse, hchecked⟩ := Option.bind_eq_some_iff.mp hchecked
  cases packet with
  | handshakeInit m =>
    refine ⟨m, _, ?_, cramped_moves h m (beArray 32 23) hchecked (by decide)⟩
    cases hp : parseIncomingPacket Exchange.sampleRequest with
    | error e => simp [hp, Except.toOption] at hparse
    | ok packet => simpa [hp, Except.toOption] using hparse
  | handshakeResponse m | packetCookieReply m | packetData m => exact absurd hchecked (by simp)

end Handshake

end Xelt.Boringtun.Noise.Crypto
