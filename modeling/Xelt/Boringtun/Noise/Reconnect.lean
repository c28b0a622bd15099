import Xelt.Boringtun.Noise.Timestamps
import Xelt.Boringtun.Noise.TunnelRefines

/-!
# Connecting again

Two tunnels that are configured for each other, each after any run of its own:
a handshake that one of them begins and the network carries is completed, and
packets then go through both ways. The rate limiters are not under load, and the
initiator's clock is ahead of the last initiation its peer has seen.
-/

namespace Xelt.Boringtun.Noise.TimedTunn

/-- The session timers are not ahead of the last reading of the clock. -/
structure Young (t : TimedTunn) : Prop where
  sessionTimers : ∀ i, t.sessionTimers i ≤ t.timeCurrent
  timeCurrent : t.timeCurrent ≤ t.clock

/-- The session timers stay, and the clock is read or not. -/
structure Aged (t t' : TimedTunn) : Prop where
  sessionTimers : t'.sessionTimers = t.sessionTimers
  clock : t'.clock = t.clock
  timeCurrent : t'.timeCurrent = t.timeCurrent ∨ t'.timeCurrent = t.clock

variable {t t' t'' : TimedTunn}

theorem Aged.refl (t : TimedTunn) : Aged t t := ⟨rfl, rfl, .inl rfl⟩

theorem Aged.trans (h : Aged t t') (h' : Aged t' t'') : Aged t t'' where
  sessionTimers := h'.sessionTimers.trans h.sessionTimers
  clock := h'.clock.trans h.clock
  timeCurrent := by
    rcases h'.timeCurrent with hsame | hread
    · rw [hsame]
      exact h.timeCurrent
    · exact .inr (hread.trans h.clock)

theorem Young.aged (h : Young t) (ha : Aged t t') : Young t' := by
  have hcurrent : t.timeCurrent ≤ t'.timeCurrent ∧ t'.timeCurrent ≤ t.clock := by
    rcases ha.timeCurrent with hsame | hread
    · rw [hsame]
      exact ⟨le_refl _, h.timeCurrent⟩
    · rw [hread]
      exact ⟨h.timeCurrent, le_refl _⟩
  constructor
  · rw [ha.sessionTimers]
    exact fun i => (h.sessionTimers i).trans hcurrent.1
  · rw [ha.clock]
    exact hcurrent.2

theorem aged_tick (t : TimedTunn) (name : TimerName) : Aged t (t.timerTick name) :=
  ⟨rfl, rfl, .inl rfl⟩

theorem aged_initiation (t : TimedTunn) (dst : Nat) (force : Bool) :
    Aged t (t.formatHandshakeInitiation dst force).1 := by
  unfold formatHandshakeInitiation
  split
  · exact .refl t
  · have hcleared : Aged t (if t.handshake = .expired then t.clearTimers else t) := by
      split
      · exact ⟨rfl, rfl, .inr rfl⟩
      · exact .refl t
    dsimp only
    generalize (if t.handshake = .expired then t.clearTimers else t) = u at hcleared ⊢
    split
    · exact hcleared
    · refine hcleared.trans ?_
      split <;> exact ⟨rfl, rfl, .inl rfl⟩

theorem aged_encapsulate (t : TimedTunn) (src : InnerPacket) (dst : Nat) :
    Aged t (t.encapsulate src dst).1 := by
  unfold encapsulate
  split
  · dsimp only
    split <;> exact ⟨rfl, rfl, .inl rfl⟩
  · refine .trans ?_ (aged_initiation _ dst false)
    unfold Tunn.queuePacket
    split <;> exact ⟨rfl, rfl, .inl rfl⟩

theorem aged_sendQueuedPacket (t : TimedTunn) (dst : Nat) : Aged t (t.sendQueuedPacket dst).1 := by
  unfold sendQueuedPacket
  split
  · exact .refl t
  · rename_i packet rest hq
    have htaken : Aged t { t with packetQueue := rest } := ⟨rfl, rfl, .inl rfl⟩
    have hsent := htaken.trans (aged_encapsulate { t with packetQueue := rest } packet dst)
    split
    · rename_i t' e he
      rw [he] at hsent
      refine hsent.trans ?_
      unfold Tunn.requeuePacket
      split <;> exact ⟨rfl, rfl, .inl rfl⟩
    · exact hsent

theorem aged_setCurrentSession (t : TimedTunn) (idx : Nat) :
    Aged t { t with toTunn := t.setCurrentSession idx } := by
  unfold Tunn.setCurrentSession
  split
  · exact .refl t
  · split <;> exact ⟨rfl, rfl, .inl rfl⟩

theorem aged_validate (t : TimedTunn) (packet : Bytes) :
    Aged t (t.validateDecapsulatedPacket packet).1 := by
  unfold validateDecapsulatedPacket
  split <;> exact ⟨rfl, rfl, .inl rfl⟩

theorem aged_updateEstablished (t : TimedTunn) (now dst : Nat) :
    Aged t (t.updateEstablished now dst).1 := by
  unfold updateEstablished
  dsimp only
  split
  · refine .trans ?_ (aged_initiation _ dst true)
    exact ⟨rfl, rfl, .inl rfl⟩
  · split
    · refine .trans ?_ (aged_encapsulate _ _ dst)
      split <;> exact ⟨rfl, rfl, .inl rfl⟩
    · split <;> exact ⟨rfl, rfl, .inl rfl⟩

/-- A session that is established has the last reading. -/
theorem young_stored (h : Young t) (isInitiator : Bool) (session : Session) :
    Young (t.timerTickSessionEstablished isInitiator session) := by
  refine ⟨fun i => ?_, h.timeCurrent⟩
  change Function.update t.sessionTimers _ t.timeCurrent i ≤ t.timeCurrent
  by_cases hi : i = Tunn.slot session.receivingIndex.toNat
  · subst hi
    rw [Function.update_self]
  · rw [Function.update_of_ne hi]
    exact h.sessionTimers i

theorem young_packet (h : Young t) (packet : Packet) : Young (t.handleVerifiedPacket packet).1 := by
  cases packet with
  | handshakeInit peer session =>
    cases session with
    | error e => exact h
    | ok session =>
      refine young_stored (h.aged ?_) false session
      exact ⟨rfl, rfl, .inl rfl⟩
  | handshakeResponse idx answer =>
    cases answer with
    | error e => exact h
    | ok answer =>
      obtain ⟨session, isPrevious⟩ := answer
      refine (young_stored (h.aged ?_) true session).aged (aged_setCurrentSession _ _)
      exact ⟨rfl, rfl, .inl rfl⟩
  | cookieReply idx accepted =>
    cases accepted with
    | error e => exact h
    | ok u => exact h.aged ⟨rfl, rfl, .inl rfl⟩
  | data idx opened =>
    simp only [handleVerifiedPacket]
    split
    · exact h
    · split
      · exact h
      · cases opened with
        | error e => exact h
        | ok inner =>
          exact h.aged (((aged_setCurrentSession t _).trans (aged_tick ..)).trans
            (aged_validate _ inner))

/-- The timer of a session that is dropped is set to the reading. -/
theorem young_read (h : Young t) :
    Young (({ t with timeCurrent := t.clock } : TimedTunn).updateSessionTimers t.clock) := by
  refine ⟨fun i => ?_, le_refl _⟩
  simp only [updateSessionTimers]
  split
  · exact le_refl _
  · exact (h.sessionTimers i).trans h.timeCurrent

theorem young_updateTimers (h : Young t) (dst : Nat) : Young (t.updateTimers dst).1 := by
  have hread := young_read h
  unfold updateTimers
  dsimp only
  generalize ({ t with timeCurrent := t.clock } : TimedTunn).updateSessionTimers t.clock = u
    at hread ⊢
  refine hread.aged ?_
  split
  · exact .refl u
  · split
    · exact ⟨rfl, rfl, .inr rfl⟩
    · split
      · split
        · exact ⟨rfl, rfl, .inr rfl⟩
        · split
          · refine .trans ?_ (aged_initiation _ dst true)
            exact ⟨rfl, rfl, .inl rfl⟩
          · exact ⟨rfl, rfl, .inl rfl⟩
      · refine .trans ?_ (aged_updateEstablished _ _ dst)
        exact ⟨rfl, rfl, .inl rfl⟩

theorem young_call (h : Young t) (c : Call) : Young (t.call c).1 := by
  cases c with
  | encapsulate src dst => exact h.aged (aged_encapsulate t src dst)
  | decapsulate packet => exact young_packet h packet
  | sendQueuedPacket dst => exact h.aged (aged_sendQueuedPacket t dst)
  | formatHandshakeInitiation dst force => exact h.aged (aged_initiation t dst force)
  | updateTimers dst => exact young_updateTimers h dst
  | setStaticPrivate => exact h.aged ⟨rfl, rfl, .inl rfl⟩

theorem young_run {keepalive : Option UInt16}
    (he : Runs.exec Crypto.TimedMove.step (.new keepalive) js = some t) : Young t := by
  refine Runs.invariant_run (I := Young) (fun t j t' h hs => ?_) ⟨fun _ => le_refl _, le_refl _⟩ he
  cases j with
  | elapse ns =>
    cases hs
    exact ⟨h.sessionTimers, h.timeCurrent.trans (Nat.le_add_right ..)⟩
  | call c =>
    cases hs
    exact young_call h c

end Xelt.Boringtun.Noise.TimedTunn

namespace Xelt.Boringtun.Noise.Crypto

open Bytes Runs

-- ---------------------------------------------------------------------------
-- The initiation
-- ---------------------------------------------------------------------------

namespace Handshake

variable {p : Primitives} {h h' : Handshake}

/-- The transcript and the key up to the static key, as the initiator has them. -/
def writeStatic (p : Primitives) (params : NoiseParams) (ephemeral : Bytes32) :
    Transcript × Bytes32 :=
  (((Transcript.start p params.peerStaticPublic).mixHash p (p.publicKey ephemeral)).mixSecret p
    (p.publicKey ephemeral)).mixSecretKey p (p.diffieHellman ephemeral params.peerStaticPublic)

def sealedStatic (p : Primitives) (params : NoiseParams) (ephemeral : Bytes32) :
    ByteArr (32 + aeadSize) :=
  p.aeadChacha20Seal (writeStatic p params ephemeral).2 0 params.staticPublic
    (writeStatic p params ephemeral).1.hash

/-- The same up to the timestamp. -/
def writeStamp (p : Primitives) (params : NoiseParams) (ephemeral : Bytes32) :
    Transcript × Bytes32 :=
  ((writeStatic p params ephemeral).1.mixHash p (sealedStatic p params ephemeral)).mixSecretKey p
    params.staticShared

/-- The initiation that a handshake makes. -/
def initiation (p : Primitives) (h : Handshake) (ephemeral : Bytes32) (now : Nat) :
    HandshakeInit where
  senderIdx := incIndex h.nextIndex
  unencryptedEphemeral := p.publicKey ephemeral
  encryptedStatic := sealedStatic p h.params ephemeral
  encryptedTimestamp := p.aeadChacha20Seal (writeStamp p h.params ephemeral).2 0
    (h.stamper.stamp now) (writeStamp p h.params ephemeral).1.hash

theorem formatHandshakeInitiation_eq (p : Primitives) (h : Handshake) (ephemeral : Bytes32)
    (now : Nat) (hdst : handshakeInitSz ≤ dst) :
    ∃ h', h.formatHandshakeInitiation p dst ephemeral now =
        (h', .ok ((h.initiation p ephemeral now).fields ++
          ((h.mac1Of p (h.initiation p ephemeral now).fields).toList ++
            (h.mac2Of p (h.initiation p ephemeral now).fields).toList))) ∧
      Initiated p h h' ephemeral now (h.initiation p ephemeral now) := by
  simp only [formatHandshakeInitiation, if_neg (Nat.not_lt.mpr hdst), appendMac1AndMac2]
  exact ⟨_, rfl, rfl, rfl, rfl, rfl, rfl, rfl⟩

/-- Its peer computes the keys it was sealed with. -/
theorem readStatic_initiation (hp : p.Lawful) (privates : Party → Bytes32) (psk : Option Bytes32)
    (x : Party) (hm : m.unencryptedEphemeral = p.publicKey ephemeral) :
    readStatic p (Exchange.params p privates psk x.other) m =
      writeStatic p (Exchange.params p privates psk x) ephemeral := by
  have hes : p.diffieHellman (privates x.other) (p.publicKey ephemeral) =
      p.diffieHellman ephemeral (p.publicKey (privates x.other)) := hp.dh_comm ..
  simp only [readStatic, writeStatic, Exchange.params, NoiseParams.new, hm, hes]

theorem readStamp_initiation (hp : p.Lawful) (privates : Party → Bytes32) (psk : Option Bytes32)
    (x : Party) (hm : m.unencryptedEphemeral = p.publicKey ephemeral)
    (hs : m.encryptedStatic = sealedStatic p (Exchange.params p privates psk x) ephemeral) :
    readStamp p (Exchange.params p privates psk x.other) m =
      writeStamp p (Exchange.params p privates psk x) ephemeral := by
  have hss : p.diffieHellman (privates x.other) (p.publicKey (privates x)) =
      p.diffieHellman (privates x) (p.publicKey (privates x.other)) := hp.dh_comm ..
  rw [readStamp, writeStamp, readStatic_initiation hp privates psk x hm, hs]
  simp only [Exchange.params, NoiseParams.new, Party.other_other, hss]

/-- An unmodified initiation passes every check of its peer, unless its
timestamp is behind. -/
theorem initiation_checked (ephemeral : Bytes32) (hp : p.Lawful)
    {privates : Party → Bytes32} {psk : Option Bytes32} {x : Party}
    (hx : h.params = Exchange.params p privates psk x)
    (ho : h'.params = Exchange.params p privates psk x.other)
    (hstamp : (Tai64N.parse (h.stamper.stamp now)).after h'.lastHandshakeTimestamp = true) :
    h'.checkedTimestamp p (h.initiation p ephemeral now) =
      some (Tai64N.parse (h.stamper.stamp now)) := by
  have hstatic : openStatic p h'.params (h.initiation p ephemeral now) =
      some h'.params.peerStaticPublic := by
    rw [openStatic, ho, readStatic_initiation hp privates psk x rfl]
    simp only [initiation, sealedStatic, hx, hp.aead_open_seal]
    simp [Exchange.params, NoiseParams.new]
  have hopen : openStamp p h'.params (h.initiation p ephemeral now) =
      some (h.stamper.stamp now) := by
    rw [openStamp, ho, readStamp_initiation hp privates psk x rfl (by rw [← hx]; rfl)]
    simp only [initiation, hx, hp.aead_open_seal]
  rw [checkedTimestamp, if_pos hstatic, hopen]
  simp [hstamp]

-- ---------------------------------------------------------------------------
-- The response
-- ---------------------------------------------------------------------------

theorem initiation_answered (h : Handshake) (m : HandshakeInit) (ephemeral : Bytes32)
    (hcheck : h.checkedTimestamp p m = some timestamp) (hdst : handshakeRespSz ≤ dst) :
    ∃ h' session, ∃ (r : HandshakeResponse) (mac2 : ByteArr 16),
      h.receiveHandshakeInitialization p m dst ephemeral =
        some (h', .ok (r.fields ++ ((h.mac1Of p r.fields).toList ++ mac2.toList), session)) ∧
      h'.params = h.params ∧
      Responds p h.params ephemeral m (readTranscript p h.params m) r session := by
  rw [(receive_checked h m dst ephemeral hcheck).2]
  simp only [formatHandshakeResponse, received, if_neg (Nat.not_lt.mpr hdst), appendMac1AndMac2]
  exact ⟨_, _, _, _, rfl, rfl, rfl, rfl, ⟨_, rfl⟩, rfl⟩

/-- The initiator gets the session whose other end the responder has. -/
theorem response_received (hp : p.Lawful) {privates : Party → Bytes32} {psk : Option Bytes32}
    {x : Party} (hx : h.params = Exchange.params p privates psk x)
    (hi : Initiated p h h' ephemeral now m)
    (hr : Responds p (Exchange.params p privates psk x.other) ephemeral' m
      (readTranscript p (Exchange.params p privates psk x.other) m) r session) (now' : Nat) :
    ∃ h'' keyI keyR, h'.receiveHandshakeResponse p r now' =
        (h'', .ok (.new m.senderIdx r.senderIdx keyR keyI)) ∧
      h''.params = h'.params ∧ session = .new r.senderIdx m.senderIdx keyI keyR := by
  have hread : Transcript.initiation p h.params.peerStaticPublic m
      (p.diffieHellman ephemeral h.params.peerStaticPublic) h.params.staticShared =
      readTranscript p (Exchange.params p privates psk x.other) m := by
    rw [hx]
    exact Exchange.initiation_agrees hp hi.unencryptedEphemeral
  have hstate := hi.state
  rw [hread, ← hi.senderIdx] at hstate
  obtain ⟨s, hsent, hindex, hephemeral, htranscript⟩ : ∃ s, h'.state = .initSent s ∧
      s.localIndex = m.senderIdx ∧ s.ephemeralPrivate = ephemeral ∧
        (⟨s.chainingKey, s.hash⟩ : Transcript) =
          readTranscript p (Exchange.params p privates psk x.other) m :=
    ⟨_, hstate, rfl, rfl, rfl⟩
  have hawait : h'.awaiting r.receiverIdx = some (s, false) := by
    rw [hr.receiverIdx, ← hindex]
    cases hprevious : h'.previous <;> simp only [awaiting, hsent, hprevious, if_true]
  have hagree : readResponse p h'.params s r =
      writtenResponse p (Exchange.params p privates psk x.other) ephemeral' m
        ⟨s.chainingKey, s.hash⟩ := by
    rw [hi.params, hx]
    exact Exchange.response_agrees hp (hephemeral ▸ hi.unencryptedEphemeral)
      hr.unencryptedEphemeral
  obtain ⟨nothing, hnothing⟩ := hr.encryptedNothing
  rw [htranscript] at hagree
  refine ⟨h'.answered s false now', _, _, ?_, rfl, hr.session⟩
  rw [receiveHandshakeResponse_eq hawait, hagree, hnothing, hp.aead_open_seal, hindex]

end Handshake

/-- A limiter with the key of this peer, not under load. -/
structure RateLimiter.Admits (pc : CookiePrimitives) (limiter : RateLimiter)
    (staticPublic : Bytes32) : Prop where
  mac1Key : limiter.mac1Key = pc.b2sHash labelMac1 staticPublic
  idle : limiter.count < limiter.limit

namespace Tunn

variable {pc : CookiePrimitives} {t t' : Tunn} {limiter : RateLimiter}

/-- No session is newer than the time the last periodic call read. -/
structure Young (t : Tunn) : Prop where
  sessionTimers : ∀ i, t.timers.sessionTimers i ≤ t.timers.timeCurrent

/-- What a decrypted packet is to the device. -/
def delivered (plain : Bytes) : TunnResult :=
  match Noise.Tunn.validateDecapsulatedPacket plain with
  | .writeToTunnelV4 packet src => .writeToTunnelV4 packet src
  | .writeToTunnelV6 packet src => .writeToTunnelV6 packet src
  | .err e => .err e
  | .done | .writeToNetwork _ => .done

theorem validate_delivered (t : Tunn) (plain : Bytes) :
    (t.validateDecapsulatedPacket plain).2 = delivered plain := by
  unfold validateDecapsulatedPacket delivered
  cases Noise.Tunn.validateDecapsulatedPacket plain <;> rfl

/-- A datagram that passes the limiter is what a verified packet is. -/
theorem call_decapsulate (hne : datagram ≠ [])
    (hv : (limiter.verifyPacket pc srcAddr datagram cookieReplySz now).2 = .ok packet) :
    t.call pc ephemeral now (.decapsulate limiter srcAddr datagram dst) =
      t.handleVerifiedPacket pc.toPrimitives packet dst ephemeral now := by
  simp only [call, decapsulate, if_neg hne]
  generalize limiter.verifyPacket pc srcAddr datagram cookieReplySz now = q at hv ⊢
  obtain ⟨next, r⟩ := q
  obtain rfl : r = .ok packet := hv
  rw [Option.map_map]
  cases t.handleVerifiedPacket pc.toPrimitives packet dst ephemeral now <;> rfl

theorem verify_admits (srcAddr : Option IpAddr) (dst now : Nat) {mac2 : ByteArr 16}
    {h : Handshake} (hl : limiter.Admits pc staticPublic)
    (hkey : h.params.sendingMac1Key = pc.b2sHash labelMac1 staticPublic)
    (hparse : parseIncomingPacket (fields ++ ((h.mac1Of pc.toPrimitives fields).toList ++
      mac2.toList)) = .ok packet) (hidx : packet.senderIdx = some senderIdx) :
    (limiter.verifyPacket pc srcAddr (fields ++ ((h.mac1Of pc.toPrimitives fields).toList ++
      mac2.toList)) dst now).2 = .ok packet := by
  rw [RateLimiter.verifyPacket_message rfl hparse hidx]
  refine (RateLimiter.verifyMacs_mac1 ?_).2 hl.idle
  rw [hl.mac1Key, Handshake.mac1Of, hkey]

theorem parsed_ne_nil (hparse : parseIncomingPacket datagram = .ok packet) : datagram ≠ [] := by
  rintro rfl
  cases hparse

theorem verify_data (hparse : parseIncomingPacket datagram = .ok (.packetData d)) :
    (limiter.verifyPacket pc srcAddr datagram dst now).2 = .ok (.packetData d) := by
  rw [RateLimiter.verifyPacket_eq, hparse]
  rfl

theorem forced_initiation (pc : CookiePrimitives) (t : Tunn) (ephemeral : Bytes32)
    (hdst : handshakeInitSz ≤ dst)
    (hy : t.Young) (hc : t.timers.timeCurrent ≤ t.timers.elapsed now) :
    ∃ t', ∃ mac2 : ByteArr 16,
      t.call pc ephemeral now (.formatHandshakeInitiation dst true) =
        some (t', .writeToNetwork ((t.handshake.initiation pc.toPrimitives ephemeral now).fields ++
          ((t.handshake.mac1Of pc.toPrimitives (t.handshake.initiation pc.toPrimitives ephemeral
            now).fields).toList ++ mac2.toList))) ∧
      Handshake.Initiated pc.toPrimitives t.handshake t'.handshake ephemeral now
        (t.handshake.initiation pc.toPrimitives ephemeral now) ∧ t'.Young := by
  obtain ⟨h', hformat, hi⟩ := Handshake.formatHandshakeInitiation_eq pc.toPrimitives t.handshake
    ephemeral now hdst
  simp only [call, formatHandshakeInitiation, Bool.not_true, Bool.and_false, Bool.false_eq_true,
    if_false]
  generalize hu : (if t.handshake.isExpired then { t with timers := t.timers.clear now } else t :
    Tunn) = u
  have hsame : u.handshake = t.handshake := by
    rw [← hu]
    split_ifs <;> rfl
  have hyoung : ∀ i, u.timers.sessionTimers i ≤ u.timers.timeCurrent := by
    rw [← hu]
    split_ifs
    · exact fun i => (hy.sessionTimers i).trans hc
    · exact hy.sessionTimers
  simp only [hsame, hformat]
  refine ⟨_, _, rfl, ?_, ?_⟩
  · cases t.handshake.isInProgress <;> exact hi
  · constructor
    cases t.handshake.isInProgress <;> exact hyoung

theorem young_established {timers : Timers}
    (h : ∀ i, timers.sessionTimers i ≤ timers.timeCurrent) (isInitiator : Bool) (idx : Nat)
    (i : Fin nSessions) : (timers.established isInitiator idx).sessionTimers i ≤
      (timers.established isInitiator idx).timeCurrent := by
  change Function.update timers.sessionTimers (slot idx) timers.timeCurrent i ≤ timers.timeCurrent
  by_cases hi : i = slot idx
  · subst hi
    rw [Function.update_self]
  · rw [Function.update_of_ne hi]
    exact h i

theorem newest_established {timers : Timers}
    (h : ∀ i, timers.sessionTimers i ≤ timers.timeCurrent) (isInitiator : Bool) (idx : Nat)
    (i : Fin nSessions) : (timers.established isInitiator idx).sessionTimers i ≤
      (timers.established isInitiator idx).sessionTimers (slot idx) := by
  have hself : (timers.established isInitiator idx).sessionTimers (slot idx) =
      (timers.established isInitiator idx).timeCurrent := Function.update_self ..
  rw [hself]
  exact young_established h isInitiator idx i

/-- The newest session becomes the current one. -/
theorem current_newest (t : Tunn) (idx : Nat)
    (h : ∀ i, t.timers.sessionTimers i ≤ t.timers.sessionTimers (slot idx)) :
    (t.setCurrentSession idx).current = idx := by
  unfold setCurrentSession
  split
  · assumption
  · rw [if_pos (.inr (h _))]

/-- A tunnel that was sent an initiation it accepts. -/
theorem accepted_initiation (srcAddr : Option IpAddr) (ephemeral : Bytes32) (now : Nat)
    (mac2 : ByteArr 16) {h : Handshake} {m : HandshakeInit}
    (hl : limiter.Admits pc t.handshake.params.staticPublic)
    (hkey : h.params.sendingMac1Key = pc.b2sHash labelMac1 t.handshake.params.staticPublic)
    (hcheck : t.handshake.checkedTimestamp pc.toPrimitives m = some timestamp)
    (hdst : handshakeInitSz ≤ dst) (hy : t.Young) :
    ∃ t' session, ∃ (r : HandshakeResponse) (mac2' : ByteArr 16),
      t.call pc ephemeral now (.decapsulate limiter srcAddr
        (m.fields ++ ((h.mac1Of pc.toPrimitives m.fields).toList ++ mac2.toList)) dst) =
          some (t', .writeToNetwork (r.fields ++
            ((t.handshake.mac1Of pc.toPrimitives r.fields).toList ++ mac2'.toList))) ∧
      Handshake.Responds pc.toPrimitives t.handshake.params ephemeral m
        (Handshake.readTranscript pc.toPrimitives t.handshake.params m) r session ∧
      t'.sessions (slot session.receivingIndex.toNat) = some session ∧
      t'.timers.sessionTimers (slot session.receivingIndex.toNat) = t'.timers.timeCurrent ∧
      t'.Young := by
  have hmacs : ((h.mac1Of pc.toPrimitives m.fields).toList ++ mac2.toList).length = 32 := by simp
  have hparse := parse_initiation m hmacs
  have hverify := verify_admits srcAddr cookieReplySz now hl hkey hparse rfl
  rw [call_decapsulate (parsed_ne_nil hparse) hverify]
  obtain ⟨h', session, r, mac2', hres, -, hr⟩ := Handshake.initiation_answered
    (p := pc.toPrimitives) t.handshake m ephemeral hcheck (le_trans (by decide) hdst)
  simp only [handleVerifiedPacket, handleHandshakeInit, hres, Option.map_some]
  refine ⟨_, session, r, mac2', rfl, hr, ?_, ?_, ?_⟩
  · exact Function.update_self ..
  · exact Function.update_self ..
  · exact ⟨young_established hy.sessionTimers false _⟩

/-- A tunnel that was sent the response to its initiation. -/
theorem accepted_response (srcAddr : Option IpAddr) (ephemeral : Bytes32) (mac2 : ByteArr 16)
    {h h' : Handshake} {r : HandshakeResponse}
    (hl : limiter.Admits pc t.handshake.params.staticPublic)
    (hkey : h.params.sendingMac1Key = pc.b2sHash labelMac1 t.handshake.params.staticPublic)
    (hres : t.handshake.receiveHandshakeResponse pc.toPrimitives r now = (h', .ok session))
    (hdst : handshakeInitSz ≤ dst) (hy : t.Young) :
    ∃ t' session' keepalive, t.call pc ephemeral now (.decapsulate limiter srcAddr
        (r.fields ++ ((h.mac1Of pc.toPrimitives r.fields).toList ++ mac2.toList)) dst) =
          some (t', .writeToNetwork (PacketData.bytes keepalive)) ∧
      session.formatPacketData pc.toPrimitives [] dst = some (session', keepalive) ∧
      t'.sessions (slot session.receivingIndex.toNat) = some session' ∧
      t'.current = session.receivingIndex.toNat := by
  have hmacs : ((h.mac1Of pc.toPrimitives r.fields).toList ++ mac2.toList).length = 32 := by simp
  have hparse := parse_response r hmacs
  have hverify := verify_admits srcAddr cookieReplySz now hl hkey hparse rfl
  rw [call_decapsulate (parsed_ne_nil hparse) hverify]
  have hroom : ¬ dst < ([] : Bytes).length + dataOverheadSz :=
    Nat.not_lt.mpr (le_trans (by decide) hdst)
  simp only [handleVerifiedPacket, handleHandshakeResponse, hres, Session.formatPacketData,
    if_neg hroom, Option.map_some]
  refine ⟨_, _, _, rfl, rfl, ?_, ?_⟩
  · rw [setCurrentSession_sessions]
    exact Function.update_self ..
  · refine current_newest _ _ fun i => ?_
    rw [← slot_mod]
    exact newest_established hy.sessionTimers true _ i

/-- A tunnel that was sent a packet of a session it has. -/
theorem accepted_data (limiter : RateLimiter) (srcAddr : Option IpAddr) (ephemeral : Bytes32)
    (now : Nat) {s f f' : Session} (hp : pc.toPrimitives.Lawful)
    (hs : t.sessions (slot s.receivingIndex.toNat) = some s)
    (hformat : f.formatPacketData pc.toPrimitives src dst = some (f', packet))
    (hindex : f.sendingIndex = s.receivingIndex) (hsender : f.sender = s.receiver)
    (htracks : s.receivingKeyCounter.Tracks seen)
    (hcounter : f.sendingKeyCounter + nBits < 2 ^ 64) (hnew : f.sendingKeyCounter ∉ seen)
    (hnext : s.receivingKeyCounter.next ≤ f.sendingKeyCounter)
    (hcurrent : t.current = s.receivingIndex.toNat ∨ ∀ i,
      t.timers.sessionTimers i ≤ t.timers.sessionTimers (slot s.receivingIndex.toNat))
    (hroom : src.length + aeadSize ≤ dst') :
    ∃ t' v, t.call pc ephemeral now (.decapsulate limiter srcAddr packet.bytes dst') =
        some (t', delivered src) ∧
      t'.current = s.receivingIndex.toNat ∧
      t'.sessions = Function.update t.sessions (slot s.receivingIndex.toNat)
        (some { s with receivingKeyCounter := v }) ∧
      v.Tracks (insert f.sendingKeyCounter seen) ∧ v.next = f.sendingKeyCounter + 1 := by
  have hparse := Session.parse_formatPacketData hformat
  have hlength : packet.encryptedEncapsulatedPacket.length = src.length + aeadSize ∧
      packet.receiverIdx = s.receivingIndex ∧ packet.counter.toNat = f.sendingKeyCounter := by
    simp only [Session.formatPacketData] at hformat
    split at hformat <;> cases hformat
    refine ⟨Primitives.length_sealBytes _, hindex, ?_⟩
    rw [UInt64.toNat_ofNat']
    exact Nat.mod_eq_of_lt (by omega)
  obtain ⟨hlength, hreceiver, hcount⟩ := hlength
  obtain ⟨s', hreceive⟩ := Session.receivePacketData_formatPacketData hp hformat hindex hsender
    htracks hcounter hnew (by omega) (hlength ▸ hroom)
  obtain ⟨-, v, hmark, rfl⟩ := SessionRing.received_cases hreceive
  obtain ⟨v', hmark', htracks', hnext'⟩ := ReceivingKeyCounterValidator.markDidReceive_fresh htracks
    hcounter hnew (by omega)
  rw [hcount, hmark'] at hmark
  obtain rfl : v' = v := by simpa using hmark
  rw [call_decapsulate (parsed_ne_nil hparse) (verify_data hparse)]
  simp only [handleVerifiedPacket, handleData, hreceiver, hs, hreceive]
  generalize hput : t.putSession (slot s.receivingIndex.toNat)
    { s with receivingKeyCounter := { v' with receiveCnt := u64 (v'.receiveCnt + 1) } } = u
  have hnow : (u.setCurrentSession s.receivingIndex.toNat).current = s.receivingIndex.toNat := by
    have htimers : u.timers = t.timers := by rw [← hput]; rfl
    have hsame : u.current = t.current := by rw [← hput]; rfl
    rcases hcurrent with hcurrent | hnewest
    · rw [setCurrentSession, if_pos (hsame.trans hcurrent)]
      exact hsame.trans hcurrent
    · exact current_newest _ _ (htimers ▸ hnewest)
  obtain ⟨hsessions, -, -, hkept, -⟩ := validate_same
    ((u.setCurrentSession s.receivingIndex.toNat).tick .timeLastPacketReceived) src
  refine ⟨_, { v' with receiveCnt := u64 (v'.receiveCnt + 1) },
    congrArg some (Prod.ext rfl (validate_delivered _ src)), hkept.trans hnow, ?_,
    ⟨htracks'.lt_next, htracks'.window⟩, ?_⟩
  · rw [hsessions, tick_sessions, setCurrentSession_sessions, ← hput]
    rfl
  · rw [hnext', Nat.max_eq_right (by omega)]

/-- A tunnel that sends on its current session. -/
theorem sent_data (pc : CookiePrimitives) (ephemeral : Bytes32) (now : Nat) {s : Session}
    (hs : t.sessions (slot t.current) = some s)
    (hroom : src.length + dataOverheadSz ≤ dst) :
    ∃ t' s' packet, s.formatPacketData pc.toPrimitives src dst = some (s', packet) ∧
      t.call pc ephemeral now (.encapsulate src dst) = some (t', .writeToNetwork packet.bytes) ∧
      t'.current = t.current ∧
      t'.sessions = Function.update t.sessions (slot t.current) (some s') ∧
      s' = { s with sendingKeyCounter := u64 (s.sendingKeyCounter + 1) } := by
  simp only [call, encapsulate, hs, Session.formatPacketData, if_neg (Nat.not_lt.mpr hroom),
    Option.map_some]
  refine ⟨_, _, _, rfl, rfl, ?_, ?_, rfl⟩ <;> dsimp only <;> split_ifs <;> rfl

end Tunn

-- ---------------------------------------------------------------------------
-- Two tunnels and a network that carries every datagram
-- ---------------------------------------------------------------------------

/-- What the calls of the two ends read, and the buffers they are given. -/
structure Setting where
  limiter : Party → RateLimiter
  srcAddr : Party → Option IpAddr
  ephemeral : Party → Bytes32
  now : Party → Nat
  dst : Nat

namespace Setting

variable (pc : CookiePrimitives) (e : Setting)

def send (n : Party → Tunn) (x : Party) (c : Tunn.Call) : Option ((Party → Tunn) × TunnResult) :=
  ((n x).call pc (e.ephemeral x) (e.now x) c).map fun out => (Function.update n x out.1, out.2)

/-- What a call sends is handed over, and what that sends, until nothing is
sent. -/
def carry : Nat → (Party → Tunn) → Party → TunnResult → Option ((Party → Tunn) × TunnResult)
  | 0, _, _, _ => none
  | rounds + 1, n, x, .writeToNetwork bytes =>
    (e.send pc n x.other (.decapsulate (e.limiter x.other) (e.srcAddr x.other) bytes e.dst)).bind
      fun out => carry rounds out.1 x.other out.2
  | _ + 1, n, _, r => some (n, r)

def converse (n : Party → Tunn) (x : Party) (c : Tunn.Call) :
    Option ((Party → Tunn) × TunnResult) :=
  (e.send pc n x c).bind fun out => e.carry pc 4 out.1 x out.2

/-- Packets of either end, one after the other. -/
def converseAll : (Party → Tunn) → List (Party × Bytes) →
    Option ((Party → Tunn) × List TunnResult)
  | n, [] => some (n, [])
  | n, (x, src) :: rest =>
    (e.converse pc n x (.encapsulate src e.dst)).bind fun out =>
      (converseAll out.1 rest).map fun last => (last.1, out.2 :: last.2)

/-- The current sessions of the two tunnels are the two ends of one. -/
structure Joined (n : Party → Tunn) (session : Party → Session) (sent : Nat) : Prop where
  stored : ∀ x : Party, (n x).sessions (slot (session x).receivingIndex.toNat) = some (session x)
  current : ∀ x : Party, (n x).current = (session x).receivingIndex.toNat
  index : ∀ x : Party, (session x).sendingIndex = (session x.other).receivingIndex
  key : ∀ x : Party, (session x).sender = (session x.other).receiver
  tracks : ∀ x : Party, ∃ seen, (session x.other).receivingKeyCounter.Tracks seen
  next : ∀ x : Party, (session x.other).receivingKeyCounter.next ≤ (session x).sendingKeyCounter
  few : ∀ x : Party, (session x).sendingKeyCounter ≤ sent

variable {pc e} {n : Party → Tunn} {session : Party → Session}

theorem carry_sends {y : Party} (hy : x.other = y)
    (hcall : (n y).call pc (e.ephemeral y) (e.now y)
      (.decapsulate (e.limiter y) (e.srcAddr y) bytes e.dst) = some (t, r)) :
    e.carry pc (rounds + 1) n x (.writeToNetwork bytes) =
      e.carry pc rounds (Function.update n y t) y r := by
  subst hy
  simp only [carry, send, hcall, Option.map_some, Option.bind_some]

theorem carry_delivered (n : Party → Tunn) (x : Party) (src : Bytes) (rounds : Nat) :
    e.carry pc (rounds + 1) n x (Tunn.delivered src) = some (n, Tunn.delivered src) := by
  unfold Tunn.delivered
  split <;> rfl

/-- A packet that a tunnel is given is what its peer is left with. -/
theorem Joined.converse (hp : pc.toPrimitives.Lawful) (h : Joined n session sent)
    (hsent : sent + nBits < 2 ^ 64) (x : Party) (hroom : src.length + dataOverheadSz ≤ e.dst) :
    ∃ n' session', e.converse pc n x (.encapsulate src e.dst) = some (n', Tunn.delivered src) ∧
      Joined n' session' (sent + 1) := by
  have hstored := h.stored x
  rw [← h.current x] at hstored
  obtain ⟨t, s, packet, hformat, hcall, hcurrent, hsessions, rfl⟩ :=
    Tunn.sent_data pc (e.ephemeral x) (e.now x) hstored hroom
  obtain ⟨seen, htracks⟩ := h.tracks x
  have hnew : (session x).sendingKeyCounter ∉ seen := fun hmem =>
    absurd (htracks.lt_next _ hmem) (Nat.not_lt.mpr (h.next x))
  have hfew := h.few x
  have hcount : u64 ((session x).sendingKeyCounter + 1) = (session x).sendingKeyCounter + 1 := by
    have hbits : nBits = 1024 := rfl
    exact ReceivingKeyCounterValidator.u64_of_lt (by omega)
  obtain ⟨t', v, hcall', hcurrent', hsessions', htracks', hnext⟩ :=
    Tunn.accepted_data (e.limiter x.other) (e.srcAddr x.other) (e.ephemeral x.other)
      (e.now x.other) hp (h.stored x.other) hformat (h.index x) (h.key x) htracks (by omega) hnew
      (h.next x) (.inl (h.current x.other))
      (le_trans (Nat.add_le_add_left (by decide) _) hroom)
  have hx : x ≠ x.other := x.other_ne.symm
  have hother : Function.update n x t x.other = n x.other := Function.update_of_ne x.other_ne ..
  refine ⟨Function.update (Function.update n x t) x.other t', Function.update
    (Function.update session x
      { session x with sendingKeyCounter := u64 ((session x).sendingKeyCounter + 1) })
    x.other { session x.other with receivingKeyCounter := v }, ?_, ?_⟩
  · simp only [Setting.converse, send, hcall, Option.map_some, Option.bind_some, carry, hother,
      hcall']
    exact carry_delivered ..
  · constructor
    · refine Channel.forall_party x ?_ ?_
      · simp only [Function.update_of_ne hx, Function.update_self]
        rw [hsessions, h.current x]
        exact Function.update_self ..
      · simp only [Function.update_self]
        rw [hsessions']
        exact Function.update_self ..
    · refine Channel.forall_party x ?_ ?_
      · simp only [Function.update_of_ne hx, Function.update_self]
        exact hcurrent.trans (h.current x)
      · simp only [Function.update_self]
        exact hcurrent'
    · refine Channel.forall_party x ?_ ?_
      · simp only [Function.update_of_ne hx, Function.update_self]
        exact h.index x
      · simp only [Party.other_other, Function.update_of_ne hx, Function.update_self]
        simpa using h.index x.other
    · refine Channel.forall_party x ?_ ?_
      · simp only [Function.update_of_ne hx, Function.update_self]
        exact h.key x
      · simp only [Party.other_other, Function.update_of_ne hx, Function.update_self]
        simpa using h.key x.other
    · refine Channel.forall_party x ?_ ?_
      · simp only [Function.update_self]
        exact ⟨_, htracks'⟩
      · simp only [Party.other_other, Function.update_of_ne hx, Function.update_self]
        simpa using h.tracks x.other
    · refine Channel.forall_party x ?_ ?_
      · simp only [Function.update_of_ne hx, Function.update_self]
        exact (hnext.trans hcount.symm).le
      · simp only [Party.other_other, Function.update_of_ne hx, Function.update_self]
        simpa using h.next x.other
    · refine Channel.forall_party x ?_ ?_
      · simp only [Function.update_of_ne hx, Function.update_self]
        exact hcount.le.trans (Nat.succ_le_succ hfew)
      · simp only [Function.update_self]
        exact (h.few x.other).trans (Nat.le_succ _)

theorem Joined.converseAll (hp : pc.toPrimitives.Lawful) (packets : List (Party × Bytes))
    (h : Joined n session sent) (hsent : sent + packets.length + nBits ≤ 2 ^ 64)
    (hroom : ∀ i ∈ packets, i.2.length + dataOverheadSz ≤ e.dst) :
    ∃ n', e.converseAll pc n packets = some (n', packets.map fun i => Tunn.delivered i.2) := by
  induction packets generalizing n session sent with
  | nil => exact ⟨n, rfl⟩
  | cons i rest ih =>
    obtain ⟨x, src⟩ := i
    rw [List.length_cons] at hsent
    obtain ⟨n', session', hconverse, h'⟩ := h.converse (e := e) hp (by omega) x
      (hroom (x, src) List.mem_cons_self)
    obtain ⟨n'', hrest⟩ := ih h' (by omega) fun i hi => hroom i (List.mem_cons_of_mem _ hi)
    refine ⟨n'', ?_⟩
    simp only [Setting.converseAll, hconverse, Option.bind_some, hrest, Option.map_some,
      List.map_cons]

end Setting

-- ---------------------------------------------------------------------------
-- Any two reached tunnels
-- ---------------------------------------------------------------------------

def ClockedMove.KeepsKeys : ClockedMove → Prop
  | .elapse _ => True
  | .call _ c => c.KeepsKeys

instance : (m : ClockedMove) → Decidable m.KeepsKeys
  | .elapse _ => .isTrue trivial
  | .call _ c => inferInstanceAs (Decidable c.KeepsKeys)

namespace ClockedTunn

variable {pc : CookiePrimitives} {s : ClockedTunn}

theorem params_run {s' : ClockedTunn} (hkeep : ∀ m ∈ ms, m.KeepsKeys)
    (he : exec (step pc) s ms = some s') : s'.tunn.handshake.params = s.tunn.handshake.params := by
  refine invariant (C := fun _ m => m.KeepsKeys)
    (I := fun s' => s'.tunn.handshake.params = s.tunn.handshake.params) ?_ rfl ?_ he
  · intro t m t' h hm hs
    cases m with
    | elapse ns =>
      cases hs
      exact h
    | call ephemeral c =>
      simp only [step] at hs
      split at hs
      · obtain ⟨out, hcall, rfl⟩ := Option.map_eq_some_iff.mp hs
        exact ((Tunn.stamp_call c hcall).2 hm).trans h
      · cases hs
  · exact along_iff_at.mpr fun pre m post _ heq _ => hkeep m (by simp [heq])

/-- The tunnel above the cryptography tells how old its sessions are. -/
theorem young_run {c : TunnConfig}
    (he : exec (step pc) ⟨c.tunn pc.toPrimitives, c.created⟩ ms = some s) :
    s.tunn.Young ∧ s.tunn.timers.timeCurrent ≤ s.tunn.timers.elapsed s.now := by
  obtain ⟨u, hu, href⟩ := (embeds_timed pc).run (refines_new pc.toPrimitives c) he
  have hyoung := TimedTunn.young_run hu
  obtain ⟨queue, timeSent, rfl, -⟩ := Tunn.Refines.eq_asTimed href
  exact ⟨⟨hyoung.sessionTimers⟩, hyoung.timeCurrent⟩

end ClockedTunn

namespace Setting

variable {pc : CookiePrimitives} {e : Setting}

/-- An initiation, its response and the keepalive that confirms the session. -/
theorem handshake_joins (hp : pc.toPrimitives.Lawful) {n : Party → Tunn}
    {privates : Party → Bytes32} {psk : Option Bytes32} (x : Party)
    (hparams : ∀ y, (n y).handshake.params = Exchange.params pc.toPrimitives privates psk y)
    (hyoung : ∀ y, (n y).Young)
    (hclock : (n x).timers.timeCurrent ≤ (n x).timers.elapsed (e.now x))
    (hstamp : (Tai64N.parse ((n x).handshake.stamper.stamp (e.now x))).after
      (n x.other).handshake.lastHandshakeTimestamp = true)
    (hlimiter : ∀ y, (e.limiter y).Admits pc (pc.publicKey (privates y)))
    (hdst : handshakeInitSz ≤ e.dst) :
    ∃ n' session, e.converse pc n x (.formatHandshakeInitiation e.dst true) = some (n', .done) ∧
      Joined n' session 1 := by
  have hother : ∀ t, Function.update n x t x.other = n x.other :=
    fun t => Function.update_of_ne x.other_ne ..
  have hmac1 : ∀ y : Party, (n y).handshake.params.sendingMac1Key =
      pc.b2sHash labelMac1 (n y.other).handshake.params.staticPublic := by
    intro y
    rw [hparams, hparams]
    simp [Exchange.params, NoiseParams.new]
  have hadmits : ∀ y, (e.limiter y).Admits pc (n y).handshake.params.staticPublic := by
    intro y
    rw [hparams]
    exact hlimiter y
  obtain ⟨t, mac2, hcall, hinit, hy⟩ := Tunn.forced_initiation pc (n x) (e.ephemeral x) hdst
    (hyoung x) hclock
  have hchecked := Handshake.initiation_checked (e.ephemeral x) hp (hparams x)
    (hparams x.other) hstamp
  obtain ⟨t', session, r, mac2', hcall', hr, hstored, hnewest, hy'⟩ :=
    Tunn.accepted_initiation (e.srcAddr x.other) (e.ephemeral x.other) (e.now x.other) mac2
      (hadmits x.other) (hmac1 x) hchecked hdst
      (hyoung x.other)
  rw [hparams] at hr
  obtain ⟨h'', keyI, keyR, hres, -, rfl⟩ := Handshake.response_received hp (hparams x) hinit hr
    (e.now x)
  have hback : (n x.other).handshake.params.sendingMac1Key =
      pc.b2sHash labelMac1 t.handshake.params.staticPublic := by
    rw [hinit.params, hmac1 x.other, Party.other_other]
  obtain ⟨t'', session', keepalive, hcall'', hformat, hstored'', hcurrent''⟩ :=
    Tunn.accepted_response (e.srcAddr x) (e.ephemeral x) mac2'
      (hinit.params ▸ hadmits x) hback hres hdst hy
  obtain ⟨t₃, v, hcall₃, hcurrent₃, hsessions₃, htracks₃, hnext₃⟩ :=
    Tunn.accepted_data (e.limiter x.other) (e.srcAddr x.other) (e.ephemeral x.other)
      (e.now x.other) hp hstored hformat rfl rfl ReceivingKeyCounterValidator.tracks_default
      (by change 0 + nBits < 2 ^ 64; decide) (Set.notMem_empty _) (Nat.zero_le _)
      (.inr fun i => hnewest ▸ hy'.sessionTimers i)
      (show ([] : Bytes).length + aeadSize ≤ e.dst from le_trans (by decide) hdst)
  obtain rfl : session' = { Session.new
      ((n x).handshake.initiation pc.toPrimitives (e.ephemeral x) (e.now x)).senderIdx
      r.senderIdx keyR keyI with sendingKeyCounter := 1 } := by
    simp only [Session.formatPacketData] at hformat
    split at hformat <;> cases hformat
    rfl
  have hx : x ≠ x.other := x.other_ne.symm
  generalize ((n x).handshake.initiation pc.toPrimitives (e.ephemeral x) (e.now x)).senderIdx =
    own at *
  refine ⟨Function.update (Function.update (Function.update (Function.update n x t) x.other t') x
    t'') x.other t₃, Function.update
      (fun _ => { Session.new own r.senderIdx keyR keyI with sendingKeyCounter := 1 }) x.other
      { Session.new r.senderIdx own keyI keyR with receivingKeyCounter := v }, ?_, ?_⟩
  · simp only [Setting.converse, send, hcall, Option.map_some, Option.bind_some]
    rw [carry_sends rfl (by rw [hother]; exact hcall'),
      carry_sends x.other_other
        (by rw [Function.update_of_ne hx, Function.update_self]; exact hcall''),
      carry_sends rfl
        (by rw [Function.update_of_ne x.other_ne, Function.update_self]; exact hcall₃)]
    rfl
  · constructor
    · refine Channel.forall_party x ?_ ?_
      · simp only [Function.update_of_ne hx, Function.update_self]
        exact hstored''
      · simp only [Function.update_self, hsessions₃]
    · refine Channel.forall_party x ?_ ?_
      · simp only [Function.update_of_ne hx, Function.update_self]
        exact hcurrent''
      · simp only [Function.update_self]
        exact hcurrent₃
    · refine Channel.forall_party x ?_ ?_ <;>
        simp only [Function.update_of_ne hx, Function.update_self, Party.other_other] <;> rfl
    · refine Channel.forall_party x ?_ ?_ <;>
        simp only [Function.update_of_ne hx, Function.update_self, Party.other_other] <;> rfl
    · refine Channel.forall_party x ?_ ?_
      · simp only [Function.update_self]
        exact ⟨_, htracks₃⟩
      · simp only [Function.update_of_ne hx, Party.other_other]
        exact ⟨_, ReceivingKeyCounterValidator.tracks_default⟩
    · refine Channel.forall_party x ?_ ?_
      · simp only [Function.update_of_ne hx, Function.update_self]
        exact hnext₃.le
      · simp only [Function.update_of_ne hx, Function.update_self, Party.other_other]
        exact Nat.zero_le _
    · refine Channel.forall_party x ?_ ?_
      · simp only [Function.update_of_ne hx]
        exact le_refl _
      · simp only [Function.update_self]
        exact Nat.zero_le _

/-- Whatever two tunnels with matching keys have been through, a handshake that
the network carries joins them: it ends, and every packet that either is given
from then on is what the other is left with, in order. -/
theorem reconnects (hp : pc.toPrimitives.Lawful) (config : Party → TunnConfig)
    (hkeys : ∀ y : Party,
      (config y).peerStaticPublic = pc.publicKey (config y.other).staticPrivate)
    (hpsk : ∀ y, (config y).presharedKey = psk) {moves : Party → List ClockedMove}
    {s : Party → ClockedTunn}
    (hruns : ∀ y, exec (ClockedTunn.step pc)
      ⟨(config y).tunn pc.toPrimitives, (config y).created⟩ (moves y) = some (s y))
    (hkeep : ∀ y, ∀ m ∈ moves y, m.KeepsKeys) (x : Party) (hnow : (s x).now ≤ e.now x)
    (hstamp : (Tai64N.parse ((s x).tunn.handshake.stamper.stamp (e.now x))).after
      (s x.other).tunn.handshake.lastHandshakeTimestamp = true)
    (hlimiter : ∀ y, (e.limiter y).Admits pc (pc.publicKey (config y).staticPrivate))
    (hdst : handshakeInitSz ≤ e.dst) (packets : List (Party × Bytes))
    (hroom : ∀ i ∈ packets, i.2.length + dataOverheadSz ≤ e.dst)
    (hfew : 1 + packets.length + nBits ≤ 2 ^ 64) :
    ∃ n n', e.converse pc (fun y => (s y).tunn) x (.formatHandshakeInitiation e.dst true) =
        some (n, .done) ∧
      e.converseAll pc n packets = some (n', packets.map fun i => Tunn.delivered i.2) := by
  have hparams : ∀ y, (s y).tunn.handshake.params = Exchange.params pc.toPrimitives
      (fun y => (config y).staticPrivate) psk y := by
    intro y
    rw [ClockedTunn.params_run (hkeep y) (hruns y)]
    simp only [TunnConfig.tunn, Tunn.new, Handshake.new, Exchange.params, hkeys, hpsk]
  have hyoung := fun y => ClockedTunn.young_run (hruns y)
  have hclock : (s x).tunn.timers.timeCurrent ≤ (s x).tunn.timers.elapsed (e.now x) :=
    (hyoung x).2.trans (Nat.sub_le_sub_right hnow _)
  obtain ⟨n, session, hconverse, hjoined⟩ := handshake_joins (e := e)
    (n := fun y => (s y).tunn) hp x hparams (fun y => (hyoung y).1) hclock hstamp hlimiter hdst
  obtain ⟨n', hall⟩ := hjoined.converseAll (e := e) hp packets hfew hroom
  exact ⟨n, n', hconverse, hall⟩

def sampleMoves (x : Party) : List ClockedMove :=
  ClockedTunn.between 0 ((Link.rekeyed.filter fun i => i.1 = x).map Prod.snd)

/-- When each end has done its moves, the initiator's clock is ahead. -/
theorem sampleMoves_initiator : (exec (ClockedTunn.step sampleCookiePrimitives)
    ⟨(Link.sampleConfig .initiator).tunn sampleCookiePrimitives.toPrimitives, 0⟩
    (sampleMoves .initiator)).map (fun s =>
      (s.now, Tai64N.parse (s.tunn.handshake.stamper.stamp 20000))) =
    some (12000, ⟨4611686019427387941, 20000⟩) := by
  decide +kernel

theorem sampleMoves_responder : (exec (ClockedTunn.step sampleCookiePrimitives)
    ⟨(Link.sampleConfig .responder).tunn sampleCookiePrimitives.toPrimitives, 0⟩
    (sampleMoves .responder)).map (fun s => s.tunn.handshake.lastHandshakeTimestamp) =
    some ⟨4611686019427387941, 9000⟩ := by
  decide +kernel

theorem sampleMoves_run (x : Party) : (exec (ClockedTunn.step sampleCookiePrimitives)
    ⟨(Link.sampleConfig x).tunn sampleCookiePrimitives.toPrimitives, 0⟩
    (sampleMoves x)).isSome := by
  cases x with
  | initiator =>
    obtain ⟨s, hs, -⟩ := Option.map_eq_some_iff.mp sampleMoves_initiator
    exact Option.isSome_of_eq_some hs
  | responder =>
    obtain ⟨s, hs, -⟩ := Option.map_eq_some_iff.mp sampleMoves_responder
    exact Option.isSome_of_eq_some hs

def sampleReached (x : Party) : ClockedTunn := (exec _ _ _).get (sampleMoves_run x)

theorem sampleReached_run (x : Party) : exec (ClockedTunn.step sampleCookiePrimitives)
    ⟨(Link.sampleConfig x).tunn sampleCookiePrimitives.toPrimitives, (Link.sampleConfig x).created⟩
    (sampleMoves x) = some (sampleReached x) :=
  (Option.some_get (sampleMoves_run x)).symm

theorem sampleReached_initiator : ((sampleReached .initiator).now,
    Tai64N.parse ((sampleReached .initiator).tunn.handshake.stamper.stamp 20000)) =
      (12000, ⟨4611686019427387941, 20000⟩) := by
  obtain ⟨s, hs, hview⟩ := Option.map_eq_some_iff.mp sampleMoves_initiator
  rw [sampleReached, Option.get_of_eq_some _ hs]
  exact hview

theorem sampleReached_responder :
    (sampleReached .responder).tunn.handshake.lastHandshakeTimestamp =
      ⟨4611686019427387941, 9000⟩ := by
  obtain ⟨s, hs, hview⟩ := Option.map_eq_some_iff.mp sampleMoves_responder
  rw [sampleReached, Option.get_of_eq_some _ hs]
  exact hview

def sampleSetting : Setting where
  limiter := Link.sampleGate
  srcAddr _ := none
  ephemeral
    | .initiator => beArray 32 31
    | .responder => beArray 32 32
  now _ := 20000
  dst := 2048

def sampleLater : List (Party × Bytes) :=
  [(.responder, Link.samplePacket 4), (.initiator, Link.samplePacket 5),
    (.initiator, Link.samplePacket 6)]

theorem sampleMoves_keep : ∀ m ∈ sampleMoves .initiator ++ sampleMoves .responder,
    m.KeepsKeys := by
  decide +kernel

theorem sampleReached_stamp : (Tai64N.parse ((sampleReached .initiator).tunn.handshake.stamper.stamp
    (sampleSetting.now .initiator))).after
      (sampleReached (Party.other .initiator)).tunn.handshake.lastHandshakeTimestamp = true := by
  have hnow : sampleSetting.now .initiator = 20000 := rfl
  have hother : Party.other .initiator = .responder := rfl
  rw [hnow, hother, (Prod.mk.inj sampleReached_initiator).2, sampleReached_responder]
  decide

theorem sampleReached_now : (sampleReached .initiator).now ≤ sampleSetting.now .initiator := by
  rw [(Prod.mk.inj sampleReached_initiator).1]
  decide

theorem sampleLater_delivered : sampleLater.map (fun i => Tunn.delivered i.2) =
    [.writeToTunnelV4 (Link.samplePacket 4) (.new 10 0 0 1),
      .writeToTunnelV4 (Link.samplePacket 5) (.new 10 0 0 1),
      .writeToTunnelV4 (Link.samplePacket 6) (.new 10 0 0 1)] := by
  decide

theorem reconnects_sample : ∃ n n',
    sampleSetting.converse sampleCookiePrimitives (fun y => (sampleReached y).tunn) .initiator
        (.formatHandshakeInitiation 2048 true) = some (n, .done) ∧
      sampleSetting.converseAll sampleCookiePrimitives n sampleLater = some (n',
        [.writeToTunnelV4 (Link.samplePacket 4) (.new 10 0 0 1),
          .writeToTunnelV4 (Link.samplePacket 5) (.new 10 0 0 1),
          .writeToTunnelV4 (Link.samplePacket 6) (.new 10 0 0 1)]) := by
  have hkeep : ∀ y, ∀ m ∈ sampleMoves y, m.KeepsKeys := fun y m hm =>
    sampleMoves_keep m (by cases y <;> simp [hm])
  have hsample := reconnects (e := sampleSetting) Link.sampleLawful Link.sampleConfig
    (fun y => by cases y <;> rfl) (fun _ => rfl) sampleReached_run hkeep .initiator
    sampleReached_now
    sampleReached_stamp (fun y => ⟨by cases y <;> rfl, by cases y <;> decide⟩) (by decide)
    sampleLater (by decide) (by decide)
  rw [sampleLater_delivered] at hsample
  exact hsample

end Setting

end Xelt.Boringtun.Noise.Crypto
