import Xelt.Boringtun.Noise.Cookies
import Xelt.Boringtun.Noise.Timers

/-!
# The tunnel over bytes

`noise/mod.rs` and `noise/timers.rs` with the cryptography inside: a handshake,
the ring of sessions, the queue, the timers and the two byte counts. Datagrams
are bytes, and what the handshake and the sessions make of them is computed.
Randomness and `Instant::now()`, in nanoseconds, are arguments; the rate
limiter may be shared with other tunnels, so it is handed in and back. `dst`
is the length of the destination buffer, and a panic is `none`.
-/

namespace Xelt.Boringtun.Noise.Crypto

open Bytes

abbrev slot (idx : Nat) : Fin nSessions := Noise.Tunn.slot idx

inductive TunnResult
  | done
  | err (e : WireGuardError)
  | writeToNetwork (datagram : Bytes)
  | writeToTunnelV4 (packet : Bytes) (src : Payment.Ipv4Addr)
  | writeToTunnelV6 (packet : Bytes) (src : Ipv6Addr)
  deriving DecidableEq

namespace Handshake

def isInProgress (h : Handshake) : Bool :=
  match h.state with
  | .none | .expired => false
  | .initSent _ | .initReceived .. => true

def isExpired (h : Handshake) : Bool :=
  match h.state with
  | .expired => true
  | _ => false

/-- When the initiation was sent that waits for its response. -/
def timer (h : Handshake) : Option Nat :=
  match h.state with
  | .initSent s => some s.timeSent
  | _ => none

def hasCookie (h : Handshake) : Bool := h.cookies.writeCookie.isSome

end Handshake

-- ---------------------------------------------------------------------------
-- Timers
-- ---------------------------------------------------------------------------

structure Timers where
  isInitiator : Bool
  timeStarted : Nat
  timeCurrent : Nat
  timers : TimerName → Nat
  sessionTimers : Fin nSessions → Nat
  wantKeepalive : Bool
  wantHandshake : Bool
  persistentKeepalive : UInt16
  /-- The rate limiter is the tunnel's own. -/
  shouldResetRr : Bool

namespace Timers

def new (persistentKeepalive : Option UInt16) (resetRr : Bool) (now : Nat) : Timers where
  isInitiator := false
  timeStarted := now
  timeCurrent := 0
  timers := fun _ => 0
  sessionTimers := fun _ => 0
  wantKeepalive := false
  wantHandshake := false
  persistentKeepalive := persistentKeepalive.getD 0
  shouldResetRr := resetRr

def elapsed (t : Timers) (now : Nat) : Nat := now - t.timeStarted

def tick (t : Timers) (timerName : TimerName) : Timers :=
  { t with
    wantKeepalive := match timerName with
      | .timeLastPacketReceived => true
      | .timeLastPacketSent => false
      | _ => t.wantKeepalive
    wantHandshake := match timerName with
      | .timeLastPacketReceived => false
      | .timeLastPacketSent => true
      | _ => t.wantHandshake
    timers := Function.update t.timers timerName t.timeCurrent }

/-- The timers are not cleared but set to the current time. -/
def clear (t : Timers) (now : Nat) : Timers :=
  { t with
    timeCurrent := t.elapsed now
    timers := fun _ => t.elapsed now
    wantHandshake := false
    wantKeepalive := false }

def established (t : Timers) (isInitiator : Bool) (sessionIdx : Nat) : Timers :=
  let t := t.tick .timeSessionEstablished
  { t with
    sessionTimers := Function.update t.sessionTimers (slot sessionIdx) t.timeCurrent
    isInitiator := isInitiator }

end Timers

-- ---------------------------------------------------------------------------
-- State
-- ---------------------------------------------------------------------------

structure Tunn where
  handshake : Handshake
  sessions : Fin nSessions → Option Session
  current : Nat
  packetQueue : List Bytes
  timers : Timers
  txBytes : Nat
  rxBytes : Nat

namespace Tunn

variable (p : Primitives)

/-- A new tunnel using our own private key and the peer's public key. -/
def new (staticPrivate peerStaticPublic : Bytes32) (presharedKey : Option Bytes32)
    (persistentKeepalive : Option UInt16) (index : UInt32) (ownLimiter : Bool)
    (stamper : TimeStamper) (now : Nat) : Tunn where
  handshake := .new p staticPrivate (p.publicKey staticPrivate) peerStaticPublic (index <<< 8)
    presharedKey stamper
  sessions := fun _ => none
  current := 0
  packetQueue := []
  timers := .new persistentKeepalive ownLimiter now
  txBytes := 0
  rxBytes := 0

def tick (t : Tunn) (timerName : TimerName) : Tunn := { t with timers := t.timers.tick timerName }

def putSession (t : Tunn) (i : Fin nSessions) (session : Session) : Tunn :=
  { t with sessions := Function.update t.sessions i (some session) }

/-- Update the private key and clear existing sessions. -/
def setStaticPrivate (t : Tunn) (staticPrivate staticPublic : Bytes32) (ownLimiter : Bool) :
    Option Tunn :=
  (t.handshake.setStaticPrivate p staticPrivate staticPublic).map fun handshake =>
    { t with
      handshake
      timers := { t.timers with shouldResetRr := ownLimiter }
      sessions := fun _ => none }

/-- Push packet to the back of the queue, or drop it when too many are there. -/
def queuePacket (t : Tunn) (packet : Bytes) : Tunn :=
  if t.packetQueue.length < maxQueueDepth then
    { t with packetQueue := t.packetQueue ++ [packet] }
  else t

def requeuePacket (t : Tunn) (packet : Bytes) : Tunn :=
  if t.packetQueue.length < maxQueueDepth then
    { t with packetQueue := packet :: t.packetQueue }
  else t

/-- Update the index of the currently used session, if needed. -/
def setCurrentSession (t : Tunn) (newIdx : Nat) : Tunn :=
  if t.current = newIdx then t
  else if t.sessions (slot t.current) = none ∨
      t.timers.sessionTimers (slot newIdx) ≥ t.timers.sessionTimers (slot t.current) then
    { t with current := newIdx }
  else t

-- ---------------------------------------------------------------------------
-- Sending
-- ---------------------------------------------------------------------------

def formatHandshakeInitiation (t : Tunn) (dst : Nat) (forceResend : Bool) (ephemeral : Bytes32)
    (now : Nat) : Tunn × TunnResult :=
  if t.handshake.isInProgress && !forceResend then (t, .done)
  else
    let t := if t.handshake.isExpired then { t with timers := t.timers.clear now } else t
    let startingNewHandshake := !t.handshake.isInProgress
    match t.handshake.formatHandshakeInitiation p dst ephemeral now with
    | (handshake, .error e) => ({ t with handshake }, .err e)
    | (handshake, .ok packet) =>
      let t := { t with handshake }
      let t := if startingNewHandshake then t.tick .timeLastHandshakeStarted else t
      (t.tick .timeLastPacketSent, .writeToNetwork packet)

/-- Encapsulate a single packet from the tunnel interface. -/
def encapsulate (t : Tunn) (src : Bytes) (dst : Nat) (ephemeral : Bytes32) (now : Nat) :
    Option (Tunn × TunnResult) :=
  match t.sessions (slot t.current) with
  | some session =>
    (session.formatPacketData p src dst).map fun (session, packet) =>
      let t := (t.putSession (slot t.current) session).tick .timeLastPacketSent
      -- keepalive packets are excluded from the timer
      let t := if src = [] then t else t.tick .timeLastDataPacketSent
      ({ t with txBytes := u64 (t.txBytes + src.length) }, .writeToNetwork packet.bytes)
  | none => some ((t.queuePacket src).formatHandshakeInitiation p dst false ephemeral now)

/-- Get a packet from the queue, and try to encapsulate it. -/
def sendQueuedPacket (t : Tunn) (dst : Nat) (ephemeral : Bytes32) (now : Nat) :
    Option (Tunn × TunnResult) :=
  match t.packetQueue with
  | [] => some (t, .done)
  | packet :: rest =>
    match ({ t with packetQueue := rest } : Tunn).encapsulate p packet dst ephemeral now with
    | some (t', .err _) => some (t'.requeuePacket packet, .done)
    | r => r

-- ---------------------------------------------------------------------------
-- Receiving
-- ---------------------------------------------------------------------------

/-- What of a decrypted packet goes to the interface, and what is counted. -/
def validateDecapsulatedPacket (t : Tunn) (packet : Bytes) : Tunn × TunnResult :=
  let counted (computed : Bytes) : Tunn :=
    let t := t.tick .timeLastDataPacketReceived
    { t with rxBytes := u64 (t.rxBytes + computed.length) }
  match Noise.Tunn.validateDecapsulatedPacket packet with
  | .writeToTunnelV4 computed src => (counted computed, .writeToTunnelV4 computed src)
  | .writeToTunnelV6 computed src => (counted computed, .writeToTunnelV6 computed src)
  | .err e => (t, .err e)
  | .done | .writeToNetwork _ => (t, .done)

def handleHandshakeInit (t : Tunn) (m : HandshakeInit) (dst : Nat) (ephemeral : Bytes32) :
    Option (Tunn × TunnResult) :=
  (t.handshake.receiveHandshakeInitialization p m dst ephemeral).map fun
    | (handshake, .error e) => ({ t with handshake }, .err e)
    | (handshake, .ok (packet, session)) =>
      let index := session.receivingIndex.toNat
      let t := ({ t with handshake } : Tunn).putSession (slot index) session
      let t := (t.tick .timeLastPacketReceived).tick .timeLastPacketSent
      -- we are not the initiator
      ({ t with timers := t.timers.established false index }, .writeToNetwork packet)

def handleHandshakeResponse (t : Tunn) (r : HandshakeResponse) (dst now : Nat) :
    Option (Tunn × TunnResult) :=
  match t.handshake.receiveHandshakeResponse p r now with
  | (handshake, .error e) => some ({ t with handshake }, .err e)
  | (handshake, .ok session) =>
    (session.formatPacketData p [] dst).map fun (session, keepalive) =>
      let lIdx := session.receivingIndex.toNat
      let t := ({ t with handshake } : Tunn).putSession (slot lIdx) session
      let t := t.tick .timeLastPacketReceived
      -- we are the initiator
      let t := { t with timers := t.timers.established true (lIdx % nSessions) }
      (t.setCurrentSession lIdx, .writeToNetwork keepalive.bytes)

def handleCookieReply (t : Tunn) (c : PacketCookieReply) : Tunn × TunnResult :=
  match t.handshake.receiveCookieReply p c with
  | (handshake, .error e) => ({ t with handshake }, .err e)
  | (handshake, .ok ()) =>
    ((({ t with handshake } : Tunn).tick .timeLastPacketReceived).tick .timeCookieReceived, .done)

/-- Decrypts a data packet, and stores the decapsulated packet in dst. -/
def handleData (t : Tunn) (packet : PacketData) (dst : Nat) : Option (Tunn × TunnResult) :=
  let rIdx := packet.receiverIdx.toNat
  match t.sessions (slot rIdx) with
  | none => some (t, .err .noCurrentSession)
  | some session =>
    match session.receivePacketData p packet dst with
    | none => none
    | some (.error e) => some (t, .err e)
    | some (.ok (session, decapsulatedPacket)) =>
      let t := (t.putSession (slot rIdx) session).setCurrentSession rIdx
      some ((t.tick .timeLastPacketReceived).validateDecapsulatedPacket decapsulatedPacket)

def handleVerifiedPacket (t : Tunn) (packet : Packet) (dst : Nat) (ephemeral : Bytes32)
    (now : Nat) : Option (Tunn × TunnResult) :=
  match packet with
  | .handshakeInit m => t.handleHandshakeInit p m dst ephemeral
  | .handshakeResponse r => t.handleHandshakeResponse p r dst now
  | .packetCookieReply c => some (t.handleCookieReply p c)
  | .packetData d => t.handleData p d dst

/-- Receives a UDP datagram from the network and parses it. -/
def decapsulate (pc : CookiePrimitives) (t : Tunn) (limiter : RateLimiter)
    (srcAddr : Option IpAddr) (datagram : Bytes) (dst : Nat) (ephemeral : Bytes32) (now : Nat) :
    Option (Tunn × RateLimiter × TunnResult) :=
  -- an empty datagram indicates a repeated call
  if datagram = [] then
    (t.sendQueuedPacket pc.toPrimitives dst ephemeral now).map fun (t, r) => (t, limiter, r)
  else
    match limiter.verifyPacket pc srcAddr datagram cookieReplySz now with
    | (limiter, .error (.writeToNetwork cookie)) =>
      -- the copy of the cookie panics where there is no room for it
      if cookie.length ≤ dst then some (t, limiter, .writeToNetwork cookie) else none
    | (limiter, .error (.err e)) => some (t, limiter, .err e)
    | (limiter, .ok packet) =>
      (t.handleVerifiedPacket pc.toPrimitives packet dst ephemeral now).map
        fun (t, r) => (t, limiter, r)

-- ---------------------------------------------------------------------------
-- The periodic call
-- ---------------------------------------------------------------------------

def clearAll (t : Tunn) (now : Nat) : Tunn :=
  { t with sessions := fun _ => none, packetQueue := [], timers := t.timers.clear now }

/-- Drop the sessions established too long ago. -/
def updateSessionTimers (t : Tunn) (timeNow : Nat) : Tunn :=
  let rejected (i : Fin nSessions) : Prop := timeNow - t.timers.sessionTimers i > rejectAfterTime
  { t with
    sessions := fun i => if rejected i then none else t.sessions i
    timers := { t.timers with
      sessionTimers := fun i => if rejected i then timeNow else t.timers.sessionTimers i } }

/-- What the periodic call found to be due. -/
structure Due where
  handshakeInitiationRequired : Bool
  keepaliveRequired : Bool

/-- The timers of a tunnel with no handshake of ours in flight. -/
def dueEstablished (t : Tunn) (timeNow : Nat) : Tunn × Due :=
  let sessionEstablished := t.timers.timers .timeSessionEstablished
  let autPacketReceived := t.timers.timers .timeLastPacketReceived
  let autPacketSent := t.timers.timers .timeLastPacketSent
  let dataPacketReceived := t.timers.timers .timeLastDataPacketReceived
  let dataPacketSent := t.timers.timers .timeLastDataPacketSent
  let rekey := t.timers.isInitiator &&
    (decide (sessionEstablished < dataPacketSent) &&
        decide (timeNow - sessionEstablished ≥ rekeyAfterTime) ||
      decide (sessionEstablished < dataPacketReceived) &&
        decide (timeNow - sessionEstablished ≥ rejectAfterTime - keepaliveTimeout - rekeyTimeout))
  let unheard := decide (dataPacketSent > autPacketReceived) &&
    decide (timeNow - autPacketReceived ≥ keepaliveTimeout + rekeyTimeout)
  let handshakeInitiationRequired := rekey || unheard && t.timers.wantHandshake
  -- `mem::replace` takes the flag once the two comparisons hold
  let t := { t with timers := { t.timers with
    wantHandshake := !unheard && t.timers.wantHandshake } }
  if handshakeInitiationRequired then (t, ⟨true, false⟩)
  else
    let unsent := decide (dataPacketReceived > autPacketSent) &&
      decide (timeNow - autPacketSent ≥ keepaliveTimeout)
    let keepaliveRequired := unsent && t.timers.wantKeepalive
    let t := { t with timers := { t.timers with
      wantKeepalive := !unsent && t.timers.wantKeepalive } }
    let persistent := decide (t.timers.persistentKeepalive > 0) &&
      decide (timeNow - t.timers.timers .timePersistentKeepalive ≥
        t.timers.persistentKeepalive.toNat * second)
    let t := if persistent then t.tick .timePersistentKeepalive else t
    (t, ⟨false, keepaliveRequired || persistent⟩)

/-- The clock is read, and the sessions established too long ago are dropped. -/
def readClock (t : Tunn) (timeNow : Nat) : Tunn :=
  ({ t with timers := { t.timers with timeCurrent := timeNow } } : Tunn).updateSessionTimers timeNow

def clearOldCookie (t : Tunn) (timeNow : Nat) : Tunn :=
  if t.handshake.hasCookie &&
      decide (timeNow - t.timers.timers .timeCookieReceived ≥ cookieExpirationTime) then
    { t with handshake := t.handshake.clearCookie }
  else t

def expireConnection (t : Tunn) (now : Nat) : Tunn :=
  ({ t with handshake := t.handshake.setExpired } : Tunn).clearAll now

/-- A handshake of ours that waits for its response is given up or retried. -/
def dueLive (t : Tunn) (now : Nat) : Tunn × Except WireGuardError Due :=
  let timeNow := t.timers.elapsed now
  if timeNow - t.timers.timers .timeSessionEstablished ≥ rejectAfterTime * 3 then
    (t.expireConnection now, .error .connectionExpired)
  else
    match t.handshake.timer with
    | some timeInitSent =>
      if timeNow - t.timers.timers .timeLastHandshakeStarted ≥ rekeyAttemptTime then
        (t.expireConnection now, .error .connectionExpired)
      else (t, .ok ⟨decide (now - timeInitSent ≥ rekeyTimeout), false⟩)
    | none => ((t.dueEstablished timeNow).1, .ok (t.dueEstablished timeNow).2)

/-- The first part of the periodic call: what is dropped, and what is due. -/
def due (t : Tunn) (now : Nat) : Tunn × Except WireGuardError Due :=
  let timeNow := t.timers.elapsed now
  let t := t.readClock timeNow
  if t.handshake.isExpired then (t, .error .connectionExpired)
  else (t.clearOldCookie timeNow).dueLive now

def updateTimers (t : Tunn) (dst : Nat) (ephemeral : Bytes32) (now : Nat) :
    Option (Tunn × TunnResult) :=
  match t.due now with
  | (t, .error e) => some (t, .err e)
  | (t, .ok due) =>
    if due.handshakeInitiationRequired then
      some (t.formatHandshakeInitiation p dst true ephemeral now)
    else if due.keepaliveRequired then t.encapsulate p [] dst ephemeral now
    else some (t, .done)

def timeSinceLastHandshake (t : Tunn) (now : Nat) : Option Nat :=
  if (t.sessions (slot t.current)).isSome then
    some (t.timers.elapsed now - t.timers.timers .timeSessionEstablished)
  else none

/-- Time since the last handshake, bytes sent and received, and the last round
trip. -/
def stats (t : Tunn) (now : Nat) : Option Nat × Nat × Nat × Option Nat :=
  (t.timeSinceLastHandshake now, t.txBytes, t.rxBytes, t.handshake.lastRtt)

-- ---------------------------------------------------------------------------
-- The calls of a device
-- ---------------------------------------------------------------------------

/-- A datagram comes through the limiter of the tunnel or of the device, which
may have seen anything before; a verified packet is one that came through. -/
inductive Call
  | encapsulate (src : Bytes) (dst : Nat)
  | decapsulate (limiter : RateLimiter) (srcAddr : Option IpAddr) (datagram : Bytes) (dst : Nat)
  | handleVerifiedPacket (packet : Packet) (dst : Nat)
  | formatHandshakeInitiation (dst : Nat) (forceResend : Bool)
  | updateTimers (dst : Nat)
  | setStaticPrivate (staticPrivate staticPublic : Bytes32) (ownLimiter : Bool)

def call (pc : CookiePrimitives) (t : Tunn) (ephemeral : Bytes32) (now : Nat) :
    Call → Option (Tunn × TunnResult)
  | .encapsulate src dst => t.encapsulate pc.toPrimitives src dst ephemeral now
  | .decapsulate limiter srcAddr datagram dst =>
    (t.decapsulate pc limiter srcAddr datagram dst ephemeral now).map fun (t, _, r) => (t, r)
  | .handleVerifiedPacket packet dst =>
    t.handleVerifiedPacket pc.toPrimitives packet dst ephemeral now
  | .formatHandshakeInitiation dst forceResend =>
    some (t.formatHandshakeInitiation pc.toPrimitives dst forceResend ephemeral now)
  | .updateTimers dst => t.updateTimers pc.toPrimitives dst ephemeral now
  | .setStaticPrivate staticPrivate staticPublic ownLimiter =>
    (t.setStaticPrivate pc.toPrimitives staticPrivate staticPublic ownLimiter).map fun t =>
      (t, .done)

-- ---------------------------------------------------------------------------
-- What a part of the tunnel is left as
-- ---------------------------------------------------------------------------

@[simp] theorem tick_handshake (t : Tunn) : (t.tick name).handshake = t.handshake := rfl
@[simp] theorem tick_sessions (t : Tunn) : (t.tick name).sessions = t.sessions := rfl
@[simp] theorem tick_current (t : Tunn) : (t.tick name).current = t.current := rfl
@[simp] theorem tick_packetQueue (t : Tunn) : (t.tick name).packetQueue = t.packetQueue := rfl

@[simp] theorem putSession_sessions (t : Tunn) :
    (t.putSession i s).sessions = Function.update t.sessions i (some s) := rfl
@[simp] theorem putSession_packetQueue (t : Tunn) :
    (t.putSession i s).packetQueue = t.packetQueue := rfl

@[simp] theorem setCurrentSession_handshake (t : Tunn) :
    (t.setCurrentSession i).handshake = t.handshake := by
  unfold setCurrentSession
  split_ifs <;> rfl

@[simp] theorem setCurrentSession_sessions (t : Tunn) :
    (t.setCurrentSession i).sessions = t.sessions := by
  unfold setCurrentSession
  split_ifs <;> rfl

@[simp] theorem setCurrentSession_packetQueue (t : Tunn) :
    (t.setCurrentSession i).packetQueue = t.packetQueue := by
  unfold setCurrentSession
  split_ifs <;> rfl

@[simp] theorem queuePacket_handshake (t : Tunn) : (t.queuePacket src).handshake = t.handshake := by
  unfold queuePacket
  split_ifs <;> rfl

@[simp] theorem queuePacket_sessions (t : Tunn) : (t.queuePacket src).sessions = t.sessions := by
  unfold queuePacket
  split_ifs <;> rfl

/-- An initiation is not called for, or has no room, or goes out. -/
theorem formatHandshakeInitiation_cases (p : Primitives) (t : Tunn) (dst : Nat) (force : Bool)
    (ephemeral : Bytes32) (now : Nat) :
    t.formatHandshakeInitiation p dst force ephemeral now = (t, .done) ∨
    ∃ t', t'.sessions = t.sessions ∧ t'.current = t.current ∧ t'.packetQueue = t.packetQueue ∧
      ((dst < handshakeInitSz ∧ t'.handshake = t.handshake ∧
          t.formatHandshakeInitiation p dst force ephemeral now =
            (t', .err .destinationBufferTooSmall)) ∨
        ∃ m macs, macs.length = 32 ∧
          Handshake.Initiated p t.handshake t'.handshake ephemeral now m ∧
          t.formatHandshakeInitiation p dst force ephemeral now =
            (t', .writeToNetwork (m.fields ++ macs))) := by
  unfold formatHandshakeInitiation
  by_cases hprogress : (t.handshake.isInProgress && !force) = true
  · exact .inl (if_pos hprogress)
  · right
    rw [if_neg hprogress]
    generalize hu :
      (if t.handshake.isExpired then { t with timers := t.timers.clear now } else t : Tunn) = u
    have hsame : u.handshake = t.handshake ∧ u.sessions = t.sessions ∧ u.current = t.current ∧
        u.packetQueue = t.packetQueue := by
      rw [← hu]
      split_ifs <;> exact ⟨rfl, rfl, rfl, rfl⟩
    obtain ⟨hh, hs, hc, hq⟩ := hsame
    simp only [hh]
    rcases Handshake.formatHandshakeInitiation_cases p t.handshake dst ephemeral now with
      hres | ⟨h', m, macs, hres, hmacs, hi⟩
    · refine ⟨_, ?_, ?_, ?_, .inl ⟨?_, ?_, by rw [hres]⟩⟩
      · exact hs
      · exact hc
      · exact hq
      · by_contra hdst
        simp [Handshake.formatHandshakeInitiation, hdst, Handshake.appendMac1AndMac2] at hres
      · rfl
    · rw [hres]
      refine ⟨_, ?_, ?_, ?_, .inr ⟨m, macs, hmacs, ?_, rfl⟩⟩
      · simp only [tick_sessions]
        split_ifs <;> exact hs
      · simp only [tick_current]
        split_ifs <;> exact hc
      · simp only [tick_packetQueue]
        split_ifs <;> exact hq
      · simp only [tick_handshake]
        split_ifs <;> exact hi

/-- What the first part of the periodic call leaves: a cookie or the handshake
may be gone, and sessions and queued packets may be. -/
structure Dropped (t t' : Tunn) : Prop where
  sessions : ∀ i, t'.sessions i = none ∨ t'.sessions i = t.sessions i
  packetQueue : t'.packetQueue = t.packetQueue ∨ t'.packetQueue = []
  current : t'.current = t.current
  params : t'.handshake.params = t.handshake.params
  nextIndex : t'.handshake.nextIndex = t.handshake.nextIndex
  lastHandshakeTimestamp :
    t'.handshake.lastHandshakeTimestamp = t.handshake.lastHandshakeTimestamp
  stamper : t'.handshake.stamper = t.handshake.stamper
  handshake : (t'.handshake.state = t.handshake.state ∧
      t'.handshake.previous = t.handshake.previous) ∨
    (t'.handshake.state = .expired ∧ t'.handshake.previous = .expired)

theorem Dropped.trans (h : Dropped t t') (h' : Dropped t' t'') : Dropped t t'' where
  sessions i := by
    rcases h'.sessions i with hi | hi
    · exact .inl hi
    · exact hi ▸ h.sessions i
  packetQueue := by
    rcases h'.packetQueue with hq | hq
    · exact hq ▸ h.packetQueue
    · exact .inr hq
  current := h'.current.trans h.current
  params := h'.params.trans h.params
  nextIndex := h'.nextIndex.trans h.nextIndex
  lastHandshakeTimestamp := h'.lastHandshakeTimestamp.trans h.lastHandshakeTimestamp
  stamper := h'.stamper.trans h.stamper
  handshake := by
    rcases h'.handshake with ⟨hs, hp⟩ | hs
    · rw [hs, hp]
      exact h.handshake
    · exact .inr hs

theorem dropped_refl (t : Tunn) : Dropped t t :=
  ⟨fun _ => .inr rfl, .inl rfl, rfl, rfl, rfl, rfl, rfl, .inl ⟨rfl, rfl⟩⟩

theorem dropped_timers (t : Tunn) (timers : Timers) : Dropped t { t with timers } :=
  ⟨fun _ => .inr rfl, .inl rfl, rfl, rfl, rfl, rfl, rfl, .inl ⟨rfl, rfl⟩⟩

theorem dropped_readClock (t : Tunn) (timeNow : Nat) : Dropped t (t.readClock timeNow) where
  sessions i := by
    simp only [readClock, updateSessionTimers]
    split_ifs
    · exact .inl rfl
    · exact .inr rfl
  packetQueue := .inl rfl
  current := rfl
  params := rfl
  nextIndex := rfl
  lastHandshakeTimestamp := rfl
  stamper := rfl
  handshake := .inl ⟨rfl, rfl⟩

theorem dropped_clearOldCookie (t : Tunn) (timeNow : Nat) :
    Dropped t (t.clearOldCookie timeNow) := by
  unfold clearOldCookie
  split_ifs
  · exact ⟨fun _ => .inr rfl, .inl rfl, rfl, rfl, rfl, rfl, rfl, .inl ⟨rfl, rfl⟩⟩
  · exact dropped_refl t

theorem dropped_expireConnection (t : Tunn) (now : Nat) : Dropped t (t.expireConnection now) :=
  ⟨fun _ => .inl rfl, .inr rfl, rfl, rfl, rfl, rfl, rfl, .inr ⟨rfl, rfl⟩⟩

theorem dropped_dueEstablished (t : Tunn) (timeNow : Nat) :
    Dropped t (t.dueEstablished timeNow).1 := by
  unfold dueEstablished
  dsimp only
  split_ifs <;> exact dropped_timers ..

theorem dropped_dueLive (t : Tunn) (now : Nat) : Dropped t (t.dueLive now).1 := by
  unfold dueLive
  dsimp only
  split
  · exact dropped_expireConnection t now
  · split
    · split
      · exact dropped_expireConnection t now
      · exact dropped_refl t
    · exact dropped_dueEstablished t _

theorem dropped_due (t : Tunn) (now : Nat) : Dropped t (t.due now).1 := by
  have hclock := dropped_readClock t (t.timers.elapsed now)
  unfold due
  dsimp only
  split
  · exact hclock
  · exact (hclock.trans (dropped_clearOldCookie _ _)).trans (dropped_dueLive _ _)

end Tunn

end Xelt.Boringtun.Noise.Crypto
