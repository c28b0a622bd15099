import Xelt.Boringtun.Noise.Tunn

/-!
# The timers of a tunnel

`noise/timers.rs`: the tunnel with the clock it reads and the timers it keeps.
A timer is set to `timeCurrent`, the clock as the last periodic call read it,
and not to the clock itself. Times are nanoseconds since the start of the
tunnel; `clock` is what `Instant::now()` reads, and stands still within a
call.
-/

namespace Xelt.Boringtun.Noise

def second : Nat := 10 ^ 9

def rekeyAfterTime : Nat := 120 * second
def rejectAfterTime : Nat := 180 * second
def rekeyAttemptTime : Nat := 90 * second
def rekeyTimeout : Nat := 5 * second
def keepaliveTimeout : Nat := 10 * second
def cookieExpirationTime : Nat := 120 * second

/-- The timers besides `TimeCurrent`, which is the tunnel's `timeCurrent`. -/
inductive TimerName
  | timeSessionEstablished
  | timeLastHandshakeStarted
  | timeLastPacketReceived
  | timeLastPacketSent
  | timeLastDataPacketReceived
  | timeLastDataPacketSent
  | timeCookieReceived
  | timePersistentKeepalive
  deriving DecidableEq

structure TimedTunn extends Tunn where
  clock : Nat
  /-- When the last handshake initiation was sent. -/
  timeSent : Nat
  hasCookie : Bool
  /-- The initiator or the responder of the last handshake. -/
  isInitiator : Bool
  timers : TimerName → Nat
  /-- Did we receive data without sending anything back? -/
  wantKeepalive : Bool
  /-- Did we send data without hearing back? -/
  wantHandshake : Bool
  persistentKeepalive : UInt16

namespace TimedTunn

def new (persistentKeepalive : Option UInt16) : TimedTunn where
  toTunn := .new
  clock := 0
  timeSent := 0
  hasCookie := false
  isInitiator := false
  timers := fun _ => 0
  wantKeepalive := false
  wantHandshake := false
  persistentKeepalive := persistentKeepalive.getD 0

def elapse (t : TimedTunn) (ns : Nat) : TimedTunn := { t with clock := t.clock + ns }

def timerTick (t : TimedTunn) (timerName : TimerName) : TimedTunn :=
  { t with
    wantKeepalive := match timerName with
      | .timeLastPacketReceived => true
      | .timeLastPacketSent => false
      | _ => t.wantKeepalive
    wantHandshake := match timerName with
      | .timeLastPacketReceived => false
      | .timeLastPacketSent => true
      | _ => t.wantHandshake
    timers := Function.update t.timers timerName t.timeCurrent }

/-- `timer_tick_session_established`; `storeSession` sets the timer of the
session. -/
def timerTickSessionEstablished (t : TimedTunn) (isInitiator : Bool) (session : Session) :
    TimedTunn :=
  let t := t.timerTick .timeSessionEstablished
  { t with toTunn := t.storeSession session, isInitiator := isInitiator }

/-- The timers are not cleared but set to the current time. -/
def clearTimers (t : TimedTunn) : TimedTunn :=
  { t with
    timeCurrent := t.clock
    timers := fun _ => t.clock
    wantHandshake := false
    wantKeepalive := false }

def clearAll (t : TimedTunn) : TimedTunn :=
  ({ t with sessions := fun _ => none, packetQueue := [] } : TimedTunn).clearTimers

def formatHandshakeInitiation (t : TimedTunn) (dst : Nat) (forceResend : Bool) :
    TimedTunn × TunnResult :=
  if t.handshake.isInProgress && !forceResend then (t, .done)
  else
    let t := if t.handshake = .expired then t.clearTimers else t
    let startingNewHandshake := !t.handshake.isInProgress
    if dst < handshakeInitSz then (t, .err .destinationBufferTooSmall)
    else
      let t := { t with handshake := .initSent, timeSent := t.clock }
      let t := if startingNewHandshake then t.timerTick .timeLastHandshakeStarted else t
      (t.timerTick .timeLastPacketSent, .writeToNetwork .handshakeInit)

def encapsulate (t : TimedTunn) (src : InnerPacket) (dst : Nat) : TimedTunn × TunnResult :=
  match t.currentSession with
  | some session =>
    let t := t.timerTick .timeLastPacketSent
    -- keepalive packets are excluded from the timer
    let t := if src.bytes = [] then t else t.timerTick .timeLastDataPacketSent
    (t, .writeToNetwork (.data session src))
  | none =>
    ({ t with toTunn := t.queuePacket src } : TimedTunn).formatHandshakeInitiation dst false

def sendQueuedPacket (t : TimedTunn) (dst : Nat) : TimedTunn × TunnResult :=
  match t.packetQueue with
  | [] => (t, .done)
  | packet :: rest =>
    match ({ t with packetQueue := rest } : TimedTunn).encapsulate packet dst with
    | (t', .err _) => ({ t' with toTunn := t'.requeuePacket packet }, .done)
    | r => r

/-- A packet for the interface is data received; a keepalive is none, and an
invalid packet neither. -/
def validateDecapsulatedPacket (t : TimedTunn) (packet : Bytes) : TimedTunn × TunnResult :=
  match Tunn.validateDecapsulatedPacket packet with
  | .writeToTunnelV4 packet src =>
    (t.timerTick .timeLastDataPacketReceived, .writeToTunnelV4 packet src)
  | .writeToTunnelV6 packet src =>
    (t.timerTick .timeLastDataPacketReceived, .writeToTunnelV6 packet src)
  | r => (t, r)

def handleVerifiedPacket (t : TimedTunn) : Packet → TimedTunn × TunnResult
  | .handshakeInit _ (.error e) => (t, .err e)
  | .handshakeInit _ (.ok session) =>
    let t := { t with handshake := .none }
    let t := t.timerTick .timeLastPacketReceived
    let t := t.timerTick .timeLastPacketSent
    (t.timerTickSessionEstablished false session, .writeToNetwork .handshakeResponse)
  | .handshakeResponse _ (.error e) => (t, .err e)
  | .handshakeResponse _ (.ok (session, isPrevious)) =>
    let t := { t with handshake := if isPrevious then t.handshake else .none }
    let t := t.timerTick .timeLastPacketReceived
    let t := t.timerTickSessionEstablished true session
    ({ t with toTunn := t.setCurrentSession session.receivingIndex.toNat },
      .writeToNetwork (.data session ⟨[], .keepalive⟩))
  | .cookieReply _ (.error e) => (t, .err e)
  | .cookieReply _ (.ok ()) =>
    let t := { t with hasCookie := true }
    ((t.timerTick .timeLastPacketReceived).timerTick .timeCookieReceived, .done)
  | .data receiverIdx opened =>
    match t.sessions (Tunn.slot receiverIdx.toNat) with
    | none => (t, .err .noCurrentSession)
    | some session =>
      if receiverIdx ≠ session.receivingIndex then (t, .err .wrongIndex)
      else match opened with
        | .error e => (t, .err e)
        | .ok inner =>
          let t := { t with toTunn := t.setCurrentSession receiverIdx.toNat }
          (t.timerTick .timeLastPacketReceived).validateDecapsulatedPacket inner

def setStaticPrivate (t : TimedTunn) : TimedTunn := { t with toTunn := t.toTunn.setStaticPrivate }

/-- Drop the sessions established too long ago. -/
def updateSessionTimers (t : TimedTunn) (timeNow : Nat) : TimedTunn :=
  { t with
    sessions := fun i =>
      if timeNow - t.sessionTimers i > rejectAfterTime then none else t.sessions i
    sessionTimers := fun i =>
      if timeNow - t.sessionTimers i > rejectAfterTime then timeNow else t.sessionTimers i }

/-- `handshake.set_expired()` and `clear_all()`. -/
def expireConnection (t : TimedTunn) : TimedTunn :=
  ({ t with handshake := .expired } : TimedTunn).clearAll

/-- The initiator renews a session it sends or receives data on. -/
def rekeyRequired (t : TimedTunn) (now : Nat) : Bool :=
  let sessionEstablished := t.timers .timeSessionEstablished
  t.isInitiator &&
    (sessionEstablished < t.timers .timeLastDataPacketSent &&
        now - sessionEstablished ≥ rekeyAfterTime ||
      sessionEstablished < t.timers .timeLastDataPacketReceived &&
        now - sessionEstablished ≥ rejectAfterTime - keepaliveTimeout - rekeyTimeout)

/-- Data was sent and nothing heard since. -/
def handshakeDue (t : TimedTunn) (now : Nat) : Bool :=
  t.timers .timeLastDataPacketSent > t.timers .timeLastPacketReceived &&
    now - t.timers .timeLastPacketReceived ≥ keepaliveTimeout + rekeyTimeout

/-- Data was received and nothing sent since. -/
def keepaliveDue (t : TimedTunn) (now : Nat) : Bool :=
  t.timers .timeLastDataPacketReceived > t.timers .timeLastPacketSent &&
    now - t.timers .timeLastPacketSent ≥ keepaliveTimeout

def persistentKeepaliveDue (t : TimedTunn) (now : Nat) : Bool :=
  t.persistentKeepalive > 0 &&
    now - t.timers .timePersistentKeepalive ≥ t.persistentKeepalive.toNat * second

/-- The periodic call, while no handshake of ours waits for its response. -/
def updateEstablished (t : TimedTunn) (now dst : Nat) : TimedTunn × TunnResult :=
  let rekey := t.rekeyRequired now
  let due := t.handshakeDue now
  let handshakeInitiationRequired := rekey || due && t.wantHandshake
  -- `mem::replace` takes the flag once both comparisons hold
  let t := { t with wantHandshake := !due && t.wantHandshake }
  if handshakeInitiationRequired then t.formatHandshakeInitiation dst true
  else
    let due := t.keepaliveDue now
    let keepaliveRequired := due && t.wantKeepalive
    let t := { t with wantKeepalive := !due && t.wantKeepalive }
    let persistent := t.persistentKeepaliveDue now
    let t := if persistent then t.timerTick .timePersistentKeepalive else t
    if keepaliveRequired || persistent then t.encapsulate ⟨[], .keepalive⟩ dst
    else (t, .done)

def updateTimers (t : TimedTunn) (dst : Nat) : TimedTunn × TunnResult :=
  let now := t.clock
  let t := ({ t with timeCurrent := now } : TimedTunn).updateSessionTimers now
  if t.handshake = .expired then (t, .err .connectionExpired)
  else
    let cookieExpired := now - t.timers .timeCookieReceived ≥ cookieExpirationTime
    let t := { t with hasCookie := t.hasCookie && !cookieExpired }
    if now - t.timers .timeSessionEstablished ≥ rejectAfterTime * 3 then
      (t.expireConnection, .err .connectionExpired)
    else if t.handshake = .initSent then
      if now - t.timers .timeLastHandshakeStarted ≥ rekeyAttemptTime then
        (t.expireConnection, .err .connectionExpired)
      else if t.clock - t.timeSent ≥ rekeyTimeout then t.formatHandshakeInitiation dst true
      else (t, .done)
    else t.updateEstablished now dst

def timeSinceLastHandshake (t : TimedTunn) : Option Nat :=
  if t.currentSession.isSome then some (t.clock - t.timers .timeSessionEstablished) else none

/-- The `last_handshake_time_sec` that `api_get` prints. -/
def lastHandshakeTimeSec (t : TimedTunn) : Option Nat :=
  t.timeSinceLastHandshake.map (· / second)

/-- The calls a device makes of a tunnel. An empty datagram asks for the next
queued packet. -/
inductive Call
  | encapsulate (src : InnerPacket) (dst : Nat)
  | decapsulate (packet : Packet)
  | sendQueuedPacket (dst : Nat)
  | formatHandshakeInitiation (dst : Nat) (forceResend : Bool)
  | updateTimers (dst : Nat)
  | setStaticPrivate

def call (t : TimedTunn) : Call → TimedTunn × TunnResult
  | .encapsulate src dst => t.encapsulate src dst
  | .decapsulate packet => t.handleVerifiedPacket packet
  | .sendQueuedPacket dst => t.sendQueuedPacket dst
  | .formatHandshakeInitiation dst forceResend => t.formatHandshakeInitiation dst forceResend
  | .updateTimers dst => t.updateTimers dst
  | .setStaticPrivate => (t.setStaticPrivate, .done)

def Call.completesHandshake : Call → Bool
  | .decapsulate (.handshakeInit _ (.ok _)) | .decapsulate (.handshakeResponse _ (.ok _)) => true
  | _ => false

-- ---------------------------------------------------------------------------
-- The tunnel without timers
-- ---------------------------------------------------------------------------

@[simp] theorem timerTick_toTunn (t : TimedTunn) (name : TimerName) :
    (t.timerTick name).toTunn = t.toTunn := rfl

@[simp] theorem established_toTunn (t : TimedTunn) (b : Bool) (session : Session) :
    (t.timerTickSessionEstablished b session).toTunn = t.toTunn.storeSession session := rfl

theorem validate_untimed (t : TimedTunn) (packet : Bytes) :
    (t.validateDecapsulatedPacket packet).1.toTunn = t.toTunn ∧
      (t.validateDecapsulatedPacket packet).2 = Tunn.validateDecapsulatedPacket packet := by
  unfold validateDecapsulatedPacket
  split
  · rename_i h
    exact ⟨rfl, h.symm⟩
  · rename_i h
    exact ⟨rfl, h.symm⟩
  · exact ⟨rfl, rfl⟩

theorem handleVerifiedPacket_untimed (t : TimedTunn) (packet : Packet) :
    (t.handleVerifiedPacket packet).1.toTunn = (t.toTunn.handleVerifiedPacket packet).1 ∧
      (t.handleVerifiedPacket packet).2 = (t.toTunn.handleVerifiedPacket packet).2 := by
  cases packet with
  | handshakeInit peer session => cases session <;> exact ⟨rfl, rfl⟩
  | handshakeResponse idx session => cases session <;> exact ⟨rfl, rfl⟩
  | cookieReply idx accepted => cases accepted <;> exact ⟨rfl, rfl⟩
  | data idx opened =>
    simp only [handleVerifiedPacket, Tunn.handleVerifiedPacket]
    cases hs : t.sessions (Tunn.slot idx.toNat) with
    | none => exact ⟨rfl, rfl⟩
    | some session =>
      by_cases hidx : idx ≠ session.receivingIndex
      · simp [hidx]
      · simp only [hidx, if_false]
        cases opened with
        | error e => exact ⟨rfl, rfl⟩
        | ok inner => exact validate_untimed _ inner

/-- The tunnel without timers, once it was told the time. -/
def told (t : TimedTunn) : Tunn := (t.toTunn.updateTimers 0 (.readClock t.clock)).1

theorem initiation_untimed (t : TimedTunn) (dst : Nat) (force : Bool) :
    ∃ u, (u = t.toTunn ∨ u = t.told) ∧
      (t.formatHandshakeInitiation dst force).1.toTunn = (u.formatHandshakeInitiation dst force).1 ∧
      (t.formatHandshakeInitiation dst force).2 = (u.formatHandshakeInitiation dst force).2 := by
  by_cases hp : (t.handshake.isInProgress && !force) = true
  · exact ⟨t.toTunn, .inl rfl,
      by simp [formatHandshakeInitiation, Tunn.formatHandshakeInitiation, hp]⟩
  · by_cases he : t.handshake = .expired
    · refine ⟨t.told, .inr rfl, ?_⟩
      by_cases hd : dst < handshakeInitSz <;>
        simp [formatHandshakeInitiation, Tunn.formatHandshakeInitiation, told, Tunn.updateTimers,
          clearTimers, HandshakeState.isInProgress, he, hd]
    · refine ⟨t.toTunn, .inl rfl, ?_⟩
      by_cases hd : dst < handshakeInitSz
      · simp [formatHandshakeInitiation, Tunn.formatHandshakeInitiation, hp, he, hd]
      · simp only [formatHandshakeInitiation, Tunn.formatHandshakeInitiation, hp, he, hd, if_false]
        cases t.handshake.isInProgress <;> exact ⟨rfl, rfl⟩

theorem encapsulate_untimed (t : TimedTunn) (src : InnerPacket) (dst : Nat) :
    ∃ u, (u = t.toTunn ∨ u = t.told) ∧
      (t.encapsulate src dst).1.toTunn = (u.encapsulate src dst).1 ∧
      (t.encapsulate src dst).2 = (u.encapsulate src dst).2 := by
  cases hs : t.currentSession with
  | some session =>
    refine ⟨t.toTunn, .inl rfl, ?_⟩
    simp only [encapsulate, Tunn.encapsulate, hs]
    split <;> simp
  | none =>
    obtain ⟨u, hu, hsame⟩ :=
      initiation_untimed { t with toTunn := t.queuePacket src } dst false
    have htold : t.told.currentSession = none := hs
    rcases hu with rfl | rfl
    · exact ⟨t.toTunn, .inl rfl, by simpa only [encapsulate, Tunn.encapsulate, hs] using hsame⟩
    · refine ⟨t.told, .inr rfl, ?_⟩
      have hqueue : ({ t with toTunn := t.queuePacket src } : TimedTunn).told =
          t.told.queuePacket src := by
        by_cases hq : t.packetQueue.length < maxQueueDepth <;>
          simp [told, Tunn.updateTimers, Tunn.queuePacket, hq]
      rw [hqueue] at hsame
      simpa only [encapsulate, Tunn.encapsulate, hs, htold] using hsame

/-- The call ends as one outcome of the periodic call of the tunnel without
timers, and writes what that writes. -/
def EndsAs (u : Tunn) (dst : Nat) (r : TimedTunn × TunnResult) : Prop :=
  ∃ outcome, r.1.toTunn = (u.updateTimers dst outcome).1 ∧
    ∀ datagram, r.2 = .writeToNetwork datagram ↔
      (u.updateTimers dst outcome).2 = .writeToNetwork datagram

theorem endsAs_quiet (t : TimedTunn) (dst : Nat) (hr : ∀ datagram, r ≠ .writeToNetwork datagram) :
    EndsAs t.toTunn dst (t, r) :=
  ⟨.readClock t.timeCurrent, rfl, fun datagram => by simp [Tunn.updateTimers, hr datagram]⟩

theorem told_eq {t : TimedTunn} (h : t.timeCurrent = t.clock) : t.told = t.toTunn := by
  simp [told, Tunn.updateTimers, ← h]

theorem endsAs_initiation {t : TimedTunn} (h : t.timeCurrent = t.clock) (dst : Nat) :
    EndsAs t.toTunn dst (t.formatHandshakeInitiation dst true) := by
  obtain ⟨u, hu, hstate, hresult⟩ := initiation_untimed t dst true
  rw [told_eq h, or_self] at hu
  subst hu
  exact ⟨.handshakeRetry, hstate, fun datagram => by rw [hresult]; rfl⟩

theorem endsAs_keepalive {t : TimedTunn} (h : t.timeCurrent = t.clock) (dst : Nat) :
    EndsAs t.toTunn dst (t.encapsulate ⟨[], .keepalive⟩ dst) := by
  obtain ⟨u, hu, hstate, hresult⟩ := encapsulate_untimed t ⟨[], .keepalive⟩ dst
  rw [told_eq h, or_self] at hu
  subst hu
  exact ⟨.keepalive, hstate, fun datagram => by rw [hresult]; rfl⟩

theorem endsAs_expired {t : TimedTunn} (h : t.timeCurrent = t.clock) (dst : Nat) :
    EndsAs t.toTunn dst (t.expireConnection, .err .connectionExpired) :=
  ⟨.connectionExpired, by simp [expireConnection, clearAll, clearTimers, Tunn.updateTimers, h],
    fun datagram => Iff.rfl⟩

theorem endsAs_same {t t' : TimedTunn} (h : t.timeCurrent = t.clock) (ht : t'.toTunn = t.toTunn)
    (hc : t'.clock = t.clock) (dst : Nat) :
    EndsAs t.toTunn dst (t'.formatHandshakeInitiation dst true) ∧
      EndsAs t.toTunn dst (t'.encapsulate ⟨[], .keepalive⟩ dst) ∧
      EndsAs t.toTunn dst (t', .done) ∧
      EndsAs t.toTunn dst (t'.expireConnection, .err .connectionExpired) := by
  have h' : t'.timeCurrent = t'.clock := by rw [hc, ht, h]
  rw [← ht]
  exact ⟨endsAs_initiation h' dst, endsAs_keepalive h' dst, endsAs_quiet t' dst (by simp),
    endsAs_expired h' dst⟩

theorem endsAs_established {t t' : TimedTunn} (h : t.timeCurrent = t.clock)
    (ht : t'.toTunn = t.toTunn) (hc : t'.clock = t.clock) (now dst : Nat) :
    EndsAs t.toTunn dst (t'.updateEstablished now dst) := by
  unfold updateEstablished
  simp only
  split
  · refine (endsAs_same h ?_ ?_ dst).1 <;> assumption
  · split
    · refine (endsAs_same h ?_ ?_ dst).2.1 <;> split <;> assumption
    · refine (endsAs_same h ?_ ?_ dst).2.2.1 <;> split <;> assumption

/-- The periodic call reads the clock, drops the old sessions, and ends as
one of its outcomes. -/
theorem updateTimers_untimed (t : TimedTunn) (dst : Nat) :
    ∃ slots, EndsAs ((t.told.updateTimers dst (.expireSessions slots)).1) dst
      (t.updateTimers dst) := by
  refine ⟨(List.finRange nSessions).filter fun i =>
    t.clock - t.sessionTimers i > rejectAfterTime, ?_⟩
  have hdropped : (t.told.updateTimers dst (.expireSessions ((List.finRange nSessions).filter
      fun i => t.clock - t.sessionTimers i > rejectAfterTime))).1 =
      (({ t with timeCurrent := t.clock } : TimedTunn).updateSessionTimers t.clock).toTunn := by
    simp [told, Tunn.updateTimers, updateSessionTimers, List.mem_filter, List.mem_finRange]
  rw [hdropped]
  generalize hu : ({ t with timeCurrent := t.clock } : TimedTunn).updateSessionTimers t.clock = u
  have hclock : u.timeCurrent = u.clock := by rw [← hu]; rfl
  simp only [updateTimers, hu]
  split
  · exact endsAs_quiet u dst (by simp)
  · split
    · exact (endsAs_same hclock rfl rfl dst).2.2.2
    · split
      · split
        · exact (endsAs_same hclock rfl rfl dst).2.2.2
        · split
          · refine (endsAs_same hclock ?_ ?_ dst).1 <;> rfl
          · exact (endsAs_same hclock rfl rfl dst).2.2.1
      · refine endsAs_established hclock ?_ ?_ t.clock dst <;> rfl

-- ---------------------------------------------------------------------------
-- Sessions come from handshakes
-- ---------------------------------------------------------------------------

end TimedTunn

namespace Tunn

def Idle (t : Tunn) : Prop := ∀ i, t.sessions i = none

theorem Idle.currentSession {t : Tunn} (h : t.Idle) : t.currentSession = none := h _

@[simp] theorem formatHandshakeInitiation_sessions (t : Tunn) :
    (t.formatHandshakeInitiation dst force).1.sessions = t.sessions := by
  unfold formatHandshakeInitiation
  split
  · rfl
  · split <;> rfl

@[simp] theorem queuePacket_sessions (t : Tunn) : (t.queuePacket src).sessions = t.sessions := by
  unfold queuePacket; split <;> rfl

@[simp] theorem encapsulate_sessions (t : Tunn) :
    (t.encapsulate src dst).1.sessions = t.sessions := by
  unfold encapsulate
  split <;> simp

@[simp] theorem setCurrentSession_sessions (t : Tunn) :
    (t.setCurrentSession i).sessions = t.sessions := by
  unfold setCurrentSession
  split
  · rfl
  · split <;> rfl

theorem Idle.updateTimers {t : Tunn} (h : t.Idle) (dst : Nat) (outcome : TimerOutcome) :
    (t.updateTimers dst outcome).1.Idle := by
  intro i
  cases outcome with
  | readClock timeNow => exact h i
  | expireSessions slots => simp [Tunn.updateTimers, h i]
  | connectionExpired => rfl
  | handshakeRetry => simpa [Tunn.updateTimers] using h i
  | keepalive => simpa [Tunn.updateTimers] using h i

end Tunn

namespace TimedTunn

theorem encapsulate_idle {t : TimedTunn} (h : t.Idle) (src : InnerPacket) (dst : Nat) :
    (t.encapsulate src dst).1.Idle := by
  obtain ⟨u, hu, hstate, -⟩ := encapsulate_untimed t src dst
  have hu' : u.Idle := by rcases hu with rfl | rfl <;> exact h
  rw [hstate]
  intro i
  rw [Tunn.encapsulate_sessions]
  exact hu' i

theorem call_idle {t : TimedTunn} (h : t.Idle) (c : Call) (hc : c.completesHandshake = false) :
    (t.call c).1.Idle := by
  cases c with
  | encapsulate src dst => exact encapsulate_idle h src dst
  | decapsulate packet =>
    rw [call, (handleVerifiedPacket_untimed t packet).1]
    cases packet with
    | handshakeInit peer session =>
      cases session with
      | error e => exact h
      | ok session => cases hc
    | handshakeResponse idx session =>
      cases session with
      | error e => exact h
      | ok session => cases hc
    | cookieReply idx accepted => cases accepted <;> exact h
    | data idx opened =>
      simp only [Tunn.handleVerifiedPacket, h _]
      exact h
  | sendQueuedPacket dst =>
    simp only [call, sendQueuedPacket]
    split
    · exact h
    · rename_i packet rest hq
      have hidle := encapsulate_idle (t := { t with packetQueue := rest }) h packet dst
      split
      · rename_i t' e he
        rw [he] at hidle
        intro i
        simp only [Tunn.requeuePacket]
        split <;> exact hidle i
      · exact hidle
  | formatHandshakeInitiation dst force =>
    obtain ⟨u, hu, hstate, -⟩ := initiation_untimed t dst force
    have hu' : u.Idle := by rcases hu with rfl | rfl <;> exact h
    rw [call, hstate]
    intro i
    rw [Tunn.formatHandshakeInitiation_sessions]
    exact hu' i
  | updateTimers dst =>
    obtain ⟨slots, outcome, hstate, -⟩ := updateTimers_untimed t dst
    have htold : t.told.Idle := h
    rw [call, hstate]
    exact (htold.updateTimers dst (.expireSessions slots)).updateTimers dst outcome
  | setStaticPrivate => exact fun i => rfl

theorem lastHandshakeTimeSec_idle {t : TimedTunn} (h : t.Idle) : t.lastHandshakeTimeSec = none := by
  simp [lastHandshakeTimeSec, timeSinceLastHandshake, Tunn.Idle.currentSession h]

end TimedTunn

end Xelt.Boringtun.Noise
