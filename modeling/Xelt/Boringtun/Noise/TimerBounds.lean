import Xelt.Boringtun.Noise.Timers
import Xelt.Lib.Runs

/-!
# No timer is ahead of the clock

A `Duration` is subtracted from a later one or the program panics. The
periodic call and the statistics are told here with the subtractions they
make, `none` where one would panic, and the tunnel is followed through all its
operations together with the times at which its sessions were established.
-/

namespace Xelt.Boringtun.Noise

open Runs

/-- `a - b` of two durations. -/
def durationSub (a b : Nat) : Option Nat := if b ≤ a then some (a - b) else none

/-- `now - timer >= limit`. -/
def elapsedAtLeast (now timer limit : Nat) : Option Bool :=
  (durationSub now timer).map fun age => decide (age ≥ limit)

theorem durationSub_of_le (h : b ≤ a) : durationSub a b = some (a - b) := if_pos h

theorem elapsedAtLeast_of_le (h : timer ≤ now) :
    elapsedAtLeast now timer limit = some (decide (now - timer ≥ limit)) := by
  rw [elapsedAtLeast, durationSub_of_le h]
  rfl

namespace TimedTunn

-- ---------------------------------------------------------------------------
-- The calls with their subtractions
-- ---------------------------------------------------------------------------

/-- Each session timer is compared by itself, whatever became of the others. -/
def checkedSessionTimers (t : TimedTunn) (timeNow : Nat) : Option TimedTunn :=
  if ∀ i, (durationSub timeNow (t.sessionTimers i)).isSome then some (t.updateSessionTimers timeNow)
  else none

def checkedRekey (t : TimedTunn) (now : Nat) : Option Bool :=
  let sessionEstablished := t.timers .timeSessionEstablished
  if t.isInitiator then do
    let onSend ← if sessionEstablished < t.timers .timeLastDataPacketSent then
        elapsedAtLeast now sessionEstablished rekeyAfterTime
      else some false
    let onReceive ← if sessionEstablished < t.timers .timeLastDataPacketReceived then do
        let age ← durationSub now sessionEstablished
        let limit ← durationSub rejectAfterTime keepaliveTimeout
        let limit ← durationSub limit rekeyTimeout
        some (decide (age ≥ limit))
      else some false
    some (onSend || onReceive)
  else some false

def checkedHandshakeDue (t : TimedTunn) (now : Nat) : Option Bool :=
  if t.timers .timeLastDataPacketSent > t.timers .timeLastPacketReceived then
    elapsedAtLeast now (t.timers .timeLastPacketReceived) (keepaliveTimeout + rekeyTimeout)
  else some false

def checkedKeepaliveDue (t : TimedTunn) (now : Nat) : Option Bool :=
  if t.timers .timeLastDataPacketReceived > t.timers .timeLastPacketSent then
    elapsedAtLeast now (t.timers .timeLastPacketSent) keepaliveTimeout
  else some false

def checkedPersistentKeepalive (t : TimedTunn) (now : Nat) : Option Bool :=
  if t.persistentKeepalive > 0 then
    elapsedAtLeast now (t.timers .timePersistentKeepalive) (t.persistentKeepalive.toNat * second)
  else some false

def checkedEstablished (t : TimedTunn) (now dst : Nat) : Option (TimedTunn × TunnResult) := do
  let rekey ← t.checkedRekey now
  let due ← t.checkedHandshakeDue now
  let handshakeInitiationRequired := rekey || due && t.wantHandshake
  let t := { t with wantHandshake := !due && t.wantHandshake }
  if handshakeInitiationRequired then some (t.formatHandshakeInitiation dst true)
  else do
    let due ← t.checkedKeepaliveDue now
    let keepaliveRequired := due && t.wantKeepalive
    let t := { t with wantKeepalive := !due && t.wantKeepalive }
    let persistent ← t.checkedPersistentKeepalive now
    let t := if persistent then t.timerTick .timePersistentKeepalive else t
    if keepaliveRequired || persistent then some (t.encapsulate ⟨[], .keepalive⟩ dst)
    else some (t, .done)

def checkedCookieExpired (t : TimedTunn) (now : Nat) : Option Bool :=
  if t.hasCookie then elapsedAtLeast now (t.timers .timeCookieReceived) cookieExpirationTime
  else some false

/-- `update_timers`, at the reading `now` that it begins with. Its later
readings are `late` after that one; `resend` is what `time_init_sent.elapsed()`
says then. -/
def checkedTimers (t : TimedTunn) (late : Nat) (resend : Bool) (dst : Nat) :
    Option (TimedTunn × TunnResult) := do
  let now := t.clock
  let t ← ({ t with timeCurrent := now } : TimedTunn).checkedSessionTimers now
  let t := t.elapse late
  if t.handshake = .expired then some (t, .err .connectionExpired)
  else do
    let cookieExpired ← t.checkedCookieExpired now
    let t := { t with hasCookie := t.hasCookie && !cookieExpired }
    let old ← elapsedAtLeast now (t.timers .timeSessionEstablished) (rejectAfterTime * 3)
    if old then some (t.expireConnection, .err .connectionExpired)
    else if t.handshake = .initSent then do
      let stale ← elapsedAtLeast now (t.timers .timeLastHandshakeStarted) rekeyAttemptTime
      if stale then some (t.expireConnection, .err .connectionExpired)
      else if resend then some (t.formatHandshakeInitiation dst true)
      else some (t, .done)
    else t.checkedEstablished now dst

/-- `time_since_last_handshake`. -/
def checkedLastHandshake (t : TimedTunn) : Option (Option Nat) :=
  if t.currentSession.isSome then
    (durationSub t.clock (t.timers .timeSessionEstablished)).map some
  else some none

-- ---------------------------------------------------------------------------
-- Timers behind the clock
-- ---------------------------------------------------------------------------

structure Behind (t : TimedTunn) : Prop where
  timeCurrent : t.timeCurrent ≤ t.clock
  timers : ∀ name, t.timers name ≤ t.clock
  sessionTimers : ∀ i, t.sessionTimers i ≤ t.clock

/-- From `t` to `t'` the clock does not go back, no timer gets ahead of it, and
no session is established or moved. -/
structure Quiet (t t' : TimedTunn) : Prop where
  clock : t.clock ≤ t'.clock
  behind : t.Behind → t'.Behind
  sessions : ∀ i session, t'.sessions i = some session →
    t.sessions i = some session ∧ t'.sessionTimers i = t.sessionTimers i

namespace Quiet

variable {t t' t'' : TimedTunn}

theorem refl (t : TimedTunn) : Quiet t t := ⟨le_refl _, id, fun _ _ h => ⟨h, rfl⟩⟩

theorem trans (h : Quiet t t') (h' : Quiet t' t'') : Quiet t t'' where
  clock := h.clock.trans h'.clock
  behind hb := h'.behind (h.behind hb)
  sessions i session hs := by
    obtain ⟨hs', htimer'⟩ := h'.sessions i session hs
    obtain ⟨hs'', htimer⟩ := h.sessions i session hs'
    exact ⟨hs'', htimer'.trans htimer⟩

/-- The flags, the queue, the handshake and the current session are no
timers. -/
theorem of_eq (hclock : t'.clock = t.clock) (hcurrent : t'.timeCurrent = t.timeCurrent)
    (htimers : t'.timers = t.timers) (hsessions : t'.sessions = t.sessions)
    (hsession : t'.sessionTimers = t.sessionTimers) : Quiet t t' where
  clock := hclock.ge
  behind hb := by
    constructor
    · rw [hcurrent, hclock]
      exact hb.timeCurrent
    · rw [htimers, hclock]
      exact hb.timers
    · rw [hsession, hclock]
      exact hb.sessionTimers
  sessions i session hs := by
    rw [hsessions] at hs
    exact ⟨hs, congrFun hsession i⟩

theorem elapse (t : TimedTunn) (ns : Nat) : Quiet t (t.elapse ns) where
  clock := Nat.le_add_right ..
  behind hb :=
    ⟨hb.timeCurrent.trans (Nat.le_add_right ..), fun name => (hb.timers name).trans
      (Nat.le_add_right ..), fun i => (hb.sessionTimers i).trans (Nat.le_add_right ..)⟩
  sessions _ _ hs := ⟨hs, rfl⟩

theorem timerTick (t : TimedTunn) (name : TimerName) : Quiet t (t.timerTick name) where
  clock := le_refl _
  behind hb := by
    refine ⟨hb.timeCurrent, fun other => ?_, hb.sessionTimers⟩
    by_cases h : other = name
    · subst h
      simpa [TimedTunn.timerTick] using hb.timeCurrent
    · simpa [TimedTunn.timerTick, h] using hb.timers other
  sessions _ _ hs := ⟨hs, rfl⟩

theorem clearTimers (t : TimedTunn) : Quiet t t.clearTimers where
  clock := le_refl _
  behind hb := ⟨le_refl _, fun _ => le_refl _, hb.sessionTimers⟩
  sessions _ _ hs := ⟨hs, rfl⟩

theorem expireConnection (t : TimedTunn) : Quiet t t.expireConnection where
  clock := le_refl _
  behind hb := ⟨le_refl _, fun _ => le_refl _, hb.sessionTimers⟩
  sessions _ _ hs := by simp [TimedTunn.expireConnection, clearAll, TimedTunn.clearTimers] at hs

theorem formatHandshakeInitiation (t : TimedTunn) (dst : Nat) (force : Bool) :
    Quiet t (t.formatHandshakeInitiation dst force).1 := by
  unfold TimedTunn.formatHandshakeInitiation
  split
  · exact refl t
  · have hcleared : Quiet t (if t.handshake = .expired then t.clearTimers else t) := by
      split
      · exact clearTimers t
      · exact refl t
    dsimp only
    generalize (if t.handshake = .expired then t.clearTimers else t) = u at hcleared ⊢
    split
    · exact hcleared
    · refine hcleared.trans (trans ?_ (timerTick _ _))
      split
      · refine trans ?_ (timerTick _ _)
        exact of_eq rfl rfl rfl rfl rfl
      · exact of_eq rfl rfl rfl rfl rfl

theorem queuePacket (t : TimedTunn) (src : InnerPacket) :
    Quiet t { t with toTunn := t.queuePacket src } := by
  unfold Tunn.queuePacket
  split <;> exact of_eq rfl rfl rfl rfl rfl

theorem requeuePacket (t : TimedTunn) (packet : InnerPacket) :
    Quiet t { t with toTunn := t.requeuePacket packet } := by
  unfold Tunn.requeuePacket
  split <;> exact of_eq rfl rfl rfl rfl rfl

theorem encapsulate (t : TimedTunn) (src : InnerPacket) (dst : Nat) :
    Quiet t (t.encapsulate src dst).1 := by
  unfold TimedTunn.encapsulate
  split
  · dsimp only
    split
    · exact timerTick _ _
    · exact (timerTick _ _).trans (timerTick _ _)
  · exact (queuePacket t src).trans (formatHandshakeInitiation _ _ _)

theorem sendQueuedPacket (t : TimedTunn) (dst : Nat) : Quiet t (t.sendQueuedPacket dst).1 := by
  unfold TimedTunn.sendQueuedPacket
  split
  · exact refl t
  · rename_i packet rest hq
    have htaken : Quiet t { t with packetQueue := rest } := of_eq rfl rfl rfl rfl rfl
    have hsent := htaken.trans (encapsulate { t with packetQueue := rest } packet dst)
    split
    · rename_i t' e he
      rw [he] at hsent
      exact hsent.trans (requeuePacket t' packet)
    · exact hsent

theorem setCurrentSession (t : TimedTunn) (idx : Nat) :
    Quiet t { t with toTunn := t.setCurrentSession idx } := by
  unfold Tunn.setCurrentSession
  split
  · exact refl t
  · split <;> exact of_eq rfl rfl rfl rfl rfl

theorem setStaticPrivate (t : TimedTunn) : Quiet t t.setStaticPrivate where
  clock := le_refl _
  behind hb := ⟨hb.timeCurrent, hb.timers, hb.sessionTimers⟩
  sessions _ _ hs := by simp [TimedTunn.setStaticPrivate, Tunn.setStaticPrivate] at hs

theorem validateDecapsulatedPacket (t : TimedTunn) (packet : Bytes) :
    Quiet t (t.validateDecapsulatedPacket packet).1 := by
  unfold TimedTunn.validateDecapsulatedPacket
  split
  · exact timerTick _ _
  · exact timerTick _ _
  · exact refl t

theorem updateEstablished (t : TimedTunn) (now dst : Nat) :
    Quiet t (t.updateEstablished now dst).1 := by
  unfold TimedTunn.updateEstablished
  dsimp only
  split
  · refine trans ?_ (formatHandshakeInitiation _ _ _)
    exact of_eq rfl rfl rfl rfl rfl
  · have hticked : Quiet t (if t.persistentKeepaliveDue now then
        ({ t with
          wantHandshake := !t.handshakeDue now && t.wantHandshake
          wantKeepalive := !t.keepaliveDue now && t.wantKeepalive } : TimedTunn).timerTick
            .timePersistentKeepalive
        else { t with
          wantHandshake := !t.handshakeDue now && t.wantHandshake
          wantKeepalive := !t.keepaliveDue now && t.wantKeepalive }) := by
      split
      · refine trans ?_ (timerTick _ _)
        exact of_eq rfl rfl rfl rfl rfl
      · exact of_eq rfl rfl rfl rfl rfl
    split
    · exact trans hticked (encapsulate _ _ _)
    · exact hticked

end Quiet

-- ---------------------------------------------------------------------------
-- The subtractions of the periodic call
-- ---------------------------------------------------------------------------

theorem checkedRekey_eq (h : t.timers .timeSessionEstablished ≤ now) :
    checkedRekey t now = some (t.rekeyRequired now) := by
  have hlimit : durationSub rejectAfterTime keepaliveTimeout =
      some (rejectAfterTime - keepaliveTimeout) := by decide
  have hlimit' : durationSub (rejectAfterTime - keepaliveTimeout) rekeyTimeout =
      some (rejectAfterTime - keepaliveTimeout - rekeyTimeout) := by decide
  unfold checkedRekey rekeyRequired
  cases t.isInitiator with
  | false => rfl
  | true =>
    by_cases hsent : t.timers .timeSessionEstablished < t.timers .timeLastDataPacketSent <;>
      by_cases hreceived :
        t.timers .timeSessionEstablished < t.timers .timeLastDataPacketReceived <;>
      simp [hsent, hreceived, elapsedAtLeast_of_le h, durationSub_of_le h, hlimit, hlimit']

theorem checkedHandshakeDue_eq (h : t.timers .timeLastPacketReceived ≤ now) :
    checkedHandshakeDue t now = some (t.handshakeDue now) := by
  unfold checkedHandshakeDue handshakeDue
  rw [elapsedAtLeast_of_le h]
  split <;> simp_all

theorem checkedKeepaliveDue_eq (h : t.timers .timeLastPacketSent ≤ now) :
    checkedKeepaliveDue t now = some (t.keepaliveDue now) := by
  unfold checkedKeepaliveDue keepaliveDue
  rw [elapsedAtLeast_of_le h]
  split <;> simp_all

theorem checkedPersistentKeepalive_eq (h : t.timers .timePersistentKeepalive ≤ now) :
    checkedPersistentKeepalive t now = some (t.persistentKeepaliveDue now) := by
  unfold checkedPersistentKeepalive persistentKeepaliveDue
  rw [elapsedAtLeast_of_le h]
  split <;> simp_all

theorem checkedEstablished_eq (h : ∀ name, t.timers name ≤ now) (dst : Nat) :
    checkedEstablished t now dst = some (t.updateEstablished now dst) := by
  unfold checkedEstablished updateEstablished
  simp only [checkedRekey_eq (h _), checkedHandshakeDue_eq (h _), Option.bind_eq_bind,
    Option.bind_some]
  split
  · rfl
  · have hkeepalive : checkedKeepaliveDue
        { t with wantHandshake := !t.handshakeDue now && t.wantHandshake } now =
          some (t.keepaliveDue now) := checkedKeepaliveDue_eq (h _)
    have hpersistent (want : Bool) : checkedPersistentKeepalive
        { t with
          wantHandshake := !t.handshakeDue now && t.wantHandshake
          wantKeepalive := want } now = some (t.persistentKeepaliveDue now) :=
      checkedPersistentKeepalive_eq (h _)
    simp only [hkeepalive, hpersistent, Option.bind_some]
    exact (apply_ite some _ _ _).symm

theorem checkedSessionTimers_eq (h : ∀ i, t.sessionTimers i ≤ now) :
    checkedSessionTimers t now = some (t.updateSessionTimers now) := by
  rw [checkedSessionTimers, if_pos]
  intro i
  rw [durationSub_of_le (h i)]
  rfl

/-- The first part of the periodic call: it reads the clock and drops the old
sessions. -/
def swept (t : TimedTunn) : TimedTunn :=
  ({ t with timeCurrent := t.clock } : TimedTunn).updateSessionTimers t.clock

theorem quiet_swept (t : TimedTunn) : Quiet t t.swept where
  clock := le_refl _
  behind hb := by
    refine ⟨le_refl _, hb.timers, fun i => ?_⟩
    simp only [swept, updateSessionTimers]
    split
    · exact le_refl _
    · exact hb.sessionTimers i
  sessions i session hs := by
    simp only [swept, updateSessionTimers] at hs ⊢
    split at hs
    · exact absurd hs (by simp)
    · rename_i hyoung
      exact ⟨hs, if_neg hyoung⟩

theorem swept_young (t : TimedTunn) (hs : t.swept.sessions i = some session) :
    t.clock - t.swept.sessionTimers i ≤ rejectAfterTime := by
  simp only [swept, updateSessionTimers] at hs ⊢
  split at hs
  · exact absurd hs (by simp)
  · rename_i hyoung
    rw [if_neg hyoung]
    exact not_lt.mp hyoung

/-- The periodic call does not panic, and after it has dropped the old sessions
it establishes none. -/
theorem checkedTimers_spec (hb : t.Behind) (late : Nat) (resend : Bool) (dst : Nat) :
    ∃ r, checkedTimers t late resend dst = some r ∧ Quiet t.swept r.1 := by
  have htimers : ∀ name, (t.swept.elapse late).timers name ≤ t.clock := hb.timers
  have hswept : ({ t with timeCurrent := t.clock } : TimedTunn).checkedSessionTimers t.clock =
      some t.swept := checkedSessionTimers_eq hb.sessionTimers
  unfold checkedTimers
  simp only [hswept, Option.bind_eq_bind, Option.bind_some]
  have hlate : Quiet t.swept (t.swept.elapse late) := .elapse t.swept late
  generalize t.swept.elapse late = u at htimers hlate ⊢
  by_cases hexpired : u.handshake = .expired
  · rw [if_pos hexpired]
    exact ⟨_, rfl, hlate⟩
  obtain ⟨cookieExpired, hcookie⟩ : ∃ b, u.checkedCookieExpired t.clock = some b := by
    unfold checkedCookieExpired
    split
    · exact ⟨_, elapsedAtLeast_of_le (htimers _)⟩
    · exact ⟨_, rfl⟩
  rw [if_neg hexpired, hcookie, Option.bind_some]
  have hkept : Quiet t.swept { u with hasCookie := u.hasCookie && !cookieExpired } := by
    refine hlate.trans ?_
    exact .of_eq rfl rfl rfl rfl rfl
  have htimers' : ∀ name,
      ({ u with hasCookie := u.hasCookie && !cookieExpired } : TimedTunn).timers name ≤ t.clock :=
    htimers
  generalize ({ u with hasCookie := u.hasCookie && !cookieExpired } : TimedTunn) = v
    at hkept htimers' ⊢
  rw [elapsedAtLeast_of_le (htimers _), Option.bind_some]
  split
  · exact ⟨_, rfl, hkept.trans (.expireConnection v)⟩
  · split
    · rw [elapsedAtLeast_of_le (htimers _), Option.bind_some]
      split
      · exact ⟨_, rfl, hkept.trans (.expireConnection v)⟩
      · split
        · exact ⟨_, rfl, hkept.trans (.formatHandshakeInitiation v dst true)⟩
        · exact ⟨_, rfl, hkept⟩
    · exact ⟨_, checkedEstablished_eq htimers' dst, hkept.trans (.updateEstablished v _ dst)⟩

/-- With a clock that stands still within the call it is the periodic call of
the tunnel without panics. -/
theorem checkedTimers_eq (hb : t.Behind) (dst : Nat) :
    checkedTimers t 0 (decide (t.clock - t.timeSent ≥ rekeyTimeout)) dst =
      some (t.updateTimers dst) := by
  have htimers : ∀ name, t.swept.timers name ≤ t.clock := hb.timers
  have hswept : ({ t with timeCurrent := t.clock } : TimedTunn).checkedSessionTimers t.clock =
      some t.swept := checkedSessionTimers_eq hb.sessionTimers
  unfold checkedTimers updateTimers
  simp only [hswept, Option.bind_eq_bind, Option.bind_some]
  have hstill : t.swept.elapse 0 = t.swept := rfl
  have hclock : t.swept.clock = t.clock := rfl
  have htimeSent : t.swept.timeSent = t.timeSent := rfl
  rw [hstill, ← swept]
  generalize t.swept = u at htimers hclock htimeSent ⊢
  have hcookie : u.checkedCookieExpired t.clock = some (u.hasCookie &&
      decide (t.clock - u.timers .timeCookieReceived ≥ cookieExpirationTime)) := by
    rw [checkedCookieExpired, elapsedAtLeast_of_le (htimers _)]
    cases u.hasCookie <;> rfl
  have hkept : (u.hasCookie && !(u.hasCookie &&
      decide (t.clock - u.timers .timeCookieReceived ≥ cookieExpirationTime))) = (u.hasCookie &&
        !decide (t.clock - u.timers .timeCookieReceived ≥ cookieExpirationTime)) := by
    cases u.hasCookie <;> rfl
  simp only [hcookie, elapsedAtLeast_of_le (htimers _), Option.bind_some, hkept, hclock,
    htimeSent, decide_eq_true_eq]
  split
  · rfl
  · split
    · rfl
    · split
      · split
        · rfl
        · split <;> rfl
      · rw [checkedEstablished_eq (t := { u with
            clock := t.clock
            timeSent := t.timeSent
            hasCookie := u.hasCookie &&
              !decide (t.clock - u.timers .timeCookieReceived ≥ cookieExpirationTime) })
          htimers dst]

theorem checkedLastHandshake_of_behind (hb : t.Behind) :
    checkedLastHandshake t = some t.timeSinceLastHandshake := by
  rw [checkedLastHandshake, timeSinceLastHandshake, durationSub_of_le (hb.timers _)]
  split <;> rfl

end TimedTunn

-- ---------------------------------------------------------------------------
-- Runs
-- ---------------------------------------------------------------------------

/-- A tunnel and the times at which the sessions in its slots were established. -/
structure Watched where
  tunn : TimedTunn
  established : Fin nSessions → Nat

/-- The operations of a tunnel, and time that passes between them. An initiation
that passes with no room for its response is taken over all the same. -/
inductive TunnOp
  | elapse (ns : Nat)
  | encapsulate (src : InnerPacket) (dst : Nat)
  | decapsulate (packet : Packet)
  | crampedInitiation
  | sendQueuedPacket (dst : Nat)
  | formatHandshakeInitiation (dst : Nat) (forceResend : Bool)
  | setStaticPrivate
  | updateTimers (late : Nat) (resend : Bool) (dst : Nat)
  | stats

/-- The session that a packet establishes. -/
def Packet.establishes : Packet → Option Session
  | .handshakeInit _ (.ok session) => some session
  | .handshakeResponse _ (.ok (session, _)) => some session
  | _ => none

namespace Watched

def new (persistentKeepalive : Option UInt16) : Watched := ⟨.new persistentKeepalive, fun _ => 0⟩

/-- No step where a subtraction panics. -/
def step (w : Watched) : TunnOp → Option Watched
  | .elapse ns => some { w with tunn := w.tunn.elapse ns }
  | .encapsulate src dst => some { w with tunn := (w.tunn.encapsulate src dst).1 }
  | .decapsulate packet =>
    some
      { tunn := (w.tunn.handleVerifiedPacket packet).1
        established := match packet.establishes with
          | some session =>
            Function.update w.established (Tunn.slot session.receivingIndex.toNat) w.tunn.clock
          | none => w.established }
  | .crampedInitiation => some { w with tunn := { w.tunn with handshake := .initReceived } }
  | .sendQueuedPacket dst => some { w with tunn := (w.tunn.sendQueuedPacket dst).1 }
  | .formatHandshakeInitiation dst forceResend =>
    some { w with tunn := (w.tunn.formatHandshakeInitiation dst forceResend).1 }
  | .setStaticPrivate => some { w with tunn := w.tunn.setStaticPrivate }
  | .updateTimers late resend dst =>
    (w.tunn.checkedTimers late resend dst).map fun r => { w with tunn := r.1 }
  | .stats => w.tunn.checkedLastHandshake.map fun _ => w

/-- The invariant: the timer of a stored session is at most the time at which
the session was established. -/
structure Timely (w : Watched) : Prop where
  behind : w.tunn.Behind
  past : ∀ i, w.established i ≤ w.tunn.clock
  stored : ∀ i session, w.tunn.sessions i = some session →
    w.tunn.sessionTimers i ≤ w.established i

theorem timely_new (persistentKeepalive : Option UInt16) : (new persistentKeepalive).Timely :=
  ⟨⟨le_refl _, fun _ => le_refl _, fun _ => le_refl _⟩, fun _ => le_refl _, fun _ _ h => nomatch h⟩

theorem Timely.quiet {w : Watched} (h : w.Timely) (hq : w.tunn.Quiet t) :
    Timely { w with tunn := t } where
  behind := hq.behind h.behind
  past i := (h.past i).trans hq.clock
  stored i session hs := by
    obtain ⟨hs', htimer⟩ := hq.sessions i session hs
    rw [htimer]
    exact h.stored i session hs'

theorem Timely.establish {w : Watched} (h : w.Timely) (hq : w.tunn.Quiet t)
    (hclock : t.clock = w.tunn.clock) (session : Session) (b : Bool) :
    Timely
      { tunn := t.timerTickSessionEstablished b session
        established := Function.update w.established (Tunn.slot session.receivingIndex.toNat)
          w.tunn.clock } := by
  have hb := (hq.trans (.timerTick t .timeSessionEstablished)).behind h.behind
  have hcurrent : t.timeCurrent ≤ w.tunn.clock := hclock ▸ hb.timeCurrent
  constructor
  · refine ⟨hb.timeCurrent, hb.timers, fun i => ?_⟩
    by_cases hi : i = Tunn.slot session.receivingIndex.toNat
    · subst hi
      simpa [TimedTunn.timerTickSessionEstablished, Tunn.storeSession] using hb.timeCurrent
    · simpa [TimedTunn.timerTickSessionEstablished, Tunn.storeSession, hi] using hb.sessionTimers i
  · intro i
    have hsame : (t.timerTickSessionEstablished b session).clock = w.tunn.clock := hclock
    rw [hsame]
    by_cases hi : i = Tunn.slot session.receivingIndex.toNat
    · subst hi
      simp
    · simpa [hi] using h.past i
  · intro i other hs
    by_cases hi : i = Tunn.slot session.receivingIndex.toNat
    · subst hi
      simpa [TimedTunn.timerTickSessionEstablished, Tunn.storeSession] using hcurrent
    · have hs' : t.sessions i = some other := by
        simpa [TimedTunn.timerTickSessionEstablished, Tunn.storeSession, hi] using hs
      obtain ⟨hstored, htimer⟩ := hq.sessions i other hs'
      have hbefore := h.stored i other hstored
      rw [← htimer] at hbefore
      simpa [TimedTunn.timerTickSessionEstablished, Tunn.storeSession, hi] using hbefore

theorem Timely.decapsulate {w : Watched} (h : w.Timely) (packet : Packet)
    (hs : w.step (.decapsulate packet) = some w') : w'.Timely := by
  cases hs
  cases packet with
  | handshakeInit peer session =>
    cases session with
    | error e => exact h
    | ok session =>
      have hticked : w.tunn.Quiet ((({ w.tunn with handshake := .none } : TimedTunn).timerTick
          .timeLastPacketReceived).timerTick .timeLastPacketSent) := by
        refine .trans (.trans ?_ (.timerTick _ _)) (.timerTick _ _)
        exact .of_eq rfl rfl rfl rfl rfl
      exact h.establish hticked rfl session false
  | handshakeResponse idx session =>
    cases session with
    | error e => exact h
    | ok answer =>
      obtain ⟨session, isPrevious⟩ := answer
      have hticked : w.tunn.Quiet (({ w.tunn with
          handshake := if isPrevious then w.tunn.handshake else .none } : TimedTunn).timerTick
            .timeLastPacketReceived) := by
        refine .trans ?_ (.timerTick _ _)
        exact .of_eq rfl rfl rfl rfl rfl
      have hestablished := h.establish hticked rfl session true
      exact hestablished.quiet (.setCurrentSession _ session.receivingIndex.toNat)
  | cookieReply idx accepted =>
    cases accepted with
    | error e => exact h
    | ok u =>
      refine h.quiet (.trans (.trans ?_ (.timerTick _ _)) (.timerTick _ _))
      exact .of_eq rfl rfl rfl rfl rfl
  | data idx opened =>
    refine h.quiet ?_
    simp only [TimedTunn.handleVerifiedPacket]
    split
    · exact .refl _
    · split
      · exact .refl _
      · cases opened with
        | error e => exact .refl _
        | ok inner =>
          exact .trans (.trans (.setCurrentSession _ _) (.timerTick _ _))
            (.validateDecapsulatedPacket _ inner)

theorem Timely.step {w : Watched} (h : w.Timely) (hs : w.step op = some w') : w'.Timely := by
  cases op with
  | elapse ns =>
    cases hs
    exact h.quiet (.elapse _ ns)
  | encapsulate src dst =>
    cases hs
    exact h.quiet (.encapsulate _ src dst)
  | decapsulate packet => exact h.decapsulate packet hs
  | crampedInitiation =>
    cases hs
    exact h.quiet (.of_eq rfl rfl rfl rfl rfl)
  | sendQueuedPacket dst =>
    cases hs
    exact h.quiet (.sendQueuedPacket _ dst)
  | formatHandshakeInitiation dst force =>
    cases hs
    exact h.quiet (.formatHandshakeInitiation _ dst force)
  | setStaticPrivate =>
    cases hs
    exact h.quiet (.setStaticPrivate _)
  | updateTimers late resend dst =>
    obtain ⟨r, hr, hquiet⟩ := TimedTunn.checkedTimers_spec h.behind late resend dst
    simp only [Watched.step, hr, Option.map_some, Option.some.injEq] at hs
    subst hs
    exact h.quiet ((TimedTunn.quiet_swept w.tunn).trans hquiet)
  | stats =>
    obtain ⟨_, -, rfl⟩ := Option.map_eq_some_iff.mp hs
    exact h

/-- No operation panics on a subtraction. -/
theorem Timely.runs {w : Watched} (h : w.Timely) (op : TunnOp) : ∃ w', w.step op = some w' := by
  cases op with
  | updateTimers late resend dst =>
    obtain ⟨r, hr, -⟩ := TimedTunn.checkedTimers_spec h.behind late resend dst
    exact ⟨{ w with tunn := r.1 }, by rw [Watched.step, hr]; rfl⟩
  | stats => exact ⟨w, by rw [Watched.step, TimedTunn.checkedLastHandshake_of_behind h.behind]; rfl⟩
  | _ => exact ⟨_, rfl⟩

/-- What the periodic call leaves is young. -/
theorem Timely.young {w : Watched} (h : w.Timely)
    (hs : w.step (.updateTimers late resend dst) = some w')
    (hi : w'.tunn.sessions i = some session) :
    w'.established i ≤ w.tunn.clock ∧ w.tunn.clock - w'.established i ≤ rejectAfterTime := by
  obtain ⟨r, hr, hquiet⟩ := TimedTunn.checkedTimers_spec h.behind late resend dst
  simp only [Watched.step, hr, Option.map_some, Option.some.injEq] at hs
  subst hs
  obtain ⟨hswept, -⟩ := hquiet.sessions i session hi
  obtain ⟨hstored, htimer⟩ := (TimedTunn.quiet_swept w.tunn).sessions i session hswept
  have hyoung := TimedTunn.swept_young w.tunn hswept
  have hbefore := h.stored i session hstored
  rw [htimer] at hyoung
  exact ⟨h.past i, (Nat.sub_le_sub_left hbefore _).trans hyoung⟩

theorem timely_run (persistentKeepalive : Option UInt16) (ops : List TunnOp) :
    ∃ w, exec Watched.step (new persistentKeepalive) ops = some w ∧ w.Timely := by
  have htimely := timely_new persistentKeepalive
  generalize new persistentKeepalive = w at htimely ⊢
  induction ops generalizing w with
  | nil => exact ⟨w, rfl, htimely⟩
  | cons op ops ih =>
    obtain ⟨w', hs⟩ := htimely.runs op
    obtain ⟨w'', hrun, hend⟩ := ih w' (htimely.step hs)
    exact ⟨w'', (exec_cons_some _).mpr ⟨w', hs, hrun⟩, hend⟩

/-- In every run of the operations no subtraction panics, and each session that
is stored after a periodic call was established at most three minutes before. -/
theorem timers_bounded (persistentKeepalive : Option UInt16) (ops : List TunnOp) :
    ∃ w, exec Watched.step (new persistentKeepalive) ops = some w ∧
      ∀ late resend dst, ∃ w', w.step (.updateTimers late resend dst) = some w' ∧
        ∀ i session, w'.tunn.sessions i = some session →
          w'.established i ≤ w.tunn.clock ∧
            w.tunn.clock - w'.established i ≤ rejectAfterTime := by
  obtain ⟨w, hw, htimely⟩ := timely_run persistentKeepalive ops
  refine ⟨w, hw, fun late resend dst => ?_⟩
  obtain ⟨w', hs⟩ := htimely.runs (.updateTimers late resend dst)
  exact ⟨w', hs, fun i session => htimely.young hs⟩

end Watched

end Xelt.Boringtun.Noise
