import Xelt.Boringtun.Noise.Link
import Xelt.Boringtun.Noise.Rejection
import Xelt.Lib.Simulation

/-!
# The tunnel over bytes and the tunnel above the cryptography

`TimedTunn` is told with each packet what the handshake or a session makes of
it. Here it is the tunnel over bytes that tells: its state, with sessions
reduced to their indices and handshakes to their kind, takes the same steps, and
the bytes it sends are messages of the kind the other one sends. What holds of
every run of `TimedTunn` holds of every run over bytes.
-/

namespace Xelt.Boringtun.Noise.Crypto

open Bytes Runs

def Session.indices (s : Session) : Noise.Session := ⟨s.receivingIndex, s.sendingIndex⟩

namespace Handshake

def kind (h : Handshake) : Noise.HandshakeState :=
  match h.state with
  | .none => .none
  | .initSent _ => .initSent
  | .initReceived .. => .initReceived
  | .expired => .expired

theorem kind_isInProgress (h : Handshake) : h.kind.isInProgress = h.isInProgress := by
  unfold kind isInProgress
  cases h.state <;> rfl

theorem kind_expired (h : Handshake) : h.kind = .expired ↔ h.isExpired = true := by
  unfold kind isExpired
  cases h.state <;> simp

theorem kind_initSent (h : Handshake) : h.kind = .initSent ↔ ∃ s, h.state = .initSent s := by
  unfold kind
  cases h.state <;> simp

end Handshake

/-- What the bytes of a datagram are. -/
inductive Reads (p : Primitives) : Bytes → Datagram → Prop
  | handshakeInit (m : HandshakeInit) (macs : Bytes) :
    macs.length = 32 → Reads p (m.fields ++ macs) .handshakeInit
  | handshakeResponse (r : HandshakeResponse) (macs : Bytes) :
    macs.length = 32 → Reads p (r.fields ++ macs) .handshakeResponse
  | data (packet : PacketData) (key : Bytes32) (session : Noise.Session) (inner : InnerPacket) :
    packet.receiverIdx = session.sendingIndex →
    packet.encryptedEncapsulatedPacket =
      p.sealBytes key (nonceOf packet.counter.toNat) inner.bytes →
    Reads p packet.bytes (.data session inner)

inductive TunnResult.Matches (p : Primitives) : TunnResult → Noise.TunnResult → Prop
  | done : Matches p .done .done
  | err (e : WireGuardError) : Matches p (.err e) (.err e)
  | writeToNetwork : Reads p bytes datagram →
    Matches p (.writeToNetwork bytes) (.writeToNetwork datagram)
  | writeToTunnelV4 (packet : Bytes) (src : Payment.Ipv4Addr) :
    Matches p (.writeToTunnelV4 packet src) (.writeToTunnelV4 packet src)
  | writeToTunnelV6 (packet : Bytes) (src : Ipv6Addr) :
    Matches p (.writeToTunnelV6 packet src) (.writeToTunnelV6 packet src)

theorem leBytes_mod (width n : Nat) : leBytes width (n % 256 ^ width) = leBytes width n := by
  induction width generalizing n with
  | zero => rfl
  | succ width ih =>
    have hlow : UInt8.ofNat (n % 256 ^ (width + 1)) = UInt8.ofNat n := by
      apply UInt8.toNat_inj.mp
      rw [UInt8.toNat_ofNat', UInt8.toNat_ofNat', Nat.pow_succ']
      exact Nat.mod_mul_right_mod n 256 _
    have hhigh : n % 256 ^ (width + 1) / 256 = n / 256 % 256 ^ width := by
      rw [Nat.pow_succ']
      exact Nat.mod_mul_right_div_self n 256 _
    rw [leBytes, leBytes, hlow, hhigh, ih]

/-- The nonce of a counter is the nonce of its low 64 bits. -/
theorem nonceOf_mod (n : Nat) : nonceOf (n % 2 ^ 64) = nonceOf n := by
  apply Subtype.ext
  exact congrArg (List.replicate 4 0 ++ ·) (leBytes_mod 8 n)

namespace Tunn

/-- The tunnel above the cryptography, but for two things: what each queued
packet is from, and when the last initiation was sent. -/
def asTimed (t : Tunn) (now : Nat) (queue : List InnerPacket) (timeSent : Nat) : TimedTunn where
  handshake := t.handshake.kind
  sessions i := (t.sessions i).map Session.indices
  current := t.current
  packetQueue := queue
  timeCurrent := t.timers.timeCurrent
  sessionTimers := t.timers.sessionTimers
  clock := t.timers.elapsed now
  timeSent := timeSent
  hasCookie := t.handshake.hasCookie
  isInitiator := t.timers.isInitiator
  timers := t.timers.timers
  wantKeepalive := t.timers.wantKeepalive
  wantHandshake := t.timers.wantHandshake
  persistentKeepalive := t.timers.persistentKeepalive

structure Refines (now : Nat) (t : Tunn) (u : TimedTunn) : Prop where
  state : u = t.asTimed now u.packetQueue u.timeSent
  packetQueue : u.packetQueue.map InnerPacket.bytes = t.packetQueue
  timeSent : ∀ s, t.handshake.state = .initSent s →
    t.timers.timeStarted ≤ s.timeSent ∧ u.timeSent = s.timeSent - t.timers.timeStarted
  started : t.timers.timeStarted ≤ now

/-- Both tunnels after a call, and what the calls return. -/
structure Agrees (p : Primitives) (now : Nat) (out : Tunn × TunnResult)
    (out' : TimedTunn × Noise.TunnResult) : Prop where
  refines : Refines now out.1 out'.1
  result : TunnResult.Matches p out.2 out'.2

variable {p : Primitives} {t t' : Tunn} {u : TimedTunn} {queue : List InnerPacket}

theorem refines_asTimed (hq : queue.map InnerPacket.bytes = t.packetQueue)
    (hs : ∀ s, t.handshake.state = .initSent s →
      t.timers.timeStarted ≤ s.timeSent ∧ timeSent = s.timeSent - t.timers.timeStarted)
    (hn : t.timers.timeStarted ≤ now) : Refines now t (t.asTimed now queue timeSent) :=
  ⟨rfl, hq, hs, hn⟩

theorem Refines.eq_asTimed (h : Refines now t u) : ∃ queue timeSent,
    u = t.asTimed now queue timeSent ∧ queue.map InnerPacket.bytes = t.packetQueue ∧
      (∀ s, t.handshake.state = .initSent s →
        t.timers.timeStarted ≤ s.timeSent ∧ timeSent = s.timeSent - t.timers.timeStarted) ∧
      t.timers.timeStarted ≤ now :=
  ⟨_, _, h.state, h.packetQueue, h.timeSent, h.started⟩

-- ---------------------------------------------------------------------------
-- Sending
-- ---------------------------------------------------------------------------

theorem agrees_initiation (h : Refines now t u) :
    Agrees p now (t.formatHandshakeInitiation p dst force ephemeral now)
      (u.formatHandshakeInitiation dst force) := by
  obtain ⟨queue, timeSent, rfl, hq, hs, hn⟩ := h.eq_asTimed
  unfold formatHandshakeInitiation TimedTunn.formatHandshakeInitiation
  have hprogress : (t.asTimed now queue timeSent).handshake.isInProgress =
      t.handshake.isInProgress := t.handshake.kind_isInProgress
  rw [hprogress]
  by_cases hp : (t.handshake.isInProgress && !force) = true
  · rw [if_pos hp, if_pos hp]
    exact ⟨refines_asTimed hq hs hn, .done⟩
  · rw [if_neg hp, if_neg hp]
    have hcleared : (if (t.asTimed now queue timeSent).handshake = .expired then
        (t.asTimed now queue timeSent).clearTimers else t.asTimed now queue timeSent) =
        (if t.handshake.isExpired then { t with timers := t.timers.clear now }
          else t : Tunn).asTimed
          now queue timeSent := by
      by_cases he : t.handshake.isExpired = true
      · have hk : (t.asTimed now queue timeSent).handshake = .expired :=
          t.handshake.kind_expired.mpr he
        rw [if_pos hk, if_pos he]
        rfl
      · have hk : (t.asTimed now queue timeSent).handshake ≠ .expired :=
          mt t.handshake.kind_expired.mp he
        rw [if_neg hk, if_neg he]
    rw [hcleared]
    generalize hv : (if t.handshake.isExpired then { t with timers := t.timers.clear now } else t :
      Tunn) = v
    have hsame : v.handshake = t.handshake ∧ v.packetQueue = t.packetQueue ∧
        v.timers.timeStarted = t.timers.timeStarted := by
      rw [← hv]
      split_ifs <;> exact ⟨rfl, rfl, rfl⟩
    obtain ⟨hvh, hvq, hvs⟩ := hsame
    dsimp only
    have hvprogress : (v.asTimed now queue timeSent).handshake.isInProgress =
      v.handshake.isInProgress := v.handshake.kind_isInProgress
    rw [hvprogress]
    by_cases hdst : dst < handshakeInitSz
    · have hdst' : dst < Noise.handshakeInitSz := hdst
      rw [Handshake.formatHandshakeInitiation, if_pos hdst, if_pos hdst']
      exact ⟨refines_asTimed (hvq ▸ hq) (hvh ▸ hvs ▸ hs) (hvs ▸ hn), .err _⟩
    · have hdst' : ¬ dst < Noise.handshakeInitSz := hdst
      rcases Handshake.formatHandshakeInitiation_cases p v.handshake dst ephemeral now with
        hres | ⟨h', m, macs, hres, hmacs, hi⟩
      · simp [Handshake.formatHandshakeInitiation, hdst, Handshake.appendMac1AndMac2] at hres
      · obtain ⟨_, hf⟩ := Handshake.formatHandshakeInitiation_formatted hres
        rw [hres, if_neg hdst']
        have hsent : ({ v.asTimed now queue timeSent with
              handshake := .initSent
              timeSent := (v.asTimed now queue timeSent).clock } : TimedTunn) =
            ({ v with handshake := h' } : Tunn).asTimed now queue (v.timers.elapsed now) := by
          have hkind : h'.kind = .initSent := h'.kind_initSent.mpr ⟨_, hi.state⟩
          simp [asTimed, hkind, Handshake.hasCookie, hf.writeCookie]
        rw [hsent]
        refine ⟨?_, .writeToNetwork (.handshakeInit m macs hmacs)⟩
        have hstart : ∀ s, h'.state = .initSent s → v.timers.timeStarted ≤ s.timeSent ∧
            v.timers.elapsed now = s.timeSent - v.timers.timeStarted := fun s hs' => by
          obtain rfl := HandshakeState.initSent.inj (hi.state.symm.trans hs')
          exact ⟨hvs ▸ hn, rfl⟩
        cases v.handshake.isInProgress <;>
          exact refines_asTimed (hvq ▸ hq) hstart (hvs ▸ hn)

/-- A session with the same indices in its slot is the same to the other tunnel. -/
theorem asTimed_putSession (hi : t.sessions i = some s) (hs : s'.indices = s.indices) :
    (t.putSession i s').asTimed now queue timeSent = t.asTimed now queue timeSent := by
  have hsessions : (fun j => ((t.putSession i s').sessions j).map Session.indices) =
      fun j => (t.sessions j).map Session.indices := by
    funext j
    by_cases hj : j = i
    · subst hj
      simp [hi, hs]
    · simp [hj]
  simp only [asTimed, hsessions]
  rfl

theorem format_reads {s s' : Session} (inner : InnerPacket)
    (h : s.formatPacketData p src dst = some (s', packet))
    (hsrc : inner.bytes = src) :
    s'.indices = s.indices ∧ Reads p packet.bytes (.data s.indices inner) := by
  simp only [Session.formatPacketData] at h
  split at h <;> cases h
  refine ⟨rfl, .data _ s.sender _ _ rfl ?_⟩
  rw [hsrc, UInt64.toNat_ofNat', nonceOf_mod]

theorem refines_queuePacket {inner : InnerPacket} (h : Refines now t u) (hsrc : inner.bytes = src) :
    Refines now (t.queuePacket src) { u with toTunn := u.queuePacket inner } := by
  obtain ⟨hstate, hq, hs, hn⟩ := h
  have hlen : u.packetQueue.length = t.packetQueue.length := by rw [← hq, List.length_map]
  unfold queuePacket Noise.Tunn.queuePacket
  rw [hlen]
  split_ifs
  · exact ⟨by rw [hstate]; rfl, by simp [hq, hsrc], hs, hn⟩
  · exact ⟨hstate, hq, hs, hn⟩

theorem refines_requeuePacket {inner : InnerPacket} (h : Refines now t u)
    (hsrc : inner.bytes = src) :
    Refines now (t.requeuePacket src) { u with toTunn := u.requeuePacket inner } := by
  obtain ⟨hstate, hq, hs, hn⟩ := h
  have hlen : u.packetQueue.length = t.packetQueue.length := by rw [← hq, List.length_map]
  unfold requeuePacket Noise.Tunn.requeuePacket
  rw [hlen]
  split_ifs
  · exact ⟨by rw [hstate]; rfl, by simp [hq, hsrc], hs, hn⟩
  · exact ⟨hstate, hq, hs, hn⟩

theorem agrees_encapsulate (inner : InnerPacket) (h : Refines now t u) (hsrc : inner.bytes = src)
    (he : t.encapsulate p src dst ephemeral now = some out) :
    Agrees p now out (u.encapsulate inner dst) := by
  unfold encapsulate at he
  have hcurrent : u.currentSession = (t.sessions (slot t.current)).map Session.indices := by
    rw [h.state]
    rfl
  cases hi : t.sessions (slot t.current) with
  | none =>
    simp only [hi, Option.some.injEq] at he
    rw [hi] at hcurrent
    subst he
    simp only [TimedTunn.encapsulate, hcurrent, Option.map_none]
    exact agrees_initiation (refines_queuePacket h hsrc)
  | some s =>
    simp only [hi] at he
    rw [hi] at hcurrent
    obtain ⟨⟨s', packet⟩, hf, rfl⟩ := Option.map_eq_some_iff.mp he
    obtain ⟨hindices, hreads⟩ := format_reads inner hf hsrc
    simp only [TimedTunn.encapsulate, hcurrent, Option.map_some]
    refine ⟨?_, .writeToNetwork hreads⟩
    obtain ⟨queue, timeSent, rfl, hq, hs, hn⟩ := h.eq_asTimed
    rw [← asTimed_putSession hi hindices, hsrc]
    by_cases hempty : src = []
    · simp only [if_pos hempty]
      exact refines_asTimed hq hs hn
    · simp only [if_neg hempty]
      exact refines_asTimed hq hs hn

theorem agrees_sendQueuedPacket (h : Refines now t u)
    (he : t.sendQueuedPacket p dst ephemeral now = some out) :
    Agrees p now out (u.sendQueuedPacket dst) := by
  unfold sendQueuedPacket at he
  have hq := h.packetQueue
  unfold TimedTunn.sendQueuedPacket
  cases hqueue : u.packetQueue with
  | nil =>
    rw [hqueue, List.map_nil] at hq
    simp only [← hq, Option.some.injEq] at he
    exact he ▸ ⟨h, .done⟩
  | cons inner rest =>
    rw [hqueue, List.map_cons] at hq
    simp only [← hq] at he
    have hpop : Refines now { t with packetQueue := rest.map InnerPacket.bytes }
        { u with packetQueue := rest } :=
      ⟨by rw [h.state]; rfl, rfl, h.timeSent, h.started⟩
    cases hres : ({ t with packetQueue := rest.map InnerPacket.bytes } : Tunn).encapsulate p
        inner.bytes dst ephemeral now with
    | none => simp [hres] at he
    | some out' =>
      obtain ⟨t', r⟩ := out'
      have hagrees := agrees_encapsulate inner hpop rfl hres
      dsimp only
      generalize TimedTunn.encapsulate _ inner dst = out' at hagrees ⊢
      obtain ⟨u', r'⟩ := out'
      obtain ⟨href, hmatch⟩ := id hagrees
      rw [hres] at he
      cases hmatch with
      | err e =>
        simp only [Option.some.injEq] at he
        exact he ▸ ⟨refines_requeuePacket href rfl, .done⟩
      | _ =>
        simp only [Option.some.injEq] at he
        exact he ▸ hagrees

-- ---------------------------------------------------------------------------
-- Receiving
-- ---------------------------------------------------------------------------

/-- A verified packet with what the handshake or the session makes of it. Which
peer an initiation is from is for the device to tell. -/
def packetView (p : Primitives) (t : Tunn) (packet : Packet) (dst : Nat) (ephemeral : Bytes32)
    (now : Nat) : Noise.Packet :=
  match packet with
  | .handshakeInit m => .handshakeInit none <|
    match t.handshake.receiveHandshakeInitialization p m dst ephemeral with
    | some (_, .ok (_, session)) => .ok session.indices
    | some (_, .error e) => .error e
    | none => .error .invalidPacket
  | .handshakeResponse r => .handshakeResponse r.receiverIdx <|
    match t.handshake.receiveHandshakeResponse p r now with
    | (_, .ok session) =>
      .ok (session.indices, (t.handshake.awaiting r.receiverIdx).any Prod.snd)
    | (_, .error e) => .error e
  | .packetCookieReply c => .cookieReply c.receiverIdx (t.handshake.receiveCookieReply p c).2
  | .packetData d => .data d.receiverIdx <|
    match t.sessions (slot d.receiverIdx.toNat) with
    | none => .error .noCurrentSession
    | some session =>
      match session.receivePacketData p d dst with
      | some (.ok (_, plain)) => .ok plain
      | some (.error e) => .error e
      | none => .error .invalidPacket

theorem map_update {f : Fin nSessions → Option Session} :
    (fun j => (Function.update f i (some s) j).map Session.indices) =
      Function.update (fun j => (f j).map Session.indices) i (some s.indices) := by
  funext j
  by_cases hj : j = i
  · subst hj
    simp
  · simp [hj]

theorem asTimed_setCurrentSession (t : Tunn) (i : Nat) :
    (t.setCurrentSession i).asTimed now queue timeSent =
      { t.asTimed now queue timeSent with
        toTunn := (t.asTimed now queue timeSent).toTunn.setCurrentSession i } := by
  have hnone : (t.asTimed now queue timeSent).toTunn.currentSession = none ↔
      t.sessions (slot t.current) = none := by
    simp [Noise.Tunn.currentSession, asTimed]
  have hcurrent : (t.asTimed now queue timeSent).current = t.current := rfl
  have htimers : (t.asTimed now queue timeSent).sessionTimers = t.timers.sessionTimers := rfl
  unfold setCurrentSession Noise.Tunn.setCurrentSession
  simp only [hnone, hcurrent, htimers]
  split_ifs <;> rfl

/-- With room for the response an initiation is refused as a whole or taken. -/
theorem initialization_cases (p : Primitives) (h : Handshake) (m : HandshakeInit)
    (ephemeral : Bytes32) (hdst : handshakeRespSz ≤ dst) :
    (∃ e, h.receiveHandshakeInitialization p m dst ephemeral = some (h, .error e)) ∨
      ∃ h' r macs session, h.receiveHandshakeInitialization p m dst ephemeral =
          some (h', .ok (HandshakeResponse.fields r ++ macs, session)) ∧ macs.length = 32 ∧
        h'.state = .none ∧ h'.cookies.writeCookie = h.cookies.writeCookie := by
  cases hm : h.checkedTimestamp p m with
  | none => exact .inl (Handshake.receive_unchecked h m dst ephemeral hm)
  | some timestamp =>
    right
    rw [(Handshake.receive_checked h m dst ephemeral hm).2]
    simp only [Handshake.formatHandshakeResponse, Handshake.received, if_neg (Nat.not_lt.mpr hdst),
      Handshake.appendMac1AndMac2]
    exact ⟨_, _, _, _, rfl, by simp, rfl, rfl⟩

theorem agrees_handshakeInit (h : Refines now t u) (hdst : handshakeRespSz ≤ dst)
    (he : t.handleHandshakeInit p m dst ephemeral = some out) :
    Agrees p now out
      (u.handleVerifiedPacket (t.packetView p (.handshakeInit m) dst ephemeral now)) := by
  unfold handleHandshakeInit at he
  unfold packetView
  rcases initialization_cases p t.handshake m ephemeral hdst with
    ⟨e, hres⟩ | ⟨h', r, macs, s, hres, hmacs, hnone, hcookie⟩
  · simp only [hres, Option.map_some, Option.some.injEq] at he ⊢
    exact he ▸ ⟨h, .err e⟩
  · simp only [hres, Option.map_some, Option.some.injEq] at he ⊢
    subst he
    refine ⟨?_, .writeToNetwork (.handshakeResponse r macs hmacs)⟩
    obtain ⟨queue, timeSent, rfl, hq, hs, hn⟩ := h.eq_asTimed
    have hkind : h'.kind = .none := by rw [Handshake.kind, hnone]
    refine ⟨?_, hq, fun s hs' => ?_, hn⟩
    · simp only [asTimed, putSession, tick, map_update, hkind, Handshake.hasCookie, hcookie]
      rfl
    · exact absurd (hnone.symm.trans hs') (by simp)

theorem slot_mod (n : Nat) : slot (n % nSessions) = slot n := Fin.ext (Nat.mod_mod n nSessions)

theorem refines_tick (h : Refines now t u) (name : TimerName) :
    Refines now (t.tick name) (u.timerTick name) := by
  obtain ⟨queue, timeSent, rfl, hq, hs, hn⟩ := h.eq_asTimed
  exact ⟨rfl, hq, hs, hn⟩

theorem refines_setCurrentSession (h : Refines now t u) (i : Nat) :
    Refines now (t.setCurrentSession i) { u with toTunn := u.setCurrentSession i } := by
  obtain ⟨queue, timeSent, rfl, hq, hs, hn⟩ := h.eq_asTimed
  have htimers : (t.setCurrentSession i).timers = t.timers := by
    unfold setCurrentSession
    split_ifs <;> rfl
  have hsame : Refines now (t.setCurrentSession i)
      ((t.setCurrentSession i).asTimed now queue timeSent) := by
    refine refines_asTimed ?_ ?_ ?_
    · simpa using hq
    · simpa [htimers] using hs
    · simpa [htimers] using hn
  rw [asTimed_setCurrentSession] at hsame
  exact hsame

/-- A session is stored in its slot, and its timer with it. -/
theorem refines_established {s s' : Session} (h : Refines now t u) (isInitiator : Bool)
    (hi : s'.indices = s.indices) (hslot : slot i = slot s.receivingIndex.toNat) :
    Refines now { t.putSession (slot s.receivingIndex.toNat) s' with
        timers := t.timers.established isInitiator i }
      (u.timerTickSessionEstablished isInitiator s.indices) := by
  obtain ⟨queue, timeSent, rfl, hq, hs, hn⟩ := h.eq_asTimed
  refine ⟨?_, hq, hs, hn⟩
  simp only [asTimed, putSession, map_update, Timers.established, hslot, hi]
  rfl

/-- A response takes the initiation it answers away, the other one stays. -/
theorem answered_kind (h : Handshake) (s : HandshakeInitSentState) (isPrevious : Bool) :
    (h.answered s isPrevious now).kind = if isPrevious then h.kind else .none := by
  cases isPrevious <;> rfl

theorem refines_answered (h : Refines now t u) (s : HandshakeInitSentState) (isPrevious : Bool) :
    Refines now { t with handshake := t.handshake.answered s isPrevious now }
      { u with handshake := if isPrevious then u.handshake else .none } := by
  obtain ⟨queue, timeSent, rfl, hq, hs, hn⟩ := h.eq_asTimed
  refine ⟨?_, hq, fun s' hs' => ?_, hn⟩
  · simp only [asTimed, answered_kind]
    cases isPrevious <;> rfl
  · cases isPrevious with
    | true => exact hs s' hs'
    | false => cases hs'

theorem agrees_handshakeResponse (h : Refines now t u)
    (he : t.handleHandshakeResponse p r dst now = some out) :
    Agrees p now out
      (u.handleVerifiedPacket (t.packetView p (.handshakeResponse r) dst ephemeral now)) := by
  unfold handleHandshakeResponse at he
  unfold packetView
  rcases Handshake.receiveHandshakeResponse_cases p t.handshake r now with
    ⟨e, hres⟩ | ⟨s, isPrevious, session, ha, hres⟩
  · simp only [hres, Option.some.injEq] at he ⊢
    exact he ▸ ⟨h, .err e⟩
  · simp only [hres, ha, Option.any_some] at he ⊢
    obtain ⟨⟨session', keepalive⟩, hf, rfl⟩ := Option.map_eq_some_iff.mp he
    obtain ⟨hindices, hreads⟩ := format_reads ⟨[], .keepalive⟩ hf rfl
    refine ⟨?_, .writeToNetwork hreads⟩
    have hreceiving : session'.receivingIndex = session.receivingIndex :=
      congrArg Noise.Session.receivingIndex hindices
    have hanswered := refines_tick (refines_answered h s isPrevious) .timeLastPacketReceived
    have hstored := refines_established hanswered true hindices (slot_mod _)
    have hcurrent := refines_setCurrentSession hstored session.receivingIndex.toNat
    simp only [hreceiving]
    exact hcurrent

theorem agrees_cookieReply (h : Refines now t u) (c : PacketCookieReply) :
    Agrees p now (t.handleCookieReply p c)
      (u.handleVerifiedPacket (t.packetView p (.packetCookieReply c) dst ephemeral now)) := by
  unfold handleCookieReply packetView
  rcases Handshake.receiveCookieReply_cases p t.handshake c with ⟨e, hres⟩ | ⟨cookie, hres⟩
  · simp only [hres]
    exact ⟨h, .err e⟩
  · simp only [hres]
    have hcookie : Refines now { t with handshake := { t.handshake with
        cookies := { t.handshake.cookies with writeCookie := some cookie } } }
        { u with hasCookie := true } :=
      ⟨by rw [h.state]; rfl, h.packetQueue, h.timeSent, h.started⟩
    exact ⟨refines_tick (refines_tick hcookie .timeLastPacketReceived) .timeCookieReceived, .done⟩

theorem refines_rxBytes (h : Refines now t u) (n : Nat) : Refines now { t with rxBytes := n } u :=
  ⟨h.state, h.packetQueue, h.timeSent, h.started⟩

theorem agrees_validate (h : Refines now t u) (packet : Bytes) :
    Agrees p now (t.validateDecapsulatedPacket packet) (u.validateDecapsulatedPacket packet) := by
  have hcounted := refines_tick h .timeLastDataPacketReceived
  unfold validateDecapsulatedPacket TimedTunn.validateDecapsulatedPacket
  cases hv : Noise.Tunn.validateDecapsulatedPacket packet with
  | writeToTunnelV4 computed src => exact ⟨refines_rxBytes hcounted _, .writeToTunnelV4 ..⟩
  | writeToTunnelV6 computed src => exact ⟨refines_rxBytes hcounted _, .writeToTunnelV6 ..⟩
  | err e => exact ⟨h, .err e⟩
  | done => exact ⟨h, .done⟩
  | writeToNetwork datagram =>
    simp only [Noise.Tunn.validateDecapsulatedPacket] at hv
    split_ifs at hv

/-- A session refuses a packet with another index, and keeps its own. -/
theorem receive_indices {s : Session} (h : s.receivePacketData p packet dst = some res) :
    (packet.receiverIdx ≠ s.receivingIndex → res = .error .wrongIndex) ∧
      ∀ s' plain, res = .ok (s', plain) → s'.indices = s.indices := by
  constructor
  · intro hidx
    unfold Session.receivePacketData at h
    rw [Session.receivingCounterQuickCheck, if_pos hidx] at h
    split at h
    · cases h
    · exact (Option.some.inj h).symm
  · rintro s' plain rfl
    obtain ⟨-, v, -, rfl⟩ := SessionRing.received_cases h
    rfl

theorem agrees_data (h : Refines now t u) (he : t.handleData p packet dst = some out) :
    Agrees p now out
      (u.handleVerifiedPacket (t.packetView p (.packetData packet) dst ephemeral now)) := by
  unfold handleData at he
  unfold packetView TimedTunn.handleVerifiedPacket
  have hsession : u.sessions (slot packet.receiverIdx.toNat) =
      (t.sessions (slot packet.receiverIdx.toNat)).map Session.indices := by
    rw [h.state]
    rfl
  cases hi : t.sessions (slot packet.receiverIdx.toNat) with
  | none =>
    simp only [hi, Option.some.injEq] at he
    rw [hi] at hsession
    simp only [hsession, Option.map_none]
    exact he ▸ ⟨h, .err _⟩
  | some s =>
    simp only [hi] at he ⊢
    rw [hi] at hsession
    simp only [hsession, Option.map_some]
    cases hres : s.receivePacketData p packet dst with
    | none => simp [hres] at he
    | some res =>
      obtain ⟨hwrong, hkept⟩ := receive_indices hres
      have hs : s.indices.receivingIndex = s.receivingIndex := rfl
      rw [hs]
      by_cases hidx : packet.receiverIdx ≠ s.receivingIndex
      · rw [if_pos hidx]
        simp only [hres, hwrong hidx, Option.some.injEq] at he
        exact he ▸ ⟨h, .err _⟩
      · rw [if_neg hidx]
        cases res with
        | error e =>
          simp only [hres, Option.some.injEq] at he ⊢
          exact he ▸ ⟨h, .err e⟩
        | ok opened =>
          obtain ⟨s', plain⟩ := opened
          simp only [hres, Option.some.injEq] at he ⊢
          subst he
          have hput : Refines now (t.putSession (slot packet.receiverIdx.toNat) s') u :=
            ⟨h.state.trans (asTimed_putSession hi (hkept s' plain rfl)).symm, h.packetQueue,
              h.timeSent, h.started⟩
          have hcurrent := refines_setCurrentSession hput packet.receiverIdx.toNat
          exact agrees_validate (refines_tick hcurrent .timeLastPacketReceived) plain

theorem agrees_handleVerifiedPacket (h : Refines now t u) (packet : Packet)
    (hdst : handshakeRespSz ≤ dst)
    (he : t.handleVerifiedPacket p packet dst ephemeral now = some out) :
    Agrees p now out
      (u.handleVerifiedPacket (t.packetView p packet dst ephemeral now)) := by
  cases packet with
  | handshakeInit m => exact agrees_handshakeInit h hdst he
  | handshakeResponse r => exact agrees_handshakeResponse h he
  | packetCookieReply c => exact Option.some.inj he ▸ agrees_cookieReply h c
  | packetData packet => exact agrees_data h he

-- ---------------------------------------------------------------------------
-- The periodic call
-- ---------------------------------------------------------------------------

theorem refines_clock (h : Refines now t u) : u.clock = t.timers.elapsed now := by
  rw [h.state]
  rfl

theorem refines_readClock (h : Refines now t u) :
    Refines now (t.readClock (t.timers.elapsed now))
      (({ u with timeCurrent := u.clock } : TimedTunn).updateSessionTimers u.clock) := by
  obtain ⟨queue, timeSent, rfl, hq, hs, hn⟩ := h.eq_asTimed
  refine ⟨?_, hq, hs, hn⟩
  have hsessions : (fun i =>
    ((t.readClock (t.timers.elapsed now)).sessions i).map Session.indices) =
      fun i => if t.timers.elapsed now - t.timers.sessionTimers i > rejectAfterTime then none
        else (t.sessions i).map Session.indices := by
    funext i
    simp only [readClock, updateSessionTimers]
    split_ifs <;> rfl
  simp only [asTimed, hsessions]
  rfl

theorem refines_clearOldCookie (h : Refines now t u) :
    Refines now (t.clearOldCookie (t.timers.elapsed now))
      { u with hasCookie := u.hasCookie &&
          !(u.clock - u.timers .timeCookieReceived ≥ cookieExpirationTime : Bool) } := by
  obtain ⟨queue, timeSent, rfl, hq, hs, hn⟩ := h.eq_asTimed
  unfold clearOldCookie
  cases hc : t.handshake.hasCookie with
  | false =>
    refine ⟨?_, hq, hs, hn⟩
    simp [asTimed, hc]
  | true =>
    by_cases hold : t.timers.elapsed now - t.timers.timers .timeCookieReceived ≥
        cookieExpirationTime
    · rw [if_pos (by simp [hold])]
      refine ⟨?_, hq, hs, hn⟩
      simp [asTimed, hold, Handshake.hasCookie, Handshake.clearCookie, Handshake.kind]
    · rw [if_neg (by simp [hold])]
      refine ⟨?_, hq, hs, hn⟩
      simp [asTimed, hold, hc]

theorem refines_expireConnection (h : Refines now t u) :
    Refines now (t.expireConnection now) u.expireConnection := by
  obtain ⟨queue, timeSent, rfl, hq, hs, hn⟩ := h.eq_asTimed
  exact ⟨rfl, rfl, fun _ hs' => (nomatch hs'), hn⟩

theorem refines_want (h : Refines now t u) (wantHandshake wantKeepalive : Bool) :
    Refines now { t with timers := { t.timers with wantHandshake, wantKeepalive } }
      { u with wantHandshake, wantKeepalive } := by
  obtain ⟨queue, timeSent, rfl, hq, hs, hn⟩ := h.eq_asTimed
  exact ⟨rfl, hq, hs, hn⟩

/-- The second part of the periodic call: what is due is sent. -/
def sendDue (u : TimedTunn) (dst : Nat) :
    Except WireGuardError Due → TimedTunn × Noise.TunnResult
  | .error e => (u, .err e)
  | .ok due =>
    if due.handshakeInitiationRequired then u.formatHandshakeInitiation dst true
    else if due.keepaliveRequired then u.encapsulate ⟨[], .keepalive⟩ dst
    else (u, .done)

/-- The timers as the other tunnel compares them. -/
theorem dueEstablished_eq (h : Refines now t u) :
    t.dueEstablished timeNow =
      let due := u.handshakeDue timeNow
      let t := { t with timers := { t.timers with wantHandshake := !due && u.wantHandshake } }
      if u.rekeyRequired timeNow || due && u.wantHandshake then (t, ⟨true, false⟩)
      else
        let due := u.keepaliveDue timeNow
        let t := { t with timers := { t.timers with wantKeepalive := !due && u.wantKeepalive } }
        let persistent := u.persistentKeepaliveDue timeNow
        (if persistent then t.tick .timePersistentKeepalive else t,
          ⟨false, due && u.wantKeepalive || persistent⟩) := by
  obtain ⟨queue, timeSent, rfl, -⟩ := h.eq_asTimed
  rfl

theorem dueEstablished_agrees (h : Refines now t u) (dst : Nat) :
    ∃ u', Refines now (t.dueEstablished timeNow).1 u' ∧
      u.updateEstablished timeNow dst = sendDue u' dst (.ok (t.dueEstablished timeNow).2) := by
  have hkeepalive : u.wantKeepalive = t.timers.wantKeepalive := by
    rw [h.state]
    rfl
  have hwant := refines_want h (!u.handshakeDue timeNow && u.wantHandshake)
  rw [dueEstablished_eq h]
  unfold TimedTunn.updateEstablished
  dsimp only
  by_cases hinit : (u.rekeyRequired timeNow || u.handshakeDue timeNow && u.wantHandshake) = true
  · simp only [hinit, if_true]
    exact ⟨_, hkeepalive ▸ hwant t.timers.wantKeepalive, rfl⟩
  · simp only [hinit]
    have hboth := hwant (!u.keepaliveDue timeNow && u.wantKeepalive)
    refine ⟨if u.persistentKeepaliveDue timeNow then TimedTunn.timerTick _ .timePersistentKeepalive
      else _, ?_, rfl⟩
    by_cases hpersistent : u.persistentKeepaliveDue timeNow = true
    · simp only [hpersistent, Bool.false_eq_true, if_false, if_true]
      exact refines_tick hboth .timePersistentKeepalive
    · simp only [hpersistent, Bool.false_eq_true, if_false]
      exact hboth

theorem dueLive_agrees (h : Refines now t u) (dst : Nat) :
    ∃ u', Refines now (t.dueLive now).1 u' ∧
      (if u.clock - u.timers .timeSessionEstablished ≥ rejectAfterTime * 3 then
        (u.expireConnection, .err .connectionExpired)
      else if u.handshake = .initSent then
        if u.clock - u.timers .timeLastHandshakeStarted ≥ rekeyAttemptTime then
          (u.expireConnection, .err .connectionExpired)
        else if u.clock - u.timeSent ≥ rekeyTimeout then u.formatHandshakeInitiation dst true
        else (u, .done)
      else u.updateEstablished u.clock dst) = sendDue u' dst (t.dueLive now).2 := by
  have hclock := refines_clock h
  have htimers : u.timers = t.timers.timers := by
    rw [h.state]
    rfl
  have hkind : u.handshake = t.handshake.kind := by
    rw [h.state]
    rfl
  unfold dueLive
  rw [hclock, htimers, hkind]
  dsimp only
  by_cases hreject : t.timers.elapsed now - t.timers.timers .timeSessionEstablished ≥
      rejectAfterTime * 3
  · rw [if_pos hreject, if_pos hreject]
    exact ⟨_, refines_expireConnection h, rfl⟩
  · rw [if_neg hreject, if_neg hreject]
    cases htimer : t.handshake.timer with
    | none =>
      have hsent : t.handshake.kind ≠ .initSent := fun hk => by
        obtain ⟨s, hstate⟩ := t.handshake.kind_initSent.mp hk
        simp [Handshake.timer, hstate] at htimer
      rw [if_neg hsent]
      exact dueEstablished_agrees h dst
    | some timeInitSent =>
      obtain ⟨s, hstate, rfl⟩ :
          ∃ s, t.handshake.state = .initSent s ∧ s.timeSent = timeInitSent := by
        unfold Handshake.timer at htimer
        split at htimer <;> cases htimer
        exact ⟨_, ‹_›, rfl⟩
      rw [if_pos (t.handshake.kind_initSent.mpr ⟨s, hstate⟩)]
      obtain ⟨hle, hsent⟩ := h.timeSent s hstate
      have helapsed : t.timers.elapsed now - u.timeSent = now - s.timeSent := by
        rw [hsent, Timers.elapsed]
        exact Nat.sub_sub_sub_cancel_right hle
      rw [helapsed]
      by_cases hattempt : t.timers.elapsed now - t.timers.timers .timeLastHandshakeStarted ≥
          rekeyAttemptTime
      · rw [if_pos hattempt]
        simp only [hattempt, if_true]
        exact ⟨_, refines_expireConnection h, rfl⟩
      · rw [if_neg hattempt]
        simp only [hattempt, if_false]
        refine ⟨u, h, ?_⟩
        by_cases hretry : now - s.timeSent ≥ rekeyTimeout
        · simp [sendDue, hretry]
        · simp [sendDue, hretry]

theorem due_agrees (h : Refines now t u) (dst : Nat) :
    ∃ u', Refines now (t.due now).1 u' ∧ u.updateTimers dst = sendDue u' dst (t.due now).2 := by
  have hread := refines_readClock h
  have hclock :
      ((({ u with timeCurrent := u.clock } : TimedTunn).updateSessionTimers u.clock)).clock =
    u.clock := rfl
  unfold due TimedTunn.updateTimers
  dsimp only
  generalize ({ u with timeCurrent := u.clock } : TimedTunn).updateSessionTimers u.clock = v
    at hread hclock ⊢
  have helapsed : (t.readClock (t.timers.elapsed now)).timers.elapsed now =
    t.timers.elapsed now := rfl
  generalize t.readClock (t.timers.elapsed now) = w at hread helapsed ⊢
  have hkind : v.handshake = w.handshake.kind := by
    rw [hread.state]
    rfl
  have hsame : v.handshake = .expired ↔ w.handshake.isExpired = true :=
    hkind ▸ w.handshake.kind_expired
  by_cases hexpired : w.handshake.isExpired = true
  · rw [if_pos hexpired, if_pos (hsame.mpr hexpired)]
    exact ⟨v, hread, rfl⟩
  · rw [if_neg hexpired, if_neg (mt hsame.mp hexpired), ← hclock]
    have hcookie := refines_clearOldCookie hread
    rw [helapsed] at hcookie
    exact dueLive_agrees hcookie dst

theorem agrees_updateTimers (h : Refines now t u)
    (he : t.updateTimers p dst ephemeral now = some out) :
    Agrees p now out (u.updateTimers dst) := by
  obtain ⟨u', href, heq⟩ := due_agrees h dst
  rw [heq]
  unfold updateTimers at he
  generalize t.due now = q at href he
  obtain ⟨t', res⟩ := q
  cases res with
  | error e =>
    simp only [Option.some.injEq] at he
    exact he ▸ ⟨href, .err e⟩
  | ok due =>
    obtain ⟨init, keepalive⟩ := due
    cases init with
    | true =>
      simp only [if_true, Option.some.injEq] at he
      exact he ▸ agrees_initiation href
    | false =>
      cases keepalive with
      | true => exact agrees_encapsulate _ href rfl he
      | false =>
        simp only [Bool.false_eq_true, if_false, Option.some.injEq] at he
        exact he ▸ ⟨href, .done⟩

-- ---------------------------------------------------------------------------
-- Every call
-- ---------------------------------------------------------------------------

theorem refines_setStaticPrivate (h : Refines now t u)
    (ht : t.setStaticPrivate p staticPrivate staticPublic ownLimiter = some t') :
    Refines now t' u.setStaticPrivate := by
  obtain ⟨handshake, hset, rfl⟩ := Option.map_eq_some_iff.mp ht
  obtain ⟨-, rfl⟩ : p.publicKey staticPrivate = staticPublic ∧ _ = handshake := by
    simpa [Handshake.setStaticPrivate] using hset
  obtain ⟨queue, timeSent, rfl, hq, hs, hn⟩ := h.eq_asTimed
  exact ⟨rfl, hq, hs, hn⟩

/-- The call as the other tunnel sees it; a datagram that does not pass the
limiter is not seen. -/
def callView (pc : CookiePrimitives) (t : Tunn) (ephemeral : Bytes32) (now : Nat) :
    Call → Option TimedTunn.Call
  | .encapsulate src dst => some (.encapsulate ⟨src, .interface⟩ dst)
  | .decapsulate limiter srcAddr datagram dst =>
    if datagram = [] then some (.sendQueuedPacket dst)
    else
      match (limiter.verifyPacket pc srcAddr datagram cookieReplySz now).2 with
      | .ok packet => some (.decapsulate (t.packetView pc.toPrimitives packet dst ephemeral now))
      | .error _ => none
  | .handleVerifiedPacket packet dst =>
    some (.decapsulate (t.packetView pc.toPrimitives packet dst ephemeral now))
  | .formatHandshakeInitiation dst forceResend => some (.formatHandshakeInitiation dst forceResend)
  | .updateTimers dst => some (.updateTimers dst)
  | .setStaticPrivate .. => some .setStaticPrivate

variable {pc : CookiePrimitives}

theorem agrees_call (h : Refines now t u) (c : Call) (hroom : c.Roomy)
    (he : t.call pc ephemeral now c = some out) :
    (t.callView pc ephemeral now c).elim (out.1 = t)
      fun c' => Agrees pc.toPrimitives now out (u.call c') := by
  have hle : handshakeRespSz ≤ handshakeInitSz := by decide
  cases c with
  | encapsulate src dst => exact agrees_encapsulate ⟨src, .interface⟩ h rfl he
  | decapsulate limiter srcAddr datagram dst =>
    obtain ⟨⟨t', limiter', r⟩, hout, rfl⟩ := Option.map_eq_some_iff.mp he
    clear he
    unfold decapsulate at hout
    dsimp only [callView]
    by_cases hempty : datagram = []
    · rw [if_pos hempty] at hout ⊢
      obtain ⟨out, ho, hsame⟩ := Option.map_eq_some_iff.mp hout
      cases hsame
      exact agrees_sendQueuedPacket h ho
    · rw [if_neg hempty] at hout ⊢
      generalize limiter.verifyPacket pc srcAddr datagram cookieReplySz now = verified at hout ⊢
      obtain ⟨next, res⟩ := verified
      cases res with
      | ok packet =>
        obtain ⟨out, ho, hsame⟩ := Option.map_eq_some_iff.mp hout
        cases hsame
        exact agrees_handleVerifiedPacket h packet (hle.trans hroom) ho
      | error rejection =>
        cases rejection with
        | err e =>
          cases hout
          rfl
        | writeToNetwork cookie =>
          dsimp only at hout
          split at hout <;> cases hout
          rfl
  | handleVerifiedPacket packet dst =>
    exact agrees_handleVerifiedPacket h packet (hle.trans hroom) he
  | formatHandshakeInitiation dst force => exact Option.some.inj he ▸ agrees_initiation h
  | updateTimers dst => exact agrees_updateTimers h he
  | setStaticPrivate staticPrivate staticPublic ownLimiter =>
    obtain ⟨t', ht, rfl⟩ := Option.map_eq_some_iff.mp he
    exact ⟨refines_setStaticPrivate h ht, .done⟩

end Tunn

-- ---------------------------------------------------------------------------
-- Runs
-- ---------------------------------------------------------------------------

/-- A tunnel over bytes, and what `Instant::now()` reads. -/
structure ClockedTunn where
  tunn : Tunn
  now : Nat

inductive ClockedMove
  | elapse (ns : Nat)
  | call (ephemeral : Bytes32) (c : Tunn.Call)

inductive TimedMove
  | elapse (ns : Nat)
  | call (c : TimedTunn.Call)

def TimedMove.step (u : TimedTunn) : TimedMove → Option TimedTunn
  | .elapse ns => some (u.elapse ns)
  | .call c => some (u.call c).1

def TimedMove.results (u : TimedTunn) : TimedMove → List Noise.TunnResult
  | .elapse _ => []
  | .call c => [(u.call c).2]

namespace ClockedTunn

variable (pc : CookiePrimitives)

/-- A device calls with a buffer for a handshake message at the least. -/
def step (s : ClockedTunn) : ClockedMove → Option ClockedTunn
  | .elapse ns => some { s with now := s.now + ns }
  | .call ephemeral c =>
    if c.Roomy then (s.tunn.call pc ephemeral s.now c).map fun out => { s with tunn := out.1 }
    else none

def view (s : ClockedTunn) (m : ClockedMove) : Option TimedMove :=
  match s.step pc m, m with
  | none, _ => none
  | some _, .elapse ns => some (.elapse ns)
  | some _, .call ephemeral c => (s.tunn.callView pc ephemeral s.now c).map .call

/-- What a call returns, where it got past the limiter. -/
def results (s : ClockedTunn) (m : ClockedMove) : List TunnResult :=
  match s.view pc m, m with
  | some _, .call ephemeral c => (s.tunn.call pc ephemeral s.now c).toList.map Prod.snd
  | _, _ => []

def Refines (s : ClockedTunn) (u : TimedTunn) : Prop := s.tunn.Refines s.now u

variable {pc} {s s' : ClockedTunn} {u : TimedTunn}

theorem refines_elapse (h : s.Refines u) (ns : Nat) :
    Refines { s with now := s.now + ns } (u.elapse ns) := by
  obtain ⟨queue, timeSent, rfl, hq, hs, hn⟩ := Tunn.Refines.eq_asTimed h
  have hclock : s.tunn.timers.elapsed (s.now + ns) = s.tunn.timers.elapsed s.now + ns :=
    Nat.sub_add_comm hn
  refine ⟨?_, hq, hs, hn.trans (Nat.le_add_right ..)⟩
  simp only [Tunn.asTimed, hclock]
  rfl

/-- A call that is possible: what it returns, and what the other tunnel sees. -/
theorem call_agrees (h : s.Refines u) (hs : s.step pc (.call ephemeral c) = some s') :
    ∃ out, s.tunn.call pc ephemeral s.now c = some out ∧ s' = { s with tunn := out.1 } ∧
      (s.tunn.callView pc ephemeral s.now c).elim (out.1 = s.tunn)
        fun c' => Tunn.Agrees pc.toPrimitives s.now out (u.call c') := by
  simp only [step] at hs
  split at hs
  · rename_i hroom
    obtain ⟨out, ho, rfl⟩ := Option.map_eq_some_iff.mp hs
    exact ⟨out, ho, rfl, Tunn.agrees_call h c hroom ho⟩
  · cases hs

theorem embeds_timed (pc : CookiePrimitives) :
    Embeds (step pc) TimedMove.step (view pc) Refines where
  stuck s m hs := by simp [view, hs]
  idle s u m s' h hs hv := by
    cases m with
    | elapse ns => simp [view, hs] at hv
    | call ephemeral c =>
      obtain ⟨out, -, rfl, hagrees⟩ := call_agrees h hs
      simp only [view, hs, Option.map_eq_none_iff] at hv
      rw [hv, Option.elim_none] at hagrees
      rw [Refines, hagrees]
      exact h
  moves s u m s' j h hs hv := by
    cases m with
    | elapse ns =>
      cases hs
      simp only [view, step, Option.some.injEq] at hv
      subst hv
      exact ⟨_, rfl, refines_elapse h ns⟩
    | call ephemeral c =>
      obtain ⟨out, -, rfl, hagrees⟩ := call_agrees h hs
      simp only [view, hs] at hv
      obtain ⟨c', hc, rfl⟩ := Option.map_eq_some_iff.mp hv
      rw [hc] at hagrees
      exact ⟨_, rfl, hagrees.refines⟩

theorem results_agree (h : s.Refines u) (hs : s.step pc m = some s') (hv : s.view pc m = some j) :
    List.Forall₂ (TunnResult.Matches pc.toPrimitives) (s.results pc m) (j.results u) := by
  cases m with
  | elapse ns =>
    cases hs
    simp only [results, hv]
    simp only [view, step, Option.some.injEq] at hv
    subst hv
    exact .nil
  | call ephemeral c =>
    obtain ⟨out, ho, rfl, hagrees⟩ := call_agrees h hs
    simp only [results, hv, ho]
    simp only [view, hs] at hv
    obtain ⟨c', hc, rfl⟩ := Option.map_eq_some_iff.mp hv
    rw [hc] at hagrees
    exact .cons hagrees.result .nil

theorem refines_new (p : Primitives) (c : TunnConfig) :
    Refines ⟨c.tunn p, c.created⟩ (.new c.persistentKeepalive) := by
  refine ⟨?_, rfl, fun _ hs => (nomatch hs), Nat.le_refl _⟩
  have hclock : (c.tunn p).timers.elapsed c.created = 0 := Nat.sub_self _
  simp only [Tunn.asTimed, hclock]
  rfl

/-- Every run over bytes is a run of the tunnel above the cryptography, with
matching results and the same statistics. -/
theorem bytes_refine_timed (pc : CookiePrimitives) (c : TunnConfig)
    (he : exec (step pc) ⟨c.tunn pc.toPrimitives, c.created⟩ ms = some s) :
    ∃ js u, exec TimedMove.step (.new c.persistentKeepalive) js = some u ∧
      s.Refines u ∧ s.tunn.timeSinceLastHandshake s.now = u.timeSinceLastHandshake ∧
      List.Forall₂ (TunnResult.Matches pc.toPrimitives)
        (trace (step pc) (results pc) ⟨c.tunn pc.toPrimitives, c.created⟩ ms)
        (trace TimedMove.step (fun u j => j.results u) (.new c.persistentKeepalive) js) := by
  have hnew := refines_new pc.toPrimitives c
  obtain ⟨u, hu, h⟩ := (embeds_timed pc).run hnew he
  refine ⟨_, u, hu, h, ?_, (embeds_timed pc).trace_forall₂ ?_ ?_ hnew⟩
  · rw [h.state]
    simp [Tunn.timeSinceLastHandshake, TimedTunn.timeSinceLastHandshake,
      Noise.Tunn.currentSession, Tunn.asTimed]
  · exact fun s m hv => by simp [results, hv]
  · exact fun s v m s' j h hs hv => results_agree h hs hv

/-- The calls of one end of a link, with the clock let run between them. -/
def between : Nat → List LinkMove → List ClockedMove
  | _, [] => []
  | now, m :: rest => .elapse (m.now - now) :: .call m.ephemeral m.call :: between m.now rest

def initiatorMoves : List ClockedMove :=
  between 0 ((Link.rekeyed.filter fun i => i.1 = .initiator).map Prod.snd)

def sampleTunn : ClockedTunn :=
  ⟨(Link.sampleConfig .initiator).tunn sampleCookiePrimitives.toPrimitives, 0⟩

theorem initiatorMoves_run :
    ((exec (step sampleCookiePrimitives) sampleTunn initiatorMoves).map fun s =>
      (s.tunn.current, s.tunn.timeSinceLastHandshake s.now)) = some (258, some 12000) := by
  decide +kernel

theorem bytes_refine_timed_sample : ∃ (s : ClockedTunn) (js : List TimedMove) (u : TimedTunn),
    exec TimedMove.step (.new none) js = some u ∧ s.Refines u ∧
      s.tunn.timeSinceLastHandshake s.now = u.timeSinceLastHandshake ∧
      u.timeSinceLastHandshake = some 12000 := by
  obtain ⟨s, hs, hstats⟩ := Option.map_eq_some_iff.mp initiatorMoves_run
  obtain ⟨js, u, hu, h, hsame, -⟩ :=
    bytes_refine_timed sampleCookiePrimitives (Link.sampleConfig .initiator) hs
  exact ⟨s, js, u, hu, h, hsame, hsame.symm.trans (Prod.mk.inj hstats).2⟩

end ClockedTunn

end Xelt.Boringtun.Noise.Crypto
