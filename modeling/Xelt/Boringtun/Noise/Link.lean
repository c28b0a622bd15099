import Mathlib.Algebra.Order.Group.Multiset
import Xelt.Boringtun.Noise.Ring
import Xelt.Boringtun.Noise.Tunnel

/-!
# Two tunnels and a network

Two tunnels over as many handshakes as they make, with packets waiting for
sessions, keepalives, expired sessions and new keys. Each call of a tunnel is a
run of its ring of sessions: `ringMoves` says which, and the ring remembers what
was sealed and opened. The network hands over whatever datagrams it likes.

What a tunnel writes to its interface is what the other one was given for it,
each packet at most once.
-/

namespace Xelt.Boringtun.Noise.Crypto

open Bytes Runs

/-- What a decrypted packet is to the interface. -/
def interfaceWrite (plain : Bytes) : Option TunnResult :=
  match Noise.Tunn.validateDecapsulatedPacket plain with
  | .writeToTunnelV4 packet src => some (.writeToTunnelV4 packet src)
  | .writeToTunnelV6 packet src => some (.writeToTunnelV6 packet src)
  | _ => none

def TunnResult.written : TunnResult → List TunnResult
  | .writeToTunnelV4 packet src => [.writeToTunnelV4 packet src]
  | .writeToTunnelV6 packet src => [.writeToTunnelV6 packet src]
  | .done | .err _ | .writeToNetwork _ => []

-- ---------------------------------------------------------------------------
-- What a call makes of the ring
-- ---------------------------------------------------------------------------

def Session.storeMove (s : Session) : RingMove :=
  .store s.receivingIndex s.sendingIndex s.receiver s.sender

namespace Tunn

variable (p : Primitives)

def encapsulateMoves (t : Tunn) (src : Bytes) (dst : Nat) : List RingMove :=
  match t.sessions (slot t.current) with
  | some _ => [.send (slot t.current) src dst]
  | none => []

def queuedMoves (t : Tunn) (dst : Nat) : List RingMove :=
  match t.packetQueue with
  | [] => []
  | packet :: _ => t.encapsulateMoves packet dst

def packetMoves (t : Tunn) (packet : Packet) (dst : Nat) (ephemeral : Bytes32) (now : Nat) :
    List RingMove :=
  match packet with
  | .handshakeInit m =>
    match t.handshake.receiveHandshakeInitialization p m dst ephemeral with
    | some (_, .ok (_, session)) => [session.storeMove]
    | _ => []
  | .handshakeResponse r =>
    match t.handshake.receiveHandshakeResponse p r now with
    | (_, .ok session) => [session.storeMove, .send (slot session.receivingIndex.toNat) [] dst]
    | _ => []
  | .packetCookieReply _ => []
  | .packetData d =>
    match t.sessions (slot d.receiverIdx.toNat) with
    | none => []
    | some session =>
      match session.receivePacketData p d dst with
      | some (.ok _) => [.accept (slot d.receiverIdx.toNat) d dst]
      | _ => []

/-- The slots that are empty in the ring a call leaves. -/
def dropMoves (sessions : Fin nSessions → Option Session) : List RingMove :=
  ((List.finRange nSessions).filter fun i => (sessions i).isNone).map .drop

def timerMoves (t : Tunn) (dst now : Nat) : List RingMove :=
  dropMoves (t.due now).1.sessions ++
    match t.due now with
    | (t, .ok ⟨false, true⟩) => t.encapsulateMoves [] dst
    | _ => []

def ringMoves (pc : CookiePrimitives) (t : Tunn) (ephemeral : Bytes32) (now : Nat) :
    Call → List RingMove
  | .encapsulate src dst => t.encapsulateMoves src dst
  | .decapsulate limiter srcAddr datagram dst =>
    if datagram = [] then t.queuedMoves dst
    else
      match (limiter.verifyPacket pc srcAddr datagram cookieReplySz now).2 with
      | .ok packet => t.packetMoves pc.toPrimitives packet dst ephemeral now
      | .error _ => []
  | .handleVerifiedPacket packet dst => t.packetMoves pc.toPrimitives packet dst ephemeral now
  | .formatHandshakeInitiation .. => []
  | .updateTimers dst => t.timerMoves dst now
  | .setStaticPrivate .. => dropMoves fun _ => none

end Tunn

/-- The packet a call is given for the other end. -/
def Tunn.Call.submitted : Tunn.Call → List Bytes
  | .encapsulate src _ => [src]
  | _ => []

/-- The destination buffer holds a handshake initiation. -/
def Tunn.Call.Roomy : Tunn.Call → Prop
  | .encapsulate _ dst | .decapsulate _ _ _ dst | .handleVerifiedPacket _ dst
  | .formatHandshakeInitiation dst _ | .updateTimers dst => handshakeInitSz ≤ dst
  | .setStaticPrivate .. => True

instance : (c : Tunn.Call) → Decidable c.Roomy
  | .encapsulate .. | .decapsulate .. | .handleVerifiedPacket .. | .formatHandshakeInitiation ..
  | .updateTimers _ => inferInstanceAs (Decidable (_ ≤ _))
  | .setStaticPrivate .. => .isTrue trivial

-- ---------------------------------------------------------------------------
-- The system
-- ---------------------------------------------------------------------------

/-- A tunnel with the history of its ring, the packets it was given and what
it wrote to its interface. -/
structure LinkEnd where
  tunn : Tunn
  ring : SessionRing
  submitted : List Bytes
  written : List TunnResult

structure LinkMove where
  ephemeral : Bytes32
  now : Nat
  call : Tunn.Call

structure TunnConfig where
  staticPrivate : Bytes32
  peerStaticPublic : Bytes32
  presharedKey : Option Bytes32
  persistentKeepalive : Option UInt16
  index : UInt32
  ownLimiter : Bool
  stamper : TimeStamper
  created : Nat

def TunnConfig.tunn (p : Primitives) (c : TunnConfig) : Tunn :=
  .new p c.staticPrivate c.peerStaticPublic c.presharedKey c.persistentKeepalive c.index
    c.ownLimiter c.stamper c.created

structure Link where
  ends : Party → LinkEnd

namespace Link

variable (pc : CookiePrimitives)

def new (config : Party → TunnConfig) : Link where
  ends x := ⟨(config x).tunn pc.toPrimitives, .empty, [], []⟩

def rings (n : Link) : Rings := ⟨fun x => (n.ends x).ring⟩

def stepEnd (e : LinkEnd) (m : LinkMove) : Option LinkEnd := do
  let (tunn, r) ← e.tunn.call pc m.ephemeral m.now m.call
  let ring ← exec (SessionRing.step pc.toPrimitives) e.ring
    (e.tunn.ringMoves pc m.ephemeral m.now m.call)
  some
    { tunn
      ring
      submitted := e.submitted ++ m.call.submitted
      written := e.written ++ r.written }

def step (n : Link) (i : Party × LinkMove) : Option Link :=
  (stepEnd pc (n.ends i.1) i.2).map fun e => ⟨Function.update n.ends i.1 e⟩

/-- What a call opens was sealed by one of the two ends. -/
def Unforged (n : Link) (i : Party × LinkMove) : Prop :=
  Along (Rings.step pc.toPrimitives) (Rings.Unforged pc.toPrimitives) n.rings
    (((n.ends i.1).tunn.ringMoves pc i.2.ephemeral i.2.now i.2.call).map (i.1, ·))

instance : Decidable (Unforged pc n i) := inferInstanceAs (Decidable (Along ..))

end Link

-- ---------------------------------------------------------------------------
-- What the interface sees of packets
-- ---------------------------------------------------------------------------

/-- What a list of packets is to the interface, in any order. -/
def writes (packets : List Bytes) : Multiset TunnResult := packets.filterMap interfaceWrite

@[simp] theorem writes_nil : writes [] = 0 := rfl

@[simp] theorem writes_append : writes (a ++ b) = writes a + writes b := by
  simp [writes, List.filterMap_append]

theorem writes_cons : writes (packet :: packets) = writes [packet] + writes packets :=
  writes_append (a := [packet])

/-- A keepalive is nothing to the interface. -/
@[simp] theorem writes_keepalive : writes [[]] = 0 := rfl

namespace Tunn

variable {p : Primitives} {t t' t'' : Tunn}

/-- A call is this run of the ring, makes no packet of its own, and writes only
what the ring opened. -/
structure Passes (p : Primitives) (t : Tunn) (moves : List RingMove) (offered : List Bytes)
    (out : Tunn × TunnResult) : Prop where
  run : ∀ ring : SessionRing, ring.sessions = t.sessions → ∃ ring' sealings openings,
    exec (SessionRing.step p) ring moves = some ring' ∧ ring'.sessions = out.1.sessions ∧
      ring'.sealings = ring.sealings ++ sealings ∧ ring'.openings = ring.openings ++ openings ∧
      writes (sealings.map Sealing.plain) + writes out.1.packetQueue ≤
        writes t.packetQueue + writes offered ∧
      (out.2.written : Multiset TunnResult) ≤ writes (openings.map Sealing.plain)

theorem Passes.quiet (hs : t'.sessions = t.sessions)
    (hq : writes t'.packetQueue ≤ writes t.packetQueue + writes offered) (hr : r.written = []) :
    Passes p t [] offered (t', r) where
  run ring hring :=
    ⟨ring, [], [], rfl, hring.trans hs.symm, by simp, by simp, by simpa using hq, by simp [hr]⟩

/-- A part of a call that writes nothing, and what follows it. -/
theorem Passes.trans (h : Passes p t moves offered (t', r)) (hr : Passes p t' moves' [] out) :
    Passes p t (moves ++ moves') offered out := by
  constructor
  intro ring hring
  obtain ⟨ring', sealings, openings, he, hs, hseal, hopen, hq, -⟩ := h.run ring hring
  obtain ⟨ring'', sealings', openings', he', hs', hseal', hopen', hq', hw'⟩ := hr.run ring' hs
  refine ⟨ring'', sealings ++ sealings', openings ++ openings',
    (exec_append_some _).mpr ⟨ring', he, he'⟩, hs', by rw [hseal', hseal, List.append_assoc],
    by rw [hopen', hopen, List.append_assoc], ?_, ?_⟩
  · rw [List.map_append, writes_append, add_assoc]
    refine le_trans (add_le_add_right ?_ _) hq
    simpa using hq'
  · rw [List.map_append, writes_append]
    exact hw'.trans (Multiset.le_add_left _ _)

theorem passes_drop (h : ∀ i, t'.sessions i = none ∨ t'.sessions i = t.sessions i)
    (hq : writes t'.packetQueue ≤ writes t.packetQueue) (hr : r.written = []) :
    Passes p t (dropMoves t'.sessions) [] (t', r) := by
  have hdrops : ∀ (is : List (Fin nSessions)) (ring : SessionRing),
      exec (SessionRing.step p) ring (is.map .drop) =
        some { ring with sessions := fun i => if i ∈ is then none else ring.sessions i } := by
    intro is
    induction is with
    | nil => simp
    | cons i is ih =>
      intro ring
      rw [List.map_cons, exec_cons, SessionRing.step, Option.bind_some, ih, SessionRing.put]
      congr 2
      funext j
      by_cases hj : j = i <;> simp [hj]
  constructor
  intro ring hring
  refine ⟨_, [], [], hdrops _ ring, ?_, by simp, by simp, by simpa using hq, by simp [hr]⟩
  funext i
  rcases h i with hi | hi
  · simp [hi, List.mem_filter, List.mem_finRange]
  · cases hsome : t'.sessions i with
    | none => simp [hsome, List.mem_filter, List.mem_finRange]
    | some s => simp [hsome, List.mem_filter, hring, ← hi]

theorem passes_initiation (p : Primitives) (t : Tunn) (dst : Nat) (force : Bool)
    (ephemeral : Bytes32) (now : Nat) :
    Passes p t [] [] (t.formatHandshakeInitiation p dst force ephemeral now) := by
  rcases formatHandshakeInitiation_cases p t dst force ephemeral now with
    h | ⟨t', hs, -, hq, ⟨-, -, h⟩ | ⟨m, macs, -, -, h⟩⟩
  · rw [h]
    exact .quiet rfl (by simp) rfl
  · rw [h]
    exact .quiet hs (by simp [hq]) rfl
  · rw [h]
    exact .quiet hs (by simp [hq]) rfl

theorem writes_queuePacket (t : Tunn) (src : Bytes) :
    writes (t.queuePacket src).packetQueue ≤ writes t.packetQueue + writes [src] := by
  unfold queuePacket
  split_ifs
  · exact le_of_eq writes_append
  · exact Multiset.le_add_right _ _

/-- A session seals the packet under its next counter. -/
theorem send_passes (hi : t.sessions i = some s)
    (hf : s.formatPacketData p src dst = some (s', packet))
    (hs : t'.sessions = Function.update t.sessions i (some s'))
    (hq : t'.packetQueue = t.packetQueue) (hr : r.written = []) :
    Passes p t [.send i src dst] [src] (t', r) := by
  constructor
  intro ring hring
  refine ⟨{ ring.put i (some s') with
      sealings := ring.sealings ++ [⟨s.sender, packet.counter.toNat, src⟩] },
    [⟨s.sender, packet.counter.toNat, src⟩], [], ?_, ?_, rfl, (List.append_nil _).symm, ?_,
    by simp [hr]⟩
  · rw [exec_cons, SessionRing.step, hring, hi]
    simp only [hf, Option.map_some, Option.bind_some, exec_nil]
  · rw [hs, ← hring]
    rfl
  · simp [hq, add_comm]

theorem passes_encapsulate (h : t.encapsulate p src dst ephemeral now = some out) :
    Passes p t (t.encapsulateMoves src dst) [src] out := by
  unfold encapsulate at h
  unfold encapsulateMoves
  cases hi : t.sessions (slot t.current) with
  | none =>
    simp only [hi, Option.some.injEq] at h
    subst h
    have hqueue : Passes p t [] [src] (t.queuePacket src, .done) :=
      .quiet (queuePacket_sessions t) (writes_queuePacket t src) rfl
    exact hqueue.trans (passes_initiation ..)
  | some s =>
    simp only [hi] at h
    obtain ⟨⟨s', packet⟩, hf, rfl⟩ := Option.map_eq_some_iff.mp h
    refine send_passes hi hf ?_ ?_ rfl <;> dsimp only <;> split_ifs <;> rfl

theorem encapsulate_ne_err (hdst : handshakeInitSz ≤ dst)
    (h : t.encapsulate p src dst ephemeral now = some (t', .err e)) : False := by
  unfold encapsulate at h
  split at h
  · obtain ⟨_, -, heq⟩ := Option.map_eq_some_iff.mp h
    cases heq
  · rcases formatHandshakeInitiation_cases p (t.queuePacket src) dst false ephemeral now with
      heq | ⟨_, -, -, -, ⟨hlt, -, -⟩ | ⟨_, _, -, -, heq⟩⟩
    · rw [heq] at h
      cases h
    · omega
    · rw [heq] at h
      cases h

theorem passes_sendQueued (hdst : handshakeInitSz ≤ dst)
    (h : t.sendQueuedPacket p dst ephemeral now = some out) :
    Passes p t (t.queuedMoves dst) [] out := by
  unfold sendQueuedPacket at h
  unfold queuedMoves
  cases hq : t.packetQueue with
  | nil =>
    simp only [hq, Option.some.injEq] at h
    subst h
    exact .quiet rfl (by simp) rfl
  | cons packet rest =>
    simp only [hq] at h
    have hpop : t.encapsulateMoves packet dst =
        ({ t with packetQueue := rest } : Tunn).encapsulateMoves packet dst := rfl
    show Passes p t (t.encapsulateMoves packet dst) [] out
    rw [hpop]
    split at h
    · rename_i t' e he
      exact absurd he fun he => encapsulate_ne_err hdst he
    · constructor
      intro ring hring
      obtain ⟨ring', sealings, openings, he, hs, hseal, hopen, hle, hw⟩ :=
        (passes_encapsulate h).run ring hring
      refine ⟨ring', sealings, openings, he, hs, hseal, hopen, ?_, hw⟩
      rw [hq, writes_cons, writes_nil, add_zero, add_comm (writes [packet])]
      exact hle

theorem Passes.keepalive (h : Passes p t moves [[]] out) : Passes p t moves [] out where
  run ring hring := by simpa using h.run ring hring

/-- A session a handshake made takes its slot. -/
theorem store_passes (hnew : s = .new s.receivingIndex s.sendingIndex s.receiver s.sender)
    (hs : t'.sessions = Function.update t.sessions (slot s.receivingIndex.toNat) (some s))
    (hq : t'.packetQueue = t.packetQueue) (hr : r.written = []) :
    Passes p t [s.storeMove] [] (t', r) := by
  constructor
  intro ring hring
  refine ⟨{ ring.put (slot s.receivingIndex.toNat) (some s) with made := ring.made ++ [s] }, [], [],
    ?_, ?_, (List.append_nil _).symm, (List.append_nil _).symm, by simp [hq], by simp [hr]⟩
  · rw [Session.storeMove, exec_cons, SessionRing.step, ← hnew]
    rfl
  · rw [hs, ← hring]
    rfl

theorem Responds.new (h : Handshake.Responds p params ephemeral m transcript r s) :
    s = .new s.receivingIndex s.sendingIndex s.receiver s.sender := by
  rw [h.session]
  rfl

theorem passes_handshakeInit (h : t.handleHandshakeInit p m dst ephemeral = some out) :
    Passes p t (t.packetMoves p (.handshakeInit m) dst ephemeral now) [] out := by
  simp only [handleHandshakeInit] at h
  simp only [packetMoves]
  rcases Handshake.receiveHandshakeInitialization_cases p t.handshake m dst ephemeral with
    ⟨e, hres⟩ | ⟨h', hash, ck, hres, -⟩ | ⟨h', r, macs, s, hres, -, -, -, -, -, -, hr⟩
  · simp only [hres, Option.map_some, Option.some.injEq] at h ⊢
    exact h ▸ .quiet rfl (by simp) rfl
  · simp only [hres, Option.map_some, Option.some.injEq] at h ⊢
    exact h ▸ .quiet rfl (by simp) rfl
  · simp only [hres, Option.map_some, Option.some.injEq] at h ⊢
    exact h ▸ store_passes (Responds.new hr) rfl rfl rfl

theorem passes_handshakeResponse (h : t.handleHandshakeResponse p r dst now = some out) :
    Passes p t (t.packetMoves p (.handshakeResponse r) dst ephemeral now) [] out := by
  simp only [handleHandshakeResponse] at h
  simp only [packetMoves]
  cases hres : t.handshake.receiveHandshakeResponse p r now with
  | mk h' res =>
    cases res with
    | error e =>
      simp only [hres, Option.some.injEq] at h ⊢
      exact h ▸ .quiet rfl (by simp) rfl
    | ok s =>
      simp only [hres] at h ⊢
      obtain ⟨⟨s', keepalive⟩, hf, rfl⟩ := Option.map_eq_some_iff.mp h
      have hnew : s = .new s.receivingIndex s.sendingIndex s.receiver s.sender := by
        rcases Handshake.receiveHandshakeResponse_cases p t.handshake r now with
          ⟨e, herr⟩ | ⟨s₀, isPrevious, s₁, hawait, -⟩
        · rw [herr] at hres
          cases hres
        · rw [Handshake.receiveHandshakeResponse_eq hawait] at hres
          split at hres <;> cases hres
          rfl
      have hindex : s'.receivingIndex = s.receivingIndex := by
        simp only [Session.formatPacketData] at hf
        split at hf <;> cases hf
        rfl
      have hstore : Passes p t [s.storeMove] []
          (({ t with handshake := h' } : Tunn).putSession (slot s.receivingIndex.toNat) s, .done) :=
        store_passes hnew rfl rfl rfl
      refine hstore.trans (send_passes (Function.update_self ..) hf ?_ ?_ rfl).keepalive
      · simp [hindex]
      · simp

theorem accept_passes (hi : t.sessions i = some s)
    (hf : s.receivePacketData p d dst = some (.ok (s', plain)))
    (hs : t'.sessions = Function.update t.sessions i (some s'))
    (hq : t'.packetQueue = t.packetQueue)
    (hr : (r.written : Multiset TunnResult) ≤ writes [plain]) :
    Passes p t [.accept i d dst] [] (t', r) := by
  constructor
  intro ring hring
  refine ⟨{ ring.put i (some s') with
      openings := ring.openings ++ [⟨s.receiver, d.counter.toNat, plain⟩] },
    [], [⟨s.receiver, d.counter.toNat, plain⟩], ?_, ?_, (List.append_nil _).symm, rfl, by simp [hq],
    hr⟩
  · rw [exec_cons, SessionRing.step, hring, hi]
    simp only [hf, Option.bind_some, exec_nil]
  · rw [hs, ← hring]
    rfl

theorem validate_same (t : Tunn) (plain : Bytes) :
    (t.validateDecapsulatedPacket plain).1.sessions = t.sessions ∧
      (t.validateDecapsulatedPacket plain).1.packetQueue = t.packetQueue ∧
      (t.validateDecapsulatedPacket plain).1.handshake = t.handshake ∧
      (t.validateDecapsulatedPacket plain).1.current = t.current ∧
      (t.validateDecapsulatedPacket plain).2.written = (interfaceWrite plain).toList := by
  cases hv : Noise.Tunn.validateDecapsulatedPacket plain <;>
    simp [validateDecapsulatedPacket, interfaceWrite, hv, TunnResult.written]

theorem passes_data (h : t.handleData p d dst = some out) :
    Passes p t (t.packetMoves p (.packetData d) dst ephemeral now) [] out := by
  simp only [handleData] at h
  simp only [packetMoves]
  cases hi : t.sessions (slot d.receiverIdx.toNat) with
  | none =>
    simp only [hi, Option.some.injEq] at h ⊢
    exact h ▸ .quiet rfl (by simp) rfl
  | some s =>
    simp only [hi] at h ⊢
    cases hres : s.receivePacketData p d dst with
    | none => simp [hres] at h
    | some res =>
      cases res with
      | error e =>
        simp only [hres, Option.some.injEq] at h ⊢
        exact h ▸ .quiet rfl (by simp) rfl
      | ok opened =>
        obtain ⟨s', plain⟩ := opened
        simp only [hres, Option.some.injEq] at h ⊢
        subst h
        have hv := validate_same (((t.putSession (slot d.receiverIdx.toNat) s').setCurrentSession
          d.receiverIdx.toNat).tick .timeLastPacketReceived) plain
        generalize Tunn.validateDecapsulatedPacket _ plain = out at hv ⊢
        obtain ⟨t', r⟩ := out
        obtain ⟨hs, hq, -, -, hw⟩ := hv
        refine accept_passes hi hres (hs.trans (by simp)) (hq.trans (by simp)) ?_
        rw [hw, writes, List.filterMap_cons]
        cases interfaceWrite plain <;> simp

theorem passes_packet (h : t.handleVerifiedPacket p packet dst ephemeral now = some out) :
    Passes p t (t.packetMoves p packet dst ephemeral now) [] out := by
  cases packet with
  | handshakeInit m => exact passes_handshakeInit h
  | handshakeResponse r => exact passes_handshakeResponse h
  | packetCookieReply c =>
    simp only [handleVerifiedPacket, handleCookieReply, Option.some.injEq] at h
    split at h <;> exact h ▸ .quiet rfl (by simp) rfl
  | packetData d => exact passes_data h

theorem writes_dropped (h : Dropped t t') : writes t'.packetQueue ≤ writes t.packetQueue := by
  rcases h.packetQueue with hq | hq
  · rw [hq]
  · rw [hq]
    exact Multiset.zero_le _

theorem passes_updateTimers (h : t.updateTimers p dst ephemeral now = some out) :
    Passes p t (t.timerMoves dst now) [] out := by
  unfold updateTimers at h
  unfold timerMoves
  have hdrop := dropped_due t now
  have hfirst : ∀ r : TunnResult, r.written = [] →
      Passes p t (dropMoves (t.due now).1.sessions) [] ((t.due now).1, r) := fun r hr =>
    passes_drop hdrop.sessions (writes_dropped hdrop) hr
  generalize t.due now = u at h hfirst ⊢
  obtain ⟨u, e | ⟨initiate, keepalive⟩⟩ := u
  · simp only [Option.some.injEq] at h
    subst h
    simpa using hfirst _ rfl
  · refine (hfirst .done rfl).trans ?_
    cases initiate
    · cases keepalive
      · simp only [Bool.false_eq_true, if_false, Option.some.injEq] at h
        subst h
        exact .quiet rfl (by simp) rfl
      · simp only [Bool.false_eq_true, if_false, if_true] at h
        exact (passes_encapsulate h).keepalive
    · simp only [if_true, Option.some.injEq] at h
      subst h
      exact passes_initiation ..

theorem passes_call (hroom : c.Roomy) (h : t.call pc ephemeral now c = some out) :
    Passes pc.toPrimitives t (t.ringMoves pc ephemeral now c) c.submitted out := by
  cases c with
  | encapsulate src dst => exact passes_encapsulate h
  | decapsulate limiter srcAddr datagram dst =>
    obtain ⟨⟨t', limiter', r⟩, hd, rfl⟩ := Option.map_eq_some_iff.mp h
    simp only [decapsulate] at hd
    simp only [ringMoves, Call.submitted]
    split at hd
    · rename_i hempty
      obtain ⟨q, hq, heq⟩ := Option.map_eq_some_iff.mp hd
      obtain ⟨rfl, -, rfl⟩ := by simpa using heq
      rw [if_pos hempty]
      exact passes_sendQueued hroom hq
    · rename_i hsome
      rw [if_neg hsome]
      split at hd
      · rename_i hverify
        split at hd <;> cases hd
        rw [hverify]
        exact .quiet rfl (by simp) rfl
      · rename_i hverify
        cases hd
        rw [hverify]
        exact .quiet rfl (by simp) rfl
      · rename_i hverify
        obtain ⟨q, hq, heq⟩ := Option.map_eq_some_iff.mp hd
        obtain ⟨rfl, -, rfl⟩ := by simpa using heq
        rw [hverify]
        exact passes_packet hq
  | handleVerifiedPacket packet dst => exact passes_packet h
  | formatHandshakeInitiation dst force =>
    cases h
    exact passes_initiation ..
  | updateTimers dst => exact passes_updateTimers h
  | setStaticPrivate staticPrivate staticPublic ownLimiter =>
    obtain ⟨t', ht, rfl⟩ := Option.map_eq_some_iff.mp h
    obtain ⟨handshake, -, rfl⟩ := Option.map_eq_some_iff.mp ht
    have hdrop (u : Tunn) (hs : u.sessions = fun _ => none) (hq : u.packetQueue = t.packetQueue) :
        Passes pc.toPrimitives t (dropMoves fun _ => none) [] (u, .done) := by
      rw [← hs]
      exact passes_drop (fun _ => .inl (by rw [hs])) (by rw [hq]) rfl
    exact hdrop _ rfl rfl

end Tunn

-- ---------------------------------------------------------------------------
-- Runs
-- ---------------------------------------------------------------------------

namespace Link

variable {pc : CookiePrimitives} {n n' t : Link} {e e' : LinkEnd}

/-- An end has sealed no more than it was given, and has written no more than
it has opened. -/
structure Inv (e : LinkEnd) : Prop where
  sessions : e.ring.sessions = e.tunn.sessions
  sealed : writes (e.ring.sealings.map Sealing.plain) + writes e.tunn.packetQueue ≤
    writes e.submitted
  written : (e.written : Multiset TunnResult) ≤ writes (e.ring.openings.map Sealing.plain)

theorem inv_new (config : Party → TunnConfig) (x : Party) : Inv ((new pc config).ends x) where
  sessions := rfl
  sealed := le_refl _
  written := le_refl _

theorem stepEnd_cases (h : stepEnd pc e m = some e') :
    ∃ r, e.tunn.call pc m.ephemeral m.now m.call = some (e'.tunn, r) ∧
      exec (SessionRing.step pc.toPrimitives) e.ring
        (e.tunn.ringMoves pc m.ephemeral m.now m.call) = some e'.ring ∧
      e'.submitted = e.submitted ++ m.call.submitted ∧ e'.written = e.written ++ r.written := by
  simp only [stepEnd, Option.bind_eq_bind, Option.bind_eq_some_iff] at h
  obtain ⟨⟨tunn, r⟩, hcall, ring, hring, heq⟩ := h
  cases heq
  exact ⟨r, hcall, hring, rfl, rfl⟩

theorem Inv.step (hi : Inv e) (hroom : m.call.Roomy) (h : stepEnd pc e m = some e') : Inv e' := by
  obtain ⟨r, hcall, hring, hsub, hwritten⟩ := stepEnd_cases h
  obtain ⟨ring', sealings, openings, he, hs, hseal, hopen, hq, hw⟩ :=
    (Tunn.passes_call hroom hcall).run e.ring hi.sessions
  obtain rfl : e'.ring = ring' := Option.some.inj (hring.symm.trans he)
  constructor
  · exact hs
  · rw [hseal, hsub, List.map_append, writes_append, writes_append, add_assoc]
    refine le_trans (add_le_add_right hq _) ?_
    rw [← add_assoc]
    exact add_le_add_left hi.sealed _
  · rw [hwritten, hopen, List.map_append, writes_append, ← Multiset.coe_add]
    exact add_le_add hi.written hw

/-- The run of one ring is a run of the two. -/
theorem exec_end {r r' : SessionRing} {rings : Rings} (h : rings.ends x = r)
    (he : exec (SessionRing.step p) r moves = some r') :
    exec (Rings.step p) rings (moves.map (x, ·)) = some ⟨Function.update rings.ends x r'⟩ := by
  induction moves generalizing rings r with
  | nil =>
    cases he
    subst h
    simp
  | cons m moves ih =>
    obtain ⟨s, hs, he⟩ := (exec_cons_some _).mp he
    rw [List.map_cons, exec_cons, Rings.step, h, hs]
    simp only [Option.map_some, Option.bind_some]
    rw [ih (Function.update_self ..) he, Function.update_idem]

theorem step_cases (h : step pc n (x, m) = some n') :
    ∃ e, stepEnd pc (n.ends x) m = some e ∧ n'.ends x = e ∧ n'.ends x.other = n.ends x.other ∧
      n'.rings = ⟨Function.update n.rings.ends x e.ring⟩ := by
  obtain ⟨e, he, rfl⟩ := Option.map_eq_some_iff.mp h
  refine ⟨e, he, Function.update_self .., Function.update_of_ne x.other_ne .., ?_⟩
  simp only [rings, Rings.mk.injEq]
  funext y
  by_cases hy : y = x
  · subst hy
    simp
  · simp [hy]

theorem step_rings (h : step pc n i = some n') :
    exec (Rings.step pc.toPrimitives) n.rings
      (((n.ends i.1).tunn.ringMoves pc i.2.ephemeral i.2.now i.2.call).map (i.1, ·)) =
        some n'.rings := by
  obtain ⟨x, m⟩ := i
  obtain ⟨e, he, -, -, hrings⟩ := step_cases h
  obtain ⟨r, -, hring, -⟩ := stepEnd_cases he
  rw [hrings]
  exact exec_end rfl hring

theorem sound_of_run (he : exec (step pc) n is = some t) (hs : t.rings.Sound) : n.rings.Sound := by
  induction is generalizing n with
  | nil => cases he; exact hs
  | cons i is ih =>
    obtain ⟨n', hstep, he⟩ := (exec_cons_some _).mp he
    exact Rings.Sound.of_run (step_rings hstep) (ih he)

theorem inv_run (hp : pc.toPrimitives.Lawful) (hroom : ∀ i ∈ is, i.2.call.Roomy)
    (hun : Along (step pc) (Unforged pc) n is) (he : exec (step pc) n is = some t)
    (hsound : t.rings.Sound) (hi : ∀ x, Inv (n.ends x)) (hr : n.rings.Inv) :
    (∀ x, Inv (t.ends x)) ∧ t.rings.Inv := by
  induction is generalizing n with
  | nil => cases he; exact ⟨hi, hr⟩
  | cons i is ih =>
    obtain ⟨n', hs, he⟩ := (exec_cons_some _).mp he
    obtain ⟨hri, hris⟩ := List.forall_mem_cons.mp hroom
    refine ih hris (hun.2 n' hs) he ?_
      (hr.run hp hun.1 (step_rings hs) (sound_of_run he hsound))
    obtain ⟨x, m⟩ := i
    obtain ⟨e, hend, hx, ho, -⟩ := step_cases hs
    exact Channel.forall_party x (hx ▸ (hi x).step hri hend) (ho ▸ hi x.other)

/-- Whatever the network does and however often the tunnels make new keys,
what one writes to its interface is what the other was given for it, each
packet at most once. -/
theorem written_le_submitted (hp : pc.toPrimitives.Lawful) (config : Party → TunnConfig)
    (hroom : ∀ i ∈ is, i.2.call.Roomy)
    (hun : Along (step pc) (Unforged pc) (new pc config) is)
    (he : exec (step pc) (new pc config) is = some t)
    (hfresh : ∀ x, (t.ends x).ring.Fresh) (hfew : ∀ x, (t.ends x).ring.Few) (x : Party) :
    ((t.ends x).written : Multiset TunnResult) ≤
      ((t.ends x.other).submitted.filterMap interfaceWrite : Multiset TunnResult) := by
  obtain ⟨hi, hr⟩ := inv_run hp hroom hun he ⟨hfresh, hfew⟩ (inv_new config) Rings.inv_new
  calc ((t.ends x).written : Multiset TunnResult)
      ≤ writes ((t.ends x).ring.openings.map Sealing.plain) := (hi x).written
    _ ≤ writes ((t.ends x.other).ring.sealings.map Sealing.plain) := by
        have hle := Multiset.map_le_map (f := Sealing.plain) (hr.openings_le x)
        rw [Multiset.map_coe, Multiset.map_coe] at hle
        have hwrites := Multiset.filterMap_le_filterMap interfaceWrite hle
        rwa [Multiset.filterMap_coe, Multiset.filterMap_coe] at hwrites
    _ ≤ writes (t.ends x.other).submitted :=
        (Multiset.le_add_right _ _).trans (hi x.other).sealed

/-- Moves that may carry the datagram that last went to the network. -/
def relayed (pc : CookiePrimitives) :
    Link → Bytes → List (Party × (Bytes → LinkMove)) → List (Party × LinkMove)
  | _, _, [] => []
  | n, latest, (x, move) :: rest =>
    let m := move latest
    (x, m) :: match (n.ends x).tunn.call pc m.ephemeral m.now m.call, step pc n (x, m) with
      | some (_, .writeToNetwork datagram), some n' => relayed pc n' datagram rest
      | _, some n' => relayed pc n' latest rest
      | _, none => []

def sampleKey : Party → Bytes32
  | .initiator => beArray 32 5
  | .responder => beArray 32 9

def sampleConfig (x : Party) : TunnConfig where
  staticPrivate := sampleKey x
  peerStaticPublic := sampleKey x.other
  presharedKey := none
  persistentKeepalive := none
  index := match x with
    | .initiator => 1
    | .responder => 2
  ownLimiter := true
  stamper := ⟨10 ^ 18, 0⟩
  created := 0

def sampleGate (x : Party) : RateLimiter :=
  .new sampleCookiePrimitives (sampleKey x) 10 (beArray 16 77) (beArray 32 78) 0

def samplePacket (last : UInt8) : Bytes :=
  [0x45, 0, 0, 21, 0, 0, 0, 0, 0, 0, 0, 0, 10, 0, 0, 1, 10, 0, 0, 2, last]

def deliver (x : Party) (ephemeral now : Nat) : Party × (Bytes → LinkMove) :=
  (x, fun latest => ⟨beArray 32 ephemeral, now, .decapsulate (sampleGate x) none latest 2048⟩)

def sampleCall (x : Party) (ephemeral now : Nat) (c : Tunn.Call) : Party × (Bytes → LinkMove) :=
  (x, fun _ => ⟨beArray 32 ephemeral, now, c⟩)

/-- A packet that waits for its handshake and is duplicated on its way, one the
other way, then new keys and another packet. -/
def rekeyed : List (Party × LinkMove) :=
  relayed sampleCookiePrimitives (new sampleCookiePrimitives sampleConfig) []
    [sampleCall .initiator 21 1000 (.encapsulate (samplePacket 1) 2048),
      deliver .responder 22 2000, deliver .initiator 0 3000, deliver .responder 0 4000,
      sampleCall .initiator 0 5000 (.decapsulate (sampleGate .initiator) none [] 2048),
      deliver .responder 0 6000, deliver .responder 0 6000,
      sampleCall .responder 0 7000 (.encapsulate (samplePacket 2) 2048),
      deliver .initiator 0 8000,
      sampleCall .initiator 23 9000 (.formatHandshakeInitiation 2048 true),
      deliver .responder 24 10000, deliver .initiator 0 11000,
      sampleCall .initiator 0 12000 (.encapsulate (samplePacket 3) 2048),
      deliver .responder 0 13000]

theorem rekeyed_runs :
    (exec (step sampleCookiePrimitives) (new sampleCookiePrimitives sampleConfig)
      rekeyed).isSome := by
  decide +kernel

def rekeyedLink : Link :=
  (exec (step sampleCookiePrimitives) (new sampleCookiePrimitives sampleConfig) rekeyed).get
    rekeyed_runs

theorem exec_rekeyed : exec (step sampleCookiePrimitives)
    (new sampleCookiePrimitives sampleConfig) rekeyed = some rekeyedLink :=
  (Option.some_get rekeyed_runs).symm

theorem rekeyed_passes : (∀ i ∈ rekeyed, i.2.call.Roomy) ∧
    Along (step sampleCookiePrimitives) (Unforged sampleCookiePrimitives)
      (new sampleCookiePrimitives sampleConfig) rekeyed := by
  decide +kernel

theorem rekeyed_ends :
    (∀ x, (rekeyedLink.ends x).ring.Fresh ∧ (rekeyedLink.ends x).ring.Few) ∧
      (rekeyedLink.ends .responder).written =
        [.writeToTunnelV4 (samplePacket 1) (.new 10 0 0 1),
          .writeToTunnelV4 (samplePacket 3) (.new 10 0 0 1)] := by
  decide +kernel

theorem sampleLawful : sampleCookiePrimitives.toPrimitives.Lawful where
  dh_comm := samplePrimitives_lawful.dh_comm
  open_seal := samplePrimitives_lawful.open_seal

theorem written_le_submitted_sample :
    (rekeyedLink.ends .responder).written =
        [.writeToTunnelV4 (samplePacket 1) (.new 10 0 0 1),
          .writeToTunnelV4 (samplePacket 3) (.new 10 0 0 1)] ∧
      ((rekeyedLink.ends .responder).written : Multiset TunnResult) ≤
        ((rekeyedLink.ends (Party.other .responder)).submitted.filterMap interfaceWrite :
          Multiset TunnResult) :=
  ⟨rekeyed_ends.2, written_le_submitted sampleLawful sampleConfig rekeyed_passes.1
    rekeyed_passes.2 exec_rekeyed (fun x => (rekeyed_ends.1 x).1) (fun x => (rekeyed_ends.1 x).2)
    .responder⟩

end Link

end Xelt.Boringtun.Noise.Crypto
