import Xelt.Boringtun.Noise.Link

/-!
# Each initiation is answered once

The timestamp of an initiation has to be after the last one its peer has
accepted. Here the answers of a tunnel are collected over a whole run, whatever
else it is called for in between: their timestamps only go up, so an initiation
that was recorded and is sent again, at any later time, gets no answer.
-/

namespace Xelt.Boringtun.Noise.Crypto

open Bytes Runs

theorem Tai64N.after_iff (t other : Tai64N) :
    t.after other = true ↔ other.secs < t.secs ∨ t.secs = other.secs ∧ other.nano < t.nano := by
  simp [Tai64N.after]

theorem Tai64N.after_trans {t t' t'' : Tai64N} (h : t''.after t') (h' : t'.after t) :
    t''.after t := by
  rw [after_iff] at *
  omega

/-- The configuration and the last timestamp of a handshake are as before. -/
structure Handshake.Settled (h h' : Handshake) : Prop where
  params : h'.params = h.params
  lastHandshakeTimestamp : h'.lastHandshakeTimestamp = h.lastHandshakeTimestamp

namespace Handshake

variable {p : Primitives} {h h' h'' : Handshake}

theorem Settled.refl (h : Handshake) : Settled h h := ⟨rfl, rfl⟩

theorem Settled.trans (hs : Settled h h') (hs' : Settled h' h'') : Settled h h'' :=
  ⟨hs'.params.trans hs.params,
    hs'.lastHandshakeTimestamp.trans hs.lastHandshakeTimestamp⟩

theorem settled_initiation (p : Primitives) (h : Handshake) (dst : Nat) (ephemeral : Bytes32)
    (now : Nat) : Settled h (h.formatHandshakeInitiation p dst ephemeral now).1 := by
  unfold formatHandshakeInitiation
  split
  · exact .refl h
  · exact ⟨rfl, rfl⟩

theorem settled_response (p : Primitives) (h : Handshake) (r : HandshakeResponse) (now : Nat) :
    Settled h (h.receiveHandshakeResponse p r now).1 := by
  rcases receiveHandshakeResponse_cases p h r now with ⟨e, hres⟩ | ⟨s, isPrevious, session, -, hres⟩
  · rw [hres]
    exact .refl h
  · rw [hres]
    cases isPrevious <;> exact ⟨rfl, rfl⟩

theorem settled_cookieReply (p : Primitives) (h : Handshake) (c : PacketCookieReply) :
    Settled h (h.receiveCookieReply p c).1 := by
  rcases receiveCookieReply_cases p h c with ⟨e, hres⟩ | ⟨cookie, hres⟩
  · rw [hres]
    exact .refl h
  · rw [hres]
    exact ⟨rfl, rfl⟩

/-- With or without room for the response the timestamp is taken. -/
theorem settled_formatResponse (h : Handshake)
    (hf : h.formatHandshakeResponse p dst ephemeral = some (h', r)) : Settled h h' := by
  unfold formatHandshakeResponse at hf
  split at hf
  · cases hf
    exact ⟨rfl, rfl⟩
  · split at hf <;> cases hf
    exact ⟨rfl, rfl⟩

end Handshake

-- ---------------------------------------------------------------------------
-- One call
-- ---------------------------------------------------------------------------

/-- The packet that a call hands to the tunnel, if it gets past the limiter. -/
def Tunn.Call.packet (pc : CookiePrimitives) (now : Nat) : Tunn.Call → Option Packet
  | .decapsulate limiter srcAddr datagram _ =>
    if datagram = [] then none
    else (limiter.verifyPacket pc srcAddr datagram cookieReplySz now).2.toOption
  | .handleVerifiedPacket packet _ => some packet
  | _ => none

/-- The key pair of the tunnel stays. -/
def Tunn.Call.KeepsKeys : Tunn.Call → Prop
  | .setStaticPrivate .. => False
  | _ => True

instance : (c : Tunn.Call) → Decidable c.KeepsKeys
  | .setStaticPrivate .. => .isFalse False.elim
  | .encapsulate .. | .decapsulate .. | .handleVerifiedPacket .. | .formatHandshakeInitiation ..
  | .updateTimers _ => .isTrue trivial

namespace Tunn

open Handshake

variable {p : Primitives} {t t' : Tunn}

theorem settled_initiation (p : Primitives) (t : Tunn) (dst : Nat) (force : Bool)
    (ephemeral : Bytes32) (now : Nat) :
    Settled t.handshake (t.formatHandshakeInitiation p dst force ephemeral now).1.handshake := by
  unfold formatHandshakeInitiation
  split
  · exact .refl _
  · have hsame : (if t.handshake.isExpired then { t with timers := t.timers.clear now } else t :
        Tunn).handshake = t.handshake := by
      split_ifs <;> rfl
    have hinitiation := Handshake.settled_initiation p t.handshake dst ephemeral now
    dsimp only
    rw [hsame]
    cases hres : t.handshake.formatHandshakeInitiation p dst ephemeral now with
    | mk h' r =>
      rw [hres] at hinitiation
      cases r with
      | error e => exact hinitiation
      | ok packet =>
        dsimp only
        rw [tick_handshake]
        split_ifs <;> exact hinitiation

theorem settled_encapsulate (h : t.encapsulate p src dst ephemeral now = some out) :
    Settled t.handshake out.1.handshake := by
  unfold encapsulate at h
  split at h
  · obtain ⟨⟨s', packet⟩, -, rfl⟩ := Option.map_eq_some_iff.mp h
    dsimp only
    split_ifs <;> exact .refl _
  · cases h
    have hqueued := settled_initiation p (t.queuePacket src) dst false ephemeral now
    rw [queuePacket_handshake] at hqueued
    exact hqueued

theorem requeuePacket_handshake (t : Tunn) : (t.requeuePacket src).handshake = t.handshake := by
  unfold requeuePacket
  split_ifs <;> rfl

theorem settled_sendQueuedPacket (h : t.sendQueuedPacket p dst ephemeral now = some out) :
    Settled t.handshake out.1.handshake := by
  unfold sendQueuedPacket at h
  split at h
  · cases h
    exact .refl _
  · split at h
    · rename_i t' e he
      cases h
      rw [requeuePacket_handshake]
      exact (settled_encapsulate he :)
    · exact (settled_encapsulate h :)

theorem settled_data (h : t.handleData p packet dst = some out) :
    out.1.handshake = t.handshake := by
  unfold handleData at h
  dsimp only at h
  split at h
  · cases h
    rfl
  · split at h
    · cases h
    · cases h
      rfl
    · cases h
      rw [(validate_same _ _).2.2.1, tick_handshake, setCurrentSession_handshake]
      rfl

theorem settled_response (h : t.handleHandshakeResponse p r dst now = some out) :
    Settled t.handshake out.1.handshake := by
  have hres := Handshake.settled_response p t.handshake r now
  unfold handleHandshakeResponse at h
  cases hr : t.handshake.receiveHandshakeResponse p r now with
  | mk h' res =>
    rw [hr] at h hres
    cases res with
    | error e =>
      cases h
      exact hres
    | ok session =>
      obtain ⟨⟨s', packet⟩, -, rfl⟩ := Option.map_eq_some_iff.mp h
      rw [setCurrentSession_handshake]
      exact hres

theorem settled_cookieReply (p : Primitives) (t : Tunn) (c : PacketCookieReply) :
    Settled t.handshake (t.handleCookieReply p c).1.handshake := by
  have hres := Handshake.settled_cookieReply p t.handshake c
  unfold handleCookieReply
  cases hr : t.handshake.receiveCookieReply p c with
  | mk h' res =>
    rw [hr] at hres
    cases res <;> exact hres

theorem settled_updateTimers (h : t.updateTimers p dst ephemeral now = some out) :
    Settled t.handshake out.1.handshake := by
  have hdue : Settled t.handshake (t.due now).1.handshake :=
    ⟨(dropped_due t now).params, (dropped_due t now).lastHandshakeTimestamp⟩
  unfold updateTimers at h
  generalize t.due now = q at h hdue
  obtain ⟨t', res⟩ := q
  cases res with
  | error e =>
    cases h
    exact hdue
  | ok due =>
    dsimp only at h
    split at h
    · cases h
      exact hdue.trans (settled_initiation ..)
    · split at h
      · exact hdue.trans (settled_encapsulate h)
      · cases h
        exact hdue

/-- What a call does to the last timestamp, given the packet it handed over. -/
inductive StampStep (p : Primitives) (t : Tunn) (out : Tunn × TunnResult) : Option Packet → Prop
  | keep : out.1.handshake.lastHandshakeTimestamp = t.handshake.lastHandshakeTimestamp →
    (∀ m, packet = some (.handshakeInit m) → ∀ bytes, out.2 ≠ .writeToNetwork bytes) →
    StampStep p t out packet
  | take (timestamp : Tai64N) : t.handshake.checkedTimestamp p m = some timestamp →
    out.1.handshake.lastHandshakeTimestamp = timestamp →
    StampStep p t out (some (.handshakeInit m))

theorem stamp_settled (h : Settled t.handshake out.1.handshake)
    (hpacket : ∀ m, packet ≠ some (.handshakeInit m)) : StampStep p t out packet :=
  .keep h.lastHandshakeTimestamp fun m hm => absurd hm (hpacket m)

theorem stamp_initialization (h : t.handleHandshakeInit p m dst ephemeral = some out) :
    StampStep p t out (some (.handshakeInit m)) ∧
      out.1.handshake.params = t.handshake.params := by
  obtain ⟨⟨h', r⟩, hr, rfl⟩ := Option.map_eq_some_iff.mp h
  cases hm : t.handshake.checkedTimestamp p m with
  | none =>
    obtain ⟨e, heq⟩ := receive_unchecked t.handshake m dst ephemeral hm
    obtain ⟨rfl, rfl⟩ := Prod.mk.inj (Option.some.inj (heq.symm.trans hr))
    exact ⟨.keep rfl fun _ _ _ => nofun, rfl⟩
  | some timestamp =>
    obtain ⟨-, heq⟩ := receive_checked t.handshake m dst ephemeral hm
    have hsettled := settled_formatResponse _ (heq.symm.trans hr)
    cases r <;>
      exact ⟨.take timestamp hm hsettled.lastHandshakeTimestamp, hsettled.params⟩

theorem stamp_packet (packet : Packet)
    (h : t.handleVerifiedPacket p packet dst ephemeral now = some out) :
    StampStep p t out (some packet) ∧ out.1.handshake.params = t.handshake.params := by
  have hsettled : ∀ h' : Settled t.handshake out.1.handshake,
      (∀ m, packet ≠ .handshakeInit m) →
      StampStep p t out (some packet) ∧ out.1.handshake.params = t.handshake.params :=
    fun h' hm => ⟨stamp_settled h' fun m heq => hm m (Option.some.inj heq), h'.params⟩
  cases packet with
  | handshakeInit m => exact stamp_initialization h
  | handshakeResponse r => exact hsettled (settled_response h) nofun
  | packetCookieReply c =>
    exact hsettled (Option.some.inj h ▸ settled_cookieReply p t c) nofun
  | packetData d =>
    have hsame := settled_data h
    exact hsettled (hsame ▸ .refl _) nofun

theorem stamp_call {pc : CookiePrimitives} (c : Call)
    (h : t.call pc ephemeral now c = some out) :
    StampStep pc.toPrimitives t out (c.packet pc now) ∧
      (c.KeepsKeys → out.1.handshake.params = t.handshake.params) := by
  have hsettled : Settled t.handshake out.1.handshake →
      StampStep pc.toPrimitives t out none ∧
        (c.KeepsKeys → out.1.handshake.params = t.handshake.params) :=
    fun h' => ⟨stamp_settled h' nofun, fun _ => h'.params⟩
  cases c with
  | encapsulate src dst => exact hsettled (settled_encapsulate h)
  | decapsulate limiter srcAddr datagram dst =>
    obtain ⟨⟨t', limiter', r⟩, hd, rfl⟩ := Option.map_eq_some_iff.mp h
    simp only [decapsulate] at hd
    simp only [Call.packet]
    by_cases hempty : datagram = []
    · rw [if_pos hempty] at hd ⊢
      obtain ⟨q, hq, heq⟩ := Option.map_eq_some_iff.mp hd
      cases heq
      exact hsettled (settled_sendQueuedPacket hq)
    · rw [if_neg hempty] at hd ⊢
      generalize limiter.verifyPacket pc srcAddr datagram cookieReplySz now = verified at hd ⊢
      obtain ⟨next, res⟩ := verified
      cases res with
      | ok packet =>
        obtain ⟨q, hq, heq⟩ := Option.map_eq_some_iff.mp hd
        cases heq
        obtain ⟨hstamp, hparams⟩ := stamp_packet packet hq
        exact ⟨hstamp, fun _ => hparams⟩
      | error rejection =>
        cases rejection with
        | err e =>
          cases hd
          exact hsettled (.refl _)
        | writeToNetwork cookie =>
          dsimp only at hd
          split at hd <;> cases hd
          exact hsettled (.refl _)
  | handleVerifiedPacket packet dst =>
    obtain ⟨hstamp, hparams⟩ := stamp_packet packet h
    exact ⟨hstamp, fun _ => hparams⟩
  | formatHandshakeInitiation dst force =>
    cases h
    exact hsettled (settled_initiation ..)
  | updateTimers dst => exact hsettled (settled_updateTimers h)
  | setStaticPrivate staticPrivate staticPublic ownLimiter =>
    obtain ⟨t', ht, rfl⟩ := Option.map_eq_some_iff.mp h
    obtain ⟨handshake, hset, rfl⟩ := Option.map_eq_some_iff.mp ht
    obtain ⟨-, rfl⟩ : pc.publicKey staticPrivate = staticPublic ∧ _ = handshake := by
      simpa [Handshake.setStaticPrivate] using hset
    exact ⟨.keep rfl fun _ hm => absurd hm (Option.some_ne_none _).symm, False.elim⟩

-- ---------------------------------------------------------------------------
-- Runs
-- ---------------------------------------------------------------------------

def step (pc : CookiePrimitives) (t : Tunn) (m : LinkMove) : Option Tunn :=
  (t.call pc m.ephemeral m.now m.call).map Prod.fst

/-- An initiation, and the keys it was answered with. -/
@[ext] structure Answer where
  params : NoiseParams
  initiation : HandshakeInit

def Answer.timestamp (p : Primitives) (a : Answer) : Option Tai64N :=
  (openStamp p a.params a.initiation).map Tai64N.parse

/-- The initiation a call handed over, if something was sent for it. -/
def answers (pc : CookiePrimitives) (t : Tunn) (m : LinkMove) : List Answer :=
  match m.call.packet pc m.now, t.call pc m.ephemeral m.now m.call with
  | some (.handshakeInit initiation), some (_, .writeToNetwork _) =>
    [⟨t.handshake.params, initiation⟩]
  | _, _ => []

/-- `b` was answered with a later timestamp than `a`. -/
def Answer.Before (p : Primitives) (a b : Answer) : Prop :=
  ∃ older newer, a.timestamp p = some older ∧ b.timestamp p = some newer ∧ newer.after older = true

/-- `a` has a timestamp that a tunnel with this last timestamp may accept. -/
def Answer.After (p : Primitives) (last : Tai64N) (a : Answer) : Prop :=
  ∃ timestamp, a.timestamp p = some timestamp ∧ timestamp.after last = true

theorem Answer.Before.ne {a b : Answer} (h : a.Before p b) : a ≠ b := by
  rintro rfl
  obtain ⟨older, newer, hold, hnew, hafter⟩ := h
  obtain rfl := Option.some.inj (hold.symm.trans hnew)
  rw [Tai64N.after_irrefl] at hafter
  cases hafter

variable {pc : CookiePrimitives}

theorem answers_eq (ha : a ∈ t.answers pc m) :
    t.answers pc m = [a] ∧ m.call.packet pc m.now = some (.handshakeInit a.initiation) ∧
      a.params = t.handshake.params ∧
      ∃ t' bytes, t.call pc m.ephemeral m.now m.call = some (t', .writeToNetwork bytes) := by
  unfold answers at ha ⊢
  split at ha
  · rename_i initiation t' bytes hpacket hcall
    obtain rfl := List.mem_singleton.mp ha
    exact ⟨rfl, hpacket, rfl, t', bytes, hcall⟩
  · cases ha

/-- What is answered has a new timestamp, which is then the last one. -/
theorem answered_step (hs : t.step pc m = some t') :
    (∀ a ∈ t.answers pc m,
      a.timestamp pc.toPrimitives = some t'.handshake.lastHandshakeTimestamp) ∧
    (t'.handshake.lastHandshakeTimestamp = t.handshake.lastHandshakeTimestamp ∧
        t.answers pc m = [] ∨
      t'.handshake.lastHandshakeTimestamp.after t.handshake.lastHandshakeTimestamp = true) := by
  obtain ⟨out, hcall, rfl⟩ := Option.map_eq_some_iff.mp hs
  have hstamp := (stamp_call m.call hcall).1
  generalize hpacket : m.call.packet pc m.now = packet at hstamp
  cases hstamp with
  | keep hlast hsilent =>
    have hnone : t.answers pc m = [] := by
      refine List.eq_nil_iff_forall_not_mem.mpr fun a ha => ?_
      obtain ⟨-, hp, -, t', bytes, hc⟩ := answers_eq ha
      obtain rfl := Option.some.inj (hc.symm.trans hcall)
      exact hsilent a.initiation (hpacket.symm.trans hp) bytes rfl
    exact ⟨by simp [hnone], .inl ⟨hlast, hnone⟩⟩
  | take timestamp hchecked hlast =>
    obtain ⟨hstatic, hm⟩ := (ite_eq_iff.mp hchecked).resolve_right (by simp)
    obtain ⟨hstamp, hafter⟩ := Option.filter_eq_some_iff.mp hm
    refine ⟨fun a ha => ?_, .inr (hlast ▸ hafter)⟩
    obtain ⟨-, hp, hparams, -⟩ := answers_eq ha
    obtain rfl := Packet.handshakeInit.inj (Option.some.inj (hpacket.symm.trans hp))
    rw [Answer.timestamp, hparams, hstamp, hlast]

/-- The induction: what comes later is after the last timestamp. -/
theorem answers_after (pc : CookiePrimitives) (t : Tunn) (ms : List LinkMove) :
    (∀ a ∈ trace (step pc) (answers pc) t ms,
      a.After pc.toPrimitives t.handshake.lastHandshakeTimestamp) ∧
      (trace (step pc) (answers pc) t ms).Pairwise (Answer.Before pc.toPrimitives) := by
  induction ms generalizing t with
  | nil => exact ⟨nofun, .nil⟩
  | cons m ms ih =>
    cases hs : t.step pc m with
    | none =>
      have hnone : t.answers pc m = [] := by
        refine List.eq_nil_iff_forall_not_mem.mpr fun a ha => ?_
        obtain ⟨-, -, -, t', bytes, hcall⟩ := answers_eq ha
        simp [step, hcall] at hs
      rw [trace_cons_none hs, hnone]
      exact ⟨nofun, .nil⟩
    | some t' =>
      obtain ⟨hnow, hlast⟩ := answered_step hs
      obtain ⟨hlater, hpairwise⟩ := ih t'
      rw [trace_cons_some hs]
      rcases hlast with ⟨hsame, hnone⟩ | hafter
      · rw [hnone, ← hsame]
        exact ⟨hlater, hpairwise⟩
      · constructor
        · intro a ha
          rcases List.mem_append.mp ha with ha | ha
          · exact ⟨_, hnow a ha, hafter⟩
          · obtain ⟨timestamp, ht, hta⟩ := hlater a ha
            exact ⟨timestamp, ht, Tai64N.after_trans hta hafter⟩
        · refine List.pairwise_append.mpr ⟨?_, hpairwise, fun a ha b hb => ?_⟩
          · rcases hanswers : t.answers pc m with - | ⟨a, rest⟩
            · exact .nil
            · have hone := (answers_eq (hanswers ▸ List.mem_cons_self)).1
              rw [← hanswers, hone]
              exact List.pairwise_singleton ..
          · obtain ⟨timestamp, ht, hta⟩ := hlater b hb
            exact ⟨_, timestamp, hnow a ha, ht, hta⟩

theorem params_step (hkeep : m.call.KeepsKeys) (hs : t.step pc m = some t') :
    t'.handshake.params = t.handshake.params := by
  obtain ⟨out, hcall, rfl⟩ := Option.map_eq_some_iff.mp hs
  exact (stamp_call m.call hcall).2 hkeep

theorem answers_params (pc : CookiePrimitives) (t : Tunn) (ms : List LinkMove)
    (hkeep : ∀ m ∈ ms, m.call.KeepsKeys) :
    ∀ a ∈ trace (step pc) (answers pc) t ms, a.params = t.handshake.params := by
  induction ms generalizing t with
  | nil => nofun
  | cons m ms ih =>
    intro a ha
    cases hs : t.step pc m with
    | none =>
      rw [trace_cons_none hs] at ha
      exact (answers_eq ha).2.2.1
    | some t' =>
      rw [trace_cons_some hs] at ha
      rcases List.mem_append.mp ha with ha | ha
      · exact (answers_eq ha).2.2.1
      · rw [ih t' (fun m hm => hkeep m (List.mem_cons_of_mem _ hm)) a ha]
        exact params_step (hkeep m List.mem_cons_self) hs

/-- The timestamps a tunnel answers only go up, over every run; and while it
keeps its keys it answers no initiation twice. -/
theorem answered_once (pc : CookiePrimitives) (t : Tunn) (ms : List LinkMove) :
    (trace (step pc) (answers pc) t ms).Pairwise (Answer.Before pc.toPrimitives) ∧
      ((∀ m ∈ ms, m.call.KeepsKeys) →
        ((trace (step pc) (answers pc) t ms).map Answer.initiation).Nodup) := by
  have hpairwise := (answers_after pc t ms).2
  refine ⟨hpairwise, fun hkeep => ?_⟩
  have hparams := answers_params pc t ms hkeep
  refine List.pairwise_map.mpr (hpairwise.imp_of_mem fun {a b} ha hb hbefore heq => ?_)
  exact hbefore.ne (Answer.ext ((hparams a ha).trans (hparams b hb).symm) heq)

end Tunn

end Xelt.Boringtun.Noise.Crypto
