import Xelt.Boringtun.Noise.TunnelRefines

/-!
# The slots of a tunnel

`inc_index` and the ring of `noise/mod.rs`. A tunnel draws an index from its
block of 256 for each handshake message it makes, and a session is stored in the
slot its index falls on. The indices are counted here: a slot keeps its session
until eight more handshakes were begun, however the messages come back.
-/

namespace Xelt.Boringtun.Noise.Crypto

open Bytes Runs

/-- The `n`th index drawn from the block that `base` is in. -/
def indexAt (base : UInt32) (n : Nat) : UInt32 := UInt32.ofNat (base.toNat / 256 * 256 + n % 256)

theorem toNat_indexAt (base : UInt32) (n : Nat) :
    (indexAt base n).toNat = base.toNat / 256 * 256 + n % 256 := by
  have hbase : base.toNat < 2 ^ 32 := base.toNat_lt
  rw [indexAt, UInt32.toNat_ofNat']
  omega

theorem indexAt_upper (base : UInt32) (n : Nat) :
    (indexAt base n).toNat / 256 = base.toNat / 256 := by
  rw [toNat_indexAt]
  omega

theorem incIndex_indexAt (base : UInt32) (n : Nat) :
    Handshake.incIndex (indexAt base n) = indexAt base (n + 1) := by
  apply UInt32.toNat_inj.mp
  rw [Handshake.toNat_incIndex, toNat_indexAt, toNat_indexAt]
  omega

theorem slot_indexAt (base : UInt32) (n : Nat) : slot (indexAt base n).toNat = slot n := by
  apply Fin.ext
  change (indexAt base n).toNat % 8 = n % 8
  rw [toNat_indexAt]
  omega

theorem slot_eq_iff (m n : Nat) : slot m = slot n ↔ m % nSessions = n % nSessions :=
  Fin.ext_iff

/-- The same session, but for its counters. -/
def Session.Same (s s' : Session) : Prop :=
  s'.indices = s.indices ∧ s'.receiver = s.receiver ∧ s'.sender = s.sender

theorem Session.Same.trans {s s' s'' : Session} (h : s.Same s') (h' : s'.Same s'') : s.Same s'' :=
  ⟨h'.1.trans h.1, h'.2.1.trans h.2.1, h'.2.2.trans h.2.2⟩

-- ---------------------------------------------------------------------------
-- What a call does to the indices
-- ---------------------------------------------------------------------------

/-- The index of the session that is stored. -/
def storedIndex (moves : List RingMove) : Option UInt32 :=
  moves.findSome? fun
    | .store localIndex .. => some localIndex
    | _ => none

namespace Tunn

/-- Whatever is in the slot is the session of before. -/
def KeepsSlot (t t' : Tunn) (i : Fin nSessions) : Prop :=
  ∀ s', t'.sessions i = some s' → ∃ s, t.sessions i = some s ∧ s.Same s'

/-- No index is drawn, no session stored, and no initiation put on. -/
structure Kept (t t' : Tunn) : Prop where
  nextIndex : t'.handshake.nextIndex = t.handshake.nextIndex
  state : ∀ s, t'.handshake.state = .initSent s → t.handshake.state = .initSent s
  previous : ∀ s, t'.handshake.previous = .initSent s → t.handshake.previous = .initSent s
  sessions : ∀ i, KeepsSlot t t' i

/-- Only a session with this index was stored. -/
def Stores (t t' : Tunn) (index : UInt32) : Prop :=
  (∀ s', t'.sessions (slot index.toNat) = some s' → s'.receivingIndex = index) ∧
    ∀ i, i ≠ slot index.toNat → KeepsSlot t t' i

/-- What a call does to the indices, and the index of the session it stores. -/
inductive IndexStep (t t' : Tunn) : Option UInt32 → Prop
  | keep : Kept t t' → IndexStep t t' none
  | initiate (s : HandshakeInitSentState) :
    t'.handshake.nextIndex = Handshake.incIndex t.handshake.nextIndex →
    t'.handshake.state = .initSent s → s.localIndex = t'.handshake.nextIndex →
    (∀ s, t'.handshake.previous = .initSent s → t.handshake.state = .initSent s) →
    (∀ i, KeepsSlot t t' i) → IndexStep t t' none
  | respond :
    t'.handshake.nextIndex = Handshake.incIndex t.handshake.nextIndex →
    (∀ s, t'.handshake.state ≠ .initSent s) →
    (∀ s, t'.handshake.previous = .initSent s → t.handshake.state = .initSent s) →
    Stores t t' t'.handshake.nextIndex → IndexStep t t' (some t'.handshake.nextIndex)
  | complete (s : HandshakeInitSentState) :
    t'.handshake.nextIndex = t.handshake.nextIndex → t.handshake.state = .initSent s →
    (∀ s, t'.handshake.state ≠ .initSent s) →
    (∀ s, t'.handshake.previous = .initSent s → t.handshake.previous = .initSent s) →
    Stores t t' s.localIndex → IndexStep t t' (some s.localIndex)
  | completePrevious (s : HandshakeInitSentState) :
    t'.handshake.nextIndex = t.handshake.nextIndex → t.handshake.previous = .initSent s →
    (∀ s, t'.handshake.previous ≠ .initSent s) →
    (∀ s, t'.handshake.state = .initSent s → t.handshake.state = .initSent s) →
    Stores t t' s.localIndex → IndexStep t t' (some s.localIndex)

variable {p : Primitives} {t t' t'' : Tunn}

theorem keepsSlot_refl (t : Tunn) (i : Fin nSessions) : KeepsSlot t t i :=
  fun s' hs => ⟨s', hs, rfl, rfl, rfl⟩

theorem keepsSlot_none (h : t'.sessions i = none) : KeepsSlot t t' i :=
  fun _ hs => absurd (h.symm.trans hs) (by simp)

theorem keepsSlot_eq (h : t'.sessions i = t.sessions i) : KeepsSlot t t' i :=
  fun s' hs => ⟨s', h.symm.trans hs, rfl, rfl, rfl⟩

theorem KeepsSlot.trans (h : KeepsSlot t t' i) (h' : KeepsSlot t' t'' i) : KeepsSlot t t'' i := by
  intro s'' hs
  obtain ⟨s', hs', hsame'⟩ := h' s'' hs
  obtain ⟨s, hs, hsame⟩ := h s' hs'
  exact ⟨s, hs, hsame.trans hsame'⟩

theorem kept_same (hh : t'.handshake = t.handshake) (hs : t'.sessions = t.sessions) :
    Kept t t' where
  nextIndex := by rw [hh]
  state _ := by rw [hh]; exact id
  previous _ := by rw [hh]; exact id
  sessions i := keepsSlot_eq (by rw [hs])

theorem kept_put (hi : t.sessions i = some s) (hsame : s.Same s') (hh : t'.handshake = t.handshake)
    (hs : t'.sessions = Function.update t.sessions i (some s')) : Kept t t' where
  nextIndex := by rw [hh]
  state _ := by rw [hh]; exact id
  previous _ := by rw [hh]; exact id
  sessions j s'' hj := by
    rw [hs] at hj
    by_cases hij : j = i
    · subst hij
      rw [Function.update_self] at hj
      cases hj
      exact ⟨s, hi, hsame⟩
    · rw [Function.update_of_ne hij] at hj
      exact ⟨s'', hj, rfl, rfl, rfl⟩

theorem Dropped.kept (h : Dropped t t') : Kept t t' where
  nextIndex := h.nextIndex
  state s hs := by
    rcases h.handshake with ⟨hstate, -⟩ | ⟨hstate, -⟩
    · exact hstate ▸ hs
    · rw [hstate] at hs
      cases hs
  previous s hs := by
    rcases h.handshake with ⟨-, hprevious⟩ | ⟨-, hprevious⟩
    · exact hprevious ▸ hs
    · rw [hprevious] at hs
      cases hs
  sessions i := by
    rcases h.sessions i with hi | hi
    · exact keepsSlot_none hi
    · exact keepsSlot_eq hi

theorem Stores.after (h : Kept t t') (h' : Stores t' t'' index) : Stores t t'' index :=
  ⟨h'.1, fun i hi => (h.sessions i).trans (h'.2 i hi)⟩

theorem IndexStep.after (h : Kept t t') (h' : IndexStep t' t'' stored) :
    IndexStep t t'' stored := by
  cases h' with
  | keep h' =>
    exact .keep ⟨h'.nextIndex.trans h.nextIndex, fun s hs => h.state s (h'.state s hs),
      fun s hs => h.previous s (h'.previous s hs), fun i => (h.sessions i).trans (h'.sessions i)⟩
  | initiate s hn hstate hl hprevious hs =>
    exact .initiate s (h.nextIndex ▸ hn) hstate hl (fun s hs => h.state s (hprevious s hs))
      fun i => (h.sessions i).trans (hs i)
  | respond hn hstate hprevious hs =>
    exact .respond (h.nextIndex ▸ hn) hstate (fun s hs => h.state s (hprevious s hs)) (hs.after h)
  | complete s hn hstate hnone hprevious hs =>
    exact .complete s (hn.trans h.nextIndex) (h.state s hstate) hnone
      (fun s hs => h.previous s (hprevious s hs)) (hs.after h)
  | completePrevious s hn hprevious hnone hstate hs =>
    exact .completePrevious s (hn.trans h.nextIndex) (h.previous s hprevious) hnone
      (fun s hs => h.state s (hstate s hs)) (hs.after h)

theorem index_initiation (p : Primitives) (t : Tunn) (dst : Nat) (force : Bool)
    (ephemeral : Bytes32) (now : Nat) :
    IndexStep t (t.formatHandshakeInitiation p dst force ephemeral now).1 none := by
  rcases formatHandshakeInitiation_cases p t dst force ephemeral now with
    h | ⟨t', hs, -, -, ⟨-, hh, h⟩ | ⟨m, macs, -, hi, h⟩⟩
  · rw [h]
    exact .keep (kept_same rfl rfl)
  · rw [h]
    exact .keep (kept_same hh hs)
  · rw [h]
    exact .initiate _ hi.nextIndex hi.state hi.nextIndex.symm
      (fun s hs => hi.previous ▸ hs) fun i => keepsSlot_eq (by rw [hs])

theorem same_format {s s' : Session} (h : s.formatPacketData p src dst = some (s', packet)) :
    s.Same s' := by
  simp only [Session.formatPacketData] at h
  split at h <;> cases h
  exact ⟨rfl, rfl, rfl⟩

theorem index_encapsulate (h : t.encapsulate p src dst ephemeral now = some out) :
    IndexStep t out.1 none := by
  unfold encapsulate at h
  cases hi : t.sessions (slot t.current) with
  | none =>
    simp only [hi, Option.some.injEq] at h
    subst h
    exact (index_initiation ..).after
      (kept_same (queuePacket_handshake t) (queuePacket_sessions t))
  | some s =>
    simp only [hi] at h
    obtain ⟨⟨s', packet⟩, hf, rfl⟩ := Option.map_eq_some_iff.mp h
    refine .keep (kept_put hi (same_format hf) ?_ ?_) <;> dsimp only <;> split_ifs <;> rfl

theorem index_sendQueuedPacket (hdst : handshakeInitSz ≤ dst)
    (h : t.sendQueuedPacket p dst ephemeral now = some out) : IndexStep t out.1 none := by
  unfold sendQueuedPacket at h
  cases hq : t.packetQueue with
  | nil =>
    simp only [hq, Option.some.injEq] at h
    exact h ▸ .keep (kept_same rfl rfl)
  | cons packet rest =>
    simp only [hq] at h
    have hpop : Kept t { t with packetQueue := rest } := kept_same rfl rfl
    split at h
    · rename_i t' e he
      exact (encapsulate_ne_err hdst he).elim
    · exact (index_encapsulate h).after hpop

theorem stores_put {s s' : Session}
    (hs : t'.sessions = Function.update t.sessions (slot s.receivingIndex.toNat) (some s'))
    (hindex : s'.receivingIndex = s.receivingIndex) : Stores t t' s.receivingIndex := by
  constructor
  · intro s'' hs''
    rw [hs, Function.update_self] at hs''
    cases hs''
    exact hindex
  · intro i hi
    exact keepsSlot_eq (by rw [hs, Function.update_of_ne hi])

theorem index_handshakeInit (hdst : handshakeRespSz ≤ dst)
    (h : t.handleHandshakeInit p m dst ephemeral = some out) :
    IndexStep t out.1 (storedIndex (t.packetMoves p (.handshakeInit m) dst ephemeral now)) := by
  unfold handleHandshakeInit at h
  unfold packetMoves
  rcases initialization_cases p t.handshake m ephemeral hdst with
    ⟨e, hres⟩ | ⟨h', r, macs, s, hres, -, -, -⟩
  · simp only [hres, Option.map_some, Option.some.injEq] at h ⊢
    exact h ▸ .keep (kept_same rfl rfl)
  · rcases Handshake.receiveHandshakeInitialization_cases p t.handshake m dst ephemeral with
      ⟨e, herr⟩ | ⟨h'', hash, ck, herr, -⟩ |
      ⟨h'', r', macs', s', hok, -, -, hnext, hprevious, hstate, hsender, hr⟩
    · rw [herr] at hres
      cases hres
    · rw [herr] at hres
      cases hres
    · simp only [hok, Option.map_some, Option.some.injEq] at h ⊢
      subst h
      have hindex : s'.receivingIndex = h''.nextIndex := by
        rw [hr.session, hnext]
        exact hsender
      have hstored : storedIndex [s'.storeMove] = some h''.nextIndex := congrArg some hindex
      rw [hstored]
      refine .respond hnext (fun s hs => ?_) (fun s hs => hprevious ▸ hs) ?_
      · exact absurd (hstate.symm.trans hs) (by simp)
      · exact hindex ▸ stores_put rfl rfl

/-- What waits for the response that comes. -/
theorem awaiting_cases {h : Handshake} (ha : h.awaiting idx = some (s, isPrevious)) :
    if isPrevious then h.previous = .initSent s else h.state = .initSent s := by
  unfold Handshake.awaiting at ha
  split at ha <;> try split at ha
  all_goals try split at ha
  all_goals cases ha
  all_goals assumption

/-- A response makes a session with the index of the initiation it answers. -/
theorem response_index (p : Primitives) (h : Handshake) (r : HandshakeResponse) (now : Nat) :
    (∃ e, h.receiveHandshakeResponse p r now = (h, .error e)) ∨
      ∃ s isPrevious session, h.awaiting r.receiverIdx = some (s, isPrevious) ∧
        h.receiveHandshakeResponse p r now = (h.answered s isPrevious now, .ok session) ∧
        session.receivingIndex = s.localIndex := by
  rcases Handshake.receiveHandshakeResponse_cases p h r now with
    herr | ⟨s, isPrevious, session, ha, hok⟩
  · exact .inl herr
  · refine .inr ⟨s, isPrevious, session, ha, hok, ?_⟩
    rw [Handshake.receiveHandshakeResponse_eq ha] at hok
    split at hok
    · exact absurd (Prod.mk.inj hok).2 (by simp)
    · obtain rfl := Except.ok.inj (Prod.mk.inj hok).2
      rfl

theorem index_answered (ha : t.handshake.awaiting idx = some (s, isPrevious))
    (hh : t'.handshake = t.handshake.answered s isPrevious now) (hs : Stores t t' s.localIndex) :
    IndexStep t t' (some s.localIndex) := by
  have hawait := awaiting_cases ha
  cases isPrevious with
  | false =>
    refine .complete s ?_ hawait (fun s' hs' => ?_) (fun s' hs' => ?_) hs
    · rw [hh]
      rfl
    · rw [hh] at hs'
      cases hs'
    · rw [hh] at hs'
      exact hs'
  | true =>
    refine .completePrevious s ?_ hawait (fun s' hs' => ?_) (fun s' hs' => ?_) hs
    · rw [hh]
      rfl
    · rw [hh] at hs'
      cases hs'
    · rw [hh] at hs'
      exact hs'

theorem index_handshakeResponse (h : t.handleHandshakeResponse p r dst now = some out) :
    IndexStep t out.1 (storedIndex (t.packetMoves p (.handshakeResponse r) dst ephemeral now)) := by
  unfold handleHandshakeResponse at h
  dsimp only [packetMoves]
  rcases response_index p t.handshake r now with
    ⟨e, hres⟩ | ⟨s, isPrevious, session, ha, hres, hs⟩
  · simp only [hres, Option.some.injEq] at h ⊢
    exact h ▸ .keep (kept_same rfl rfl)
  · simp only [hres] at h ⊢
    obtain ⟨⟨session', keepalive⟩, hf, rfl⟩ := Option.map_eq_some_iff.mp h
    have hindex : session'.receivingIndex = session.receivingIndex :=
      congrArg Noise.Session.receivingIndex (same_format hf).1
    have hstored : storedIndex [session.storeMove,
      .send (slot session.receivingIndex.toNat) [] dst] =
        some s.localIndex := congrArg some hs
    rw [hstored]
    refine index_answered ha (setCurrentSession_handshake _) ?_
    rw [← hs]
    exact stores_put (by rw [setCurrentSession_sessions, ← hindex]; rfl) hindex

theorem index_cookieReply (p : Primitives) (t : Tunn) (c : PacketCookieReply) :
    IndexStep t (t.handleCookieReply p c).1 none := by
  unfold handleCookieReply
  rcases Handshake.receiveCookieReply_cases p t.handshake c with ⟨e, hres⟩ | ⟨cookie, hres⟩
  · rw [hres]
    exact .keep (kept_same rfl rfl)
  · rw [hres]
    exact .keep ⟨rfl, fun _ => id, fun _ => id, fun i => keepsSlot_eq rfl⟩

theorem index_data (h : t.handleData p packet dst = some out) : IndexStep t out.1 none := by
  unfold handleData at h
  dsimp only at h
  split at h
  · exact Option.some.inj h ▸ .keep (kept_same rfl rfl)
  · rename_i s hi
    split at h
    · cases h
    · exact Option.some.inj h ▸ .keep (kept_same rfl rfl)
    · rename_i s' plain hreceive
      simp only [Option.some.injEq] at h
      subst h
      have hsame : s.Same s' := by
        obtain ⟨-, v, -, rfl⟩ := SessionRing.received_cases hreceive
        exact ⟨rfl, rfl, rfl⟩
      obtain ⟨hsessions, -, hhandshake, -⟩ := validate_same (((t.putSession
        (slot packet.receiverIdx.toNat) s').setCurrentSession packet.receiverIdx.toNat).tick
          .timeLastPacketReceived) plain
      exact .keep (kept_put hi hsame (hhandshake.trans (by simp; rfl)) (hsessions.trans (by simp)))

theorem index_handleVerifiedPacket (packet : Packet) (hdst : handshakeRespSz ≤ dst)
    (h : t.handleVerifiedPacket p packet dst ephemeral now = some out) :
    IndexStep t out.1 (storedIndex (t.packetMoves p packet dst ephemeral now)) := by
  cases packet with
  | handshakeInit m => exact index_handshakeInit hdst h
  | handshakeResponse r => exact index_handshakeResponse h
  | packetCookieReply c => exact Option.some.inj h ▸ index_cookieReply p t c
  | packetData d =>
    have hnone : storedIndex (t.packetMoves p (.packetData d) dst ephemeral now) = none := by
      unfold packetMoves
      dsimp only
      split
      · rfl
      · split <;> rfl
    rw [hnone]
    exact index_data h

theorem index_updateTimers (h : t.updateTimers p dst ephemeral now = some out) :
    IndexStep t out.1 none := by
  have hdue := (dropped_due t now).kept
  unfold updateTimers at h
  generalize t.due now = q at h hdue
  obtain ⟨t', res⟩ := q
  cases res with
  | error e =>
    simp only [Option.some.injEq] at h
    exact h ▸ .keep hdue
  | ok due =>
    dsimp only at h
    split at h
    · exact Option.some.inj h ▸ (index_initiation ..).after hdue
    · split at h
      · exact (index_encapsulate h).after hdue
      · exact Option.some.inj h ▸ .keep hdue

theorem storedIndex_append_none (h : ∀ m ∈ moves, storedIndex [m] = none) :
    storedIndex (moves ++ moves') = storedIndex moves' := by
  induction moves with
  | nil => rfl
  | cons m moves ih =>
    have hm := h m List.mem_cons_self
    have hmoves := ih fun m' hm' => h m' (List.mem_cons_of_mem m hm')
    cases m with
    | store => cases hm
    | _ => exact hmoves

theorem storedIndex_encapsulate (t : Tunn) (src : Bytes) (dst : Nat) :
    storedIndex (t.encapsulateMoves src dst) = none := by
  unfold encapsulateMoves
  split <;> rfl

theorem index_call {pc : CookiePrimitives} (hroom : c.Roomy)
    (h : t.call pc ephemeral now c = some out) :
    IndexStep t out.1 (storedIndex (t.ringMoves pc ephemeral now c)) := by
  have hle : handshakeRespSz ≤ handshakeInitSz := by decide
  cases c with
  | encapsulate src dst =>
    have hnone : storedIndex (t.ringMoves pc ephemeral now (.encapsulate src dst)) = none :=
      storedIndex_encapsulate t src dst
    rw [hnone]
    exact index_encapsulate h
  | decapsulate limiter srcAddr datagram dst =>
    obtain ⟨⟨t', limiter', r⟩, hd, rfl⟩ := Option.map_eq_some_iff.mp h
    simp only [decapsulate] at hd
    simp only [ringMoves]
    by_cases hempty : datagram = []
    · rw [if_pos hempty] at hd ⊢
      obtain ⟨q, hq, heq⟩ := Option.map_eq_some_iff.mp hd
      cases heq
      have hnone : storedIndex (t.queuedMoves dst) = none := by
        unfold queuedMoves
        split
        · rfl
        · exact storedIndex_encapsulate ..
      rw [hnone]
      exact index_sendQueuedPacket hroom hq
    · rw [if_neg hempty] at hd ⊢
      generalize limiter.verifyPacket pc srcAddr datagram cookieReplySz now = verified at hd ⊢
      obtain ⟨next, res⟩ := verified
      cases res with
      | ok packet =>
        obtain ⟨q, hq, heq⟩ := Option.map_eq_some_iff.mp hd
        cases heq
        exact index_handleVerifiedPacket packet (hle.trans hroom) hq
      | error rejection =>
        cases rejection with
        | err e =>
          cases hd
          exact .keep (kept_same rfl rfl)
        | writeToNetwork cookie =>
          dsimp only at hd
          split at hd <;> cases hd
          exact .keep (kept_same rfl rfl)
  | handleVerifiedPacket packet dst => exact index_handleVerifiedPacket packet (hle.trans hroom) h
  | formatHandshakeInitiation dst force => exact Option.some.inj h ▸ index_initiation ..
  | updateTimers dst =>
    have hnone : storedIndex (t.ringMoves pc ephemeral now (.updateTimers dst)) = none := by
      simp only [ringMoves, timerMoves]
      rw [storedIndex_append_none]
      · split
        · exact storedIndex_encapsulate ..
        · rfl
      · intro m hm
        obtain ⟨i, -, rfl⟩ := List.mem_map.mp hm
        rfl
    rw [hnone]
    exact index_updateTimers h
  | setStaticPrivate staticPrivate staticPublic ownLimiter =>
    have hnone : storedIndex (t.ringMoves pc ephemeral now
        (.setStaticPrivate staticPrivate staticPublic ownLimiter)) = none := by
      simp only [ringMoves, dropMoves]
      rfl
    rw [hnone]
    obtain ⟨t', ht, rfl⟩ := Option.map_eq_some_iff.mp h
    obtain ⟨handshake, hset, rfl⟩ := Option.map_eq_some_iff.mp ht
    obtain ⟨-, rfl⟩ : pc.publicKey staticPrivate = staticPublic ∧ _ = handshake := by
      simpa [Handshake.setStaticPrivate] using hset
    exact .keep ⟨rfl, fun _ => id, fun _ => id, fun i => keepsSlot_none rfl⟩

-- ---------------------------------------------------------------------------
-- The index in what is sent
-- ---------------------------------------------------------------------------

/-- The sender index of a handshake message that goes to the network. -/
def sentIndex : TunnResult → Option UInt32
  | .writeToNetwork bytes => (parseIncomingPacket bytes).toOption.bind Packet.senderIdx
  | _ => none

/-- A handshake message carries the last index that was drawn. -/
def SendsLast (out : Tunn × TunnResult) : Prop :=
  ∀ index, sentIndex out.2 = some index → index = out.1.handshake.nextIndex

theorem sendsLast_none (h : sentIndex out.2 = none) : SendsLast out :=
  fun _ hs => absurd (h.symm.trans hs) (by simp)

theorem sentIndex_data {s : Session} (h : s.formatPacketData p src dst = some (s', packet)) :
    sentIndex (.writeToNetwork packet.bytes) = none := by
  rw [sentIndex, Session.parse_formatPacketData h]
  rfl

theorem sendsLast_initiation (p : Primitives) (t : Tunn) (dst : Nat) (force : Bool)
    (ephemeral : Bytes32) (now : Nat) :
    SendsLast (t.formatHandshakeInitiation p dst force ephemeral now) := by
  rcases formatHandshakeInitiation_cases p t dst force ephemeral now with
    h | ⟨t', -, -, -, ⟨-, -, h⟩ | ⟨m, macs, hmacs, hi, h⟩⟩
  · rw [h]
    exact sendsLast_none rfl
  · rw [h]
    exact sendsLast_none rfl
  · rw [h]
    intro index hs
    rw [sentIndex, parse_initiation m hmacs] at hs
    exact (Option.some.inj hs).symm.trans (hi.senderIdx.trans hi.nextIndex.symm)

theorem sendsLast_encapsulate (h : t.encapsulate p src dst ephemeral now = some out) :
    SendsLast out := by
  unfold encapsulate at h
  split at h
  · obtain ⟨⟨s', packet⟩, hf, rfl⟩ := Option.map_eq_some_iff.mp h
    exact sendsLast_none (sentIndex_data hf)
  · exact Option.some.inj h ▸ sendsLast_initiation _ _ _ _ _ _

theorem sendsLast_sendQueuedPacket (h : t.sendQueuedPacket p dst ephemeral now = some out) :
    SendsLast out := by
  unfold sendQueuedPacket at h
  split at h
  · exact Option.some.inj h ▸ sendsLast_none rfl
  · split at h
    · exact Option.some.inj h ▸ sendsLast_none rfl
    · exact sendsLast_encapsulate h

theorem sendsLast_handshakeInit (h : t.handleHandshakeInit p m dst ephemeral = some out) :
    SendsLast out := by
  unfold handleHandshakeInit at h
  rcases Handshake.receiveHandshakeInitialization_cases p t.handshake m dst ephemeral with
    ⟨e, hres⟩ | ⟨h', hash, ck, hres, -⟩ |
    ⟨h', r, macs, s, hres, hmacs, -, hnext, -, -, hsender, -⟩
  · simp only [hres, Option.map_some, Option.some.injEq] at h
    exact h ▸ sendsLast_none rfl
  · simp only [hres, Option.map_some, Option.some.injEq] at h
    exact h ▸ sendsLast_none rfl
  · simp only [hres, Option.map_some, Option.some.injEq] at h
    subst h
    intro index hs
    rw [sentIndex, parse_response r hmacs] at hs
    exact (Option.some.inj hs).symm.trans (hsender.trans hnext.symm)

theorem sendsLast_handleVerifiedPacket (packet : Packet)
    (h : t.handleVerifiedPacket p packet dst ephemeral now = some out) : SendsLast out := by
  cases packet with
  | handshakeInit m => exact sendsLast_handshakeInit h
  | handshakeResponse r =>
    simp only [handleVerifiedPacket, handleHandshakeResponse] at h
    split at h
    · exact Option.some.inj h ▸ sendsLast_none rfl
    · obtain ⟨⟨s', keepalive⟩, hf, rfl⟩ := Option.map_eq_some_iff.mp h
      exact sendsLast_none (sentIndex_data hf)
  | packetCookieReply c =>
    simp only [handleVerifiedPacket, handleCookieReply, Option.some.injEq] at h
    split at h <;> exact h ▸ sendsLast_none rfl
  | packetData d =>
    simp only [handleVerifiedPacket, handleData] at h
    split at h
    · exact Option.some.inj h ▸ sendsLast_none rfl
    · split at h
      · cases h
      · exact Option.some.inj h ▸ sendsLast_none rfl
      · refine Option.some.inj h ▸ sendsLast_none ?_
        unfold validateDecapsulatedPacket
        split <;> rfl

/-- A cookie reply is the only thing a limiter sends. -/
theorem sentIndex_cookie {pc : CookiePrimitives} {limiter next : RateLimiter}
    (h : limiter.verifyPacket pc srcAddr datagram dst now =
      (next, .error (.writeToNetwork cookie))) :
    sentIndex (.writeToNetwork cookie) = none := by
  obtain ⟨reply, rfl⟩ : ∃ reply : PacketCookieReply, cookie = reply.bytes := by
    rw [RateLimiter.verifyPacket_eq] at h
    split at h
    · cases h
    split at h
    · cases h
    unfold RateLimiter.verifyMacs at h
    split at h
    · cases h
    split at h
    · split at h
      · cases h
      · split at h
        · unfold RateLimiter.formatCookieReply at h
          split at h
          · cases h
          · rename_i heq
            split at heq <;> cases heq
            cases h
            exact ⟨_, rfl⟩
        · cases h
    · cases h
  rw [sentIndex, parse_cookieReply]
  rfl

theorem sendsLast_call {pc : CookiePrimitives} (h : t.call pc ephemeral now c = some out) :
    SendsLast out := by
  cases c with
  | encapsulate src dst => exact sendsLast_encapsulate h
  | decapsulate limiter srcAddr datagram dst =>
    obtain ⟨⟨t', limiter', r⟩, hd, rfl⟩ := Option.map_eq_some_iff.mp h
    simp only [decapsulate] at hd
    split at hd
    · obtain ⟨q, hq, heq⟩ := Option.map_eq_some_iff.mp hd
      cases heq
      exact sendsLast_sendQueuedPacket hq
    · split at hd
      · rename_i hverify
        split at hd <;> cases hd
        exact sendsLast_none (sentIndex_cookie hverify)
      · cases hd
        exact sendsLast_none rfl
      · obtain ⟨q, hq, heq⟩ := Option.map_eq_some_iff.mp hd
        cases heq
        exact sendsLast_handleVerifiedPacket _ hq
  | handleVerifiedPacket packet dst => exact sendsLast_handleVerifiedPacket packet h
  | formatHandshakeInitiation dst force =>
    exact Option.some.inj h ▸ sendsLast_initiation _ _ _ _ _ _
  | updateTimers dst =>
    simp only [call, updateTimers] at h
    split at h
    · exact Option.some.inj h ▸ sendsLast_none rfl
    · split at h
      · exact Option.some.inj h ▸ sendsLast_initiation _ _ _ _ _ _
      · split at h
        · exact sendsLast_encapsulate h
        · exact Option.some.inj h ▸ sendsLast_none rfl
  | setStaticPrivate staticPrivate staticPublic ownLimiter =>
    obtain ⟨t', -, rfl⟩ := Option.map_eq_some_iff.mp h
    exact sendsLast_none rfl

end Tunn

-- ---------------------------------------------------------------------------
-- Numbers
-- ---------------------------------------------------------------------------

/-- A tunnel with the count of the indices it drew, and the number of the one
that was last stored in each slot. -/
structure NumberedTunn where
  tunn : Tunn
  drawn : Nat
  number : Fin nSessions → Nat

namespace NumberedTunn

variable (pc : CookiePrimitives)

def new (c : TunnConfig) : NumberedTunn := ⟨c.tunn pc.toPrimitives, 0, fun _ => 0⟩

/-- The counts after a call that left this tunnel and stored this session. -/
def count (s : NumberedTunn) (t : Tunn) (stored : Option UInt32) : NumberedTunn :=
  let drawn := if t.handshake.nextIndex = s.tunn.handshake.nextIndex then s.drawn else s.drawn + 1
  { tunn := t
    drawn
    number := match stored with
      | none => s.number
      | some index => Function.update s.number (slot index.toNat)
          (if index = t.handshake.nextIndex then drawn else drawn - 1) }

def step (s : NumberedTunn) (m : LinkMove) : Option NumberedTunn :=
  if m.call.Roomy then
    (s.tunn.call pc m.ephemeral m.now m.call).map fun out =>
      s.count out.1 (storedIndex (s.tunn.ringMoves pc m.ephemeral m.now m.call))
  else none

variable {pc} {base : UInt32} {s s' t : NumberedTunn} {t' : Tunn}

/-- The numbers are those of the indices. An initiation that waits is the last
index drawn or the one before it, and no session has its number yet. -/
structure Numbered (base : UInt32) (s : NumberedTunn) : Prop where
  nextIndex : s.tunn.handshake.nextIndex = indexAt base s.drawn
  state : ∀ q, s.tunn.handshake.state = .initSent q →
    q.localIndex = indexAt base s.drawn ∧ 1 ≤ s.drawn ∧ ∀ i, s.number i ≠ s.drawn
  previous : ∀ q, s.tunn.handshake.previous = .initSent q →
    q.localIndex = indexAt base (s.drawn - 1) ∧ 2 ≤ s.drawn ∧ ∀ i, s.number i ≠ s.drawn - 1
  number_le : ∀ i, s.number i ≤ s.drawn
  slot : ∀ i, s.number i = 0 ∨ slot (s.number i) = i
  sessions : ∀ i session, s.tunn.sessions i = some session →
    1 ≤ s.number i ∧ session.receivingIndex = indexAt base (s.number i)

/-- A slot holds what it held, or a session of eight handshakes later. -/
def Later (s t : NumberedTunn) : Prop :=
  ∀ i, s.number i = 0 ∨ s.number i + nSessions ≤ t.number i ∨
    t.number i = s.number i ∧ Tunn.KeepsSlot s.tunn t.tunn i

theorem Later.refl (s : NumberedTunn) : Later s s :=
  fun i => .inr (.inr ⟨rfl, Tunn.keepsSlot_refl s.tunn i⟩)

theorem Later.trans (h : Later s s') (h' : Later s' t) : Later s t := by
  intro i
  rcases h i with hzero | hlater | ⟨hsame, hkeeps⟩
  · exact .inl hzero
  · rcases h' i with hzero | hlater' | ⟨hsame', -⟩
    · omega
    · exact .inr (.inl (by omega))
    · exact .inr (.inl (by omega))
  · rcases h' i with hzero | hlater' | ⟨hsame', hkeeps'⟩
    · exact .inl (hsame ▸ hzero)
    · exact .inr (.inl (by omega))
    · exact .inr (.inr ⟨hsame'.trans hsame, hkeeps.trans hkeeps'⟩)

theorem count_same (s : NumberedTunn)
    (hn : t'.handshake.nextIndex = s.tunn.handshake.nextIndex) :
    s.count t' none = { s with tunn := t' } := by
  simp [count, hn]

theorem count_drawn (s : NumberedTunn)
    (hn : t'.handshake.nextIndex = Handshake.incIndex s.tunn.handshake.nextIndex) :
    s.count t' none = { s with tunn := t', drawn := s.drawn + 1 } := by
  simp [count, hn, Handshake.incIndex_ne]

/-- What a session stored under its number leaves of the slots. -/
structure Stored (base : UInt32) (s : NumberedTunn) (n d : Nat) (t : Tunn) : Prop where
  later : Later s ⟨t, d, Function.update s.number (Crypto.slot n) n⟩
  number_le : ∀ i, Function.update s.number (Crypto.slot n) n i ≤ d
  slot : ∀ i, Function.update s.number (Crypto.slot n) n i = 0 ∨
    Crypto.slot (Function.update s.number (Crypto.slot n) n i) = i
  sessions : ∀ i session, t.sessions i = some session →
    1 ≤ Function.update s.number (Crypto.slot n) n i ∧
      session.receivingIndex = indexAt base (Function.update s.number (Crypto.slot n) n i)

theorem stored_number (h : Numbered base s) (hn : 1 ≤ n) (hnew : ∀ i, s.number i ≠ n)
    (hlast : s.drawn ≤ n + 1) (hle : n ≤ d) (hd : s.drawn ≤ d)
    (hstores : Tunn.Stores s.tunn t' (indexAt base n)) : Stored base s n d t' := by
  obtain ⟨hslot, hother⟩ := hstores
  rw [slot_indexAt] at hslot hother
  refine ⟨fun i => ?_, fun i => ?_, fun i => ?_, fun i session hi => ?_⟩
  · by_cases hi : i = Crypto.slot n
    · subst hi
      have hle := h.number_le (Crypto.slot n)
      have hne := hnew (Crypto.slot n)
      rcases h.slot (Crypto.slot n) with hzero | hsame
      · exact .inl hzero
      · rw [slot_eq_iff] at hsame
        refine .inr (.inl ?_)
        dsimp only
        rw [Function.update_self]
        change _ % 8 = _ % 8 at hsame
        change _ + 8 ≤ n
        omega
    · refine .inr (.inr ⟨?_, hother i hi⟩)
      exact Function.update_of_ne hi ..
  · by_cases hi : i = Crypto.slot n
    · subst hi
      rw [Function.update_self]
      exact hle
    · rw [Function.update_of_ne hi]
      exact (h.number_le i).trans hd
  · by_cases hi : i = Crypto.slot n
    · subst hi
      rw [Function.update_self]
      exact .inr rfl
    · rw [Function.update_of_ne hi]
      exact h.slot i
  · by_cases hi' : i = Crypto.slot n
    · subst hi'
      rw [Function.update_self]
      exact ⟨hn, hslot session hi⟩
    · rw [Function.update_of_ne hi']
      obtain ⟨session', hs, hsame⟩ := hother i hi' session hi
      obtain ⟨hone, hindex⟩ := h.sessions i session' hs
      exact ⟨hone, (congrArg Noise.Session.receivingIndex hsame.1).trans hindex⟩

theorem kept_sessions (h : Numbered base s) (hk : ∀ i, Tunn.KeepsSlot s.tunn t' i) :
    ∀ i session, t'.sessions i = some session →
      1 ≤ s.number i ∧ session.receivingIndex = indexAt base (s.number i) := by
  intro i session hi
  obtain ⟨session', hs, hsame⟩ := hk i session hi
  obtain ⟨hone, hindex⟩ := h.sessions i session' hs
  exact ⟨hone, (congrArg Noise.Session.receivingIndex hsame.1).trans hindex⟩

theorem indexAt_pred_ne (hd : 1 ≤ d) : indexAt base (d - 1) ≠ indexAt base d := by
  have hnext := incIndex_indexAt base (d - 1)
  rw [Nat.sub_add_cancel hd] at hnext
  exact fun h => Handshake.incIndex_ne (indexAt base (d - 1)) (hnext.trans h.symm)

theorem update_number_ne (hm : n ≠ m) (h : ∀ i, s.number i ≠ m) (i : Fin nSessions) :
    Function.update s.number (Crypto.slot n) n i ≠ m := by
  by_cases hi : i = Crypto.slot n
  · subst hi
    rw [Function.update_self]
    exact hm
  · rw [Function.update_of_ne hi]
    exact h i

/-- One call keeps the numbers right and a slot what it holds, or later. -/
theorem numbered_count (h : Numbered base s) (hi : Tunn.IndexStep s.tunn t' stored) :
    Numbered base (s.count t' stored) ∧ Later s (s.count t' stored) := by
  have hfresh : ∀ i, s.number i ≠ s.drawn + 1 := fun i =>
    Nat.ne_of_lt (Nat.lt_succ_of_le (h.number_le i))
  cases hi with
  | keep hk =>
    have hsessions := kept_sessions h hk.sessions
    rw [count_same s hk.nextIndex]
    exact ⟨⟨hk.nextIndex.trans h.nextIndex, fun q hq => h.state q (hk.state q hq),
      fun q hq => h.previous q (hk.previous q hq), h.number_le, h.slot, hsessions⟩,
      fun i => .inr (.inr ⟨rfl, hk.sessions i⟩)⟩
  | initiate q hn hstate hq hprevious hk =>
    have hnext : t'.handshake.nextIndex = indexAt base (s.drawn + 1) := by
      rw [hn, h.nextIndex, incIndex_indexAt]
    have hsessions := kept_sessions h hk
    rw [count_drawn s hn]
    refine ⟨⟨hnext, fun q' hq' => ?_, fun q' hq' => ?_,
      fun i => (h.number_le i).trans (Nat.le_succ _), h.slot, hsessions⟩,
      fun i => .inr (.inr ⟨rfl, hk i⟩)⟩
    · obtain rfl := HandshakeState.initSent.inj (hstate.symm.trans hq')
      exact ⟨hq.trans hnext, Nat.le_add_left .., hfresh⟩
    · obtain ⟨hindex, hone, hne⟩ := h.state q' (hprevious q' hq')
      exact ⟨hindex, Nat.succ_le_succ hone, hne⟩
  | respond hn hstate hprevious hs =>
    have hnext : t'.handshake.nextIndex = indexAt base (s.drawn + 1) := by
      rw [hn, h.nextIndex, incIndex_indexAt]
    have hstored := stored_number (d := s.drawn + 1) h (Nat.le_add_left ..) hfresh
      (by omega) le_rfl (Nat.le_succ _) (hnext ▸ hs)
    have hne : t'.handshake.nextIndex ≠ s.tunn.handshake.nextIndex :=
      hn ▸ Handshake.incIndex_ne _
    have hcount : s.count t' (some t'.handshake.nextIndex) = ⟨t', s.drawn + 1,
        Function.update s.number (Crypto.slot (s.drawn + 1)) (s.drawn + 1)⟩ := by
      have hslot : Crypto.slot t'.handshake.nextIndex.toNat = Crypto.slot (s.drawn + 1) := by
        rw [hnext, slot_indexAt]
      simp [count, hne, hslot]
    rw [hcount]
    refine ⟨⟨hnext, fun q' hq' => absurd hq' (hstate q'), fun q' hq' => ?_, hstored.number_le,
      hstored.slot, hstored.sessions⟩, hstored.later⟩
    obtain ⟨hindex, hone, hne⟩ := h.state q' (hprevious q' hq')
    exact ⟨hindex, Nat.succ_le_succ hone, update_number_ne (Nat.succ_ne_self _) hne⟩
  | complete q hn hq hstate hprevious hs =>
    obtain ⟨hindex, hone, hne⟩ := h.state q hq
    have hstored := stored_number (d := s.drawn) h hone hne (by omega) le_rfl le_rfl (hindex ▸ hs)
    have hcount : s.count t' (some q.localIndex) = ⟨t', s.drawn,
        Function.update s.number (Crypto.slot s.drawn) s.drawn⟩ := by
      simp [count, hn, hindex, h.nextIndex, slot_indexAt]
    rw [hcount]
    refine ⟨⟨hn.trans h.nextIndex, fun q' hq' => absurd hq' (hstate q'), fun q' hq' => ?_,
      hstored.number_le, hstored.slot, hstored.sessions⟩, hstored.later⟩
    obtain ⟨hindex', htwo, hne'⟩ := h.previous q' (hprevious q' hq')
    have hlast : s.drawn ≠ s.drawn - 1 := by omega
    exact ⟨hindex', htwo, update_number_ne hlast hne'⟩
  | completePrevious q hn hq hprevious hstate hs =>
    obtain ⟨hindex, htwo, hne⟩ := h.previous q hq
    have hone : 1 ≤ s.drawn := le_trans one_le_two htwo
    have hstored := stored_number (d := s.drawn) h (by omega) hne (by omega) (Nat.sub_le ..) le_rfl
      (hindex ▸ hs)
    have hcount : s.count t' (some q.localIndex) = ⟨t', s.drawn,
        Function.update s.number (Crypto.slot (s.drawn - 1)) (s.drawn - 1)⟩ := by
      simp [count, hn, hindex, h.nextIndex, slot_indexAt, indexAt_pred_ne hone]
    rw [hcount]
    refine ⟨⟨hn.trans h.nextIndex, fun q' hq' => ?_, fun q' hq' => absurd hq' (hprevious q'),
      hstored.number_le, hstored.slot, hstored.sessions⟩, hstored.later⟩
    obtain ⟨hindex', hone, hne'⟩ := h.state q' (hstate q' hq')
    have hlast : s.drawn - 1 ≠ s.drawn := by omega
    exact ⟨hindex', hone, update_number_ne hlast hne'⟩

theorem numbered_step (h : Numbered base s) (hs : s.step pc m = some s') :
    Numbered base s' ∧ Later s s' := by
  unfold step at hs
  split at hs
  · rename_i hroom
    obtain ⟨out, ho, rfl⟩ := Option.map_eq_some_iff.mp hs
    exact numbered_count h (Tunn.index_call hroom ho)
  · cases hs

theorem toNat_shifted (index : UInt32) : (index <<< 8).toNat = index.toNat * 256 % 2 ^ 32 := by
  rw [UInt32.toNat_shiftLeft]
  simp [Nat.shiftLeft_eq]

theorem numbered_new (pc : CookiePrimitives) (c : TunnConfig) :
    Numbered (c.index <<< 8) (new pc c) := by
  have hnext : c.index <<< 8 = indexAt (c.index <<< 8) 0 := by
    apply UInt32.toNat_inj.mp
    rw [toNat_indexAt, toNat_shifted]
    omega
  exact ⟨hnext, fun _ hq => (nomatch hq), fun _ hq => (nomatch hq), fun _ => le_rfl,
    fun _ => .inl rfl, fun _ _ hs => (nomatch hs)⟩

theorem numbered_run (h : Numbered base s) (he : exec (step pc) s ms = some t) :
    Numbered base t ∧ Later s t := by
  induction ms generalizing s with
  | nil =>
    cases he
    exact ⟨h, .refl _⟩
  | cons m ms ih =>
    obtain ⟨s', hs, he⟩ := (exec_cons_some (step pc)).mp he
    obtain ⟨h', hlater⟩ := numbered_step h hs
    obtain ⟨ht, hlater'⟩ := ih h' he
    exact ⟨ht, hlater.trans hlater'⟩

theorem shifted_block (index : UInt32) : (index <<< 8).toNat / 256 = index.toNat % 2 ^ 24 := by
  rw [toNat_shifted]
  omega

/-- The indices in the handshake messages that a call sends. -/
def sentIndices (pc : CookiePrimitives) (s : NumberedTunn) (m : LinkMove) : List UInt32 :=
  match s.step pc m, s.tunn.call pc m.ephemeral m.now m.call with
  | some _, some out => (Tunn.sentIndex out.2).toList
  | _, _ => []

theorem sentIndices_block (h : Numbered base s) :
    ∀ index ∈ sentIndices pc s m, index.toNat / 256 = base.toNat / 256 := by
  intro index hmem
  unfold sentIndices at hmem
  cases hs : s.step pc m with
  | none => simp [hs] at hmem
  | some s' =>
    cases ho : s.tunn.call pc m.ephemeral m.now m.call with
    | none => simp [hs, ho] at hmem
    | some out =>
      simp only [hs, ho, Option.mem_toList] at hmem
      have htunn : s'.tunn = out.1 := by
        simp only [step, ho, Option.map_some] at hs
        split at hs <;> cases hs
        rfl
      rw [Tunn.sendsLast_call ho index hmem, ← htunn, (numbered_step h hs).1.nextIndex,
        indexAt_upper]

/-- Every session is in the slot of its index, and every index a tunnel uses
is its own: shifted by 8 it leads back to the tunnel, as the device looks up
the receiver of a packet. -/
theorem indices_own (pc : CookiePrimitives) (c : TunnConfig)
    (he : exec (step pc) (new pc c) ms = some s) :
    (∀ i session, s.tunn.sessions i = some session →
        slot session.receivingIndex.toNat = i ∧
          session.receivingIndex.toNat / 256 = c.index.toNat % 2 ^ 24) ∧
      ∀ index ∈ trace (step pc) (sentIndices pc) (new pc c) ms,
        index.toNat / 256 = c.index.toNat % 2 ^ 24 := by
  have hnew := numbered_new pc c
  rw [← shifted_block]
  constructor
  · intro i session hi
    have h := (numbered_run hnew he).1
    obtain ⟨hone, hindex⟩ := h.sessions i session hi
    have hslot := (h.slot i).resolve_left (Nat.ne_of_gt hone)
    exact ⟨by rw [hindex, slot_indexAt, hslot], by rw [hindex, indexAt_upper]⟩
  · refine (forall_trace (Q := fun index : UInt32 =>
      index.toNat / 256 = (c.index <<< 8).toNat / 256)).mpr ?_
    apply along_iff_at.mpr
    intro pre m post u _ hu
    exact sentIndices_block (numbered_run hnew hu).1

/-- As long as fewer than eight handshakes were begun since its own, a session
is not displaced: its slot holds it or nothing. -/
theorem session_kept (pc : CookiePrimitives) (c : TunnConfig)
    (hs : exec (step pc) (new pc c) ms = some s) (ht : exec (step pc) s ms' = some t)
    (hheld : s.tunn.sessions i = some session) (hfew : t.drawn < s.number i + nSessions)
    (hlast : t.tunn.sessions i = some session') : session.Same session' := by
  have h := (numbered_run (numbered_new pc c) hs).1
  obtain ⟨ht', hlater⟩ := numbered_run h ht
  obtain ⟨hone, -⟩ := h.sessions i session hheld
  rcases hlater i with hzero | hlater | ⟨-, hkeeps⟩
  · omega
  · have hle := ht'.number_le i
    omega
  · obtain ⟨session₀, hheld₀, hsame⟩ := hkeeps session' hlast
    obtain rfl := Option.some.inj (hheld.symm.trans hheld₀)
    exact hsame

def initiatorCalls : List LinkMove :=
  (Link.rekeyed.filter fun i => i.1 = .initiator).map Prod.snd

/-- The initiator after its first handshake, and then after the second one. -/
theorem initiatorCalls_run :
    (exec (step sampleCookiePrimitives) (new sampleCookiePrimitives (Link.sampleConfig .initiator))
      (initiatorCalls.take 3)).map (fun s => (s.drawn, s.number 1, (s.tunn.sessions 1).isSome)) =
        some (1, 1, true) ∧
    (exec (step sampleCookiePrimitives) (new sampleCookiePrimitives (Link.sampleConfig .initiator))
      initiatorCalls).map (fun s => (s.drawn, (s.tunn.sessions 1).isSome)) = some (2, true) := by
  decide +kernel

theorem indices_own_sample : ∃ s, exec (step sampleCookiePrimitives)
      (new sampleCookiePrimitives (Link.sampleConfig .initiator)) initiatorCalls = some s ∧
    ∀ i session, s.tunn.sessions i = some session → slot session.receivingIndex.toNat = i := by
  obtain ⟨s, hs, -⟩ := Option.map_eq_some_iff.mp initiatorCalls_run.2
  exact ⟨s, hs, fun i session hi => ((indices_own _ _ hs).1 i session hi).1⟩

theorem session_kept_sample : ∃ (s t : NumberedTunn) (session session' : Session),
    s.tunn.sessions 1 = some session ∧ t.tunn.sessions 1 = some session' ∧ t.drawn = 2 ∧
      session.Same session' := by
  obtain ⟨s, hs, hsample⟩ := Option.map_eq_some_iff.mp initiatorCalls_run.1
  obtain ⟨t, ht, hlast⟩ := Option.map_eq_some_iff.mp initiatorCalls_run.2
  rw [← List.take_append_drop 3 initiatorCalls] at ht
  obtain ⟨s', hs', ht⟩ := (exec_append_some _).mp ht
  obtain rfl := Option.some.inj (hs.symm.trans hs')
  simp only [Prod.mk.injEq] at hsample hlast
  obtain ⟨session, hsession⟩ := Option.isSome_iff_exists.mp hsample.2.2
  obtain ⟨session', hsession'⟩ := Option.isSome_iff_exists.mp hlast.2
  refine ⟨s, t, session, session', hsession, hsession', hlast.1, ?_⟩
  refine session_kept _ _ hs ht hsession ?_ hsession'
  rw [hlast.1, hsample.2.1]
  decide

end NumberedTunn

end Xelt.Boringtun.Noise.Crypto
