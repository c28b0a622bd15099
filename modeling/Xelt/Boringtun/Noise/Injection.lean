import Xelt.Boringtun.Noise.Timestamps

/-!
# Injected datagrams

Anybody can send a datagram to a tunnel. What is not sealed under a key of the
tunnel, and what was accepted before, it turns away before anything is changed:
but that the limiter counts the handshake messages among them, a run with such
datagrams between its moves is the run without them. While the limiter is not
under load its count decides nothing.
-/

namespace Xelt.Boringtun.Noise.Crypto

open Bytes Runs

-- ---------------------------------------------------------------------------
-- What the limiter lets through
-- ---------------------------------------------------------------------------

theorem parse_fits (h : parseIncomingPacket src = .ok (.packetData d)) :
    d.encryptedEncapsulatedPacket.length ≤ src.length := by
  simp only [parseIncomingPacket] at h
  split_ifs at h <;> cases h
  rw [List.length_drop]
  exact Nat.sub_le ..

namespace RateLimiter

/-- A handshake message with the right first MAC. -/
def counts (p : CookiePrimitives) (r : RateLimiter) (src : Bytes) : Bool :=
  match parseIncomingPacket src with
  | .error _ => false
  | .ok packet => packet.senderIdx.isSome &&
      (p.b2sKeyedMac16 r.mac1Key (src.take (src.length - 32))).toList =
        (src.drop (src.length - 32)).take 16

/-- What the limiter counts does not find it under load. -/
def Calm (p : CookiePrimitives) (r : RateLimiter) (src : Bytes) : Prop :=
  r.counts p src = true → r.count < r.limit

instance (p : CookiePrimitives) (r : RateLimiter) (src : Bytes) : Decidable (r.Calm p src) :=
  inferInstanceAs (Decidable (_ → _))

/-- What a limiter that is not under load says of a datagram. -/
def verdict (p : CookiePrimitives) (r : RateLimiter) (src : Bytes) : Except Rejection Packet :=
  match parseIncomingPacket src with
  | .error e => .error (.err e)
  | .ok packet =>
    if packet.senderIdx.isSome && !r.counts p src then .error (.err .invalidMac) else .ok packet

/-- The limiters differ in nothing but that the second has counted less. -/
inductive Lighter (r : RateLimiter) : RateLimiter → Prop
  | mk (n : UInt64) (h : n ≤ r.count) : Lighter r { r with count := n }

variable {p : CookiePrimitives} {r r' : RateLimiter}

theorem Lighter.refl (r : RateLimiter) : Lighter r r := .mk r.count (UInt64.le_refl _)

theorem verifyPacket_calm (h : r.Calm p src) (srcAddr : Option IpAddr) (dst now : Nat) :
    r.verifyPacket p srcAddr src dst now =
      (if r.counts p src then { r with count := r.count + 1 } else r, r.verdict p src) := by
  rw [verifyPacket_eq]
  unfold Calm counts at h
  unfold verdict counts
  cases hparse : parseIncomingPacket src with
  | error e => rfl
  | ok packet =>
    rw [hparse] at h
    cases hidx : packet.senderIdx with
    | none => simp [hidx]
    | some senderIdx =>
      simp only [hidx, Option.isSome_some, Bool.true_and] at h ⊢
      unfold verifyMacs
      split
      · rename_i hmac
        simp [hmac]
      · rename_i hmac
        have hlt := h (by simpa using hmac)
        have hidle : r.isUnderLoad.2 = false := by simpa [isUnderLoad] using hlt
        simp only [not_not] at hmac
        rw [hidle, if_neg Bool.false_ne_true]
        simp [hmac, isUnderLoad]

theorem Lighter.calm (h : Lighter r r') (hcalm : r.Calm p src) : r'.Calm p src := by
  cases h with
  | mk n hle => exact fun hcounts => UInt64.lt_of_le_of_lt hle (hcalm hcounts)

/-- A message that finds no load leaves room for the count. -/
theorem Calm.succ (hcalm : r.Calm p src) (hcounts : r.counts p src = true) :
    (r.count + 1).toNat = r.count.toNat + 1 := by
  have hlt := UInt64.lt_iff_toNat_lt.mp (hcalm hcounts)
  have hlimit := r.limit.toNat_lt
  rw [UInt64.toNat_add]
  exact Nat.mod_eq_of_lt (by simp; omega)

theorem Lighter.verifyPacket (h : Lighter r r') (hcalm : r.Calm p src) (srcAddr : Option IpAddr)
    (dst now : Nat) :
    Lighter (r.verifyPacket p srcAddr src dst now).1 (r'.verifyPacket p srcAddr src dst now).1 ∧
      (r.verifyPacket p srcAddr src dst now).2 = (r'.verifyPacket p srcAddr src dst now).2 := by
  have hcalm' := h.calm hcalm
  rw [verifyPacket_calm hcalm, verifyPacket_calm hcalm']
  cases h with
  | mk n hle =>
    refine ⟨?_, rfl⟩
    change Lighter (if r.counts p src then _ else _) (if r.counts p src then _ else _)
    split
    · rename_i hcounts
      have hsucc := hcalm.succ hcounts
      have hsucc' := hcalm'.succ hcounts
      refine .mk (n + 1) (UInt64.le_iff_toNat_le.mpr ?_)
      rw [UInt64.le_iff_toNat_le] at hle
      dsimp only at hsucc' ⊢
      omega
    · exact .mk n hle

/-- A datagram that only one of them is shown. -/
theorem Lighter.counted (h : Lighter r r') (hcalm : r.Calm p src) (srcAddr : Option IpAddr)
    (dst now : Nat) :
    Lighter (r.verifyPacket p srcAddr src dst now).1 r' := by
  rw [verifyPacket_calm hcalm]
  cases h with
  | mk n hle =>
    dsimp only
    split
    · rename_i hcounts
      have hsucc := hcalm.succ hcounts
      refine .mk n (UInt64.le_iff_toNat_le.mpr ?_)
      rw [UInt64.le_iff_toNat_le] at hle
      dsimp only
      omega
    · exact .mk n hle

theorem Lighter.resetCount (h : Lighter r r') (now : Nat) :
    Lighter (r.resetCount now) (r'.resetCount now) := by
  cases h with
  | mk n hle =>
    unfold RateLimiter.resetCount
    dsimp only
    split
    · exact .refl _
    · exact .mk n hle

end RateLimiter

namespace Tunn

-- ---------------------------------------------------------------------------
-- One datagram
-- ---------------------------------------------------------------------------

/-- The packet opens under a key that the tunnel has now, and is no replay. -/
def genuine (p : Primitives) (t : Tunn) : Packet → Bool
  | .handshakeInit m => (t.handshake.checkedTimestamp p m).isSome
  | .handshakeResponse r =>
    match t.handshake.awaiting r.receiverIdx with
    | none => false
    | some (s, _) =>
      let read := Handshake.readResponse p t.handshake.params s r
      (p.aeadChacha20Open read.2 0 r.encryptedNothing read.1.hash).isSome
  | .packetCookieReply c =>
    match t.handshake.cookies.lastMac1 with
    | none => false
    | some mac1 => (p.decryptCookie (p.b2sHash labelCookie t.handshake.params.peerStaticPublic)
        c.nonce mac1 c.encryptedCookie).isSome
  | .packetData d =>
    match t.sessions (slot d.receiverIdx.toNat) with
    | none => false
    | some s => s.receivingKeyCounter.willAccept d.counter.toNat matches .ok ()
        && (p.openBytes s.receiver (nonceOf d.counter.toNat) d.encryptedEncapsulatedPacket).isSome

variable {p : Primitives} {t t' : Tunn}

theorem refused_initiation (h : t.genuine p (.handshakeInit m) = false) :
    ∃ e, t.handleHandshakeInit p m dst ephemeral = some (t, .err e) := by
  have hnone : t.handshake.checkedTimestamp p m = none := by simpa [genuine] using h
  obtain ⟨e, heq⟩ := Handshake.receive_unchecked t.handshake m dst ephemeral hnone
  exact ⟨e, by rw [handleHandshakeInit, heq]; rfl⟩

theorem refused_response (h : t.genuine p (.handshakeResponse r) = false) :
    ∃ e, t.handleHandshakeResponse p r dst now = some (t, .err e) := by
  have hres : ∃ e, t.handshake.receiveHandshakeResponse p r now = (t.handshake, .error e) := by
    cases ha : t.handshake.awaiting r.receiverIdx with
    | none => exact ⟨_, Handshake.receiveHandshakeResponse_none ha⟩
    | some a =>
      have hopen : p.aeadChacha20Open (Handshake.readResponse p t.handshake.params a.1 r).2 0
          r.encryptedNothing (Handshake.readResponse p t.handshake.params a.1 r).1.hash = none := by
        simpa [genuine, ha] using h
      exact ⟨_, by rw [Handshake.receiveHandshakeResponse_eq ha, hopen]⟩
  obtain ⟨e, heq⟩ := hres
  exact ⟨e, by rw [handleHandshakeResponse, heq]⟩

theorem refused_cookieReply (h : t.genuine p (.packetCookieReply c) = false) :
    ∃ e, t.handleCookieReply p c = (t, .err e) := by
  have hres : ∃ e, t.handshake.receiveCookieReply p c = (t.handshake, .error e) := by
    unfold Handshake.receiveCookieReply
    split
    · exact ⟨_, rfl⟩
    · rename_i mac1 hmac1
      split
      · exact ⟨_, rfl⟩
      · have hopen : p.decryptCookie (p.b2sHash labelCookie t.handshake.params.peerStaticPublic)
            c.nonce mac1 c.encryptedCookie = none := by
          simpa [genuine, hmac1] using h
        exact ⟨.invalidAeadTag, by simp only [hopen]⟩
  obtain ⟨e, heq⟩ := hres
  exact ⟨e, by rw [handleCookieReply, heq]⟩

/-- A session is left alone by what it does not open. -/
theorem refused_data (hfits : d.encryptedEncapsulatedPacket.length ≤ dst)
    (h : t.genuine p (.packetData d) = false) :
    ∃ e, t.handleData p d dst = some (t, .err e) := by
  cases hs : t.sessions (slot d.receiverIdx.toNat) with
  | none => exact ⟨.noCurrentSession, by simp only [handleData, hs]⟩
  | some s =>
    have hres : ∃ e, s.receivePacketData p d dst = some (.error e) := by
      unfold Session.receivePacketData Session.receivingCounterQuickCheck
      rw [if_neg (Nat.not_lt.mpr hfits)]
      split
      · exact ⟨_, rfl⟩
      · rename_i hquick
        split at hquick
        · cases hquick
        · have hopen : p.openBytes s.receiver (nonceOf d.counter.toNat)
              d.encryptedEncapsulatedPacket = none := by
            simpa [genuine, hs, hquick] using h
          exact ⟨.invalidAeadTag, by simp only [Session.openPacket, hopen]⟩
    obtain ⟨e, heq⟩ := hres
    exact ⟨e, by simp only [handleData, hs, heq]⟩

theorem refused (dst : Nat) (ephemeral : Bytes32) (now : Nat)
    (hfits : ∀ d, packet = .packetData d → d.encryptedEncapsulatedPacket.length ≤ dst)
    (h : t.genuine p packet = false) :
    ∃ e, t.handleVerifiedPacket p packet dst ephemeral now = some (t, .err e) := by
  cases packet with
  | handshakeInit m => exact refused_initiation h
  | handshakeResponse r => exact refused_response h
  | packetCookieReply c =>
    obtain ⟨e, heq⟩ := refused_cookieReply h
    exact ⟨e, congrArg some heq⟩
  | packetData d => exact refused_data (hfits d rfl) h

end Tunn

-- ---------------------------------------------------------------------------
-- A tunnel with its limiter
-- ---------------------------------------------------------------------------

/-- The tunnel and the limiter it has, its own or one that others use too. -/
structure LimitedTunn extends Tunn where
  rateLimiter : RateLimiter

namespace LimitedTunn

inductive Call
  | encapsulate (src : Bytes) (dst : Nat)
  | decapsulate (srcAddr : Option IpAddr) (datagram : Bytes) (dst : Nat)
  /-- The packet came through another limiter. -/
  | handleVerifiedPacket (packet : Packet) (dst : Nat)
  | formatHandshakeInitiation (dst : Nat) (forceResend : Bool)
  | updateTimers (dst : Nat)
  /-- Without a limiter to share, a new one of its own with these keys. -/
  | setStaticPrivate (staticPrivate staticPublic : Bytes32) (shared : Option RateLimiter)
    (secretKey : ByteArr 16) (nonceKey : Bytes32)
  /-- Somebody else uses the limiter. -/
  | limiter (c : RateLimiter.LimiterCall)

structure Move where
  ephemeral : Bytes32
  now : Nat
  call : Call

def peerHandshakeRateLimit : UInt64 := 10

section
variable (pc : CookiePrimitives) (t : LimitedTunn) (m : Move)

def withTunn : Option (Tunn × TunnResult) → Option (LimitedTunn × TunnResult) :=
  Option.map fun (tunn, r) => ({ t with toTunn := tunn }, r)

def call : Option (LimitedTunn × TunnResult) :=
  match m.call with
  | .encapsulate src dst =>
    t.withTunn (t.toTunn.encapsulate pc.toPrimitives src dst m.ephemeral m.now)
  | .decapsulate srcAddr datagram dst =>
    (t.toTunn.decapsulate pc t.rateLimiter srcAddr datagram dst m.ephemeral m.now).map
      fun (tunn, limiter, r) => (⟨tunn, limiter⟩, r)
  | .handleVerifiedPacket packet dst =>
    t.withTunn (t.toTunn.handleVerifiedPacket pc.toPrimitives packet dst m.ephemeral m.now)
  | .formatHandshakeInitiation dst forceResend =>
    t.withTunn
      (some (t.toTunn.formatHandshakeInitiation pc.toPrimitives dst forceResend m.ephemeral m.now))
  | .updateTimers dst =>
    let t := if t.timers.shouldResetRr then { t with rateLimiter := t.rateLimiter.resetCount m.now }
      else t
    t.withTunn (t.toTunn.updateTimers pc.toPrimitives dst m.ephemeral m.now)
  | .setStaticPrivate staticPrivate staticPublic shared secretKey nonceKey =>
    (t.toTunn.setStaticPrivate pc.toPrimitives staticPrivate staticPublic shared.isNone).map
      fun tunn => (⟨tunn, shared.getD
        (.new pc staticPublic peerHandshakeRateLimit secretKey nonceKey m.now)⟩, .done)
  | .limiter c => some ({ t with rateLimiter := t.rateLimiter.call pc c }, .done)

def step : Option LimitedTunn := (t.call pc m).map Prod.fst

def results : List TunnResult := ((t.call pc m).map Prod.snd).toList

/-- The packet of a datagram, if it gets past the limiter. -/
def packet : Option Packet :=
  match m.call with
  | .decapsulate srcAddr datagram _ =>
    (t.rateLimiter.verifyPacket pc srcAddr datagram cookieReplySz m.now).2.toOption
  | .handleVerifiedPacket packet _ => some packet
  | _ => none

/-- The calls that hand a datagram over; an empty one only asks for more. -/
def Call.incoming : Call → Bool
  | .decapsulate _ datagram _ => datagram ≠ []
  | .handleVerifiedPacket .. => true
  | _ => false

/-- The move is no datagram, or a genuine one. -/
def heard : Bool := !m.call.incoming || (t.packet pc m).any (t.toTunn.genuine pc.toPrimitives)

end

/-- The limiter is not under load when it has to count. -/
def Call.Calm (pc : CookiePrimitives) (r : RateLimiter) : Call → Prop
  | .decapsulate _ datagram _ => r.Calm pc datagram
  | .limiter (.verifyPacket _ src _ _) => r.Calm pc src
  | _ => True

instance (pc : CookiePrimitives) (r : RateLimiter) : (c : Call) → Decidable (c.Calm pc r)
  | .decapsulate .. | .limiter (.verifyPacket ..) => inferInstanceAs (Decidable (r.Calm pc _))
  | .limiter (.resetCount _) | .encapsulate .. | .handleVerifiedPacket .. | .updateTimers _
  | .formatHandshakeInitiation .. | .setStaticPrivate .. => .isTrue trivial

/-- There is room for the payload, or the call panics. -/
def Call.Fits : Call → Prop
  | .decapsulate _ datagram dst => datagram.length ≤ dst
  | .handleVerifiedPacket (.packetData d) dst => d.encryptedEncapsulatedPacket.length ≤ dst
  | _ => True

instance : (c : Call) → Decidable c.Fits
  | .decapsulate .. | .handleVerifiedPacket (.packetData _) _ =>
    inferInstanceAs (Decidable (_ ≤ _))
  | .handleVerifiedPacket (.handshakeInit _) _ | .handleVerifiedPacket (.handshakeResponse _) _
  | .handleVerifiedPacket (.packetCookieReply _) _ | .encapsulate .. | .limiter _
  | .formatHandshakeInitiation .. | .updateTimers _ | .setStaticPrivate .. => .isTrue trivial

variable {pc : CookiePrimitives} {t t' : LimitedTunn} {m : Move}

/-- The same tunnel, with a limiter that has counted less. -/
structure Lighter (t t' : LimitedTunn) : Prop where
  toTunn : t.toTunn = t'.toTunn
  limiter : t.rateLimiter.Lighter t'.rateLimiter

-- ---------------------------------------------------------------------------
-- One call
-- ---------------------------------------------------------------------------

theorem Lighter.withTunn (h : Lighter t t') (o : Option (Tunn × TunnResult)) :
    Option.Rel (fun a b => Lighter a.1 b.1 ∧ a.2 = b.2) (t.withTunn o) (t'.withTunn o) := by
  cases o with
  | none => exact .none
  | some q => exact .some ⟨⟨rfl, h.limiter⟩, rfl⟩

/-- A call is answered alike. -/
theorem Lighter.call (h : Lighter t t') (hcalm : m.call.Calm pc t.rateLimiter) :
    Option.Rel (fun a b => Lighter a.1 b.1 ∧ a.2 = b.2) (t.call pc m) (t'.call pc m) := by
  obtain ⟨ephemeral, now, c⟩ := m
  obtain ⟨tunn, limiter⟩ := t
  obtain ⟨tunn', limiter'⟩ := t'
  obtain ⟨htunn, hlimiter⟩ := h
  dsimp only at htunn hlimiter
  subst htunn
  have hlight : Lighter ⟨tunn, limiter⟩ ⟨tunn, limiter'⟩ := ⟨rfl, hlimiter⟩
  cases c with
  | encapsulate src dst => exact hlight.withTunn _
  | decapsulate srcAddr datagram dst =>
    obtain ⟨hnext, hsame⟩ := hlimiter.verifyPacket hcalm srcAddr cookieReplySz now
    simp only [LimitedTunn.call, Tunn.decapsulate]
    split
    · cases tunn.sendQueuedPacket pc.toPrimitives dst ephemeral now with
      | none => exact .none
      | some q => exact .some ⟨⟨rfl, hlimiter⟩, rfl⟩
    · generalize limiter.verifyPacket pc srcAddr datagram cookieReplySz now = v at hnext hsame ⊢
      generalize limiter'.verifyPacket pc srcAddr datagram cookieReplySz now = v' at hnext hsame ⊢
      obtain ⟨next, res⟩ := v
      obtain ⟨next', res'⟩ := v'
      obtain rfl : res = res' := hsame
      cases res with
      | error rejection =>
        cases rejection with
        | err e => exact .some ⟨⟨rfl, hnext⟩, rfl⟩
        | writeToNetwork cookie =>
          dsimp only
          split
          · exact .some ⟨⟨rfl, hnext⟩, rfl⟩
          · exact .none
      | ok packet =>
        dsimp only
        cases tunn.handleVerifiedPacket pc.toPrimitives packet dst ephemeral now with
        | none => exact .none
        | some q => exact .some ⟨⟨rfl, hnext⟩, rfl⟩
  | handleVerifiedPacket packet dst => exact hlight.withTunn _
  | formatHandshakeInitiation dst forceResend => exact hlight.withTunn _
  | updateTimers dst =>
    have hreset : Lighter ⟨tunn, limiter.resetCount now⟩ ⟨tunn, limiter'.resetCount now⟩ :=
      ⟨rfl, hlimiter.resetCount now⟩
    simp only [LimitedTunn.call]
    split
    · exact hreset.withTunn _
    · exact hlight.withTunn _
  | setStaticPrivate staticPrivate staticPublic shared secretKey nonceKey =>
    simp only [LimitedTunn.call]
    cases tunn.setStaticPrivate pc.toPrimitives staticPrivate staticPublic shared.isNone with
    | none => exact .none
    | some tunn => exact .some ⟨⟨rfl, .refl _⟩, rfl⟩
  | limiter c =>
    refine .some ⟨⟨rfl, ?_⟩, rfl⟩
    cases c with
    | resetCount now => exact hlimiter.resetCount now
    | verifyPacket srcAddr src dst now => exact (hlimiter.verifyPacket hcalm srcAddr dst now).1

/-- What is not genuine is counted at most, and gets an error. -/
theorem Lighter.unheard (h : Lighter t t') (hfits : m.call.Fits)
    (hcalm : m.call.Calm pc t.rateLimiter) (hheard : t.heard pc m = false) :
    ∃ s e, t.call pc m = some (s, .err e) ∧ Lighter s t' := by
  obtain ⟨ephemeral, now, c⟩ := m
  obtain ⟨hincoming, hpacket⟩ : c.incoming = true ∧
      (t.packet pc ⟨ephemeral, now, c⟩).any (t.toTunn.genuine pc.toPrimitives) = false := by
    simpa [heard] using hheard
  cases c with
  | decapsulate srcAddr datagram dst =>
    have hne : datagram ≠ [] := by simpa [Call.incoming] using hincoming
    have hnext := h.limiter.counted hcalm srcAddr cookieReplySz now
    have hverified := RateLimiter.verifyPacket_calm hcalm srcAddr cookieReplySz now
    simp only [packet] at hpacket
    simp only [LimitedTunn.call, Tunn.decapsulate, if_neg hne]
    generalize t.rateLimiter.verifyPacket pc srcAddr datagram cookieReplySz now = v
      at hnext hverified hpacket ⊢
    obtain ⟨next, res⟩ := v
    have hres := congrArg Prod.snd hverified
    have hlight : Lighter ⟨t.toTunn, next⟩ t' := ⟨h.toTunn, hnext⟩
    cases hparse : parseIncomingPacket datagram with
    | error e =>
      simp only [RateLimiter.verdict, hparse] at hres
      subst hres
      exact ⟨_, e, rfl, hlight⟩
    | ok packet =>
      simp only [RateLimiter.verdict, hparse] at hres
      split at hres
      · subst hres
        exact ⟨_, .invalidMac, rfl, hlight⟩
      · subst hres
        obtain ⟨e, heq⟩ := Tunn.refused dst ephemeral now
          (fun d hd => le_trans (parse_fits (hd ▸ hparse)) hfits) hpacket
        exact ⟨_, e, by simp only [heq]; rfl, hlight⟩
  | handleVerifiedPacket packet dst =>
    obtain ⟨e, heq⟩ := Tunn.refused dst ephemeral now
      (fun d hd => by subst hd; exact hfits) hpacket
    exact ⟨t, e, by simp only [LimitedTunn.call, heq]; rfl, h⟩
  | _ => cases hincoming

-- ---------------------------------------------------------------------------
-- Runs
-- ---------------------------------------------------------------------------

/-- The moves of a run that the tunnel hears of. -/
def heardMoves (pc : CookiePrimitives) (t : LimitedTunn) (ms : List Move) : List Move :=
  trace (step pc) (fun t m => if t.heard pc m then [m] else []) t ms

theorem Lighter.run (h : Lighter t t') (ms : List Move) (hfits : ∀ m ∈ ms, m.call.Fits)
    (hcalm : Along (step pc) (fun t m => m.call.Calm pc t.rateLimiter) t ms) :
    (exec (step pc) t ms).map (·.toTunn) =
        (exec (step pc) t' (t.heardMoves pc ms)).map (·.toTunn) ∧
      trace (step pc) (fun t m => if t.heard pc m then t.results pc m else []) t ms =
        trace (step pc) (results pc) t' (t.heardMoves pc ms) ∧
      Along (step pc) (fun t m => t.heard pc m = false → ∀ r ∈ t.results pc m, ∃ e, r = .err e)
        t ms := by
  induction ms generalizing t t' with
  | nil => exact ⟨congrArg some h.toTunn, rfl, trivial⟩
  | cons m ms ih =>
    have hrest := fun m hm => hfits m (List.mem_cons_of_mem _ hm)
    cases hheard : t.heard pc m with
    | true =>
      have hanswer : t.heard pc m = false → ∀ r ∈ t.results pc m, ∃ e, r = .err e :=
        fun h => absurd (h.symm.trans hheard) Bool.false_ne_true
      have hcall := h.call hcalm.1
      generalize hc : t.call pc m = o at hcall
      generalize hc' : t'.call pc m = o' at hcall
      cases hcall with
      | none =>
        have hs : t.step pc m = none := by rw [step, hc]; rfl
        have hs' : t'.step pc m = none := by rw [step, hc']; rfl
        have hmoves : t.heardMoves pc (m :: ms) = [m] := by
          rw [heardMoves, trace_cons_none hs, hheard, if_pos rfl]
        rw [hmoves]
        refine ⟨?_, ?_, hanswer, fun s hs' => absurd (hs'.symm.trans hs) (Option.some_ne_none _)⟩
        · rw [exec_cons, exec_cons, hs, hs']
          rfl
        · rw [trace_cons_none hs, trace_cons_none hs', hheard, if_pos rfl, results, results, hc,
            hc']
      | @some q q' hrel =>
        obtain ⟨hlight, hsame⟩ := hrel
        have hs : t.step pc m = some q.1 := by rw [step, hc]; rfl
        have hs' : t'.step pc m = some q'.1 := by rw [step, hc']; rfl
        obtain ⟨hexec, hresults, halong⟩ := ih hlight hrest (hcalm.2 q.1 hs)
        have hmoves : t.heardMoves pc (m :: ms) = m :: q.1.heardMoves pc ms := by
          rw [heardMoves, trace_cons_some hs, hheard, if_pos rfl]
          rfl
        rw [hmoves]
        refine ⟨?_, ?_, .cons hanswer hs halong⟩
        · rw [exec_cons, exec_cons, hs, hs']
          exact hexec
        · rw [trace_cons_some hs, trace_cons_some hs', hheard, if_pos rfl, hresults, results,
            results, hc, hc', Option.map_some, Option.map_some, hsame]
    | false =>
      obtain ⟨s, e, hcall, hlight⟩ := h.unheard (hfits m List.mem_cons_self) hcalm.1 hheard
      have hs : t.step pc m = some s := by rw [step, hcall]; rfl
      obtain ⟨hexec, hresults, halong⟩ := ih hlight hrest (hcalm.2 s hs)
      have hmoves : t.heardMoves pc (m :: ms) = s.heardMoves pc ms := by
        rw [heardMoves, trace_cons_some hs, hheard]
        rfl
      rw [hmoves]
      refine ⟨?_, ?_, .cons (fun _ r hr => ?_) hs halong⟩
      · rw [exec_cons, hs]
        exact hexec
      · rw [trace_cons_some hs, hheard, ← hresults]
        rfl
      · rw [results, hcall] at hr
        exact ⟨e, List.mem_singleton.mp hr⟩

/-- Whatever datagrams are injected, whenever: while its limiter is not under
load the tunnel does what it does without those that are not genuine when they
arrive, with the same answers to all other moves. -/
theorem injected_ignored (pc : CookiePrimitives) (t : LimitedTunn) (ms : List Move)
    (hfits : ∀ m ∈ ms, m.call.Fits)
    (hcalm : Along (step pc) (fun t m => m.call.Calm pc t.rateLimiter) t ms) :
    (exec (step pc) t ms).map (·.toTunn) =
        (exec (step pc) t (t.heardMoves pc ms)).map (·.toTunn) ∧
      trace (step pc) (fun t m => if t.heard pc m then t.results pc m else []) t ms =
        trace (step pc) (results pc) t (t.heardMoves pc ms) ∧
      Along (step pc) (fun t m => t.heard pc m = false → ∀ r ∈ t.results pc m, ∃ e, r = .err e)
        t ms :=
  Lighter.run ⟨rfl, .refl _⟩ ms hfits hcalm

/-- An initiation that arrives twice, with a data packet of no session after it. -/
def injected : List Move :=
  ((Link.relayed sampleCookiePrimitives (Link.new sampleCookiePrimitives Link.sampleConfig) []
    [Link.sampleCall .initiator 21 1000 (.formatHandshakeInitiation 2048 true),
      Link.deliver .responder 22 2000]).flatMap fun (_, m) =>
    match m.call with
    | .decapsulate _ srcAddr datagram dst =>
      List.replicate 2 ⟨m.ephemeral, m.now, .decapsulate srcAddr datagram dst⟩
    | _ => []) ++
    [⟨beArray 32 24, 4000, .decapsulate none (4 :: List.replicate 31 0) 2048⟩]

def sampleTunn : LimitedTunn where
  toTunn := (Link.sampleConfig .responder).tunn sampleCookiePrimitives.toPrimitives
  rateLimiter := Link.sampleGate .responder

theorem injected_ignored_sample : injected.length = 3 ∧
    (sampleTunn.heardMoves sampleCookiePrimitives injected).length = 1 ∧
    (exec (step sampleCookiePrimitives) sampleTunn injected).isSome ∧
    ((exec (step sampleCookiePrimitives) sampleTunn injected).map (·.toTunn) =
        (exec (step sampleCookiePrimitives) sampleTunn
          (sampleTunn.heardMoves sampleCookiePrimitives injected)).map (·.toTunn) ∧
      trace (step sampleCookiePrimitives)
          (fun t m => if t.heard sampleCookiePrimitives m then t.results sampleCookiePrimitives m
            else []) sampleTunn injected =
        trace (step sampleCookiePrimitives) (results sampleCookiePrimitives) sampleTunn
          (sampleTunn.heardMoves sampleCookiePrimitives injected) ∧
      Along (step sampleCookiePrimitives) (fun t m => t.heard sampleCookiePrimitives m = false →
        ∀ r ∈ t.results sampleCookiePrimitives m, ∃ e, r = .err e) sampleTunn injected) :=
  ⟨by decide +kernel, by decide +kernel, by decide +kernel,
    injected_ignored sampleCookiePrimitives sampleTunn injected (by decide +kernel)
      (by decide +kernel)⟩

end LimitedTunn

end Xelt.Boringtun.Noise.Crypto
