import Xelt.Boringtun.Noise.RateLimiter

/-!
# From the cookie to the next initiation

A handshake whose peer has the public key of a limiter, over all the calls
that are made of it: its messages pass the first check of the limiter, and
one that is sent with the cookie of a reply passes the second.
-/

namespace Xelt.Boringtun.Noise.Crypto

open Bytes Runs

namespace Handshake

/-- The calls made of a handshake, with the randomness and the clock they read. -/
inductive Call
  | formatInitiation (dst : Nat) (ephemeralPrivate : Bytes32) (now : Nat)
  | receiveInitiation (packet : HandshakeInit) (dst : Nat) (ephemeralPrivate : Bytes32)
  | receiveResponse (packet : HandshakeResponse) (now : Nat)
  | receiveCookieReply (packet : PacketCookieReply)
  | setStaticPrivate (staticPrivate staticPublic : Bytes32)
  | setExpired
  | clearCookie

/-- The handshake after a call, and the message the call made. -/
def call (p : Primitives) (h : Handshake) : Call → Option (Handshake × Option Bytes)
  | .formatInitiation dst ephemeralPrivate now =>
    let r := h.formatHandshakeInitiation p dst ephemeralPrivate now
    some (r.1, r.2.toOption)
  | .receiveInitiation packet dst ephemeralPrivate =>
    (h.receiveHandshakeInitialization p packet dst ephemeralPrivate).map
      fun r => (r.1, r.2.toOption.map (·.1))
  | .receiveResponse packet now => some ((h.receiveHandshakeResponse p packet now).1, none)
  | .receiveCookieReply packet => some ((h.receiveCookieReply p packet).1, none)
  | .setStaticPrivate staticPrivate staticPublic =>
    (h.setStaticPrivate p staticPrivate staticPublic).map fun h => (h, none)
  | .setExpired => some (h.setExpired, none)
  | .clearCookie => some (h.clearCookie, none)

/-- The call leaves the cookie that messages are sent with. -/
def Call.keepsCookie : Call → Bool
  | .receiveCookieReply _ | .clearCookie => false
  | _ => true

-- ---------------------------------------------------------------------------
-- The MACs of a message
-- ---------------------------------------------------------------------------

variable {p : Primitives} {h h' : Handshake}

def mac1Of (p : Primitives) (h : Handshake) (fields : Bytes) : ByteArr 16 :=
  p.b2sKeyedMac16 h.params.sendingMac1Key fields

def mac2Of (p : Primitives) (h : Handshake) (fields : Bytes) : ByteArr 16 :=
  match h.cookies.writeCookie with
  | some cookie => p.b2sKeyedMac16 cookie (fields ++ h.mac1Of p fields)
  | none => beArray 16 0

/-- The message was made by `h` and left `h'`. -/
structure Formatted (p : Primitives) (h h' : Handshake) (msg : Bytes) (packet : Packet)
    (fields : Bytes) : Prop where
  bytes : msg = fields ++ ((h.mac1Of p fields).toList ++ (h.mac2Of p fields).toList)
  parses : parseIncomingPacket msg = .ok packet
  sender : packet.senderIdx = some h'.cookies.index
  lastMac1 : h'.cookies.lastMac1 = some (h.mac1Of p fields)
  writeCookie : h'.cookies.writeCookie = h.cookies.writeCookie
  params : h'.params = h.params

theorem formatHandshakeInitiation_formatted
    (hf : h.formatHandshakeInitiation p dst ephemeral now = (h', .ok msg)) :
    ∃ m : HandshakeInit, Formatted p h h' msg (.handshakeInit m) m.fields := by
  by_cases hdst : dst < handshakeInitSz
  · simp [formatHandshakeInitiation, hdst] at hf
  · simp only [formatHandshakeInitiation, hdst, if_false] at hf
    obtain ⟨rfl, hmsg⟩ := Prod.mk.inj hf
    obtain rfl := Except.ok.inj hmsg
    exact ⟨_, rfl, parse_initiation _ (by simp), rfl, rfl, rfl, rfl⟩

theorem formatHandshakeResponse_formatted
    (hf : h.formatHandshakeResponse p dst ephemeral = some (h', .ok (msg, session))) :
    ∃ r : HandshakeResponse, Formatted p h h' msg (.handshakeResponse r) r.fields := by
  by_cases hdst : dst < handshakeRespSz
  · simp [formatHandshakeResponse, hdst] at hf
  · simp only [formatHandshakeResponse, hdst, if_false] at hf
    split at hf
    · obtain ⟨rfl, hmsg⟩ := Prod.mk.inj (Option.some.inj hf)
      obtain ⟨rfl, -⟩ := Prod.mk.inj (Except.ok.inj hmsg)
      exact ⟨_, rfl, parse_response _ (by simp), rfl, rfl, rfl, rfl⟩
    · exact absurd hf (by simp)

theorem formatHandshakeResponse_error
    (hf : h.formatHandshakeResponse p dst ephemeral = some (h', .error e)) : h' = h := by
  by_cases hdst : dst < handshakeRespSz
  · simp only [formatHandshakeResponse, hdst, if_true] at hf
    exact (Prod.mk.inj (Option.some.inj hf)).1.symm
  · simp only [formatHandshakeResponse, hdst, if_false] at hf
    split at hf
    · obtain ⟨-, he⟩ := Prod.mk.inj (Option.some.inj hf)
      cases he
    · cases hf

/-- What the MACs of messages depend on is as before, but for the cookie. -/
structure SameMacs (h h' : Handshake) : Prop where
  peerStaticPublic : h'.params.peerStaticPublic = h.params.peerStaticPublic
  sendingMac1Key : h'.params.sendingMac1Key = h.params.sendingMac1Key
  index : h'.cookies.index = h.cookies.index
  lastMac1 : h'.cookies.lastMac1 = h.cookies.lastMac1

theorem SameMacs.refl (h : Handshake) : SameMacs h h := ⟨rfl, rfl, rfl, rfl⟩

/-- A call makes no message and leaves what the MACs depend on, or it makes
one. -/
theorem call_cases (hc : h.call p c = some (h', out)) :
    (out = none ∧ SameMacs h h' ∧
        (c.keepsCookie → h'.cookies.writeCookie = h.cookies.writeCookie)) ∨
      ∃ msg packet fields, out = some msg ∧ Formatted p h h' msg packet fields := by
  cases c with
  | formatInitiation dst ephemeral now =>
    obtain ⟨rfl, rfl⟩ := Prod.mk.inj (Option.some.inj hc)
    rcases formatHandshakeInitiation_cases p h dst ephemeral now with heq | ⟨h', m, macs, heq, -⟩
    · rw [heq]
      exact .inl ⟨rfl, .refl h, fun _ => rfl⟩
    · obtain ⟨m', hm⟩ := formatHandshakeInitiation_formatted heq
      rw [heq]
      exact .inr ⟨_, _, _, rfl, hm⟩
  | receiveInitiation packet dst ephemeral =>
    obtain ⟨⟨h'', r⟩, hr, hout⟩ := Option.map_eq_some_iff.mp hc
    obtain ⟨rfl, rfl⟩ := Prod.mk.inj hout
    cases hm : h.checkedTimestamp p packet with
    | none =>
      obtain ⟨e, heq⟩ := receive_unchecked h packet dst ephemeral hm
      obtain ⟨rfl, rfl⟩ := Prod.mk.inj (Option.some.inj (heq.symm.trans hr))
      exact .inl ⟨rfl, .refl h, fun _ => rfl⟩
    | some timestamp =>
      obtain ⟨-, heq⟩ := receive_checked h packet dst ephemeral hm
      have hformat := heq.symm.trans hr
      cases r with
      | ok answer =>
        obtain ⟨msg, session⟩ := answer
        obtain ⟨m', hm'⟩ := formatHandshakeResponse_formatted hformat
        exact .inr ⟨_, _, _, rfl, hm'.bytes, hm'.parses, hm'.sender, hm'.lastMac1,
          hm'.writeCookie, hm'.params⟩
      | error e =>
        rw [formatHandshakeResponse_error hformat]
        exact .inl ⟨rfl, ⟨rfl, rfl, rfl, rfl⟩, fun _ => rfl⟩
  | receiveResponse packet now =>
    obtain ⟨rfl, rfl⟩ := Prod.mk.inj (Option.some.inj hc)
    rcases receiveHandshakeResponse_cases p h packet now with ⟨e, heq⟩ | ⟨s, prev, session, -, heq⟩
    · rw [heq]
      exact .inl ⟨rfl, .refl h, fun _ => rfl⟩
    · rw [heq]
      cases prev <;> exact .inl ⟨rfl, ⟨rfl, rfl, rfl, rfl⟩, fun _ => rfl⟩
  | receiveCookieReply packet =>
    obtain ⟨rfl, rfl⟩ := Prod.mk.inj (Option.some.inj hc)
    refine .inl ⟨rfl, ?_, fun hkeep => absurd hkeep (by simp [Call.keepsCookie])⟩
    rcases receiveCookieReply_cases p h packet with ⟨e, heq⟩ | ⟨cookie, heq⟩
    · rw [heq]
      exact .refl h
    · rw [heq]
      exact ⟨rfl, rfl, rfl, rfl⟩
  | setStaticPrivate staticPrivate staticPublic =>
    obtain ⟨h'', hset, hout⟩ := Option.map_eq_some_iff.mp hc
    obtain ⟨rfl, rfl⟩ := Prod.mk.inj hout
    by_cases hmatch : p.publicKey staticPrivate ≠ staticPublic
    · simp [Handshake.setStaticPrivate, hmatch] at hset
    · simp only [Handshake.setStaticPrivate, hmatch, if_false, Option.some.injEq] at hset
      subst hset
      exact .inl ⟨rfl, ⟨rfl, rfl, rfl, rfl⟩, fun _ => rfl⟩
  | setExpired =>
    obtain ⟨rfl, rfl⟩ := Prod.mk.inj (Option.some.inj hc)
    exact .inl ⟨rfl, ⟨rfl, rfl, rfl, rfl⟩, fun _ => rfl⟩
  | clearCookie =>
    obtain ⟨rfl, rfl⟩ := Prod.mk.inj (Option.some.inj hc)
    exact .inl ⟨rfl, ⟨rfl, rfl, rfl, rfl⟩, fun hkeep => absurd hkeep (by decide)⟩

theorem receiveCookieReply_accepts {mac1 : ByteArr 16} (hmac1 : h.cookies.lastMac1 = some mac1)
    (hidx : m.receiverIdx = h.cookies.index)
    (hcookie : p.decryptCookie (p.b2sHash labelCookie h.params.peerStaticPublic) m.nonce mac1
      m.encryptedCookie = some cookie) :
    h.receiveCookieReply p m =
      ({ h with cookies := { h.cookies with writeCookie := some cookie } }, .ok ()) := by
  simp only [receiveCookieReply, hmac1, hidx, ne_eq, not_true_eq_false, if_false, hcookie]

end Handshake

-- ---------------------------------------------------------------------------
-- The end that sends
-- ---------------------------------------------------------------------------

/-- A handshake and the message it made last. -/
structure Sender where
  handshake : Handshake
  latest : Option Bytes

namespace Sender

open Handshake

def new (p : Primitives) (staticPrivate staticPublic peerStaticPublic : Bytes32)
    (globalIdx : UInt32) (presharedKey : Option Bytes32) (stamper : TimeStamper) : Sender where
  handshake := .new p staticPrivate staticPublic peerStaticPublic globalIdx presharedKey stamper
  latest := none

def step (p : Primitives) (s : Sender) (c : Call) : Option Sender :=
  (s.handshake.call p c).map fun r => ⟨r.1, r.2.or s.latest⟩

/-- The keys are those of the peer, and the cookies are those of the message
made last. -/
structure Tracks (p : Primitives) (peer : Bytes32) (s : Sender) : Prop where
  peerStaticPublic : s.handshake.params.peerStaticPublic = peer
  sendingMac1Key : s.handshake.params.sendingMac1Key = p.b2sHash labelMac1 peer
  latest : ∀ msg, s.latest = some msg → ∃ packet fields, ∃ mac1 mac2 : ByteArr 16,
    msg = fields ++ (mac1.toList ++ mac2.toList) ∧ parseIncomingPacket msg = .ok packet ∧
      packet.senderIdx = some s.handshake.cookies.index ∧
      s.handshake.cookies.lastMac1 = some mac1

variable {p : Primitives} {peer : Bytes32} {s s' : Sender}

theorem tracks_new (p : Primitives) (staticPrivate staticPublic peer : Bytes32)
    (globalIdx : UInt32) (presharedKey : Option Bytes32) (stamper : TimeStamper) : Tracks p peer
      (Sender.new p staticPrivate staticPublic peer globalIdx presharedKey stamper) :=
  ⟨rfl, rfl, fun _ h => nomatch h⟩

theorem Tracks.same (h : s.Tracks p peer) (hm : SameMacs s.handshake h') :
    Tracks p peer ⟨h', s.latest⟩ where
  peerStaticPublic := hm.peerStaticPublic.trans h.peerStaticPublic
  sendingMac1Key := hm.sendingMac1Key.trans h.sendingMac1Key
  latest msg hmsg := by
    obtain ⟨packet, fields, mac1, mac2, hbytes, hparse, hidx, hlast⟩ := h.latest msg hmsg
    refine ⟨packet, fields, mac1, mac2, hbytes, hparse, ?_, ?_⟩
    · rw [hidx, hm.index]
    · rw [hm.lastMac1, hlast]

theorem Tracks.formatted (h : s.Tracks p peer)
    (hf : Formatted p s.handshake h' msg packet fields) : Tracks p peer ⟨h', some msg⟩ where
  peerStaticPublic := by rw [hf.params, h.peerStaticPublic]
  sendingMac1Key := by rw [hf.params, h.sendingMac1Key]
  latest msg' hmsg := by
    obtain rfl := Option.some.inj hmsg
    exact ⟨packet, fields, _, _, hf.bytes, hf.parses, hf.sender, hf.lastMac1⟩

theorem Tracks.step (h : s.Tracks p peer) (hs : s.step p c = some s') : s'.Tracks p peer := by
  obtain ⟨⟨h', out⟩, hc, rfl⟩ := Option.map_eq_some_iff.mp hs
  rcases call_cases hc with ⟨rfl, hm, -⟩ | ⟨msg, packet, fields, rfl, hf⟩
  · exact h.same hm
  · exact h.formatted hf

theorem tracks_run (h : s.Tracks p peer) (he : exec (step p) s cs = some s') :
    s'.Tracks p peer :=
  invariant_run (fun _ _ _ => Tracks.step) h he

theorem step_writeCookie (hc : c.keepsCookie) (hs : s.step p c = some s') :
    s'.handshake.cookies.writeCookie = s.handshake.cookies.writeCookie := by
  obtain ⟨⟨h', out⟩, hcall, rfl⟩ := Option.map_eq_some_iff.mp hs
  rcases call_cases hcall with ⟨rfl, -, hkeep⟩ | ⟨msg, packet, fields, rfl, hf⟩
  · exact hkeep hc
  · exact hf.writeCookie

theorem run_writeCookie (hc : ∀ c ∈ cs, c.keepsCookie) (he : exec (step p) s cs = some s') :
    s'.handshake.cookies.writeCookie = s.handshake.cookies.writeCookie := by
  induction cs generalizing s with
  | nil =>
    cases he
    rfl
  | cons c cs ih =>
    obtain ⟨s1, hs, he⟩ := (exec_cons_some _).mp he
    rw [ih (fun c' h => hc c' (List.mem_cons_of_mem _ h)) he]
    exact step_writeCookie (hc c List.mem_cons_self) hs

end Sender

-- ---------------------------------------------------------------------------
-- Both ends
-- ---------------------------------------------------------------------------

namespace RateLimiter

open Handshake

variable {p : CookiePrimitives} {peer : Bytes32} {r : RateLimiter} {s s' : Sender}

theorem initiation_passes (hs : s.Tracks p.toPrimitives peer)
    (hr : r.mac1Key = p.b2sHash labelMac1 peer)
    (hf : Formatted p.toPrimitives s.handshake h' msg packet fields) :
    (r.verifyPacket p srcAddr msg dst now).2 ≠ .error (.err .invalidMac) ∧
      (r.count < r.limit → (r.verifyPacket p srcAddr msg dst now).2 = .ok packet) := by
  rw [verifyPacket_message hf.bytes hf.parses hf.sender]
  apply verifyMacs_mac1
  rw [mac1Of, hs.sendingMac1Key, hr]

/-- The sender takes the cookie that its latest message is answered with. -/
theorem reply_accepted (hp : p.Lawful) (hs : s.Tracks p.toPrimitives peer)
    (hr : r.cookieKey = p.b2sHash labelCookie peer) (hlatest : s.latest = some msg)
    (hreply : r.verifyPacket p (some addr) msg dst now = (r', .error (.writeToNetwork reply))) :
    ∃ c, parseIncomingPacket reply = .ok (.packetCookieReply c) ∧
      s.handshake.receiveCookieReply p.toPrimitives c =
        ({ s.handshake with cookies :=
          { s.handshake.cookies with writeCookie := some (r.currentCookie p addr now) } },
          .ok ()) := by
  obtain ⟨packet, fields, mac1, mac2, hbytes, hparse, hidx, hlast⟩ := hs.latest msg hlatest
  rw [verifyPacket_message hbytes hparse hidx] at hreply
  obtain ⟨addr', nonce, haddr, rfl⟩ := verifyMacs_reply hreply
  obtain rfl := Option.some.inj haddr
  refine ⟨_, parse_cookieReply _, receiveCookieReply_accepts hlast rfl ?_⟩
  rw [hs.peerStaticPublic, ← hr]
  exact hp _ _ _ _

/-- A message made with the current cookie of its address is let through. -/
theorem cookie_passes (hs : s.Tracks p.toPrimitives peer)
    (hr : r.mac1Key = p.b2sHash labelMac1 peer)
    (hcookie : s.handshake.cookies.writeCookie = some (r.currentCookie p addr now))
    (hf : Formatted p.toPrimitives s.handshake h' msg packet fields) :
    (r.verifyPacket p (some addr) msg dst now).2 = .ok packet := by
  rw [verifyPacket_message hf.bytes hf.parses hf.sender]
  apply verifyMacs_accepts
  · rw [mac1Of, hs.sendingMac1Key, hr]
  · rw [mac2Of, hcookie]
    rfl

/-- Over all calls of a handshake and of a limiter of its peer's key: an
initiation passes the first check, and a cookie that answers the latest
message opens the way for the next initiation of its period. -/
theorem initiations_admitted (p : CookiePrimitives) (hp : p.Lawful)
    (staticPrivate staticPublic peer : Bytes32) (globalIdx : UInt32)
    (presharedKey : Option Bytes32) (stamper : TimeStamper) (calls : List Call)
    (he : exec (Sender.step p.toPrimitives) (.new p.toPrimitives staticPrivate staticPublic peer
      globalIdx presharedKey stamper) calls = some s)
    (limit : UInt64) (secretKey : ByteArr 16) (nonceKey : Bytes32) (start : Nat)
    (limiterCalls : List LimiterCall)
    (hr : (new p peer limit secretKey nonceKey start).after p limiterCalls = r) :
    (∀ dst ephemeral now h' msg, s.handshake.formatHandshakeInitiation p.toPrimitives dst
        ephemeral now = (h', .ok msg) →
      ∃ m, ∀ srcAddr dst now,
        (r.verifyPacket p srcAddr msg dst now).2 ≠ .error (.err .invalidMac) ∧
        (r.count < r.limit → (r.verifyPacket p srcAddr msg dst now).2 = .ok (.handshakeInit m))) ∧
    (∀ msg addr dst now r' reply, s.latest = some msg →
      r.verifyPacket p (some addr) msg dst now = (r', .error (.writeToNetwork reply)) →
      ∃ c h', parseIncomingPacket reply = .ok (.packetCookieReply c) ∧
        s.handshake.receiveCookieReply p.toPrimitives c = (h', .ok ()) ∧
        ∀ between s' limiterBetween dst' ephemeral now' h'' next dst'' now'',
          (∀ call ∈ between, call.keepsCookie) →
          exec (Sender.step p.toPrimitives) ⟨h', s.latest⟩ between = some s' →
          s'.handshake.formatHandshakeInitiation p.toPrimitives dst' ephemeral now' =
            (h'', .ok next) →
          r.curCounter now = r.curCounter now'' →
          ∃ m, ((r'.after p limiterBetween).verifyPacket p (some addr) next dst'' now'').2 =
            .ok (.handshakeInit m)) := by
  have hs : s.Tracks p.toPrimitives peer := Sender.tracks_run (Sender.tracks_new ..) he
  have hkeys : SameKeys (new p peer limit secretKey nonceKey start) r := hr ▸ after_keys _ _
  have hmac1 : r.mac1Key = p.b2sHash labelMac1 peer := hkeys.mac1Key
  have hcookieKey : r.cookieKey = p.b2sHash labelCookie peer := hkeys.cookieKey
  constructor
  · intro dst ephemeral now h' msg hformat
    obtain ⟨m, hf⟩ := formatHandshakeInitiation_formatted hformat
    exact ⟨m, fun srcAddr dst now => initiation_passes hs hmac1 hf⟩
  · intro msg addr dst now r' reply hlatest hreply
    obtain ⟨c, hparse, haccept⟩ := reply_accepted hp hs hcookieKey hlatest hreply
    refine ⟨c, _, hparse, haccept, ?_⟩
    intro between s' limiterBetween dst' ephemeral now' h'' next dst'' now'' hquiet he' hformat
      hperiod
    have hs' : s'.Tracks p.toPrimitives peer := by
      refine Sender.tracks_run ?_ he'
      exact hs.same ⟨rfl, rfl, rfl, rfl⟩
    have hlater : SameKeys r (r'.after p limiterBetween) := by
      have hr' : r' = (r.verifyPacket p (some addr) msg dst now).1 := by rw [hreply]
      rw [hr']
      exact (verifyPacket_keys r).trans (after_keys _ _)
    obtain ⟨m, hf⟩ := formatHandshakeInitiation_formatted hformat
    refine ⟨m, cookie_passes hs' (hlater.mac1Key.trans hmac1) ?_ hf⟩
    rw [Sender.run_writeCookie hquiet he', hlater.currentCookie addr hperiod]

end RateLimiter

/-- The small primitives with cookies: a cookie is sealed by a checksum. -/
def sampleCookiePrimitives : CookiePrimitives :=
  { samplePrimitives with
    blake2sMac24 := fun key data => beArray 24 (47 * readBe key + readBe data)
    encryptCookie := fun key nonce aad cookie =>
      ⟨cookie.toList ++ (sampleCookieTag key nonce aad cookie).toList, by simp⟩
    decryptCookie := fun key nonce aad sealed =>
      let cookie : ByteArr 16 := ⟨sealed.toList.take 16, by simp⟩
      if sealed.toList.drop 16 = (sampleCookieTag key nonce aad cookie).toList then some cookie
      else none }
where
  sampleCookieTag (key : Bytes32) (nonce : ByteArr 24) (aad : Bytes) (cookie : ByteArr 16) :
      ByteArr 16 :=
    beArray 16 (readBe key.toList + 3 * readBe nonce.toList + 5 * readBe aad +
      7 * readBe cookie.toList)

theorem sampleCookiePrimitives_lawful : sampleCookiePrimitives.Lawful := by
  intro key nonce aad cookie
  have hcookie : (⟨(cookie.toList ++ (sampleCookiePrimitives.sampleCookieTag key nonce aad
      cookie).toList).take 16, by simp⟩ : ByteArr 16) = cookie :=
    Subtype.ext (List.take_left' cookie.toList_length)
  simp only [sampleCookiePrimitives, List.Vector.toList_mk, hcookie,
    List.drop_left' cookie.toList_length, if_true]

namespace RateLimiter

def sampleStart : Sender :=
  .new samplePrimitives (beArray 32 5) (beArray 32 5) (beArray 32 9) 0x100 none ⟨10 ^ 18, 0⟩

def sampleCalls : List Handshake.Call := [.formatInitiation 148 (beArray 32 21) 1000]

theorem sampleCalls_run :
    (exec (Sender.step sampleCookiePrimitives.toPrimitives) sampleStart sampleCalls).isSome := by
  decide +kernel

def sampleSender : Sender :=
  (exec (Sender.step sampleCookiePrimitives.toPrimitives) sampleStart sampleCalls).get
    sampleCalls_run

/-- A limiter that is always under load. -/
def sampleLimiter : RateLimiter :=
  (new sampleCookiePrimitives (beArray 32 9) 0 (beArray 16 77) (beArray 32 78) 0).after
    sampleCookiePrimitives []

def sampleMessage : Bytes := sampleSender.latest.getD []

def cookieOf : Except Rejection Packet → Bytes
  | .error (.writeToNetwork cookie) => cookie
  | _ => []

def sampleAnswer : RateLimiter × Except Rejection Packet :=
  sampleLimiter.verifyPacket sampleCookiePrimitives (some (.v4 (.new 10 0 0 2))) sampleMessage 64
    (5 * 10 ^ 9)

theorem initiations_admitted_sample : ∃ c h' h'' next m,
    parseIncomingPacket (cookieOf sampleAnswer.2) = .ok (.packetCookieReply c) ∧
      sampleSender.handshake.receiveCookieReply sampleCookiePrimitives.toPrimitives c =
        (h', .ok ()) ∧
      h'.formatHandshakeInitiation sampleCookiePrimitives.toPrimitives 148 (beArray 32 22) 2000 =
        (h'', .ok next) ∧
      (sampleAnswer.1.verifyPacket sampleCookiePrimitives (some (.v4 (.new 10 0 0 2))) next 64
        (100 * 10 ^ 9)).2 = .ok (.handshakeInit m) := by
  have hmsg : sampleSender.latest = some sampleMessage := by decide +kernel
  have hanswer : sampleAnswer.2 = .error (.writeToNetwork (cookieOf sampleAnswer.2)) := by
    decide +kernel
  have hpair (x : RateLimiter × Except Rejection Packet) (answer) (h : x.2 = answer) :
      x = (x.1, answer) := by rw [← h]
  have hverify := hpair sampleAnswer _ hanswer
  have hrun : exec (Sender.step sampleCookiePrimitives.toPrimitives) sampleStart sampleCalls =
      some sampleSender := (Option.some_get sampleCalls_run).symm
  obtain ⟨-, hopens⟩ := initiations_admitted sampleCookiePrimitives sampleCookiePrimitives_lawful
    (beArray 32 5) (beArray 32 5) (beArray 32 9) 0x100 none ⟨10 ^ 18, 0⟩ sampleCalls hrun 0
    (beArray 16 77) (beArray 32 78) 0 [] (Eq.refl sampleLimiter)
  obtain ⟨c, h', hparse, haccept, hnext⟩ := hopens sampleMessage (.v4 (.new 10 0 0 2)) 64
    (5 * 10 ^ 9) sampleAnswer.1 (cookieOf sampleAnswer.2) hmsg hverify
  obtain ⟨h'', next, hformat⟩ : ∃ h'' next, h'.formatHandshakeInitiation
      sampleCookiePrimitives.toPrimitives 148 (beArray 32 22) 2000 = (h'', .ok next) := by
    rw [Handshake.formatHandshakeInitiation, if_neg (by decide)]
    exact ⟨_, _, rfl⟩
  obtain ⟨m, hm⟩ := hnext [] ⟨h', sampleSender.latest⟩ [] 148 (beArray 32 22) 2000 h'' next 64
    (100 * 10 ^ 9) (by simp) rfl hformat (by decide)
  exact ⟨c, h', h'', next, m, hparse, haccept, hformat, hm⟩

end RateLimiter

end Xelt.Boringtun.Noise.Crypto
