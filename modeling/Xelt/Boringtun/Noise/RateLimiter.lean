import Xelt.Boringtun.Noise.Rejection
import Xelt.Lib.Runs

/-!
# Cookies

`noise/rate_limiter.rs`, which checks the two MACs of a handshake message and,
under load, answers with a cookie; and the handshake that writes the MACs, as
the calls made of it leave its cookies. The random keys of a limiter are
arguments, as is what the clock reads, in nanoseconds.
-/

namespace Xelt.Boringtun.Noise.Crypto

open Bytes Runs

/-- The primitives of the limiter besides those of the handshake. -/
structure CookiePrimitives extends Primitives where
  blake2sMac24 : Bytes → Bytes → ByteArr 24
  /-- XChaCha20-Poly1305 sealing of a cookie: key, nonce, associated data and
  cookie to the ciphertext with its tag. -/
  encryptCookie : Bytes32 → ByteArr 24 → Bytes → ByteArr 16 → ByteArr 32

namespace CookiePrimitives

/-- Opening inverts sealing. Hashes and MACs are any functions. -/
def Lawful (p : CookiePrimitives) : Prop :=
  ∀ key nonce aad cookie,
    p.decryptCookie key nonce aad (p.encryptCookie key nonce aad cookie) = some cookie

def b2sKeyedMac16_2 (p : CookiePrimitives) (key data1 data2 : Bytes) : ByteArr 16 :=
  p.blake2sMac key (data1 ++ data2)

def b2sMac24 (p : CookiePrimitives) (key data1 : Bytes) : ByteArr 24 := p.blake2sMac24 key data1

end CookiePrimitives

-- ---------------------------------------------------------------------------
-- The limiter
-- ---------------------------------------------------------------------------

def cookieRefresh : Nat := 128
def resetPeriod : Nat := 1

structure RateLimiter where
  /-- The key we use to derive the nonce. -/
  nonceKey : Bytes32
  /-- The key we use to derive the cookie. -/
  secretKey : ByteArr 16
  startTime : Nat
  nonceCtr : UInt64
  mac1Key : Bytes32
  cookieKey : Bytes32
  limit : UInt64
  count : UInt64
  lastReset : Nat

/-- What a rejected packet is answered with. -/
inductive Rejection
  | err (e : WireGuardError)
  | writeToNetwork (cookie : Bytes)
  deriving DecidableEq

/-- The sender of a message that is rate limited. -/
def Packet.senderIdx : Packet → Option UInt32
  | .handshakeInit m => some m.senderIdx
  | .handshakeResponse m => some m.senderIdx
  | .packetCookieReply _ | .packetData _ => none

def addrBytes : IpAddr → Bytes
  | .v4 a => beBytes 4 a.toNat ++ List.replicate 12 0
  | .v6 a => beBytes 16 a.toNat

namespace RateLimiter

variable (p : CookiePrimitives)

def new (publicKey : Bytes32) (limit : UInt64) (secretKey : ByteArr 16) (nonceKey : Bytes32)
    (now : Nat) : RateLimiter where
  nonceKey := nonceKey
  secretKey := secretKey
  startTime := now
  nonceCtr := 0
  mac1Key := p.b2sHash labelMac1 publicKey
  cookieKey := p.b2sHash labelCookie publicKey
  limit := limit
  count := 0
  lastReset := now

/-- Reset packet count (ideally should be called with a period of 1 second). -/
def resetCount (r : RateLimiter) (now : Nat) : RateLimiter :=
  if (now - r.lastReset) / 10 ^ 9 ≥ resetPeriod then { r with count := 0, lastReset := now } else r

/-- The number of the period in which a secret holds. -/
def curCounter (r : RateLimiter) (now : Nat) : Nat := (now - r.startTime) / 10 ^ 9 / cookieRefresh

def currentCookie (r : RateLimiter) (addr : IpAddr) (now : Nat) : ByteArr 16 :=
  p.b2sKeyedMac16_2 r.secretKey (leBytes 8 (r.curCounter now)) (addrBytes addr)

def nonce (r : RateLimiter) : RateLimiter × ByteArr 24 :=
  ({ r with nonceCtr := r.nonceCtr + 1 }, p.b2sMac24 r.nonceKey (leBytes 8 r.nonceCtr.toNat))

def isUnderLoad (r : RateLimiter) : RateLimiter × Bool :=
  ({ r with count := r.count + 1 }, decide (r.count ≥ r.limit))

def formatCookieReply (r : RateLimiter) (idx : UInt32) (cookie : ByteArr 16) (mac1 : Bytes)
    (dst : Nat) : RateLimiter × Except WireGuardError Bytes :=
  if dst < cookieReplySz then (r, .error .destinationBufferTooSmall)
  else
    let (r, nonce) := r.nonce p
    let reply : PacketCookieReply :=
      { receiverIdx := idx, nonce
        encryptedCookie := p.encryptCookie r.cookieKey nonce mac1 cookie }
    (r, .ok reply.bytes)

/-- Verify the MAC fields on the datagram, and apply rate limiting if needed. -/
def verifyPacket (r : RateLimiter) (srcAddr : Option IpAddr) (src : Bytes) (dst now : Nat) :
    RateLimiter × Except Rejection Packet :=
  match parseIncomingPacket src with
  | .error e => (r, .error (.err e))
  | .ok packet =>
    -- handshake messages only
    match packet.senderIdx with
    | none => (r, .ok packet)
    | some senderIdx =>
      let msg := src.take (src.length - 32)
      let macs := src.drop (src.length - 32)
      let mac1 := macs.take 16
      let mac2 := macs.drop 16
      if (p.b2sKeyedMac16 r.mac1Key msg).toList ≠ mac1 then (r, .error (.err .invalidMac))
      else
        let (r, underLoad) := r.isUnderLoad
        if underLoad then
          match srcAddr with
          | none => (r, .error (.err .underLoad))
          | some addr =>
            let cookie := r.currentCookie p addr now
            if (p.b2sKeyedMac16_2 cookie msg mac1).toList ≠ mac2 then
              match r.formatCookieReply p senderIdx cookie mac1 dst with
              | (r, .error e) => (r, .error (.err e))
              | (r, .ok reply) => (r, .error (.writeToNetwork reply))
            else (r, .ok packet)
        else (r, .ok packet)

inductive LimiterCall
  | resetCount (now : Nat)
  | verifyPacket (srcAddr : Option IpAddr) (src : Bytes) (dst now : Nat)

def call (r : RateLimiter) : LimiterCall → RateLimiter
  | .resetCount now => r.resetCount now
  | .verifyPacket srcAddr src dst now => (r.verifyPacket p srcAddr src dst now).1

/-- The limiter after calls of any kind. -/
def after (r : RateLimiter) (calls : List LimiterCall) : RateLimiter := calls.foldl (call p) r

/-- The parts of a limiter that are set once. -/
structure SameKeys (r r' : RateLimiter) : Prop where
  nonceKey : r'.nonceKey = r.nonceKey
  secretKey : r'.secretKey = r.secretKey
  startTime : r'.startTime = r.startTime
  mac1Key : r'.mac1Key = r.mac1Key
  cookieKey : r'.cookieKey = r.cookieKey

variable {p} {r r' r'' : RateLimiter}

theorem SameKeys.refl (r : RateLimiter) : SameKeys r r := ⟨rfl, rfl, rfl, rfl, rfl⟩

theorem SameKeys.trans (h : SameKeys r r') (h' : SameKeys r' r'') : SameKeys r r'' :=
  ⟨h'.nonceKey.trans h.nonceKey, h'.secretKey.trans h.secretKey,
    h'.startTime.trans h.startTime, h'.mac1Key.trans h.mac1Key, h'.cookieKey.trans h.cookieKey⟩

theorem SameKeys.currentCookie (h : SameKeys r r') (addr : IpAddr)
    (hnow : r.curCounter now = r.curCounter now') :
    r'.currentCookie p addr now' = r.currentCookie p addr now := by
  have hcounter : r'.curCounter now' = r.curCounter now := by
    rw [hnow, curCounter, curCounter, h.startTime]
  rw [RateLimiter.currentCookie, RateLimiter.currentCookie, hcounter, h.secretKey]

theorem formatCookieReply_keys (p : CookiePrimitives) (r : RateLimiter) (idx : UInt32)
    (cookie : ByteArr 16) (mac1 : Bytes) (dst : Nat) :
    SameKeys r (r.formatCookieReply p idx cookie mac1 dst).1 := by
  unfold formatCookieReply
  split
  · exact .refl r
  · exact ⟨rfl, rfl, rfl, rfl, rfl⟩

theorem isUnderLoad_keys (r : RateLimiter) : SameKeys r r.isUnderLoad.1 :=
  ⟨rfl, rfl, rfl, rfl, rfl⟩

/-- What is done with a handshake message, given its parts. -/
def verifyMacs (p : CookiePrimitives) (r : RateLimiter) (srcAddr : Option IpAddr)
    (packet : Packet) (senderIdx : UInt32) (msg mac1 mac2 : Bytes) (dst now : Nat) :
    RateLimiter × Except Rejection Packet :=
  if (p.b2sKeyedMac16 r.mac1Key msg).toList ≠ mac1 then (r, .error (.err .invalidMac))
  else if r.isUnderLoad.2 then
    match srcAddr with
    | none => (r.isUnderLoad.1, .error (.err .underLoad))
    | some addr =>
      if (p.b2sKeyedMac16_2 (r.currentCookie p addr now) msg mac1).toList ≠ mac2 then
        match r.isUnderLoad.1.formatCookieReply p senderIdx (r.currentCookie p addr now) mac1
            dst with
        | (r, .error e) => (r, .error (.err e))
        | (r, .ok reply) => (r, .error (.writeToNetwork reply))
      else (r.isUnderLoad.1, .ok packet)
  else (r.isUnderLoad.1, .ok packet)

theorem verifyPacket_eq (r : RateLimiter) (srcAddr : Option IpAddr) (src : Bytes)
    (dst now : Nat) :
    r.verifyPacket p srcAddr src dst now =
      match parseIncomingPacket src with
      | .error e => (r, .error (.err e))
      | .ok packet => match packet.senderIdx with
        | none => (r, .ok packet)
        | some senderIdx => r.verifyMacs p srcAddr packet senderIdx
          (src.take (src.length - 32)) ((src.drop (src.length - 32)).take 16)
          ((src.drop (src.length - 32)).drop 16) dst now :=
  rfl

theorem verifyMacs_keys (r : RateLimiter) :
    SameKeys r (r.verifyMacs p srcAddr packet senderIdx msg mac1 mac2 dst now).1 := by
  unfold verifyMacs
  split
  · exact .refl r
  · split
    · cases srcAddr with
      | none => exact isUnderLoad_keys r
      | some addr =>
        dsimp only
        split
        · have hkeys := (isUnderLoad_keys r).trans (formatCookieReply_keys p r.isUnderLoad.1
            senderIdx (r.currentCookie p addr now) mac1 dst)
          split <;> (rename_i heq; rw [heq] at hkeys; exact hkeys)
        · exact isUnderLoad_keys r
    · exact isUnderLoad_keys r

theorem verifyPacket_keys (r : RateLimiter) :
    SameKeys r (r.verifyPacket p srcAddr src dst now).1 := by
  rw [verifyPacket_eq]
  cases parseIncomingPacket src with
  | error e => exact .refl r
  | ok packet =>
    cases hidx : packet.senderIdx with
    | none => simpa only [hidx] using SameKeys.refl r
    | some senderIdx => simpa only [hidx] using verifyMacs_keys r

theorem after_keys (r : RateLimiter) (calls : List LimiterCall) : SameKeys r (r.after p calls) := by
  induction calls generalizing r with
  | nil => exact .refl r
  | cons c calls ih =>
    have hcall : SameKeys r (r.call p c) := by
      cases c with
      | resetCount now =>
        rw [call, resetCount]
        split
        · exact ⟨rfl, rfl, rfl, rfl, rfl⟩
        · exact .refl r
      | verifyPacket srcAddr src dst now => exact verifyPacket_keys r
    exact hcall.trans (ih (r.call p c))

-- ---------------------------------------------------------------------------
-- The answers to a message
-- ---------------------------------------------------------------------------

theorem verifyPacket_message {mac1 mac2 : ByteArr 16}
    (hmsg : src = msg ++ (mac1.toList ++ mac2.toList))
    (hparse : parseIncomingPacket src = .ok packet) (hidx : packet.senderIdx = some senderIdx)
    (r : RateLimiter) (srcAddr : Option IpAddr) (dst now : Nat) :
    r.verifyPacket p srcAddr src dst now =
      r.verifyMacs p srcAddr packet senderIdx msg mac1.toList mac2.toList dst now := by
  have hlen : src.length - 32 = msg.length := by simp [hmsg]
  have h1 : mac1.toList.length = 16 := mac1.toList_length
  have hmsg' : src.take (src.length - 32) = msg := by
    rw [hlen, hmsg]
    exact List.take_left
  have hmacs : src.drop (src.length - 32) = mac1.toList ++ mac2.toList := by
    rw [hlen, hmsg]
    exact List.drop_left
  simp only [verifyPacket_eq, hparse, hidx, hmsg', hmacs, List.take_left' h1, List.drop_left' h1]

/-- A message with the right first MAC is not told that it is wrong, and is let
through while there is no load. -/
theorem verifyMacs_mac1 (h : (p.b2sKeyedMac16 r.mac1Key msg).toList = mac1) :
    (r.verifyMacs p srcAddr packet senderIdx msg mac1 mac2 dst now).2 ≠
        .error (.err .invalidMac) ∧
      (r.count < r.limit →
        (r.verifyMacs p srcAddr packet senderIdx msg mac1 mac2 dst now).2 = .ok packet) := by
  unfold verifyMacs
  rw [if_neg (not_not.mpr h)]
  constructor
  · split
    · cases srcAddr with
      | none => simp
      | some addr =>
        dsimp only
        split
        · by_cases hdst : dst < cookieReplySz <;> simp [formatCookieReply, hdst]
        · simp
    · simp
  · intro hload
    have hidle : r.isUnderLoad.2 = false := by simpa [isUnderLoad] using hload
    rw [hidle]
    rfl

/-- A cookie goes to the sender of the message, sealed for its first MAC. -/
theorem verifyMacs_reply
    (h : r.verifyMacs p srcAddr packet senderIdx msg mac1 mac2 dst now =
      (r', .error (.writeToNetwork reply))) :
    ∃ addr nonce, srcAddr = some addr ∧ reply = PacketCookieReply.bytes
      ⟨senderIdx, nonce, p.encryptCookie r.cookieKey nonce mac1 (r.currentCookie p addr now)⟩ := by
  unfold verifyMacs at h
  split at h
  · simp at h
  · split at h
    · cases srcAddr with
      | none => simp at h
      | some addr =>
        dsimp only at h
        split at h
        · by_cases hdst : dst < cookieReplySz
          · simp [formatCookieReply, hdst] at h
          · simp only [formatCookieReply, hdst, if_false] at h
            have hreply := (Prod.mk.inj h).2
            simp only [Except.error.injEq, Rejection.writeToNetwork.injEq] at hreply
            exact ⟨addr, _, rfl, hreply.symm⟩
        · simp at h
    · simp at h

/-- Both MACs are right: the message is let through, also under load. -/
theorem verifyMacs_accepts (h1 : (p.b2sKeyedMac16 r.mac1Key msg).toList = mac1)
    (h2 : (p.b2sKeyedMac16_2 (r.currentCookie p addr now) msg mac1).toList = mac2) :
    (r.verifyMacs p (some addr) packet senderIdx msg mac1 mac2 dst now).2 = .ok packet := by
  unfold verifyMacs
  rw [if_neg (not_not.mpr h1)]
  split
  · simp only [ne_eq, h2, not_true_eq_false, if_false]
  · rfl

end RateLimiter

end Xelt.Boringtun.Noise.Crypto
