import Mathlib.Logic.Function.Basic
import Xelt.Boringtun.Payment.Protocol

/-!
# The tunnel of one peer

`noise/mod.rs` above the cryptography: the ring of sessions and the current
one, the queue of packets waiting for a session, and what a verified packet
from the network is turned into. What the handshake and the AEAD make of a
message (a session, the inner packet, or an error) comes with the message:
the sessions they return and the bytes they open are arbitrary here.

An inner packet carries where it came from, which the code does not store.
Nothing is decided by it; it lets a theorem count the bytes of the network
interface apart from those of the payment signals.
-/

namespace Xelt.Boringtun.Noise

open Bytes Payment

abbrev Ipv6Addr := BitVec 128

inductive IpAddr
  | v4 (addr : Ipv4Addr)
  | v6 (addr : Ipv6Addr)
  deriving DecidableEq

def ipv4MinHeaderSize : Nat := 20
def ipv6MinHeaderSize : Nat := 40
def maxQueueDepth : Nat := 256
def handshakeInitSz : Nat := 148

abbrev nSessions : Nat := 8

inductive WireGuardError
  | destinationBufferTooSmall
  | incorrectPacketLength
  | unexpectedPacket
  | wrongPacketType
  | wrongIndex
  | wrongKey
  | invalidTai64nTimestamp
  | wrongTai64nTimestamp
  | invalidMac
  | invalidAeadTag
  | invalidCounter
  | duplicateCounter
  | invalidPacket
  | noCurrentSession
  | lockFailed
  | connectionExpired
  | underLoad
  deriving DecidableEq, Repr

inductive Source
  | interface
  | signal
  | keepalive
  deriving DecidableEq, Repr

structure InnerPacket where
  bytes : Bytes
  source : Source
  deriving DecidableEq

/-- A session, by its two indices. -/
structure Session where
  receivingIndex : UInt32
  sendingIndex : UInt32
  deriving DecidableEq

/-- What leaves for the network. -/
inductive Datagram
  | handshakeInit
  | handshakeResponse
  | data (session : Session) (inner : InnerPacket)
  deriving DecidableEq

inductive TunnResult
  | done
  | err (e : WireGuardError)
  | writeToNetwork (datagram : Datagram)
  | writeToTunnelV4 (packet : Bytes) (src : Ipv4Addr)
  | writeToTunnelV6 (packet : Bytes) (src : Ipv6Addr)
  deriving DecidableEq

inductive HandshakeState
  | none
  | initSent
  | initReceived
  | expired
  deriving DecidableEq, Repr

def HandshakeState.isInProgress : HandshakeState → Bool
  | .none | .expired => false
  | .initSent | .initReceived => true

/-- A parsed packet that passed the rate limiter, with what the handshake or
the session makes of it. A response also tells whether it answered the
previous initiation, which leaves the current one in progress. -/
inductive Packet
  | handshakeInit (peerStaticPublic : Option Bytes32) (session : Except WireGuardError Session)
  | handshakeResponse (receiverIdx : UInt32)
      (session : Except WireGuardError (Session × Bool))
  | cookieReply (receiverIdx : UInt32) (accepted : Except WireGuardError Unit)
  | data (receiverIdx : UInt32) (opened : Except WireGuardError Bytes)

structure Tunn where
  handshake : HandshakeState
  sessions : Fin nSessions → Option Session
  current : Nat
  packetQueue : List InnerPacket
  timeCurrent : Nat
  sessionTimers : Fin nSessions → Nat

namespace Tunn

def new : Tunn where
  handshake := .none
  sessions := fun _ => none
  current := 0
  packetQueue := []
  timeCurrent := 0
  sessionTimers := fun _ => 0

def slot (idx : Nat) : Fin nSessions := ⟨idx % nSessions, Nat.mod_lt _ (by decide)⟩

def currentSession (t : Tunn) : Option Session := t.sessions (slot t.current)

/-- Update the private key and clear existing sessions. -/
def setStaticPrivate (t : Tunn) : Tunn := { t with sessions := fun _ => none }

/-- Push packet to the back of the queue, or drop it when too many are there. -/
def queuePacket (t : Tunn) (packet : InnerPacket) : Tunn :=
  if t.packetQueue.length < maxQueueDepth then
    { t with packetQueue := t.packetQueue ++ [packet] }
  else t

def requeuePacket (t : Tunn) (packet : InnerPacket) : Tunn :=
  if t.packetQueue.length < maxQueueDepth then
    { t with packetQueue := packet :: t.packetQueue }
  else t

/-- A new handshake, unless one is in progress and `forceResend` is off; `dst`
is the length of the destination buffer. -/
def formatHandshakeInitiation (t : Tunn) (dst : Nat) (forceResend : Bool) : Tunn × TunnResult :=
  if t.handshake.isInProgress && !forceResend then (t, .done)
  else if dst < handshakeInitSz then (t, .err .destinationBufferTooSmall)
  else ({ t with handshake := .initSent }, .writeToNetwork .handshakeInit)

/-- Encapsulate a single packet from the tunnel interface. Under a session, a
packet with no room in `dst` for its overhead panics; that panic is left out. -/
def encapsulate (t : Tunn) (src : InnerPacket) (dst : Nat) : Tunn × TunnResult :=
  match t.currentSession with
  | some session => (t, .writeToNetwork (.data session src))
  | none => (t.queuePacket src).formatHandshakeInitiation dst false

/-- Get a packet from the queue, and try to encapsulate it. -/
def sendQueuedPacket (t : Tunn) (dst : Nat) : Tunn × TunnResult :=
  match t.packetQueue with
  | [] => (t, .done)
  | packet :: rest =>
    match ({ t with packetQueue := rest } : Tunn).encapsulate packet dst with
    | (t', .err _) => (t'.requeuePacket packet, .done)
    | r => r

/-- Update the index of the currently used session, if needed. -/
def setCurrentSession (t : Tunn) (newIdx : Nat) : Tunn :=
  if t.current = newIdx then t
  else if t.currentSession = none ∨
      t.sessionTimers (slot newIdx) ≥ t.sessionTimers (slot t.current) then
    { t with current := newIdx }
  else t

def storeSession (t : Tunn) (session : Session) : Tunn :=
  let i := slot session.receivingIndex.toNat
  { t with
    sessions := Function.update t.sessions i (some session)
    sessionTimers := Function.update t.sessionTimers i t.timeCurrent }

/-- Check if an IP packet is v4 or v6, truncate to the length indicated by
the length field. -/
def validateDecapsulatedPacket (packet : Bytes) : TunnResult :=
  let version := packet.getD 0 0 >>> 4
  if packet.length = 0 then .done
  else if version = 4 ∧ packet.length ≥ ipv4MinHeaderSize then
    let computedLen := readBe ((packet.drop 2).take 2)
    if computedLen > packet.length then .err .invalidPacket
    else .writeToTunnelV4 (packet.take computedLen) (addrAt packet 12)
  else if version = 6 ∧ packet.length ≥ ipv6MinHeaderSize then
    let computedLen := readBe ((packet.drop 4).take 2) + ipv6MinHeaderSize
    if computedLen > packet.length then .err .invalidPacket
    else .writeToTunnelV6 (packet.take computedLen)
      (BitVec.ofNat 128 (readBe ((packet.drop 8).take 16)))
  else .err .invalidPacket

def handleVerifiedPacket (t : Tunn) : Packet → Tunn × TunnResult
  | .handshakeInit _ (.error e) => (t, .err e)
  | .handshakeInit _ (.ok session) =>
    -- the response consumed the received initiation: no handshake is left open
    ({ t.storeSession session with handshake := .none }, .writeToNetwork .handshakeResponse)
  | .handshakeResponse _ (.error e) => (t, .err e)
  | .handshakeResponse _ (.ok (session, isPrevious)) =>
    let t := { t with handshake := if isPrevious then t.handshake else .none }
    ((t.storeSession session).setCurrentSession session.receivingIndex.toNat,
      .writeToNetwork (.data session ⟨[], .keepalive⟩))
  | .cookieReply _ (.error e) => (t, .err e)
  | .cookieReply _ (.ok ()) => (t, .done)
  | .data receiverIdx opened =>
    match t.sessions (slot receiverIdx.toNat) with
    | none => (t, .err .noCurrentSession)
    | some session =>
      if receiverIdx ≠ session.receivingIndex then (t, .err .wrongIndex)
      else match opened with
        | .error e => (t, .err e)
        | .ok inner => (t.setCurrentSession receiverIdx.toNat, validateDecapsulatedPacket inner)

/-- The destination of a packet read from the interface. -/
def dstAddress (packet : Bytes) : Option IpAddr :=
  if packet.length = 0 then none
  else if packet.getD 0 0 >>> 4 = 4 ∧ packet.length ≥ ipv4MinHeaderSize then
    some (.v4 (addrAt packet 16))
  else if packet.getD 0 0 >>> 4 = 6 ∧ packet.length ≥ ipv6MinHeaderSize then
    some (.v6 (BitVec.ofNat 128 (readBe ((packet.drop 24).take 16))))
  else none

/-- The flush loop of the socket handlers: queued packets are sent until a
call no longer writes to the network. One unit of fuel is one call. -/
def flush : Nat → Tunn → Nat → Tunn × List Datagram
  | 0, t, _ => (t, [])
  | fuel + 1, t, dst =>
    match t.sendQueuedPacket dst with
    | (t', .writeToNetwork datagram) =>
      let (t'', rest) := flush fuel t' dst
      (t'', datagram :: rest)
    | (t', _) => (t', [])

def flushQueue (t : Tunn) (dst : Nat) : Tunn × List Datagram :=
  flush (t.packetQueue.length + 1) t dst

/-- What the periodic timer call does, one part after the other; the clock
that decides which parts is not part of this model. -/
inductive TimerOutcome
  | readClock (timeNow : Nat)
  | expireSessions (slots : List (Fin nSessions))
  | connectionExpired
  | handshakeRetry
  | keepalive

def updateTimers (t : Tunn) (dst : Nat) : TimerOutcome → Tunn × TunnResult
  | .readClock timeNow => ({ t with timeCurrent := timeNow }, .done)
  | .expireSessions slots =>
    ({ t with
      sessions := fun i => if i ∈ slots then none else t.sessions i
      sessionTimers := fun i => if i ∈ slots then t.timeCurrent else t.sessionTimers i }, .done)
  | .connectionExpired =>
    ({ t with handshake := .expired, sessions := fun _ => none, packetQueue := [] },
      .err .connectionExpired)
  | .handshakeRetry => t.formatHandshakeInitiation dst true
  | .keepalive => t.encapsulate ⟨[], .keepalive⟩ dst

end Tunn

end Xelt.Boringtun.Noise
