import Xelt.Boringtun.Noise.Wire
import Xelt.Lib.BitRing

/-!
# Sessions

`noise/session.rs`: the counters and the window of received counters, what a
session makes of a packet from the interface, and the three parts of
receiving one from the network. The window is checked before the decryption
and marked after it, under a lock each time but not from one to the other.

Counters are `u64`; sums wrap. The loops that clear the window take a bound on
their rounds, and `none` says that it was reached.
-/

namespace Xelt.Boringtun.Noise.Crypto

open Bytes

abbrev wordSize : Nat := 64
abbrev nWords : Nat := 16
abbrev nBits : Nat := wordSize * nWords

/-- Wrapping of a 64-bit sum. -/
def u64 (n : Nat) : Nat := n % 2 ^ 64

structure ReceivingKeyCounterValidator where
  next : Nat
  receiveCnt : Nat
  bitmap : BitRing wordSize nWords
  deriving DecidableEq

namespace ReceivingKeyCounterValidator

def default : ReceivingKeyCounterValidator := ⟨0, 0, .empty wordSize nWords⟩

def setBit (v : ReceivingKeyCounterValidator) (idx : Nat) : ReceivingKeyCounterValidator :=
  { v with bitmap := v.bitmap.setBit idx }

def clearBit (v : ReceivingKeyCounterValidator) (idx : Nat) : ReceivingKeyCounterValidator :=
  { v with bitmap := v.bitmap.clearBit idx }

/-- Clear the word that contains idx. -/
def clearWord (v : ReceivingKeyCounterValidator) (idx : Nat) : ReceivingKeyCounterValidator :=
  { v with bitmap := v.bitmap.clearWord idx }

def checkBit (v : ReceivingKeyCounterValidator) (idx : Nat) : Bool := v.bitmap.checkBit idx

/-- The counter was not yet received, and is not too far back. -/
def willAccept (v : ReceivingKeyCounterValidator) (counter : Nat) : Except WireGuardError Unit :=
  if counter ≥ v.next then .ok ()
  else if u64 (counter + nBits) < v.next then .error .invalidCounter
  else if !v.checkBit counter then .ok ()
  else .error .duplicateCounter

/-- Clear until i is aligned to the word size. -/
def clearToAligned (counter : Nat) :
    Nat → ReceivingKeyCounterValidator → Nat → Option (ReceivingKeyCounterValidator × Nat)
  | 0, _, _ => none
  | rounds + 1, v, i =>
    if i % wordSize ≠ 0 ∧ i < counter then
      clearToAligned counter rounds (v.clearBit i) (u64 (i + 1))
    else some (v, i)

/-- Clear a whole word at a time. -/
def clearWords (counter : Nat) :
    Nat → ReceivingKeyCounterValidator → Nat → Option (ReceivingKeyCounterValidator × Nat)
  | 0, _, _ => none
  | rounds + 1, v, i =>
    if u64 (i + wordSize) < counter then
      clearWords counter rounds (v.clearWord i) (u64 (i + wordSize) &&& (2 ^ 64 - wordSize))
    else some (v, i)

/-- Clear any remaining bits. -/
def clearRest (counter : Nat) :
    Nat → ReceivingKeyCounterValidator → Nat → Option ReceivingKeyCounterValidator
  | 0, _, _ => none
  | rounds + 1, v, i =>
    if i < counter then clearRest counter rounds (v.clearBit i) (u64 (i + 1)) else some v

/-- The three loops, from the next counter to the one received. -/
def clearSkipped (v : ReceivingKeyCounterValidator) (counter : Nat) :
    Option ReceivingKeyCounterValidator := do
  let (v, i) ← clearToAligned counter nBits v v.next
  let (v, i) ← clearWords counter nBits v i
  clearRest counter nBits v i

/-- Marks the counter as received, if it is still good. -/
def markDidReceive (v : ReceivingKeyCounterValidator) (counter : Nat) :
    Option (Except WireGuardError ReceivingKeyCounterValidator) :=
  if u64 (counter + nBits) < v.next then some (.error .invalidCounter)
  else if counter = v.next then
    some (.ok { v.setBit counter with next := u64 (v.next + 1) })
  else if counter < v.next then
    if v.checkBit counter then some (.error .invalidCounter) else some (.ok (v.setBit counter))
  else do
    let v ←
      if counter - v.next ≥ nBits then some { v with bitmap := .empty wordSize nWords }
      else v.clearSkipped counter
    some (.ok { v.setBit counter with next := u64 (counter + 1) })

end ReceivingKeyCounterValidator

structure Session where
  receivingIndex : UInt32
  sendingIndex : UInt32
  receiver : Bytes32
  sender : Bytes32
  sendingKeyCounter : Nat
  receivingKeyCounter : ReceivingKeyCounterValidator
  deriving DecidableEq

namespace Session

def new (localIndex peerIndex : UInt32) (receivingKey sendingKey : Bytes32) : Session where
  receivingIndex := localIndex
  sendingIndex := peerIndex
  receiver := receivingKey
  sender := sendingKey
  sendingKeyCounter := 0
  receivingKeyCounter := .default

variable (p : Primitives)

/-- An IP packet from the interface to the datagram that carries it; `dst` is
the length of the destination buffer, and a panic is `none`. -/
def formatPacketData (s : Session) (src : Bytes) (dst : Nat) : Option (Session × PacketData) :=
  if dst < src.length + dataOverheadSz then none
  else
    let counter := s.sendingKeyCounter
    some ({ s with sendingKeyCounter := u64 (counter + 1) },
      { receiverIdx := s.sendingIndex
        counter := UInt64.ofNat counter
        encryptedEncapsulatedPacket := p.sealBytes s.sender (nonceOf counter) src })

/-- What comes before the decryption. -/
def receivingCounterQuickCheck (s : Session) (packet : PacketData) : Except WireGuardError Unit :=
  if packet.receiverIdx ≠ s.receivingIndex then .error .wrongIndex
  else s.receivingKeyCounter.willAccept packet.counter.toNat

def openPacket (s : Session) (packet : PacketData) : Except WireGuardError Bytes :=
  match p.openBytes s.receiver (nonceOf packet.counter.toNat)
      packet.encryptedEncapsulatedPacket with
  | some plain => .ok plain
  | none => .error .invalidAeadTag

/-- The counter is marked as used, if it is still good. -/
def receivingCounterMark (s : Session) (counter : Nat) : Option (Except WireGuardError Session) :=
  match s.receivingKeyCounter.markDidReceive counter with
  | some (.ok v) =>
    some (.ok { s with receivingKeyCounter := { v with receiveCnt := u64 (v.receiveCnt + 1) } })
  | some (.error e) => some (.error e)
  | none => none

/-- The call as a whole, when no other call comes between its parts. -/
def receivePacketData (s : Session) (packet : PacketData) (dst : Nat) :
    Option (Except WireGuardError (Session × Bytes)) :=
  if dst < packet.encryptedEncapsulatedPacket.length then none
  else
    match s.receivingCounterQuickCheck packet with
    | .error e => some (.error e)
    | .ok () =>
      match s.openPacket p packet with
      | .error e => some (.error e)
      | .ok plain =>
        match s.receivingCounterMark packet.counter.toNat with
        | some (.ok s') => some (.ok (s', plain))
        | some (.error e) => some (.error e)
        | none => none

end Session

end Xelt.Boringtun.Noise.Crypto
