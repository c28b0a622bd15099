import Mathlib.Data.Finset.Erase
import Xelt.Boringtun.Device.Handlers

/-!
# Registration over HTTP

`device/http_api.rs`: the registration table, the UAPI calls it makes to the
device, and the two handlers that hold its mutex. A handler is cut where it
waits for the UAPI: what it decides before the call, and what it commits and
answers once the reply is there. A public key stands for its hex form.
-/

namespace Xelt.Boringtun.HttpApi

open Noise Payment

def stalePeerSecs : Nat := 600
def staleNeverConnectedSecs : Nat := 600

/-- Snapshot of payment config for registration response. -/
structure PaymentConfigSnapshot where
  chainId : UInt64
  gatewayWallet : Address
  usdcContract : Address
  amountPerQuota : UInt64
  quotaBytes : UInt64
  deriving DecidableEq

/-- The part of `RegistrationState` that does not change. -/
structure Settings where
  subnetPrefix : UInt8 × UInt8 × UInt8
  paymentConfig : PaymentConfigSnapshot
  publicIp : String

/-- What the mutex protects. Registration times are in nanoseconds of the
monotonic clock. -/
structure RegistrationInner where
  registeredPeers : Finset Bytes32
  availableIps : Finset UInt8
  peerToOctet : AList fun _ : Bytes32 => UInt8
  peerRegisteredAt : AList fun _ : Bytes32 => Nat
  serverPubkeyCache : Option Bytes32
  listenPortCache : Option UInt16

/-- The octets 2 to 254. -/
def poolOctets : Finset UInt8 :=
  ⟨((List.range 253).map fun i => UInt8.ofNat (i + 2) : List UInt8), by
    refine List.Nodup.map_on (fun i hi j hj h => ?_) List.nodup_range
    rw [List.mem_range] at hi hj
    have h := congrArg UInt8.toNat h
    simp only [UInt8.toNat_ofNat'] at h
    omega⟩

def RegistrationInner.new : RegistrationInner where
  registeredPeers := ∅
  availableIps := poolOctets
  peerToOctet := ∅
  peerRegisteredAt := ∅
  serverPubkeyCache := none
  listenPortCache := none

/-- The fields of the answer to a registration. -/
structure SuccessResponse where
  serverPublicKey : Option Bytes32
  publicIp : String
  listenPort : UInt16
  assignedIp : Ipv4Addr
  paymentConfig : PaymentConfigSnapshot
  deriving DecidableEq

inductive Body
  | ok
  | error (text : String)
  | success (r : SuccessResponse)
  deriving DecidableEq

structure Response where
  status : Nat
  body : Body
  deriving DecidableEq

-- ---------------------------------------------------------------------------
-- UAPI calls
-- ---------------------------------------------------------------------------

/-- How one UAPI call goes: the device replies, replies with an errno, is not
reached or fails before the change, or makes the change while the caller sees
an error (the read of the reply timed out). -/
inductive Call
  | ok
  | errno (text : String)
  | failed (e : String)
  | inDoubt (e : String)
  deriving DecidableEq

def Call.Definite : Call → Prop
  | .inDoubt _ => False
  | _ => True

/-- Add a peer via UAPI set=1. A panic of the device closes the connection
without a reply. -/
def uapiSetPeer (d : Device) (key : Bytes32) (allowedIp : Ipv4Addr) :
    Call → Device × Except String Unit
  | .errno text => (d, .error ("UAPI set failed: " ++ text))
  | .failed e => (d, .error e)
  | .ok =>
    match d.updatePeer key false none [⟨.v4 allowedIp, 32⟩] with
    | some d' => (d', .ok ())
    | none => (d, .error "UAPI set failed: ")
  | .inDoubt e =>
    match d.updatePeer key false none [⟨.v4 allowedIp, 32⟩] with
    | some d' => (d', .error e)
    | none => (d, .error e)

/-- Remove a peer via UAPI. Returns true on errno=0. -/
def uapiRemovePeer (d : Device) (key : Bytes32) : Call → Device × Except String Bool
  | .errno _ => (d, .ok false)
  | .failed e => (d, .error e)
  | .ok => (d.removePeer key, .ok true)
  | .inDoubt e => (d.removePeer key, .error e)

-- ---------------------------------------------------------------------------
-- The handlers
-- ---------------------------------------------------------------------------

section
variable (cfg : Settings) (base64Decode : String → Option Bytes)

def addrOf (octet : UInt8) : Ipv4Addr :=
  .new cfg.subnetPrefix.1 cfg.subnetPrefix.2.1 cfg.subnetPrefix.2.2 octet

def buildSuccessResponse (inner : RegistrationInner) (octet : UInt8) : Response where
  status := 200
  body := .success
    { serverPublicKey := inner.serverPubkeyCache
      publicIp := cfg.publicIp
      listenPort := inner.listenPortCache.getD 51820
      assignedIp := addrOf cfg octet
      paymentConfig := cfg.paymentConfig }

/-- A key of exactly 32 bytes, or the error of the handler. -/
def decodeKey (pubkeyBase64 : String) : Except String Bytes32 :=
  match base64Decode pubkeyBase64 with
  | none => .error "invalid base64 encoding"
  | some bytes =>
    if h : bytes.length = 32 then .ok ⟨bytes, h⟩
    else .error "public key must be exactly 32 bytes"

/-- Fill the caches from the device, unless they are filled. -/
def populate (d : Device) (inner : RegistrationInner) (info : Except String (Option UInt16)) :
    Except Response RegistrationInner :=
  match inner.serverPubkeyCache with
  | some _ => .ok inner
  | none =>
    match info with
    | .error e => .error ⟨500, .error ("internal error: " ++ e)⟩
    | .ok port =>
      match d.keyPair with
      | none => .error ⟨503, .error "server not configured yet"⟩
      | some (_, pk) =>
        .ok { inner with serverPubkeyCache := some pk, listenPortCache := port }

/-- What a handler does before it calls the UAPI for a peer. -/
inductive Begin
  | answer (inner : RegistrationInner) (r : Response)
  | call (inner : RegistrationInner) (key : Bytes32) (octet : UInt8)

/-- `handle_registration` up to its `uapi_set_peer`; `info` is the reply to
the query of the device, `octet` the element the pool yields. -/
def beginRegistration (d : Device) (inner : RegistrationInner) (pubkeyBase64 : String)
    (info : Except String (Option UInt16)) (octet : UInt8) : Begin :=
  match decodeKey base64Decode pubkeyBase64 with
  | .error text => .answer inner ⟨400, .error text⟩
  | .ok key =>
    match populate d inner info with
    | .error r => .answer inner r
    | .ok inner =>
      match (if key ∈ inner.registeredPeers then inner.peerToOctet.lookup key else none) with
      | some octet => .answer inner (buildSuccessResponse cfg inner octet)
      | none =>
        if inner.availableIps = ∅ then .answer inner ⟨503, .error "no addresses available"⟩
        else .call inner key octet

/-- The rest of `handle_registration`. -/
def finishRegistration (inner : RegistrationInner) (key : Bytes32) (octet : UInt8) (now : Nat) :
    Except String Unit → RegistrationInner × Response
  | .ok () =>
    let inner :=
      { inner with
        availableIps := inner.availableIps.erase octet
        registeredPeers := insert key inner.registeredPeers
        peerToOctet := inner.peerToOctet.insert key octet
        peerRegisteredAt := inner.peerRegisteredAt.insert key now }
    (inner, buildSuccessResponse cfg inner octet)
  | .error e => (inner, ⟨500, .error ("internal error: " ++ e)⟩)

/-- Forget a peer whose removal the device confirmed. -/
def RegistrationInner.forget (inner : RegistrationInner) (key : Bytes32) (octet : UInt8) :
    RegistrationInner :=
  { inner with
    availableIps := insert octet inner.availableIps
    registeredPeers := inner.registeredPeers.erase key
    peerToOctet := inner.peerToOctet.erase key
    peerRegisteredAt := inner.peerRegisteredAt.erase key }

/-- `handle_unregister` up to its `uapi_remove_peer`. -/
def beginUnregister (inner : RegistrationInner) (pubkeyBase64 : String) : Begin :=
  match decodeKey base64Decode pubkeyBase64 with
  | .error _ => .answer inner ⟨400, .error "invalid public_key"⟩
  | .ok key =>
    match inner.peerToOctet.lookup key with
    | none => .answer inner ⟨404, .error "peer not registered"⟩
    | some octet => .call inner key octet

/-- The rest of `handle_unregister`. -/
def finishUnregister (inner : RegistrationInner) (key : Bytes32) (octet : UInt8) :
    Except String Bool → RegistrationInner × Response
  | .ok true => (inner.forget key octet, ⟨200, .ok⟩)
  | .ok false => (inner, ⟨500, .error "UAPI remove failed"⟩)
  | .error e => (inner, ⟨500, .error e⟩)

end

-- ---------------------------------------------------------------------------
-- The reaper
-- ---------------------------------------------------------------------------

/-- What `uapi_get_peers` returns: the peers of the device, each with the age
of its last handshake in seconds, if it had one. -/
abbrev Snapshot := AList fun _ : Bytes32 => Option Nat

def uapiGetPeers (d : Device) (handshakeAge : Bytes32 → Option Nat) : Snapshot :=
  ⟨d.peers.entries.map fun e => ⟨e.1, handshakeAge e.1⟩, by
    have h := d.peers.nodupKeys
    simpa [List.NodupKeys, List.keys, Function.comp_def] using h⟩

/-- A peer without a handshake is judged by the time since it registered. -/
def neverConnectedStale (inner : RegistrationInner) (nowInstant : Nat) (key : Bytes32) : Bool :=
  match inner.peerRegisteredAt.lookup key with
  | none => false
  | some registeredAt => (nowInstant - registeredAt) / 10 ^ 9 > staleNeverConnectedSecs

/-- The reaper's verdict on a registered peer; `nowInstant` was read before
the table was locked. -/
def isStale (inner : RegistrationInner) (snapshot : Snapshot) (nowInstant : Nat)
    (key : Bytes32) : Bool :=
  match snapshot.lookup key with
  | some (some handshakeSec) =>
    if handshakeSec > 0 then handshakeSec > stalePeerSecs
    else neverConnectedStale inner nowInstant key
  | some none => neverConnectedStale inner nowInstant key
  | none => true -- "NOT FOUND in UAPI"

def toRemove (inner : RegistrationInner) (snapshot : Snapshot) (nowInstant : Nat) :
    List (Bytes32 × UInt8) :=
  (inner.peerToOctet.entries.filter fun e => isStale inner snapshot nowInstant e.1).map
    fun e => (e.1, e.2)

/-- One removal of a tick: the table changes only when the device confirmed. -/
def reapOne (d : Device) (inner : RegistrationInner) (key : Bytes32) (octet : UInt8) (c : Call) :
    Device × RegistrationInner :=
  match uapiRemovePeer d key c with
  | (d, .ok true) => (d, inner.forget key octet)
  | (d, _) => (d, inner)

end Xelt.Boringtun.HttpApi
