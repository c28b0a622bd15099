import Xelt.Boringtun.Device.Steps
import Xelt.Boringtun.HttpApi.Registration

/-!
# The HTTP thread and the reaper

The HTTP thread serves one request after the other and the reaper runs its
ticks, each in a thread of its own. A handler holds the mutex of the table
from its start to its answer, a tick from its scan to its last removal; the
snapshot of a tick and its reading of the clock are made before it has the
mutex. Between any two of their UAPI calls the other thread may run.
-/

namespace Xelt.Boringtun.HttpApi

/-- Where the HTTP thread is: at a UAPI call for a peer, or behind it. -/
inductive HttpPc
  | idle
  | setting (key : Bytes32) (octet : UInt8)
  | set (key : Bytes32) (octet : UInt8) (reply : Except String Unit)
  | removing (key : Bytes32) (octet : UInt8)
  | removed (key : Bytes32) (octet : UInt8) (reply : Except String Bool)

inductive ReaperPc
  | idle
  | queried (snapshot : Snapshot)
  | timed (snapshot : Snapshot) (nowInstant : Nat)
  | reaping (rest : List (Bytes32 × UInt8))
  deriving DecidableEq

structure Service where
  device : Device
  inner : RegistrationInner
  http : HttpPc
  reaper : ReaperPc
  /-- The monotonic clock, in nanoseconds. -/
  now : Nat
  /-- The keys whose registration was committed since the last snapshot.
  Nothing is decided by it. -/
  committed : Finset Bytes32

/-- The registration service on a device without peers. -/
def Service.init (d : Device) : Service where
  device := d.clearPeers
  inner := .new
  http := .idle
  reaper := .idle
  now := 0
  committed := ∅

/-- A move of one thread, with what its surroundings answer. -/
inductive Input
  | elapse (ns : Nat)
  | register (pubkeyBase64 : String) (info : Except String (Option UInt16)) (octet : UInt8)
  | unregister (pubkeyBase64 : String)
  /-- The UAPI call of the HTTP thread. -/
  | uapi (c : Call)
  /-- The HTTP thread gets its reply, commits and answers. -/
  | reply
  | snapshot (ages : Except String (Bytes32 → Option Nat))
  | readClock
  | scan
  | reap (c : Call)

inductive Output
  /-- `uapi_set_peer` was sent. -/
  | addSent (key : Bytes32) (ip : Payment.Ipv4Addr)
  /-- `handle_registration` answered. -/
  | registration (key : Option Bytes32) (r : Response)
  /-- A tick sent the removal of a key. -/
  | reaped (key : Bytes32)
  deriving DecidableEq

def ReaperPc.ofRest : List (Bytes32 × UInt8) → ReaperPc
  | [] => .idle
  | e :: rest => .reaping (e :: rest)

namespace Service

def handlerFree (s : Service) : Bool :=
  match s.http, s.reaper with
  | .idle, .reaping _ => false
  | .idle, _ => true
  | _, _ => false

section
variable (cfg : Settings) (base64Decode : String → Option Bytes)

def step (s : Service) : Input → Option Service
  | .elapse ns => some { s with now := s.now + ns }
  | .register pubkeyBase64 info octet =>
    if s.handlerFree then
      match beginRegistration cfg base64Decode s.device s.inner pubkeyBase64 info octet with
      | .answer inner _ => some { s with inner }
      | .call inner key octet =>
        -- the pool yields one of its elements
        if octet ∈ inner.availableIps then some { s with inner, http := .setting key octet }
        else none
    else none
  | .unregister pubkeyBase64 =>
    if s.handlerFree then
      match beginUnregister base64Decode s.inner pubkeyBase64 with
      | .answer inner _ => some { s with inner }
      | .call inner key octet => some { s with inner, http := .removing key octet }
    else none
  | .uapi c =>
    match s.http with
    | .setting key octet =>
      let (device, reply) := uapiSetPeer s.device key (addrOf cfg octet) c
      some { s with device, http := .set key octet reply }
    | .removing key octet =>
      let (device, reply) := uapiRemovePeer s.device key c
      some { s with device, http := .removed key octet reply }
    | _ => none
  | .reply =>
    match s.http with
    | .set key octet reply =>
      some { s with
        inner := (finishRegistration cfg s.inner key octet s.now reply).1
        http := .idle
        committed := match reply with
          | .ok () => insert key s.committed
          | .error _ => s.committed }
    | .removed key octet reply =>
      some { s with inner := (finishUnregister s.inner key octet reply).1, http := .idle }
    | _ => none
  | .snapshot ages =>
    match s.reaper, ages with
    | .idle, .ok ages =>
      some { s with reaper := .queried (uapiGetPeers s.device ages), committed := ∅ }
    | .idle, .error _ => some s
    | _, _ => none
  | .readClock =>
    match s.reaper with
    | .queried snapshot => some { s with reaper := .timed snapshot s.now }
    | _ => none
  | .scan =>
    match s.reaper, s.http with
    | .timed snapshot nowInstant, .idle =>
      some { s with reaper := .ofRest (toRemove s.inner snapshot nowInstant) }
    | _, _ => none
  | .reap c =>
    match s.reaper with
    | .reaping ((key, octet) :: rest) =>
      let (device, inner) := reapOne s.device s.inner key octet c
      some { s with device, inner, reaper := .ofRest rest }
    | _ => none

def outputs (s : Service) : Input → List Output
  | .register pubkeyBase64 info octet =>
    if s.handlerFree then
      match beginRegistration cfg base64Decode s.device s.inner pubkeyBase64 info octet with
      | .answer _ r => [.registration (decodeKey base64Decode pubkeyBase64).toOption r]
      | .call .. => []
    else []
  | .uapi _ =>
    match s.http with
    | .setting key octet => [.addSent key (addrOf cfg octet)]
    | _ => []
  | .reply =>
    match s.http with
    | .set key octet reply =>
      [.registration (some key) (finishRegistration cfg s.inner key octet s.now reply).2]
    | _ => []
  | .reap _ =>
    match s.reaper with
    | .reaping ((key, _) :: _) => [.reaped key]
    | _ => []
  | _ => []

end

end Service

-- ---------------------------------------------------------------------------
-- A sample service
-- ---------------------------------------------------------------------------

def sampleSettings : Settings where
  subnetPrefix := (10, 0, 0)
  paymentConfig :=
    { chainId := sampleConfig.chainId
      gatewayWallet := sampleConfig.gatewayWallet
      usdcContract := sampleConfig.usdcContract
      amountPerQuota := sampleConfig.amountPerQuota
      quotaBytes := sampleConfig.quotaBytes }
  publicIp := "203.0.113.7"

def samplePubkey : String := "hSDwCYkwp1R0i33ctD73Wg2/Og0mOBr066SpjqqbTmo="

def sampleDecode (s : String) : Option Bytes :=
  if s = samplePubkey then some samplePeerKey.toList else none

def sampleService : Service := .init (sampleKeyed samplePrimitives)

def sampleRegister : Input := .register samplePubkey (.ok (some 51820)) 2

end Xelt.Boringtun.HttpApi
