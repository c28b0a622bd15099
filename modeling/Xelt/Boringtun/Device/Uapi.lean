import Mathlib.Data.List.AList
import Xelt.Boringtun.Device.Peer
import Xelt.Boringtun.Device.Serialization

/-!
# The UAPI of the device

`device/api.rs`: what a connection to the control socket is answered, and
which calls of the device it makes. A request is the text that the client
has written; the lines that `read_line` yields of it are taken up one after
the other, and the end of the text reads as an empty line.
-/

namespace Xelt.Boringtun.Uapi

open Noise Payment Text

inductive SocketAddr
  | v4 (ip : Ipv4Addr) (port : UInt16)
  | v6 (ip : Ipv6Addr) (port : UInt16) (flowinfo scopeId : UInt32)
  deriving DecidableEq

-- ---------------------------------------------------------------------------
-- Addresses as they are printed
-- ---------------------------------------------------------------------------

def showIpv4 (ip : Ipv4Addr) : Text := ['.'].intercalate (ip.octets.map fun b => decimal b.toNat)

def segments (ip : Ipv6Addr) : List Nat :=
  (List.range 8).map fun i => ip.toNat / 2 ^ (16 * (7 - i)) % 2 ^ 16

/-- Start and length of the longest run of zeros, the first of several. -/
def longestZeros (segments : List Nat) : Nat × Nat :=
  (segments.zipIdx.foldl (fun (longest, current) (segment, i) =>
    if segment = 0 then
      let current := if current.2 = 0 then (i, 1) else (current.1, current.2 + 1)
      (if current.2 > longest.2 then current else longest, current)
    else (longest, (0, 0))) (((0, 0), (0, 0)) : (Nat × Nat) × (Nat × Nat))).1

def fmtSubslice (segments : List Nat) : Text :=
  [':'].intercalate (segments.map fun segment => Nat.toDigits 16 segment)

def showIpv6 (ip : Ipv6Addr) : Text :=
  if ip.toNat / 2 ^ 32 = 0xffff then "::ffff:".toList ++ showIpv4 (ip.setWidth 32)
  else
    let (start, len) := longestZeros (segments ip)
    if len > 1 then
      fmtSubslice ((segments ip).take start) ++ "::".toList ++
        fmtSubslice ((segments ip).drop (start + len))
    else fmtSubslice (segments ip)

def showIp : IpAddr → Text
  | .v4 ip => showIpv4 ip
  | .v6 ip => showIpv6 ip

def showSocketAddr : SocketAddr → Text
  | .v4 ip port => showIpv4 ip ++ ':' :: decimal port.toNat
  | .v6 ip port _ scopeId =>
    '[' :: showIpv6 ip ++ (if scopeId = 0 then [] else '%' :: decimal scopeId.toNat) ++
      "]:".toList ++ decimal port.toNat

-- ---------------------------------------------------------------------------
-- get=1
-- ---------------------------------------------------------------------------

structure Duration where
  secs : UInt64
  subsecNanos : UInt32

/-- What `api_get` reads of a peer. -/
structure PeerStatus where
  presharedKey : Option Bytes32
  persistentKeepalive : Option UInt16
  endpointAddr : Option SocketAddr
  allowedIps : List (IpAddr × UInt8)
  timeSinceLastHandshake : Option Duration
  rxBytes : UInt64
  txBytes : UInt64
  quota : Option BandwidthQuota

/-- What `api_get` reads of a device; the peers in the order of the table. -/
structure DeviceStatus where
  /-- The public half of `key_pair`. -/
  ownPublicKey : Option Bytes32
  listenPort : UInt16
  fwmark : Option UInt32
  peers : AList fun _ : Bytes32 => PeerStatus

def quotaLines (quota : BandwidthQuota) : List Text :=
  [field "quota_remaining" (decimal quota.remainingBytes.toNat),
    field "quota_blocked" (if quota.blocked then "true".toList else "false".toList),
    field "quota_total_consumed" (decimal quota.totalConsumed.toNat),
    field "quota_payment_count" (decimal quota.paymentCount.toNat)]

def statusLines (p : PeerStatus) : List Text :=
  (p.presharedKey.toList.map fun key => field "preshared_key" (hexEncode key.toList)) ++
  (p.persistentKeepalive.toList.map fun keepalive =>
    field "persistent_keepalive_interval" (decimal keepalive.toNat)) ++
  (p.endpointAddr.toList.map fun addr => field "endpoint" (showSocketAddr addr)) ++
  (p.allowedIps.map fun (ip, cidr) =>
    field "allowed_ip" (showIp ip ++ '/' :: decimal cidr.toNat)) ++
  (p.timeSinceLastHandshake.toList.flatMap fun time =>
    [field "last_handshake_time_sec" (decimal time.secs.toNat),
      field "last_handshake_time_nsec" (decimal time.subsecNanos.toNat)]) ++
  [field "rx_bytes" (decimal p.rxBytes.toNat), field "tx_bytes" (decimal p.txBytes.toNat)] ++
  p.quota.toList.flatMap quotaLines

def peerLines (key : Bytes32) (p : PeerStatus) : List Text :=
  field "public_key" (hexEncode key.toList) :: statusLines p

def deviceLines (d : DeviceStatus) : List Text :=
  (d.ownPublicKey.toList.map fun key => field "own_public_key" (hexEncode key.toList)) ++
  (if d.listenPort = 0 then [] else [field "listen_port" (decimal d.listenPort.toNat)]) ++
  d.fwmark.toList.map fun fwmark => field "fwmark" (decimal fwmark.toNat)

/-- What `api_get` writes. -/
def apiGet (d : DeviceStatus) : Text :=
  unlines (deviceLines d ++ d.peers.entries.flatMap fun e => peerLines e.1 e.2)

-- ---------------------------------------------------------------------------
-- set=1
-- ---------------------------------------------------------------------------

/-- The arguments of `update_peer`. -/
structure PeerUpdate where
  publicKey : Bytes32
  remove : Bool
  replaceIps : Bool
  endpoint : Option SocketAddr
  allowedIps : List AllowedIP
  keepalive : Option UInt16
  presharedKey : Option Bytes32
  deriving DecidableEq

inductive DeviceCall
  | setKey (privateKey : Bytes32)
  | openListenSocket (port : UInt16)
  | setFwmark (mark : UInt32)
  | clearPeers
  | updatePeer (update : PeerUpdate)
  deriving DecidableEq

/-- How a call of the device ends. -/
inductive CallEnd
  | done
  | failed
  | panicked

inductive Errno
  | ok
  | eio
  | einval
  | eproto
  | eaddrinuse
  deriving DecidableEq

/-- The number of an error, on Linux. -/
def Errno.code : Errno → Nat
  | .ok => 0
  | .eio => 5
  | .einval => 22
  | .eproto => 71
  | .eaddrinuse => 98

/-- The calls made so far, and the status returned; none behind a panic. -/
abbrev SetRun := List DeviceCall × Option Errno

section
variable (base64Decode : Text → Option Bytes) (parseIpv6 : Text → Option Ipv6Addr)
  (parseSocketAddr : Text → Option SocketAddr)

/-- The key that a line gives; a text that the parser panics at counts as illegal. -/
def parseKeyBytes (s : Text) : Option Bytes32 := (fromStr base64Decode s).bind Except.toOption

/-- A decimal octet of at most three digits, without leading zeros. -/
def parseOctet (s : Text) : Option UInt8 :=
  if s.length ≤ 3 ∧ (s.head? = some '0' → s.length = 1) ∧ s.all Char.isDigit then
    (parseUnsigned 8 s).map UInt8.ofNat
  else none

def parseIpv4 (s : Text) : Option Ipv4Addr :=
  match s.splitOn '.' with
  | [a, b, c, d] =>
    match parseOctet a, parseOctet b, parseOctet c, parseOctet d with
    | some a, some b, some c, some d => some (.new a b c d)
    | _, _, _, _ => none
  | _ => none

def parseIp (s : Text) : Option IpAddr :=
  match parseIpv4 s with
  | some ip => some (.v4 ip)
  | none => (parseIpv6 s).map .v6

/-- `AllowedIP::from_str`. -/
def parseAllowedIP (s : Text) : Option AllowedIP :=
  match s.splitOn '/' with
  | [ip, cidr] =>
    match parseIp parseIpv6 ip, parseUnsigned 8 cidr with
    | some (.v4 addr), some cidr => if cidr ≤ 32 then some ⟨.v4 addr, cidr⟩ else none
    | some (.v6 addr), some cidr => if cidr ≤ 128 then some ⟨.v6 addr, cidr⟩ else none
    | _, _ => none
  | _ => none

variable (outcome : List DeviceCall → CallEnd)

/-- A call of the device, and what follows it; a failure is returned as an
error, if the call has one. -/
def perform (calls : List DeviceCall) (c : DeviceCall) (failure : Option Errno)
    (next : List DeviceCall → SetRun) : SetRun :=
  match outcome (calls ++ [c]), failure with
  | .panicked, _ => (calls ++ [c], none)
  | .failed, some e => (calls ++ [c], some e)
  | _, _ => next (calls ++ [c])

def apiSetPeer (calls : List DeviceCall) (update : PeerUpdate) : List Text → SetRun
  | [] => perform outcome calls (.updatePeer update) none fun calls => (calls, some .ok)
  | raw :: rest =>
    let cmd := raw.dropLast
    if cmd = [] then
      perform outcome calls (.updatePeer update) none fun calls => (calls, some .ok)
    else match splitOnce '=' cmd with
      | none => (calls, some .eproto)
      | some (key, val) =>
        match String.ofList key with
        | "remove" =>
          match parseBool val with
          | some remove => apiSetPeer calls { update with remove } rest
          | none => (calls, some .einval)
        | "preshared_key" =>
          match parseKeyBytes base64Decode val with
          | some key => apiSetPeer calls { update with presharedKey := some key } rest
          | none => (calls, some .einval)
        | "endpoint" =>
          match parseSocketAddr val with
          | some addr => apiSetPeer calls { update with endpoint := some addr } rest
          | none => (calls, some .einval)
        | "persistent_keepalive_interval" =>
          match parseUnsigned 16 val with
          | some interval =>
            apiSetPeer calls { update with keepalive := some (UInt16.ofNat interval) } rest
          | none => (calls, some .einval)
        | "replace_allowed_ips" =>
          match parseBool val with
          | some replaceIps => apiSetPeer calls { update with replaceIps } rest
          | none => (calls, some .einval)
        | "allowed_ip" =>
          match parseAllowedIP parseIpv6 val with
          | some ip => apiSetPeer calls { update with allowedIps := update.allowedIps ++ [ip] } rest
          | none => (calls, some .einval)
        | "public_key" =>
          -- the next section starts with all settings of this one but its addresses
          perform outcome calls (.updatePeer update) none fun calls =>
            match parseKeyBytes base64Decode val with
            | some publicKey => apiSetPeer calls { update with publicKey, allowedIps := [] } rest
            | none => (calls, some .einval)
        | "protocol_version" =>
          if parseUnsigned 32 val = some 1 then apiSetPeer calls update rest
          else (calls, some .einval)
        | _ => (calls, some .einval)

def PeerUpdate.new (publicKey : Bytes32) : PeerUpdate where
  publicKey
  remove := false
  replaceIps := false
  endpoint := none
  allowedIps := []
  keepalive := none
  presharedKey := none

def apiSet (calls : List DeviceCall) : List Text → SetRun
  | [] => (calls, some .ok)
  | raw :: rest =>
    let cmd := raw.dropLast
    if cmd = [] then (calls, some .ok)
    else match cmd.splitOn '=' with
      | [key, val] =>
        match String.ofList key with
        | "private_key" =>
          match parseKeyBytes base64Decode val with
          | some key => perform outcome calls (.setKey key) none fun calls => apiSet calls rest
          | none => (calls, some .einval)
        | "listen_port" =>
          match parseUnsigned 16 val with
          | some port =>
            perform outcome calls (.openListenSocket (UInt16.ofNat port)) (some .eaddrinuse)
              fun calls => apiSet calls rest
          | none => (calls, some .einval)
        | "fwmark" =>
          match parseUnsigned 32 val with
          | some mark =>
            perform outcome calls (.setFwmark (UInt32.ofNat mark)) (some .eaddrinuse)
              fun calls => apiSet calls rest
          | none => (calls, some .einval)
        | "replace_peers" =>
          match parseBool val with
          | some true => perform outcome calls .clearPeers none fun calls => apiSet calls rest
          | some false => apiSet calls rest
          | none => (calls, some .einval)
        | "public_key" =>
          match parseKeyBytes base64Decode val with
          | some key => apiSetPeer base64Decode parseIpv6 parseSocketAddr outcome calls
            (.new key) rest
          | none => (calls, some .einval)
        | _ => (calls, some .einval)
      | _ => (calls, some .eproto)

-- ---------------------------------------------------------------------------
-- A connection
-- ---------------------------------------------------------------------------

/-- The error code that ends an answer, and an empty line. -/
def errnoLines (status : Errno) : List Text := [field "errno" (decimal status.code), []]

/-- The calls a connection makes, and what is written to it; none when a
panic has closed it. -/
def serveConnection (d : DeviceStatus) (request : Text) : List DeviceCall × Option Text :=
  match rawLines request with
  | [] => ([], some (unlines (errnoLines .eio)))
  | raw :: rest =>
    match String.ofList raw.dropLast with
    | "get=1" => ([], some (apiGet d ++ unlines (errnoLines .ok)))
    | "set=1" =>
      let (calls, status) := apiSet base64Decode parseIpv6 parseSocketAddr outcome [] rest
      (calls, status.map fun status => unlines (errnoLines status))
    | _ => ([], some (unlines (errnoLines .eio)))

end

-- ---------------------------------------------------------------------------
-- What is printed is parsed
-- ---------------------------------------------------------------------------

theorem parseOctet_decimal (b : UInt8) : parseOctet (decimal b.toNat) = some b := by
  have hall : ∀ n < 256, parseOctet (decimal n) = some (UInt8.ofNat n) := by decide +kernel
  rw [hall b.toNat b.toNat_lt, UInt8.ofNat_toNat]

theorem parseIpv4_showIpv4 (ip : Ipv4Addr) : parseIpv4 (showIpv4 ip) = some ip := by
  have hdot : ∀ n, '.' ∉ decimal n := fun n => not_mem_decimal (by decide)
  obtain ⟨a, b, c, d, hoctets⟩ := octets_eq ip
  have hip : Ipv4Addr.new a b c d = ip := by rw [Ipv4Addr.new, ← hoctets, addr_octets]
  have hshow : showIpv4 ip = decimal a.toNat ++ '.' :: (decimal b.toNat ++ '.' ::
      (decimal c.toNat ++ '.' :: decimal d.toNat)) := by
    simp [showIpv4, hoctets, List.intercalate_cons_cons]
  rw [parseIpv4, hshow, splitOn_cons (hdot _), splitOn_cons (hdot _), splitOn_cons (hdot _),
    splitOn_single (hdot _)]
  simp only [parseOctet_decimal, hip]

theorem not_mem_showIpv4 (hc : c.isDigit = false) (hdot : c ≠ '.') (ip : Ipv4Addr) :
    c ∉ showIpv4 ip := by
  obtain ⟨a, b, d, e, hoctets⟩ := octets_eq ip
  simp [showIpv4, hoctets, List.intercalate_cons_cons, not_mem_decimal hc, hdot]

theorem parseAllowedIP_host (parseIpv6 : Text → Option Ipv6Addr) (ip : Ipv4Addr) :
    parseAllowedIP parseIpv6 (showIpv4 ip ++ "/32".toList) = some ⟨.v4 ip, 32⟩ := by
  have hslash : '/' ∉ showIpv4 ip := not_mem_showIpv4 (by decide) (by decide) ip
  have hsplit : (showIpv4 ip ++ "/32".toList).splitOn '/' = [showIpv4 ip, "32".toList] := by
    rw [show "/32".toList = '/' :: "32".toList from rfl, splitOn_cons hslash,
      splitOn_single (by decide)]
  have hcidr : parseUnsigned 8 "32".toList = some 32 := by decide
  rw [parseAllowedIP, hsplit]
  simp only [parseIp, parseIpv4_showIpv4, hcidr]
  rfl

theorem parseKeyBytes_hexEncode (base64Decode : Text → Option Bytes) (key : Bytes32) :
    parseKeyBytes base64Decode (hexEncode key.toList) = some key := by
  rw [parseKeyBytes, fromStr_hexEncode]
  rfl

end Xelt.Boringtun.Uapi
