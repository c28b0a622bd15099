import Mathlib.Data.List.AList
import Xelt.Boringtun.Device.Signals

/-!
# The device

The packet handlers of `device/mod.rs` and the changes the UAPI makes to the
set of peers, as one step function. A peer is an object of its own
(`Arc<Mutex<Peer>>`): the maps of the device hold references to it, and so
does the handler of its connected socket, which can outlive them. Handlers
hold the mutex of the peer while they treat one packet, and UAPI changes hold
the write lock, so a step is one packet or one change.
-/

namespace Xelt.Boringtun

open Noise Payment

def maxUdpSize : Nat := 65535

abbrev PeerId := Nat

/-- The register that peer indexes are drawn from. -/
structure IndexLfsr where
  initial : UInt32
  lfsr : UInt32
  mask : UInt32

/-- The next index; `none` where the assertion on exhaustion fails. -/
def IndexLfsr.next (r : IndexLfsr) : Option (UInt32 × IndexLfsr) :=
  let value := r.lfsr - 1
  let lfsr := (r.lfsr >>> 1) ^^^ ((0 - (r.lfsr &&& 1)) &&& 0xd80000)
  if lfsr = r.initial then none else some (value ^^^ r.mask, { r with lfsr })

structure Device extends PaymentState where
  keyPair : Option (Bytes32 × Bytes32)
  nextIndex : IndexLfsr
  peers : AList fun _ : Bytes32 => PeerId
  peersByIp : AllowedIps PeerId
  peersByIdx : AList fun _ : UInt32 => PeerId
  /-- Every peer object made so far, referenced or not. -/
  heap : PeerId → Option Peer
  heapSize : Nat

/-- A device as started, before any UAPI call. -/
def Device.init (config : PaymentConfig) (nextIndex : IndexLfsr) : Device where
  paymentConfig := config
  paymentWallet := none
  settlementClient := false
  keyPair := none
  nextIndex := nextIndex
  peers := ∅
  peersByIp := .new
  peersByIdx := ∅
  heap := fun _ => none
  heapSize := 0

-- ---------------------------------------------------------------------------
-- Packets
-- ---------------------------------------------------------------------------

/-- What the handlers of inbound packets do once a packet was decapsulated:
leave the loop body at once (`continue`), or go on to the code after it. -/
inductive Flow
  | continue
  | after
  deriving DecidableEq, Repr

section
variable (prim : Primitives) (d : PaymentState) (env : Env)

/-- Quota enforcement, only when this node is the server: the packet goes on
when the peer has no quota or its quota lets it through. -/
def meterPeer (p : Peer) (len : Nat) : BandwidthQuota.Verdict × Peer × List Effect :=
  if d.paymentConfig.isServer then
    match p.quota with
    | none => (.forward, p, [])
    | some quota =>
      match quota.meter (UInt64.ofNat len) with
      | (.blocked, _) => (.blocked, p, [])
      | (verdict, quota') =>
        (verdict, { p with quota := some quota' },
          [.consume (quota.taken (UInt64.ofNat len)) (verdict == .forward)])
  else (.forward, p, [])

/-- A decapsulated IPv4 packet. Payment signals use a virtual IP which won't
be in any peer's allowed-ips, and are checked before the allowed-ip filter;
the role of the node is not asked. -/
def inboundV4 (p : Peer) (packet : Bytes) (src : Ipv4Addr) : Peer × List Effect × Flow :=
  if isPaymentSignal packet then
    match extractSignalPayload packet, dstIpv4 packet, srcIpv4 packet with
    | some payload, some dst, some src =>
      if dst = paymentGatewayIp then
        let (p, effects) := handlePaymentSubmit prim d env p payload
        (p, effects, .continue)
      else if src = paymentGatewayIp then
        let (p, effects) := handlePaymentSignalClient prim d env p payload
        (p, effects, .continue)
      else (p, [], .continue)
    | _, _, _ => (p, [], .continue)
  else if p.isAllowedIp (.v4 src) then
    match meterPeer d p packet.length with
    | (.blocked, p, effects) => (p, effects, .continue)
    | (.exhausted, p, effects) =>
      let (p, sent) := sendPaymentRequired d env p
      (p, effects ++ sent, .continue)
    | (.forward, p, effects) => (p, effects ++ [.write4 packet], .after)
  else (p, [], .after)

/-- A decapsulated IPv6 packet; a peer that exhausts its quota here is not
told. -/
def inboundV6 (p : Peer) (packet : Bytes) (src : Ipv6Addr) : Peer × List Effect × Flow :=
  if p.isAllowedIp (.v6 src) then
    match meterPeer d p packet.length with
    | (.forward, p, effects) => (p, effects ++ [.write6 packet], .after)
    | (_, p, effects) => (p, effects, .continue)
  else (p, [], .after)

/-- The body both socket handlers run on a packet of a known peer, up to the
flush of the pending queue. -/
def inbound (p : Peer) (packet : Packet) : Peer × List Effect × Flow :=
  match p.tunnel.handleVerifiedPacket packet with
  | (tunnel, .writeToNetwork datagram) =>
    let (tunnel, flushed) := tunnel.flushQueue maxUdpSize
    ({ p with tunnel }, .network datagram :: flushed.map .network, .after)
  | (tunnel, .writeToTunnelV4 packet src) => inboundV4 prim d env { p with tunnel } packet src
  | (tunnel, .writeToTunnelV6 packet src) => inboundV6 d { p with tunnel } packet src
  | (tunnel, .err _) => ({ p with tunnel }, [], .continue)
  | (tunnel, .done) => ({ p with tunnel }, [], .after)

/-- The anonymous UDP handler, once the peer is found. -/
def udpHandler (p : Peer) (addr : SocketAddr) (packet : Packet) : Peer × List Effect :=
  match inbound prim d env p packet with
  | (p, effects, .continue) => (p, effects)
  | (p, effects, .after) => ({ p with endpointAddr := some addr }, effects)

/-- The handler of a connected socket. -/
def connHandler (p : Peer) (packet : Packet) : Peer × List Effect :=
  let (p, effects, _) := inbound prim d env p packet
  (p, effects)

/-- The interface handler, once the peer is found: quota, then encapsulation. -/
def ifaceHandler (p : Peer) (src : Bytes) : Peer × List Effect :=
  match meterPeer d p src.length with
  | (.blocked, p, effects) => (p, effects)
  | (.exhausted, p, effects) =>
    if p.endpointAddr.isSome then
      let (p, sent) := sendPaymentRequired d env p
      (p, effects ++ sent)
    else (p, effects)
  | (.forward, p, effects) =>
    match p.tunnel.encapsulate ⟨src, .interface⟩ maxUdpSize with
    | (tunnel, .writeToNetwork datagram) =>
      ({ p with tunnel }, effects ++
        [if p.endpointAddr.isSome then .network datagram else .noEndpoint datagram])
    | (tunnel, _) => ({ p with tunnel }, effects)

/-- The periodic timer call; a peer without an endpoint is skipped. -/
def timerHandler (p : Peer) (outcome : Tunn.TimerOutcome) : Peer × List Effect :=
  if p.endpointAddr.isSome then
    match p.tunnel.updateTimers maxUdpSize outcome with
    | (tunnel, .writeToNetwork datagram) => ({ p with tunnel }, [.network datagram])
    | (tunnel, _) => ({ p with tunnel }, [])
  else (p, [])

end

-- ---------------------------------------------------------------------------
-- The set of peers
-- ---------------------------------------------------------------------------

namespace Device

def removePeer (d : Device) (pubKey : Bytes32) : Device :=
  match d.peers.lookup pubKey with
  | none => d
  | some pid =>
    { d with
      peers := d.peers.erase pubKey
      peersByIdx := match d.heap pid with
        | some p => d.peersByIdx.erase p.index
        | none => d.peersByIdx
      peersByIp := d.peersByIp.remove (· == pid) }

/-- `none` is a panic: an existing peer, no private key, or no index left. -/
def updatePeer (d : Device) (pubKey : Bytes32) (remove : Bool) (endpoint : Option SocketAddr)
    (allowedIps : List AllowedIP) : Option Device :=
  if remove then some (d.removePeer pubKey)
  else if (d.peers.lookup pubKey).isSome then none
  else
    match d.nextIndex.next, d.keyPair with
    | some (index, nextIndex), some _ =>
      let peer : Peer :=
        { tunnel := .new
          index := index
          endpointAddr := endpoint
          allowedIps := .ofList allowedIps ()
          quota := some (.new defaultQuotaBytes) }
      let pid := d.heapSize
      some { d with
        nextIndex := nextIndex
        peers := d.peers.insert pubKey pid
        peersByIdx := d.peersByIdx.insert index pid
        peersByIp := allowedIps.foldl (fun t ip => t.insert ip pid) d.peersByIp
        heap := Function.update d.heap pid (some peer)
        heapSize := pid + 1 }
    | _, _ => none

def clearPeers (d : Device) : Device :=
  { d with peers := ∅, peersByIdx := ∅, peersByIp := .new }

/-- A new private key, which is also the payment wallet; the sessions of the
peers in the table are dropped. -/
def setKey (prim : Primitives) (d : Device) (privateKey : Bytes32) : Device :=
  let publicKey := prim.x25519PublicKey privateKey
  if d.keyPair.map (·.2) = some publicKey then d
  else
    { d with
      heap := fun pid => (d.heap pid).map fun p =>
        if pid ∈ d.peers.entries.map (·.2) then { p with tunnel := p.tunnel.setStaticPrivate }
        else p
      keyPair := some (privateKey, publicKey)
      paymentWallet := some (prim.fromWireguardKey privateKey)
      settlementClient := d.settlementClient || d.paymentConfig.isServer }

/-- The peer the anonymous handler finds for a packet. -/
def findPeer (d : Device) : Packet → Option PeerId
  | .handshakeInit peerStaticPublic _ => peerStaticPublic.bind d.peers.lookup
  | .handshakeResponse receiverIdx _ => d.peersByIdx.lookup (receiverIdx >>> 8)
  | .cookieReply receiverIdx _ => d.peersByIdx.lookup (receiverIdx >>> 8)
  | .data receiverIdx _ => d.peersByIdx.lookup (receiverIdx >>> 8)

/-- What can happen to a device. -/
inductive Event
  | udp (env : Env) (addr : SocketAddr) (packet : Packet)
  | conn (env : Env) (pid : PeerId) (packet : Packet)
  | iface (env : Env) (src : Bytes)
  | timer (pid : PeerId) (outcome : Tunn.TimerOutcome)
  | setKey (privateKey : Bytes32)
  | updatePeer (pubKey : Bytes32) (remove : Bool) (endpoint : Option SocketAddr)
      (allowedIps : List AllowedIP)
  | clearPeers

/-- The handler call an event makes: the peer, and what becomes of it. -/
def call (prim : Primitives) (d : Device) :
    Event → Option (PeerId × (Peer → Peer × List Effect))
  | .udp env addr packet =>
    (d.findPeer packet).map fun pid =>
      (pid, fun p => udpHandler prim d.toPaymentState env p addr packet)
  | .conn env pid packet => some (pid, fun p => connHandler prim d.toPaymentState env p packet)
  | .iface env src =>
    -- the read buffer has the size of a UDP datagram
    if src.length ≤ maxUdpSize then
      ((Tunn.dstAddress src).bind d.peersByIp.find).map fun pid =>
        (pid, fun p => ifaceHandler d.toPaymentState env p src)
    else none
  | .timer pid outcome => some (pid, fun p => timerHandler p outcome)
  | .setKey _ | .updatePeer .. | .clearPeers => none

def handle (d : Device) (pid : PeerId) (f : Peer → Peer × List Effect) : Device :=
  match d.heap pid with
  | none => d
  | some p => { d with heap := Function.update d.heap pid (some (f p).1) }

/-- One event; `none` when it panics. -/
def step (prim : Primitives) (d : Device) (e : Event) : Option Device :=
  match e with
  | .setKey privateKey => some (d.setKey prim privateKey)
  | .updatePeer pubKey remove endpoint allowedIps =>
    d.updatePeer pubKey remove endpoint allowedIps
  | .clearPeers => some d.clearPeers
  | e =>
    match d.call prim e with
    | none => some d
    | some (pid, f) => some (d.handle pid f)

/-- The effects of one event, each with the peer object it was had on. -/
def effects (prim : Primitives) (d : Device) (e : Event) : List (PeerId × Effect) :=
  match d.call prim e with
  | none => []
  | some (pid, f) =>
    match d.heap pid with
    | none => []
    | some p => (f p).2.map fun eff => (pid, eff)

end Device

end Xelt.Boringtun
