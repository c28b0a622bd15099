import Mathlib.Data.List.Sort
import Xelt.Boringtun.Noise.Tunn
import Xelt.Boringtun.Payment.Quota

/-!
# Peers and their allowed addresses

`AllowedIps` stands for the prefix table of `device/allowed_ips.rs`: an
insertion replaces the entry of an equal prefix, a lookup returns the most
specific one, and the entries are listed in the order of their addresses.
-/

namespace Xelt.Boringtun

open Noise Payment

/-- A network; the host bits of its address are zero. -/
structure IpNetwork where
  addr : IpAddr
  netmask : Nat
  deriving DecidableEq

def prefixBits (netmask : Nat) : IpAddr → IpAddr
  | .v4 a => .v4 (a >>> (32 - netmask))
  | .v6 a => .v6 (a >>> (128 - netmask))

def IpNetwork.newTruncate (addr : IpAddr) (netmask : Nat) : IpNetwork where
  addr := match addr with
    | .v4 a => .v4 (a >>> (32 - netmask) <<< (32 - netmask))
    | .v6 a => .v6 (a >>> (128 - netmask) <<< (128 - netmask))
  netmask := netmask

def IpNetwork.contains (net : IpNetwork) (ip : IpAddr) : Bool :=
  prefixBits net.netmask ip == prefixBits net.netmask net.addr

/-- IPv4 comes before IPv6; of two networks with one address the larger one comes first. -/
def IpNetwork.le (a b : IpNetwork) : Bool :=
  match a.addr, b.addr with
  | .v4 x, .v4 y => x < y || x == y && a.netmask ≤ b.netmask
  | .v6 x, .v6 y => x < y || x == y && a.netmask ≤ b.netmask
  | .v4 _, .v6 _ => true
  | .v6 _, .v4 _ => false

/-- A trie of IP/cidr addresses. -/
structure AllowedIps (δ : Type) where
  ips : List (IpNetwork × δ)

structure AllowedIP where
  addr : IpAddr
  cidr : Nat
  deriving DecidableEq

namespace AllowedIps

variable {δ : Type}

def new : AllowedIps δ := ⟨[]⟩

def insert (t : AllowedIps δ) (key : AllowedIP) (data : δ) : AllowedIps δ :=
  let net := IpNetwork.newTruncate key.addr key.cidr
  if t.ips.any (·.1 == net) then ⟨t.ips.map fun e => if e.1 == net then (net, data) else e⟩
  else ⟨t.ips ++ [(net, data)]⟩

def ofList (ips : List AllowedIP) (data : δ) : AllowedIps δ :=
  ips.foldl (fun t ip => t.insert ip data) new

def longestMatch (ip : IpAddr) : List (IpNetwork × δ) → Option (IpNetwork × δ)
  | [] => none
  | e :: es =>
    match longestMatch ip es with
    | some best => if e.1.contains ip && e.1.netmask > best.1.netmask then some e else some best
    | none => if e.1.contains ip then some e else none

def find (t : AllowedIps δ) (ip : IpAddr) : Option δ := (longestMatch ip t.ips).map (·.2)

def remove (t : AllowedIps δ) (pred : δ → Bool) : AllowedIps δ :=
  ⟨t.ips.filter fun e => !pred e.2⟩

/-- The entries as they are listed. -/
def iter (t : AllowedIps δ) : List (IpNetwork × δ) :=
  t.ips.insertionSort fun a b => a.1.le b.1

/-- 127.0.0.1/32, 45.25.15.1/30, 127.0.15.1/16 and an IPv6 address, inserted in this order. -/
example :
    let t := [⟨.v4 0x7f000001, 32⟩, ⟨.v4 0x2d190f01, 30⟩, ⟨.v4 0x7f000f01, 16⟩, ⟨.v6 1, 128⟩].foldl
      (fun (t : AllowedIps Unit) ip => t.insert ip ()) new
    t.iter.map (·.1) =
      [⟨.v4 0x2d190f00, 30⟩, ⟨.v4 0x7f000000, 16⟩, ⟨.v4 0x7f000001, 32⟩, ⟨.v6 1, 128⟩] := by
  decide

end AllowedIps

/-- A socket address; the packet paths only ask whether there is one. -/
abbrev SocketAddr := Nat

structure Peer where
  tunnel : Tunn
  index : UInt32
  endpointAddr : Option SocketAddr
  allowedIps : AllowedIps Unit
  quota : Option BandwidthQuota

namespace Peer

def isAllowedIp (p : Peer) (addr : IpAddr) : Bool := (p.allowedIps.find addr).isSome

/-- `allowed_ips().next()`, when it is an IPv4 network. -/
def firstAllowedV4 (p : Peer) : Option Ipv4Addr :=
  p.allowedIps.iter.head?.bind fun e =>
    match e.1.addr with
    | .v4 ip => some ip
    | .v6 _ => none

end Peer

end Xelt.Boringtun
