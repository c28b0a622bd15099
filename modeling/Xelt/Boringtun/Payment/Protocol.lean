import Xelt.Lib.Bytes

/-!
# Payment signals

The messages of `payment/protocol.rs`, and the IPv4/UDP packets that carry
them through the tunnel. A decoder slices only behind its length checks; the
proof each slice takes is those checks.
-/

namespace Xelt.Boringtun.Payment

open Bytes

abbrev Address := ByteArr 20

abbrev Ipv4Addr := BitVec 32

def Ipv4Addr.new (a b c d : UInt8) : Ipv4Addr := BitVec.ofNat 32 (readBe [a, b, c, d])

def Ipv4Addr.octets (ip : Ipv4Addr) : Bytes := beBytes 4 ip.toNat

def paymentGatewayIp : Ipv4Addr := .new 169 254 254 1
def paymentPort : Nat := 7078

-- Message types: Server → Client
def msgPaymentRequired : UInt8 := 0x01
def msgPaymentAccepted : UInt8 := 0x02

-- Message types: Client → Server
def msgPaymentSubmit : UInt8 := 0x81

/-- PaymentRequired payload sent from server to client. -/
structure PaymentRequired where
  amountUsdc : UInt64
  nonce : Bytes32
  recipient : Address
  deadline : UInt64
  chainId : UInt64
  usdcContract : Address
  deriving DecidableEq

/-- PaymentSubmit payload sent from client to server. -/
structure PaymentSubmit where
  fromAddr : Address
  toAddr : Address
  value : UInt64
  validAfter : UInt64
  validBefore : UInt64
  nonce : Bytes32
  v : UInt8
  r : Bytes32
  s : Bytes32
  deriving DecidableEq

/-- PaymentAccepted payload sent from server to client. -/
structure PaymentAccepted where
  newQuotaBytes : UInt64
  deriving DecidableEq

-- ---------------------------------------------------------------------------
-- Serialization
-- ---------------------------------------------------------------------------

def be64 (x : UInt64) : Bytes := beBytes 8 x.toNat

def u64At (p : Bytes) (off : Nat) (h : off + 8 ≤ p.length) : UInt64 :=
  UInt64.ofNat (readBe (slice p off 8 h).toList)

/-- The type byte, the declared length and the body of a message. -/
def tlv (kind : UInt8) (body : Bytes) : Bytes := kind :: (beBytes 2 body.length ++ body)

/-- The two checks every decoder starts with, and the body behind them. -/
def body? (kind : UInt8) (minLen : Nat) (data : Bytes) :
    Option { p : Bytes // minLen ≤ p.length } :=
  if data.length < 3 ∨ data.getD 0 0 ≠ kind then none
  else
    let len := readBe [data.getD 1 0, data.getD 2 0]
    if h : data.length < 3 + len ∨ len < minLen then none
    else some ⟨data.drop 3, by rw [List.length_drop]; omega⟩

def PaymentRequired.encode (m : PaymentRequired) : Bytes :=
  tlv msgPaymentRequired
    (be64 m.amountUsdc ++ m.nonce.toList ++ m.recipient.toList ++ be64 m.deadline ++
      be64 m.chainId ++ m.usdcContract.toList)

def PaymentRequired.decode (data : Bytes) : Option PaymentRequired :=
  (body? msgPaymentRequired 96 data).map fun ⟨p, h⟩ =>
    { amountUsdc := u64At p 0 (by omega)
      nonce := slice p 8 32 (by omega)
      recipient := slice p 40 20 (by omega)
      deadline := u64At p 60 (by omega)
      chainId := u64At p 68 (by omega)
      usdcContract := slice p 76 20 (by omega) }

def PaymentSubmit.encode (m : PaymentSubmit) : Bytes :=
  tlv msgPaymentSubmit
    (m.fromAddr.toList ++ m.toAddr.toList ++ be64 m.value ++ be64 m.validAfter ++
      be64 m.validBefore ++ m.nonce.toList ++ [m.v] ++ m.r.toList ++ m.s.toList)

def PaymentSubmit.decode (data : Bytes) : Option PaymentSubmit :=
  (body? msgPaymentSubmit 161 data).map fun ⟨p, h⟩ =>
    { fromAddr := slice p 0 20 (by omega)
      toAddr := slice p 20 20 (by omega)
      value := u64At p 40 (by omega)
      validAfter := u64At p 48 (by omega)
      validBefore := u64At p 56 (by omega)
      nonce := slice p 64 32 (by omega)
      v := p.getD 96 0
      r := slice p 97 32 (by omega)
      s := slice p 129 32 (by omega) }

def PaymentAccepted.encode (m : PaymentAccepted) : Bytes :=
  tlv msgPaymentAccepted (be64 m.newQuotaBytes)

def PaymentAccepted.decode (data : Bytes) : Option PaymentAccepted :=
  (body? msgPaymentAccepted 8 data).map fun ⟨p, h⟩ =>
    { newQuotaBytes := u64At p 0 (by omega) }

@[simp] theorem length_be64 : (be64 x).length = 8 := length_beBytes

@[simp] theorem length_tlv : (tlv kind body).length = 3 + body.length := by
  simp [tlv]; omega

@[simp] theorem length_encode_required (m : PaymentRequired) : m.encode.length = 99 := by
  simp [PaymentRequired.encode]

@[simp] theorem length_encode_submit (m : PaymentSubmit) : m.encode.length = 164 := by
  simp [PaymentSubmit.encode]

@[simp] theorem length_encode_accepted (m : PaymentAccepted) : m.encode.length = 11 := by
  simp [PaymentAccepted.encode]

theorem body?_tlv_ne (h : kind ≠ other) : body? other n (tlv kind body) = none := by
  simp [body?, tlv, h]

theorem u64At_append (pre : Bytes) (hb : b = pre ++ (be64 x ++ post)) (hp : pre.length = off)
    (h : off + 8 ≤ b.length) : u64At b off h = x := by
  have hs : slice b off 8 h = ⟨be64 x, length_be64⟩ := slice_eq pre hb hp h
  rw [u64At, hs]
  apply UInt64.toNat_inj.mp
  have hx : x.toNat < 256 ^ 8 := x.toNat_lt
  simp [be64, List.Vector.toList, readBe_beBytes_of_lt hx]

theorem body?_tlv (kind : UInt8) (body tail : Bytes) (hk : body.length < 65536)
    (hm : n ≤ body.length) :
    ∃ h, body? kind n (tlv kind body ++ tail) = some ⟨body ++ tail, h⟩ := by
  have hlen : readBe (beBytes 2 body.length) = body.length := readBe_beBytes_of_lt hk
  have h1 : (tlv kind body ++ tail).length = 3 + body.length + tail.length := by simp
  have h2 : readBe [(tlv kind body ++ tail).getD 1 0, (tlv kind body ++ tail).getD 2 0] =
      body.length := by
    rw [← hlen]; rfl
  refine ⟨by simp; omega, ?_⟩
  unfold body?
  rw [if_neg (by simp [tlv])]
  simp only [h2, h1]
  rw [dif_neg (by omega)]
  simp [tlv, beBytes]

theorem decode_encode_required (m : PaymentRequired) (tail : Bytes) :
    PaymentRequired.decode (m.encode ++ tail) = some m := by
  obtain ⟨h, hb⟩ := body?_tlv (n := 96) msgPaymentRequired
    (be64 m.amountUsdc ++ m.nonce.toList ++ m.recipient.toList ++ be64 m.deadline ++
      be64 m.chainId ++ m.usdcContract.toList) tail (by simp) (by simp)
  rw [PaymentRequired.decode, PaymentRequired.encode, hb, Option.map_some, Option.some.injEq]
  obtain ⟨amount, nonce, recipient, deadline, chain, usdc⟩ := m
  simp only [PaymentRequired.mk.injEq]
  refine ⟨u64At_append [] (by simp; rfl) (by simp) _,
    slice_eq (be64 amount) (by simp; rfl) (by simp) _,
    slice_eq (be64 amount ++ nonce.toList) (by simp; rfl) (by simp) _,
    u64At_append (be64 amount ++ nonce.toList ++ recipient.toList)
      (by simp; rfl) (by simp) _,
    u64At_append (be64 amount ++ nonce.toList ++ recipient.toList ++ be64 deadline)
      (by simp; rfl) (by simp) _,
    slice_eq (be64 amount ++ nonce.toList ++ recipient.toList ++ be64 deadline ++
      be64 chain) (by simp; rfl) (by simp) _⟩

theorem decode_encode_submit (m : PaymentSubmit) (tail : Bytes) :
    PaymentSubmit.decode (m.encode ++ tail) = some m := by
  obtain ⟨h, hb⟩ := body?_tlv (n := 161) msgPaymentSubmit
    (m.fromAddr.toList ++ m.toAddr.toList ++ be64 m.value ++ be64 m.validAfter ++
      be64 m.validBefore ++ m.nonce.toList ++ [m.v] ++ m.r.toList ++ m.s.toList) tail
    (by simp) (by simp)
  rw [PaymentSubmit.decode, PaymentSubmit.encode, hb, Option.map_some, Option.some.injEq]
  obtain ⟨fromAddr, toAddr, value, validAfter, validBefore, nonce, v, r, s⟩ := m
  simp only [PaymentSubmit.mk.injEq]
  refine ⟨slice_eq [] (by simp; rfl) (by simp) _,
    slice_eq fromAddr.toList (by simp; rfl) (by simp) _,
    u64At_append (fromAddr.toList ++ toAddr.toList) (by simp; rfl) (by simp) _,
    u64At_append (fromAddr.toList ++ toAddr.toList ++ be64 value) (by simp; rfl) (by simp) _,
    u64At_append (fromAddr.toList ++ toAddr.toList ++ be64 value ++ be64 validAfter)
      (by simp; rfl) (by simp) _,
    slice_eq (fromAddr.toList ++ toAddr.toList ++ be64 value ++ be64 validAfter ++
      be64 validBefore) (by simp; rfl) (by simp) _,
    getD_eq (fromAddr.toList ++ toAddr.toList ++ be64 value ++ be64 validAfter ++
      be64 validBefore ++ nonce.toList) (by simp; rfl) (by simp),
    slice_eq (fromAddr.toList ++ toAddr.toList ++ be64 value ++ be64 validAfter ++
      be64 validBefore ++ nonce.toList ++ [v]) (by simp; rfl) (by simp) _,
    slice_eq (fromAddr.toList ++ toAddr.toList ++ be64 value ++ be64 validAfter ++
      be64 validBefore ++ nonce.toList ++ [v] ++ r.toList) (by simp; rfl) (by simp) _⟩

-- ---------------------------------------------------------------------------
-- IP/UDP packets
-- ---------------------------------------------------------------------------

/-- One pass of the carry loop per unit of fuel. The sum of a header is
below `2 ^ 32`, for which two passes are enough. -/
def foldCarries : Nat → Nat → Nat
  | 0, sum => sum
  | fuel + 1, sum =>
    if sum >>> 16 = 0 then sum else foldCarries fuel ((sum &&& 0xFFFF) + (sum >>> 16))

def wordSum : Bytes → Nat
  | [] => 0
  | [a] => readBe [a, 0]
  | a :: b :: rest => readBe [a, b] + wordSum rest

def ipChecksum (header : Bytes) : Nat :=
  65535 - foldCarries 2 (wordSum header % 2 ^ 32) % 65536

def ipv4Header (totalLen cksum : Nat) (srcIp dstIp : Ipv4Addr) : Bytes :=
  [0x45, 0] ++ beBytes 2 totalLen ++ [0, 0, 0x40, 0, 64, 17] ++ beBytes 2 cksum ++
    srcIp.octets ++ dstIp.octets

/-- A complete IPv4/UDP packet wrapping a TLV payload; `_h` is the assertion
on its total length. -/
def buildSignalPacket (srcIp dstIp : Ipv4Addr) (payload : Bytes)
    (_h : 28 + payload.length ≤ 65535) : Bytes :=
  let udpLen := 8 + payload.length
  let totalLen := 20 + udpLen
  let cksum := ipChecksum (ipv4Header totalLen 0 srcIp dstIp)
  ipv4Header totalLen cksum srcIp dstIp ++
    (beBytes 2 paymentPort ++ beBytes 2 paymentPort ++ beBytes 2 udpLen ++ [0, 0]) ++ payload

def addrAt (packet : Bytes) (off : Nat) : Ipv4Addr :=
  BitVec.ofNat 32 (readBe ((packet.drop off).take 4))

def srcIpv4 (packet : Bytes) : Option Ipv4Addr :=
  if packet.length < 20 then none else some (addrAt packet 12)

def dstIpv4 (packet : Bytes) : Option Ipv4Addr :=
  if packet.length < 20 then none else some (addrAt packet 16)

/-- Is a decapsulated IPv4 packet a payment signal? -/
def isPaymentSignal (packet : Bytes) : Bool :=
  if packet.length < 20 ∨ packet.getD 0 0 >>> 4 ≠ 4 then false
  else addrAt packet 12 == paymentGatewayIp || addrAt packet 16 == paymentGatewayIp

/-- The UDP payload of a payment signal IP packet. -/
def extractSignalPayload (packet : Bytes) : Option Bytes :=
  if packet.length < 20 then none
  else
    let ihl := (packet.getD 0 0 &&& 0x0f).toNat * 4
    if packet.getD 9 0 ≠ 17 then none
    else if packet.length < ihl + 8 then none
    else
      let udpLen := readBe [packet.getD (ihl + 4) 0, packet.getD (ihl + 5) 0]
      if udpLen < 8 ∨ packet.length < ihl + udpLen then none
      else some ((packet.drop (ihl + 8)).take (udpLen - 8))

theorem beBytes_two (n : Nat) : ∃ a b, beBytes 2 n = [a, b] := ⟨_, _, rfl⟩

theorem octets_eq (ip : Ipv4Addr) : ∃ a b c d, ip.octets = [a, b, c, d] := ⟨_, _, _, _, rfl⟩

theorem octets_new (a b c d : UInt8) : (Ipv4Addr.new a b c d).octets = [a, b, c, d] := by
  have ha := a.toNat_lt
  have hb := b.toNat_lt
  have hc := c.toNat_lt
  have hd := d.toNat_lt
  simp only [Ipv4Addr.octets, Ipv4Addr.new, BitVec.toNat_ofNat, beBytes, readBe, List.length_cons,
    List.length_nil, List.cons.injEq, and_true, ← UInt8.toNat_inj, UInt8.toNat_ofNat']
  omega

theorem addr_octets (ip : Ipv4Addr) : BitVec.ofNat 32 (readBe ip.octets) = ip := by
  have h : ip.toNat < 256 ^ 4 := ip.isLt
  rw [Ipv4Addr.octets, readBe_beBytes_of_lt h, BitVec.ofNat_toNat, BitVec.setWidth_eq]

theorem build_eq (src dst : Ipv4Addr) (payload : Bytes) (h : 28 + payload.length ≤ 65535) :
    ∃ t c u, readBe t = 28 + payload.length ∧ readBe u = 8 + payload.length ∧
      t.length = 2 ∧ c.length = 2 ∧ u.length = 2 ∧
      buildSignalPacket src dst payload h =
        [0x45, 0] ++ t ++ [0, 0, 0x40, 0, 64, 17] ++ c ++ src.octets ++ dst.octets ++
          (beBytes 2 paymentPort ++ beBytes 2 paymentPort ++ u ++ [0, 0]) ++ payload :=
  ⟨beBytes 2 (20 + (8 + payload.length)), _, _,
    by rw [readBe_beBytes_of_lt (by omega)]; omega, readBe_beBytes_of_lt (by omega),
    length_beBytes, length_beBytes, length_beBytes, rfl⟩

theorem extract_build (h : 28 + payload.length ≤ 65535) :
    extractSignalPayload (buildSignalPacket src dst payload h) = some payload := by
  obtain ⟨t, c, u, -, hu, ht, hc, hul, hp⟩ := build_eq src dst payload h
  obtain ⟨t1, t2, rfl⟩ := List.length_eq_two.mp ht
  obtain ⟨c1, c2, rfl⟩ := List.length_eq_two.mp hc
  obtain ⟨u1, u2, rfl⟩ := List.length_eq_two.mp hul
  obtain ⟨s1, s2, s3, s4, hs⟩ := octets_eq src
  obtain ⟨d1, d2, d3, d4, hd⟩ := octets_eq dst
  obtain ⟨p1, p2, hq⟩ := beBytes_two paymentPort
  simp [extractSignalPayload, hp, hs, hd, hq, hu]
  omega

theorem dstIpv4_build (h : 28 + payload.length ≤ 65535) :
    dstIpv4 (buildSignalPacket src dst payload h) = some dst := by
  obtain ⟨t, c, u, -, -, ht, hc, -, hp⟩ := build_eq src dst payload h
  obtain ⟨t1, t2, rfl⟩ := List.length_eq_two.mp ht
  obtain ⟨c1, c2, rfl⟩ := List.length_eq_two.mp hc
  obtain ⟨s1, s2, s3, s4, hs⟩ := octets_eq src
  obtain ⟨d1, d2, d3, d4, hd⟩ := octets_eq dst
  have ha := addr_octets dst
  rw [hd] at ha
  simp [dstIpv4, addrAt, hp, hs, hd, ha]

theorem addrAt_build (h : 28 + payload.length ≤ 65535) :
    addrAt (buildSignalPacket src dst payload h) 12 = src := by
  obtain ⟨t, c, u, -, -, ht, hc, -, hp⟩ := build_eq src dst payload h
  obtain ⟨t1, t2, rfl⟩ := List.length_eq_two.mp ht
  obtain ⟨c1, c2, rfl⟩ := List.length_eq_two.mp hc
  obtain ⟨s1, s2, s3, s4, hs⟩ := octets_eq src
  have ha := addr_octets src
  rw [hs] at ha
  simp [addrAt, hp, hs, ha]

@[simp] theorem length_build (h : 28 + payload.length ≤ 65535) :
    (buildSignalPacket src dst payload h).length = 28 + payload.length := by
  obtain ⟨t, c, u, -, -, ht, hc, hu, hp⟩ := build_eq src dst payload h
  simp [hp, ht, hc, hu, Ipv4Addr.octets]
  omega

theorem srcIpv4_build (h : 28 + payload.length ≤ 65535) :
    srcIpv4 (buildSignalPacket src dst payload h) = some src := by
  rw [srcIpv4, addrAt_build, if_neg (by rw [length_build]; omega)]

theorem version_build (h : 28 + payload.length ≤ 65535) :
    (buildSignalPacket src dst payload h).getD 0 0 >>> 4 = 4 := by
  have hfirst : (buildSignalPacket src dst payload h).getD 0 0 = 0x45 := by
    simp [buildSignalPacket, ipv4Header]
  rw [hfirst]
  decide

theorem totalLen_build (h : 28 + payload.length ≤ 65535) :
    readBe (((buildSignalPacket src dst payload h).drop 2).take 2) = 28 + payload.length := by
  obtain ⟨t, c, u, ht, -, htl, -, -, hp⟩ := build_eq src dst payload h
  rw [← ht, hp]
  obtain ⟨t1, t2, rfl⟩ := List.length_eq_two.mp htl
  simp

theorem isPaymentSignal_build (h : 28 + payload.length ≤ 65535)
    (hgw : src = paymentGatewayIp ∨ dst = paymentGatewayIp) :
    isPaymentSignal (buildSignalPacket src dst payload h) = true := by
  have hlen : ¬ (buildSignalPacket src dst payload h).length < 20 := by rw [length_build]; omega
  have hdst : addrAt (buildSignalPacket src dst payload h) 16 = dst := by
    have hd : dstIpv4 (buildSignalPacket src dst payload h) = some dst := dstIpv4_build h
    rwa [dstIpv4, if_neg hlen, Option.some.injEq] at hd
  simp only [isPaymentSignal, version_build, ne_eq, not_true, or_false, if_neg hlen,
    addrAt_build, hdst]
  simpa using hgw

end Xelt.Boringtun.Payment
