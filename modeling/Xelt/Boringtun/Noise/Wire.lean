import Xelt.Boringtun.Noise.Crypto
import Xelt.Boringtun.Noise.Tunn

/-!
# Messages on the wire

The four WireGuard messages as `noise/mod.rs` reads them from a datagram.
The two handshake messages end in MACs, which the reader does not look at;
the writers put them behind the fields given here.
-/

namespace Xelt.Boringtun.Noise.Crypto

open Bytes

abbrev handshakeInit : Nat := 1
abbrev handshakeResp : Nat := 2
abbrev cookieReply : Nat := 3
abbrev dataType : Nat := 4

abbrev handshakeInitSz : Nat := 148
abbrev handshakeRespSz : Nat := 92
abbrev cookieReplySz : Nat := 64
abbrev dataOverheadSz : Nat := 32

structure HandshakeInit where
  senderIdx : UInt32
  unencryptedEphemeral : Bytes32
  encryptedStatic : ByteArr (32 + aeadSize)
  encryptedTimestamp : ByteArr (12 + aeadSize)
  deriving DecidableEq

structure HandshakeResponse where
  senderIdx : UInt32
  receiverIdx : UInt32
  unencryptedEphemeral : Bytes32
  encryptedNothing : ByteArr (0 + aeadSize)
  deriving DecidableEq

structure PacketCookieReply where
  receiverIdx : UInt32
  nonce : ByteArr 24
  encryptedCookie : ByteArr 32
  deriving DecidableEq

structure PacketData where
  receiverIdx : UInt32
  counter : UInt64
  encryptedEncapsulatedPacket : Bytes
  deriving DecidableEq

/-- A packet from the network. -/
inductive Packet
  | handshakeInit (p : HandshakeInit)
  | handshakeResponse (p : HandshakeResponse)
  | packetCookieReply (p : PacketCookieReply)
  | packetData (p : PacketData)
  deriving DecidableEq

/-- `u32::from_le_bytes(src[off..off + 4])` -/
def u32At (src : Bytes) (off : Nat) : UInt32 := UInt32.ofNat (readLe ((src.drop off).take 4))

/-- `u64::from_le_bytes(src[off..off + 8])` -/
def u64At (src : Bytes) (off : Nat) : UInt64 := UInt64.ofNat (readLe ((src.drop off).take 8))

theorem inside {src : Bytes} (h : src.length = size) (hle : off + n ≤ size) :
    off + n ≤ src.length := hle.trans_eq h.symm

/-- The type with its reserved zero bytes and the length decide together. -/
def parseIncomingPacket (src : Bytes) : Except WireGuardError Packet :=
  if src.length < 4 then .error .invalidPacket
  else
    let packetType := readLe (src.take 4)
    if h : packetType = handshakeInit ∧ src.length = handshakeInitSz then
      .ok <| .handshakeInit
        { senderIdx := u32At src 4
          unencryptedEphemeral := slice src 8 32 (inside h.2 (by decide))
          encryptedStatic := slice src 40 48 (inside h.2 (by decide))
          encryptedTimestamp := slice src 88 28 (inside h.2 (by decide)) }
    else if h : packetType = handshakeResp ∧ src.length = handshakeRespSz then
      .ok <| .handshakeResponse
        { senderIdx := u32At src 4
          receiverIdx := u32At src 8
          unencryptedEphemeral := slice src 12 32 (inside h.2 (by decide))
          encryptedNothing := slice src 44 16 (inside h.2 (by decide)) }
    else if h : packetType = cookieReply ∧ src.length = cookieReplySz then
      .ok <| .packetCookieReply
        { receiverIdx := u32At src 4
          nonce := slice src 8 24 (inside h.2 (by decide))
          encryptedCookie := slice src 32 32 (inside h.2 (by decide)) }
    else if packetType = dataType ∧ dataOverheadSz ≤ src.length then
      .ok <| .packetData
        { receiverIdx := u32At src 4
          counter := u64At src 8
          encryptedEncapsulatedPacket := src.drop 16 }
    else .error .invalidPacket

-- ---------------------------------------------------------------------------
-- Writers
-- ---------------------------------------------------------------------------

def HandshakeInit.fields (m : HandshakeInit) : Bytes :=
  leBytes 4 handshakeInit ++ leBytes 4 m.senderIdx.toNat ++ m.unencryptedEphemeral.toList ++
    m.encryptedStatic.toList ++ m.encryptedTimestamp.toList

def HandshakeResponse.fields (m : HandshakeResponse) : Bytes :=
  leBytes 4 handshakeResp ++ leBytes 4 m.senderIdx.toNat ++ leBytes 4 m.receiverIdx.toNat ++
    m.unencryptedEphemeral.toList ++ m.encryptedNothing.toList

def PacketCookieReply.bytes (m : PacketCookieReply) : Bytes :=
  leBytes 4 cookieReply ++ leBytes 4 m.receiverIdx.toNat ++ m.nonce.toList ++
    m.encryptedCookie.toList

def PacketData.bytes (m : PacketData) : Bytes :=
  leBytes 4 dataType ++ leBytes 4 m.receiverIdx.toNat ++ leBytes 8 m.counter.toNat ++
    m.encryptedEncapsulatedPacket

@[simp] theorem HandshakeInit.length_fields (m : HandshakeInit) : m.fields.length = 116 := by
  simp [fields, aeadSize]

@[simp] theorem HandshakeResponse.length_fields (m : HandshakeResponse) :
    m.fields.length = 60 := by
  simp [fields, aeadSize]

theorem u32At_eq {v : UInt32} (pre : Bytes)
    (hb : ∃ post, b = pre ++ (leBytes 4 v.toNat ++ post)) (hp : pre.length = off) :
    u32At b off = v := by
  obtain ⟨post, rfl⟩ := hb
  subst hp
  have hv : v.toNat < 256 ^ 4 := v.toNat_lt
  rw [u32At, List.drop_left, List.take_left' length_leBytes, readLe_leBytes_of_lt hv,
    UInt32.ofNat_toNat]

theorem u64At_eq {v : UInt64} (pre : Bytes)
    (hb : ∃ post, b = pre ++ (leBytes 8 v.toNat ++ post)) (hp : pre.length = off) :
    u64At b off = v := by
  obtain ⟨post, rfl⟩ := hb
  subst hp
  have hv : v.toNat < 256 ^ 8 := v.toNat_lt
  rw [u64At, List.drop_left, List.take_left' length_leBytes, readLe_leBytes_of_lt hv,
    UInt64.ofNat_toNat]

theorem slice_at {v : ByteArr n} (pre : Bytes) (hb : ∃ post, b = pre ++ (v.toList ++ post))
    (hp : pre.length = off) (h : off + n ≤ b.length) : slice b off n h = v := by
  obtain ⟨post, hb⟩ := hb
  exact slice_eq pre hb hp h

theorem packetType_eq (hb : b = leBytes 4 ty ++ post) (hty : ty < 256) :
    readLe (b.take 4) = ty := by
  subst hb
  rw [List.take_left' length_leBytes, readLe_leBytes_of_lt (by omega)]

theorem parse_initiation (m : HandshakeInit) (hmacs : macs.length = 32) :
    parseIncomingPacket (m.fields ++ macs) = .ok (.handshakeInit m) := by
  have hlen : (m.fields ++ macs).length = 148 := by simp [hmacs]
  have hty : readLe ((m.fields ++ macs).take 4) = handshakeInit :=
    packetType_eq (by simp only [HandshakeInit.fields, List.append_assoc]; rfl) (by decide)
  have hnlt : ¬ (m.fields ++ macs).length < 4 := by omega
  rw [parseIncomingPacket, if_neg hnlt, dif_pos ⟨hty, hlen⟩]
  obtain ⟨senderIdx, ephemeral, static, timestamp⟩ := m
  congr 2
  simp only [HandshakeInit.mk.injEq]
  refine ⟨u32At_eq (leBytes 4 handshakeInit) ?_ ?_,
    slice_at (leBytes 4 handshakeInit ++ leBytes 4 senderIdx.toNat) ?_ ?_ _,
    slice_at (leBytes 4 handshakeInit ++ leBytes 4 senderIdx.toNat ++ ephemeral.toList) ?_ ?_ _,
    slice_at (leBytes 4 handshakeInit ++ leBytes 4 senderIdx.toNat ++ ephemeral.toList ++
      static.toList) ?_ ?_ _⟩
  all_goals simp [HandshakeInit.fields, aeadSize]

theorem parse_response (m : HandshakeResponse) (hmacs : macs.length = 32) :
    parseIncomingPacket (m.fields ++ macs) = .ok (.handshakeResponse m) := by
  have hlen : (m.fields ++ macs).length = 92 := by simp [hmacs]
  have hty : readLe ((m.fields ++ macs).take 4) = handshakeResp :=
    packetType_eq (by simp only [HandshakeResponse.fields, List.append_assoc]; rfl) (by decide)
  have hnlt : ¬ (m.fields ++ macs).length < 4 := by omega
  rw [parseIncomingPacket, if_neg hnlt, dif_neg (by simp [hty]), dif_pos ⟨hty, hlen⟩]
  obtain ⟨senderIdx, receiverIdx, ephemeral, nothing⟩ := m
  congr 2
  simp only [HandshakeResponse.mk.injEq]
  refine ⟨u32At_eq (leBytes 4 handshakeResp) ?_ ?_,
    u32At_eq (leBytes 4 handshakeResp ++ leBytes 4 senderIdx.toNat) ?_ ?_,
    slice_at (leBytes 4 handshakeResp ++ leBytes 4 senderIdx.toNat ++
      leBytes 4 receiverIdx.toNat) ?_ ?_ _,
    slice_at (leBytes 4 handshakeResp ++ leBytes 4 senderIdx.toNat ++
      leBytes 4 receiverIdx.toNat ++ ephemeral.toList) ?_ ?_ _⟩
  all_goals simp [HandshakeResponse.fields, aeadSize]

theorem parse_cookieReply (m : PacketCookieReply) :
    parseIncomingPacket m.bytes = .ok (.packetCookieReply m) := by
  have hlen : m.bytes.length = 64 := by simp [PacketCookieReply.bytes]
  have hty : readLe (m.bytes.take 4) = cookieReply :=
    packetType_eq (by simp only [PacketCookieReply.bytes, List.append_assoc]; rfl) (by decide)
  have hnlt : ¬ m.bytes.length < 4 := by omega
  rw [parseIncomingPacket, if_neg hnlt, dif_neg (by simp [hty]), dif_neg (by simp [hty]),
    dif_pos ⟨hty, hlen⟩]
  obtain ⟨receiverIdx, nonce, cookie⟩ := m
  congr 2
  simp only [PacketCookieReply.mk.injEq]
  refine ⟨u32At_eq (leBytes 4 cookieReply) ?_ ?_,
    slice_at (leBytes 4 cookieReply ++ leBytes 4 receiverIdx.toNat) ?_ ?_ _,
    slice_at (leBytes 4 cookieReply ++ leBytes 4 receiverIdx.toNat ++ nonce.toList) ?_ ?_ _⟩
  all_goals simp [PacketCookieReply.bytes]

theorem parse_data (m : PacketData) (h : aeadSize ≤ m.encryptedEncapsulatedPacket.length) :
    parseIncomingPacket m.bytes = .ok (.packetData m) := by
  have hlen : m.bytes.length = 16 + m.encryptedEncapsulatedPacket.length := by
    simp [PacketData.bytes]
    omega
  have hty : readLe (m.bytes.take 4) = dataType :=
    packetType_eq (by simp only [PacketData.bytes, List.append_assoc]; rfl) (by decide)
  have hnlt : ¬ m.bytes.length < 4 := by omega
  have hle : dataOverheadSz ≤ m.bytes.length := by
    rw [hlen]
    exact Nat.add_le_add_left h 16
  rw [parseIncomingPacket, if_neg hnlt, dif_neg (by simp [hty]), dif_neg (by simp [hty]),
    dif_neg (by simp [hty]), if_pos ⟨hty, hle⟩]
  obtain ⟨receiverIdx, counter, packet⟩ := m
  congr 2
  simp only [PacketData.mk.injEq]
  refine ⟨u32At_eq (leBytes 4 dataType) ?_ ?_,
    u64At_eq (leBytes 4 dataType ++ leBytes 4 receiverIdx.toNat) ?_ ?_, ?_⟩
  case refine_5 => exact List.drop_left' (by simp)
  all_goals simp [PacketData.bytes]

end Xelt.Boringtun.Noise.Crypto
