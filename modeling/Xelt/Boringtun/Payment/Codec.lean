import Xelt.Lib.Checked
import Xelt.Boringtun.Payment.Protocol

/-!
# What the decoders accept

The decoders of the messages and of the packets with every index checked, as
the code has them: none is out of bounds, whatever the bytes and the lengths
they declare.
-/

namespace Xelt.Boringtun.Payment

open Bytes Checked

-- ---------------------------------------------------------------------------
-- Messages
-- ---------------------------------------------------------------------------

/-- `u64::from_be_bytes(p[off..off + 8])`. -/
def checkedU64 (p : Bytes) (off : Nat) : Checked UInt64 := do
  let bytes ← array p off 8
  return UInt64.ofNat (readBe bytes.toList)

/-- The two checks every decoder starts with. -/
def checkedBody (kind : UInt8) (minLen : Nat) (data : Bytes) (fields : Bytes → Checked α) :
    Checked (Option α) := do
  if data.length < 3 then return none
  else
    let first ← byteAt data 0
    if first ≠ kind then return none
    else
      let high ← byteAt data 1
      let low ← byteAt data 2
      let len := readBe [high, low]
      if data.length < 3 + len ∨ len < minLen then return none
      else
        let p ← range data 3 data.length
        let m ← fields p
        return some m

def PaymentRequired.checkedDecode (data : Bytes) : Checked (Option PaymentRequired) :=
  checkedBody msgPaymentRequired 96 data fun p => do
    let amountUsdc ← checkedU64 p 0
    let nonce ← array p 8 32
    let recipient ← array p 40 20
    let deadline ← checkedU64 p 60
    let chainId ← checkedU64 p 68
    let usdcContract ← array p 76 20
    return { amountUsdc, nonce, recipient, deadline, chainId, usdcContract }

def PaymentSubmit.checkedDecode (data : Bytes) : Checked (Option PaymentSubmit) :=
  checkedBody msgPaymentSubmit 161 data fun p => do
    let fromAddr ← array p 0 20
    let toAddr ← array p 20 20
    let value ← checkedU64 p 40
    let validAfter ← checkedU64 p 48
    let validBefore ← checkedU64 p 56
    let nonce ← array p 64 32
    let v ← byteAt p 96
    let r ← array p 97 32
    let s ← array p 129 32
    return { fromAddr, toAddr, value, validAfter, validBefore, nonce, v, r, s }

def PaymentAccepted.checkedDecode (data : Bytes) : Checked (Option PaymentAccepted) :=
  checkedBody msgPaymentAccepted 8 data fun p => do
    let newQuotaBytes ← checkedU64 p 0
    return { newQuotaBytes }

theorem checkedU64_ok (h : off + 8 ≤ p.length) : checkedU64 p off = .ok (u64At p off h) := by
  simp [checkedU64, array_ok h, u64At]

theorem checkedBody_ok {fields : Bytes → Checked α}
    {f : { p : Bytes // minLen ≤ p.length } → α}
    (h : ∀ p, fields p.1 = .ok (f p)) :
    checkedBody kind minLen data fields = .ok ((body? kind minLen data).map f) := by
  unfold checkedBody body?
  by_cases hshort : data.length < 3
  · simp [hshort]
  · by_cases hkind : data.getD 0 0 = kind
    · simp only [if_neg hshort, byteAt_ok (show 0 < data.length by omega),
        byteAt_ok (show 1 < data.length by omega), byteAt_ok (show 2 < data.length by omega),
        ok_bind, pure_eq, hkind, ne_eq, not_true, if_false, or_false]
      split
      · rfl
      · rename_i hlen
        have hdrop : (data.drop 3).take (data.length - 3) = data.drop 3 :=
          List.take_of_length_le (by simp)
        rw [range_ok (by omega) le_rfl, ok_bind, hdrop]
        rw [h ⟨data.drop 3, by rw [List.length_drop]; omega⟩]
        rfl
    · simp only [if_neg hshort, byteAt_ok (show 0 < data.length by omega), ok_bind, pure_eq, hkind,
        ne_eq, not_false_eq_true, if_true, or_true, Option.map_none]

theorem checkedDecode_required (data : Bytes) :
    PaymentRequired.checkedDecode data = .ok (PaymentRequired.decode data) := by
  refine checkedBody_ok fun p => ?_
  have hp := p.2
  simp [checkedU64_ok (show 0 + 8 ≤ p.1.length by omega),
    array_ok (show 8 + 32 ≤ p.1.length by omega), array_ok (show 40 + 20 ≤ p.1.length by omega),
    checkedU64_ok (show 60 + 8 ≤ p.1.length by omega),
    checkedU64_ok (show 68 + 8 ≤ p.1.length by omega),
    array_ok (show 76 + 20 ≤ p.1.length by omega)]

theorem checkedDecode_submit (data : Bytes) :
    PaymentSubmit.checkedDecode data = .ok (PaymentSubmit.decode data) := by
  refine checkedBody_ok fun p => ?_
  have hp := p.2
  simp [array_ok (show 0 + 20 ≤ p.1.length by omega),
    array_ok (show 20 + 20 ≤ p.1.length by omega), checkedU64_ok
      (show 40 + 8 ≤ p.1.length by omega),
    checkedU64_ok (show 48 + 8 ≤ p.1.length by omega),
    checkedU64_ok (show 56 + 8 ≤ p.1.length by omega),
    array_ok (show 64 + 32 ≤ p.1.length by omega), byteAt_ok (show 96 < p.1.length by omega),
    array_ok (show 97 + 32 ≤ p.1.length by omega), array_ok (show 129 + 32 ≤ p.1.length by omega)]

theorem checkedDecode_accepted (data : Bytes) :
    PaymentAccepted.checkedDecode data = .ok (PaymentAccepted.decode data) := by
  refine checkedBody_ok fun p => ?_
  have hp := p.2
  simp [checkedU64_ok (show 0 + 8 ≤ p.1.length by omega)]

-- ---------------------------------------------------------------------------
-- Codecs
-- ---------------------------------------------------------------------------

/-- The encoder and the decoders of a type of message, and the length of its
fields. -/
structure Codec (α : Type) where
  kind : UInt8
  size : Nat
  encode : α → Bytes
  decode : Bytes → Option α
  checkedDecode : Bytes → Checked (Option α)

def PaymentRequired.codec : Codec PaymentRequired where
  kind := msgPaymentRequired
  size := 96
  encode := encode
  decode := decode
  checkedDecode := checkedDecode

def PaymentSubmit.codec : Codec PaymentSubmit where
  kind := msgPaymentSubmit
  size := 161
  encode := encode
  decode := decode
  checkedDecode := checkedDecode

def PaymentAccepted.codec : Codec PaymentAccepted where
  kind := msgPaymentAccepted
  size := 8
  encode := encode
  decode := decode
  checkedDecode := checkedDecode

/-- The declared length is there and covers the fields. -/
def Covers (kind : UInt8) (size : Nat) (data : Bytes) : Prop :=
  ∃ high low body, data = kind :: high :: low :: body ∧
    size ≤ readBe [high, low] ∧ readBe [high, low] ≤ body.length

structure Codec.Faithful (c : Codec α) : Prop where
  roundTrip : ∀ m tail, c.decode (c.encode m ++ tail) = some m
  /-- No message of another type is accepted. -/
  other : ∀ kind body, kind ≠ c.kind → c.decode (tlv kind body) = none
  /-- No index is out of bounds. -/
  total : ∀ data, c.checkedDecode data = .ok (c.decode data)
  accepts : ∀ data, (c.decode data).isSome ↔ Covers c.kind c.size data

theorem body?_isSome : (body? kind size data).isSome ↔ Covers kind size data := by
  unfold body? Covers
  constructor
  · intro h
    match data with
    | [] | [_] | [_, _] => simp at h
    | first :: high :: low :: body =>
      split at h
      · cases h
      · rename_i hkind
        simp only [List.length_cons, List.getD_cons_zero, ne_eq, not_or, not_lt, not_not] at hkind
        dsimp only at h
        split at h
        · cases h
        · rename_i hlen
          simp only [List.length_cons, List.getD_cons_succ, List.getD_cons_zero, not_or,
            not_lt] at hlen
          exact ⟨high, low, body, by rw [hkind.2], hlen.2, by omega⟩
  · rintro ⟨high, low, body, rfl, hsize, hlen⟩
    rw [if_neg (by simp)]
    dsimp only
    rw [dif_neg (by simp; omega)]
    rfl

theorem required_faithful : PaymentRequired.codec.Faithful where
  roundTrip := decode_encode_required
  other kind body h := by
    have hbody : body? msgPaymentRequired 96 (tlv kind body) = none := body?_tlv_ne h
    simp [PaymentRequired.codec, PaymentRequired.decode, hbody]
  total := checkedDecode_required
  accepts data := by
    simp [PaymentRequired.codec, PaymentRequired.decode, body?_isSome]

theorem submit_faithful : PaymentSubmit.codec.Faithful where
  roundTrip := decode_encode_submit
  other kind body h := by
    have hbody : body? msgPaymentSubmit 161 (tlv kind body) = none := body?_tlv_ne h
    simp [PaymentSubmit.codec, PaymentSubmit.decode, hbody]
  total := checkedDecode_submit
  accepts data := by
    simp [PaymentSubmit.codec, PaymentSubmit.decode, body?_isSome]

theorem decode_encode_accepted (m : PaymentAccepted) (tail : Bytes) :
    PaymentAccepted.decode (m.encode ++ tail) = some m := by
  obtain ⟨h, hb⟩ := body?_tlv (n := 8) msgPaymentAccepted (be64 m.newQuotaBytes) tail
    (by simp) (by simp)
  rw [PaymentAccepted.decode, PaymentAccepted.encode, hb, Option.map_some, Option.some.injEq]
  obtain ⟨quota⟩ := m
  rw [PaymentAccepted.mk.injEq]
  exact u64At_append [] rfl rfl _

theorem accepted_faithful : PaymentAccepted.codec.Faithful where
  roundTrip := decode_encode_accepted
  other kind body h := by
    have hbody : body? msgPaymentAccepted 8 (tlv kind body) = none := body?_tlv_ne h
    simp [PaymentAccepted.codec, PaymentAccepted.decode, hbody]
  total := checkedDecode_accepted
  accepts data := by
    simp [PaymentAccepted.codec, PaymentAccepted.decode, body?_isSome]

/-- The three codecs, and that none reads the messages of another. -/
theorem codecs_agree :
    (PaymentRequired.codec.Faithful ∧ PaymentSubmit.codec.Faithful ∧
      PaymentAccepted.codec.Faithful) ∧
    (∀ m : PaymentRequired,
      PaymentSubmit.decode m.encode = none ∧ PaymentAccepted.decode m.encode = none) ∧
    (∀ m : PaymentSubmit,
      PaymentRequired.decode m.encode = none ∧ PaymentAccepted.decode m.encode = none) ∧
    ∀ m : PaymentAccepted,
      PaymentRequired.decode m.encode = none ∧ PaymentSubmit.decode m.encode = none := by
  refine ⟨⟨required_faithful, submit_faithful, accepted_faithful⟩, ?_, ?_, ?_⟩
  · intro m
    obtain ⟨body, hm⟩ : ∃ body, m.encode = tlv msgPaymentRequired body := ⟨_, rfl⟩
    rw [hm]
    exact ⟨submit_faithful.other msgPaymentRequired body (by decide),
      accepted_faithful.other msgPaymentRequired body (by decide)⟩
  · intro m
    obtain ⟨body, hm⟩ : ∃ body, m.encode = tlv msgPaymentSubmit body := ⟨_, rfl⟩
    rw [hm]
    exact ⟨required_faithful.other msgPaymentSubmit body (by decide),
      accepted_faithful.other msgPaymentSubmit body (by decide)⟩
  · intro m
    obtain ⟨body, hm⟩ : ∃ body, m.encode = tlv msgPaymentAccepted body := ⟨_, rfl⟩
    rw [hm]
    exact ⟨required_faithful.other msgPaymentAccepted body (by decide),
      submit_faithful.other msgPaymentAccepted body (by decide)⟩

-- ---------------------------------------------------------------------------
-- Packets
-- ---------------------------------------------------------------------------

def checkedAddr (packet : Bytes) (off : Nat) : Checked Ipv4Addr := do
  let a ← byteAt packet off
  let b ← byteAt packet (off + 1)
  let c ← byteAt packet (off + 2)
  let d ← byteAt packet (off + 3)
  return .new a b c d

def checkedIsSignal (packet : Bytes) : Checked Bool := do
  if packet.length < 20 then return false
  else
    let first ← byteAt packet 0
    if first >>> 4 ≠ 4 then return false
    else
      let src ← checkedAddr packet 12
      let dst ← checkedAddr packet 16
      return src == paymentGatewayIp || dst == paymentGatewayIp

def checkedExtract (packet : Bytes) : Checked (Option Bytes) := do
  if packet.length < 20 then return none
  else
    let first ← byteAt packet 0
    let ihl := (first &&& 0x0f).toNat * 4
    let protocol ← byteAt packet 9
    if protocol ≠ 17 then return none
    else if packet.length < ihl + 8 then return none
    else
      let high ← byteAt packet (ihl + 4)
      let low ← byteAt packet (ihl + 5)
      let udpLen := readBe [high, low]
      if udpLen < 8 ∨ packet.length < ihl + udpLen then return none
      else
        let payload ← range packet (ihl + 8) (ihl + udpLen)
        return some payload

/-- What a packet hands to the decoders of the messages. -/
def signalPayload (packet : Bytes) : Option Bytes :=
  if isPaymentSignal packet then extractSignalPayload packet else none

def checkedSignalPayload (packet : Bytes) : Checked (Option Bytes) := do
  let isSignal ← checkedIsSignal packet
  if isSignal then checkedExtract packet else return none

theorem checkedAddr_ok (h : off + 3 < packet.length) :
    checkedAddr packet off = .ok (addrAt packet off) := by
  have hbytes : (packet.drop off).take 4 = [packet.getD off 0, packet.getD (off + 1) 0,
      packet.getD (off + 2) 0, packet.getD (off + 3) 0] := by
    refine List.ext_getElem (by simp; omega) fun i h1 h2 => ?_
    have hi : i < 4 := by simpa using h2
    have hget : off + i < packet.length := by omega
    rcases i with _ | _ | _ | _ | i
    · simp [show off < packet.length by omega]
    · simp [show off + 1 < packet.length by omega]
    · simp [show off + 2 < packet.length by omega]
    · simp [show off + 3 < packet.length by omega]
    · omega
  simp only [checkedAddr, byteAt_ok (show off < packet.length by omega),
    byteAt_ok (show off + 1 < packet.length by omega),
    byteAt_ok (show off + 2 < packet.length by omega), byteAt_ok h, ok_bind, pure_eq,
      addrAt, hbytes]
  rfl

theorem checkedIsSignal_ok (packet : Bytes) :
    checkedIsSignal packet = .ok (isPaymentSignal packet) := by
  unfold checkedIsSignal isPaymentSignal
  by_cases hshort : packet.length < 20
  · simp [hshort]
  · simp only [byteAt_ok (show 0 < packet.length by omega),
      checkedAddr_ok (show 12 + 3 < packet.length by omega),
      checkedAddr_ok (show 16 + 3 < packet.length by omega), ok_bind, pure_eq, hshort, false_or,
      if_false]
    split <;> rfl

theorem checkedExtract_ok (packet : Bytes) :
    checkedExtract packet = .ok (extractSignalPayload packet) := by
  unfold checkedExtract extractSignalPayload
  by_cases hshort : packet.length < 20
  · simp [hshort]
  · simp only [if_neg hshort, byteAt_ok (show 0 < packet.length by omega),
      byteAt_ok (show 9 < packet.length by omega), ok_bind, pure_eq]
    generalize (packet.getD 0 0 &&& 0x0f).toNat * 4 = ihl
    split
    · rfl
    · split
      · rfl
      · rename_i hihl
        simp only [byteAt_ok (show ihl + 4 < packet.length by omega),
          byteAt_ok (show ihl + 5 < packet.length by omega), ok_bind]
        split
        · rfl
        · rename_i hlen
          rw [range_ok (by omega) (by omega), ok_bind, Nat.add_sub_add_left]

theorem checkedSignalPayload_ok (packet : Bytes) :
    checkedSignalPayload packet = .ok (signalPayload packet) := by
  simp only [checkedSignalPayload, checkedIsSignal_ok, checkedExtract_ok, ok_bind, signalPayload]
  split <;> rfl

def headerLen (packet : Bytes) : Nat := (packet.getD 0 0 &&& 0x0f).toNat * 4

def udpLen (packet : Bytes) : Nat :=
  readBe [packet.getD (headerLen packet + 4) 0, packet.getD (headerLen packet + 5) 0]

def udpData (packet : Bytes) : Bytes :=
  (packet.drop (headerLen packet + 8)).take (udpLen packet - 8)

/-- A UDP datagram whose lengths lie inside of it, behind a header of the
length it declares. -/
def UdpInside (packet : Bytes) : Prop :=
  packet.getD 9 0 = 17 ∧ headerLen packet + 8 ≤ packet.length ∧ 8 ≤ udpLen packet ∧
    headerLen packet + udpLen packet ≤ packet.length

/-- A well-formed IPv4 UDP datagram. -/
structure UdpDatagram (packet : Bytes) : Prop where
  version : packet.getD 0 0 >>> 4 = 4
  ihl : 20 ≤ headerLen packet
  udp : UdpInside packet

theorem extractSignalPayload_eq (h : 20 ≤ packet.length) :
    extractSignalPayload packet = some payload ↔ UdpInside packet ∧ payload = udpData packet := by
  unfold extractSignalPayload UdpInside udpData udpLen headerLen
  rw [if_neg (by omega)]
  dsimp only
  split
  · rename_i hprotocol
    exact iff_of_false nofun fun h => hprotocol h.1.1
  · rename_i hprotocol
    split
    · exact iff_of_false nofun fun h => by omega
    · split
      · exact iff_of_false nofun fun h => by omega
      · rw [Option.some.injEq, eq_comm]
        refine ⟨fun heq => ⟨⟨not_not.mp hprotocol, by omega, by omega, by omega⟩, heq⟩,
          fun h => h.2⟩

theorem isPaymentSignal_header (h : isPaymentSignal packet = true) :
    20 ≤ packet.length ∧ packet.getD 0 0 >>> 4 = 4 := by
  unfold isPaymentSignal at h
  split at h
  · cases h
  · rename_i hheader
    exact ⟨by omega, by simpa using fun hv => hheader (.inr hv)⟩

/-- No index is out of bounds, every well-formed datagram to or from the
gateway hands over its data, and only such ones do, exactly when no header that
is too short stands before lengths that fit. -/
theorem signalPayload_iff (packet : Bytes) :
    checkedSignalPayload packet = .ok (signalPayload packet) ∧
    (isPaymentSignal packet = true → UdpDatagram packet →
      signalPayload packet = some (udpData packet)) ∧
    ((∀ payload, signalPayload packet = some payload →
        UdpDatagram packet ∧ payload = udpData packet) ↔
      ¬ (isPaymentSignal packet = true ∧ headerLen packet < 20 ∧ UdpInside packet)) := by
  refine ⟨checkedSignalPayload_ok packet, fun hsignal hudp => ?_, fun h => ?_,
    fun h payload hp => ?_⟩
  · rw [signalPayload, if_pos hsignal, extractSignalPayload_eq (isPaymentSignal_header hsignal).1]
    exact ⟨hudp.udp, rfl⟩
  · rintro ⟨hsignal, hshort, hudp⟩
    have hp : signalPayload packet = some (udpData packet) := by
      rw [signalPayload, if_pos hsignal, extractSignalPayload_eq (isPaymentSignal_header hsignal).1]
      exact ⟨hudp, rfl⟩
    have hihl := (h _ hp).1.ihl
    omega
  · unfold signalPayload at hp
    split at hp
    · rename_i hsignal
      obtain ⟨hlen, hversion⟩ := isPaymentSignal_header hsignal
      obtain ⟨hudp, rfl⟩ := (extractSignalPayload_eq hlen).mp hp
      exact ⟨⟨hversion, not_lt.mp fun hshort => h ⟨hsignal, hshort, hudp⟩, hudp⟩, rfl⟩
    · cases hp

/-- A packet from the gateway address with a header length of zero, whose
identification is read as the length of its datagram. -/
def headless : Bytes :=
  [0x40, 0, 0, 28, 0, 28, 0x40, 0, 64, 17, 0, 0, 169, 254, 254, 1, 10, 0, 0, 2,
    0x1b, 0xa6, 0x1b, 0xa6, 0, 8, 0, 0]

/-- It hands its own header over, from the time to live on. -/
theorem headless_payload :
    isPaymentSignal headless = true ∧ ¬ UdpDatagram headless ∧
      signalPayload headless = some (headless.drop 8) := by
  refine ⟨by decide, fun h => ?_, by decide⟩
  have hihl := h.ihl
  revert hihl
  decide

end Xelt.Boringtun.Payment
