import Xelt.Boringtun.Noise.Tunn

/-!
# Decrypted packets

`validate_decapsulated_packet` cuts a decrypted packet to the length its
header declares. The length field of IPv6 counts what follows the header, that
of IPv4 counts the header too, so only there can it declare less than one.
-/

namespace Xelt.Boringtun.Noise

open Bytes Payment

/-- Where a header keeps its fields, all of them within its least size. -/
structure HeaderLayout where
  version : UInt8
  minSize : Nat
  lenOff : Nat
  /-- What the length field leaves out. -/
  lenExtra : Nat
  srcOff : Nat
  srcSize : Nat
  len_inside : lenOff + 2 ≤ minSize
  src_inside : srcOff + srcSize ≤ minSize

namespace HeaderLayout

def ipv4 : HeaderLayout where
  version := 4
  minSize := ipv4MinHeaderSize
  lenOff := 2
  lenExtra := 0
  srcOff := 12
  srcSize := 4
  len_inside := by decide
  src_inside := by decide

def ipv6 : HeaderLayout where
  version := 6
  minSize := ipv6MinHeaderSize
  lenOff := 4
  lenExtra := ipv6MinHeaderSize
  srcOff := 8
  srcSize := 16
  len_inside := by decide
  src_inside := by decide

variable (layout : HeaderLayout)

def declaredLen (packet : Bytes) : Nat :=
  readBe ((packet.drop layout.lenOff).take 2) + layout.lenExtra

def srcField (packet : Bytes) : Nat :=
  readBe ((packet.drop layout.srcOff).take layout.srcSize)

/-- The packet has a header of this layout, is as long as it declares, and is
from `src`. -/
structure Consistent (packet : Bytes) (src : Nat) : Prop where
  version : packet.getD 0 0 >>> 4 = layout.version
  header : layout.minSize ≤ packet.length
  declared : packet.length = layout.declaredLen packet
  source : layout.srcField packet = src

theorem take_field {packet : Bytes} {off size n : Nat} (h : off + size ≤ n) :
    ((packet.take n).drop off).take size = (packet.drop off).take size := by
  rw [List.drop_take, List.take_take, min_eq_left (by omega)]

/-- Cut to the length it declares, a packet is consistent when that takes in a
whole header. -/
theorem consistent_take_iff {packet : Bytes} (hv : packet.getD 0 0 >>> 4 = layout.version)
    (hlen : layout.declaredLen packet ≤ packet.length) :
    layout.Consistent (packet.take (layout.declaredLen packet)) (layout.srcField packet) ↔
      layout.minSize ≤ layout.declaredLen packet := by
  have hcut : (packet.take (layout.declaredLen packet)).length = layout.declaredLen packet := by
    rw [List.length_take, min_eq_left hlen]
  constructor
  · intro h
    rw [← hcut]
    exact h.header
  · intro hheader
    have hlenIn := layout.len_inside
    have hsrcIn := layout.src_inside
    constructor
    · have hpos : 0 < layout.declaredLen packet := by omega
      rw [List.getD_eq_getElem?_getD, List.getElem?_take_of_lt hpos, ← List.getD_eq_getElem?_getD]
      exact hv
    · rw [hcut]
      exact hheader
    · rw [hcut, declaredLen, declaredLen, take_field (by rw [← declaredLen]; omega)]
    · rw [srcField, srcField, take_field (by omega)]

end HeaderLayout

namespace Tunn

/-- A packet for the interface is a consistent IP packet from the address that
comes with it. -/
def ConsistentResult : TunnResult → Prop
  | .writeToTunnelV4 packet src => HeaderLayout.ipv4.Consistent packet src.toNat
  | .writeToTunnelV6 packet src => HeaderLayout.ipv6.Consistent packet src.toNat
  | _ => True

theorem ofNat_srcField (h : 8 * layout.srcSize = w) (packet : Bytes) :
    (BitVec.ofNat w (HeaderLayout.srcField layout packet)).toNat = layout.srcField packet := by
  rw [BitVec.toNat_ofNat]
  apply Nat.mod_eq_of_lt
  calc layout.srcField packet
      < 256 ^ ((packet.drop layout.srcOff).take layout.srcSize).length := readBe_lt _
    _ ≤ 256 ^ layout.srcSize := Nat.pow_le_pow_right (by decide) (List.length_take_le ..)
    _ = 2 ^ w := by rw [← h, Nat.pow_mul]

theorem validateDecapsulatedPacket_eq (packet : Bytes) :
    validateDecapsulatedPacket packet =
      if packet.length = 0 then .done
      else if packet.getD 0 0 >>> 4 = 4 ∧ packet.length ≥ ipv4MinHeaderSize then
        if HeaderLayout.ipv4.declaredLen packet > packet.length then .err .invalidPacket
        else .writeToTunnelV4 (packet.take (HeaderLayout.ipv4.declaredLen packet))
          (BitVec.ofNat 32 (HeaderLayout.ipv4.srcField packet))
      else if packet.getD 0 0 >>> 4 = 6 ∧ packet.length ≥ ipv6MinHeaderSize then
        if HeaderLayout.ipv6.declaredLen packet > packet.length then .err .invalidPacket
        else .writeToTunnelV6 (packet.take (HeaderLayout.ipv6.declaredLen packet))
          (BitVec.ofNat 128 (HeaderLayout.ipv6.srcField packet))
      else .err .invalidPacket :=
  rfl

theorem validate_consistent_iff (packet : Bytes) :
    ConsistentResult (validateDecapsulatedPacket packet) ↔
      ¬(packet.getD 0 0 >>> 4 = 4 ∧ ipv4MinHeaderSize ≤ packet.length ∧
        readBe ((packet.drop 2).take 2) < ipv4MinHeaderSize) := by
  have hdeclared : HeaderLayout.ipv4.declaredLen packet = readBe ((packet.drop 2).take 2) := rfl
  rw [validateDecapsulatedPacket_eq, ← hdeclared]
  by_cases hempty : packet.length = 0
  · rw [if_pos hempty]
    exact iff_of_true trivial fun h => absurd h.2.1 (by rw [hempty]; decide)
  rw [if_neg hempty]
  by_cases h4 : packet.getD 0 0 >>> 4 = 4 ∧ packet.length ≥ ipv4MinHeaderSize
  · rw [if_pos h4]
    split
    · rename_i hlong
      exact iff_of_true trivial fun h => by have := h.2.1; have := h.2.2; omega
    · rename_i hfits
      rw [ConsistentResult, ofNat_srcField (by rfl),
        HeaderLayout.consistent_take_iff _ h4.1 (not_lt.mp hfits)]
      simp only [h4.1, ge_iff_le.mp h4.2, true_and, not_lt]
      rfl
  · rw [if_neg h4]
    refine iff_of_true ?_ fun h => h4 ⟨h.1, h.2.1⟩
    by_cases h6 : packet.getD 0 0 >>> 4 = 6 ∧ packet.length ≥ ipv6MinHeaderSize
    · rw [if_pos h6]
      split
      · trivial
      · rename_i hfits
        rw [ConsistentResult, ofNat_srcField (by rfl),
          HeaderLayout.consistent_take_iff _ h6.1 (not_lt.mp hfits)]
        exact Nat.le_add_left ..
    · rw [if_neg h6]
      trivial

/-- A header of twenty bytes that declares none: what is handed on is empty. -/
theorem declares_nothing :
    let packet : Bytes := [0x45] ++ List.replicate 19 0
    validateDecapsulatedPacket packet = .writeToTunnelV4 [] 0 ∧
      ¬ConsistentResult (validateDecapsulatedPacket packet) := by
  have hvalidate : validateDecapsulatedPacket ([0x45] ++ List.replicate 19 0) =
      .writeToTunnelV4 [] 0 := by decide
  refine ⟨hvalidate, fun h => ?_⟩
  rw [hvalidate] at h
  exact absurd h.header (by decide)

end Tunn

end Xelt.Boringtun.Noise
