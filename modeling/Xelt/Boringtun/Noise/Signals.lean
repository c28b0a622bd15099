import Xelt.Boringtun.Noise.Tunn

/-!
# Payment signals through the tunnel

A packet that `build_signal_packet` has built is a proper IPv4 packet: its
header sums up, and builder, tunnel, classifier and extractor agree on it.
-/

namespace Xelt.Boringtun

open Noise Payment Bytes

-- ---------------------------------------------------------------------------
-- The header checksum
-- ---------------------------------------------------------------------------

/-- The ones'-complement sum of two 16-bit words: the carry comes back in. -/
def onesAdd (a b : Nat) : Nat := if a + b < 65536 then a + b else a + b - 65535

/-- The ones'-complement sum of the 16-bit words of a header. -/
def onesSum : Bytes → Nat
  | [] => 0
  | [a] => readBe [a, 0]
  | a :: b :: rest => onesAdd (readBe [a, b]) (onesSum rest)

theorem readBe_two (a b : UInt8) : readBe [a, b] < 65536 := by
  have h := readBe_lt [a, b]
  rwa [show 256 ^ [a, b].length = 65536 from by norm_num] at h

theorem onesAdd_mod : onesAdd a b % 65535 = (a + b) % 65535 := by
  unfold onesAdd
  split
  · rfl
  · omega

theorem onesSum_spec (header : Bytes) :
    onesSum header < 65536 ∧ onesSum header % 65535 = wordSum header % 65535 ∧
      (onesSum header = 0 → wordSum header = 0) := by
  fun_induction onesSum header with
  | case1 => simp [wordSum]
  | case2 a => exact ⟨readBe_two a 0, rfl, id⟩
  | case3 a b rest ih =>
    obtain ⟨hlt, hmod, hzero⟩ := ih
    have hword := readBe_two a b
    refine ⟨?_, ?_, fun h => ?_⟩
    · unfold onesAdd
      split <;> omega
    · rw [onesAdd_mod, wordSum, Nat.add_mod, hmod, ← Nat.add_mod]
    · unfold onesAdd at h
      rw [wordSum]
      split at h
      · rw [hzero (by omega)]
        omega
      · omega

theorem foldCarries_mod (fuel sum : Nat) : foldCarries fuel sum % 65535 = sum % 65535 := by
  induction fuel generalizing sum with
  | zero => rfl
  | succ fuel ih =>
    rw [foldCarries]
    split
    · rfl
    · rw [ih, Nat.shiftRight_eq_div_pow, show 0xFFFF = 2 ^ 16 - 1 from rfl,
        Nat.and_two_pow_sub_one_eq_mod]
      omega

theorem foldCarries_lt (h : sum < 2 ^ 32) : foldCarries 2 sum < 65536 := by
  have hand : ∀ n, n &&& 0xFFFF = n % 65536 := fun n => Nat.and_two_pow_sub_one_eq_mod n 16
  have hshift : ∀ n, n >>> 16 = n / 65536 := fun n => Nat.shiftRight_eq_div_pow n 16
  simp only [foldCarries, hand, hshift]
  split
  · omega
  · split <;> omega

theorem wordSum_append (a b : Bytes) (h : a.length % 2 = 0) :
    wordSum (a ++ b) = wordSum a + wordSum b := by
  fun_induction wordSum a with
  | case1 => simp
  | case2 x => simp at h
  | case3 x y rest ih =>
    simp only [List.length_cons] at h
    simp only [List.cons_append, wordSum]
    rw [ih (by omega)]
    omega

theorem wordSum_le (b : Bytes) : wordSum b ≤ 65535 * b.length := by
  fun_induction wordSum b with
  | case1 => simp
  | case2 x =>
    have h := readBe_two x 0
    simp only [List.length_cons, List.length_nil]
    omega
  | case3 x y rest ih =>
    have h := readBe_two x y
    simp only [List.length_cons]
    omega

theorem wordSum_beBytes (h : n < 65536) : wordSum (beBytes 2 n) = n := by
  obtain ⟨a, b, hab⟩ := beBytes_two n
  have hread : readBe (beBytes 2 n) = n := readBe_beBytes_of_lt (by omega)
  rw [hab] at hread ⊢
  rw [wordSum, hread, wordSum, Nat.add_zero]

theorem ipv4Header_sum (totalLen : Nat) (src dst : Ipv4Addr) (hc : cksum < 65536) :
    wordSum (ipv4Header totalLen cksum src dst) = wordSum
      (ipv4Header totalLen 0 src dst) + cksum := by
  have hsum : ∀ c, wordSum (ipv4Header totalLen c src dst) =
      wordSum ([0x45, 0] ++ beBytes 2 totalLen ++ [0, 0, 0x40, 0, 64, 17]) + wordSum (beBytes 2 c) +
        wordSum (src.octets ++ dst.octets) := by
    intro c
    rw [ipv4Header, List.append_assoc (_ ++ beBytes 2 c),
      wordSum_append (_ ++ beBytes 2 c) _ (by simp),
      wordSum_append _ (beBytes 2 c) (by simp)]
  rw [hsum, hsum 0, wordSum_beBytes hc, wordSum_beBytes (by omega)]
  omega

theorem onesSum_header :
    onesSum (ipv4Header totalLen (ipChecksum (ipv4Header totalLen 0 src dst)) src dst) = 65535 := by
  have hlen : (ipv4Header totalLen 0 src dst).length = 20 := by
    simp [ipv4Header, Ipv4Addr.octets]
  have hle := wordSum_le (ipv4Header totalLen 0 src dst)
  rw [hlen] at hle
  have hmod := foldCarries_mod 2 (wordSum (ipv4Header totalLen 0 src dst))
  have hlt : foldCarries 2 (wordSum (ipv4Header totalLen 0 src dst)) < 65536 :=
    foldCarries_lt (by omega)
  have hck : ipChecksum (ipv4Header totalLen 0 src dst) =
      65535 - foldCarries 2 (wordSum (ipv4Header totalLen 0 src dst)) := by
    rw [ipChecksum, Nat.mod_eq_of_lt (show wordSum _ < 2 ^ 32 by omega), Nat.mod_eq_of_lt hlt]
  have hsum := ipv4Header_sum totalLen src dst
    (show ipChecksum (ipv4Header totalLen 0 src dst) < 65536 by omega)
  obtain ⟨hbound, hcong, hzero⟩ := onesSum_spec
    (ipv4Header totalLen (ipChecksum (ipv4Header totalLen 0 src dst)) src dst)
  -- the first word alone is not zero
  have hpos : wordSum (ipv4Header totalLen 0 src dst) ≠ 0 := by
    have hfirst : readBe [0x45, 0] = 17664 := by decide
    simp only [ipv4Header, List.cons_append, List.append_assoc, wordSum, hfirst]
    omega
  omega

-- ---------------------------------------------------------------------------
-- Built packets
-- ---------------------------------------------------------------------------

theorem validate_build (h : 28 + payload.length ≤ 65535) :
    Tunn.validateDecapsulatedPacket (buildSignalPacket src dst payload h) =
      .writeToTunnelV4 (buildSignalPacket src dst payload h) src := by
  have hlen : (buildSignalPacket src dst payload h).length = 28 + payload.length := length_build h
  have h0 : (buildSignalPacket src dst payload h).length ≠ 0 := by omega
  have h4 : (buildSignalPacket src dst payload h).length ≥ ipv4MinHeaderSize := by
    simp only [ipv4MinHeaderSize]
    omega
  have hfit : ¬ 28 + payload.length > (buildSignalPacket src dst payload h).length := by omega
  simp only [Tunn.validateDecapsulatedPacket, h0, if_false, version_build, h4, and_self, if_true,
    totalLen_build, hfit, addrAt_build]
  rw [List.take_of_length_le (by omega)]

theorem take_build (h : 28 + payload.length ≤ 65535) :
    (buildSignalPacket src dst payload h).take 20 =
      ipv4Header (20 + (8 + payload.length))
        (ipChecksum (ipv4Header (20 + (8 + payload.length)) 0 src dst)) src dst := by
  have hlen : ∀ cksum, (ipv4Header (20 + (8 + payload.length)) cksum src dst).length = 20 := by
    simp [ipv4Header, Ipv4Addr.octets]
  simp only [buildSignalPacket, List.append_assoc]
  exact List.take_left' (hlen _)

theorem isPaymentSignal_build_iff (h : 28 + payload.length ≤ 65535) :
    isPaymentSignal (buildSignalPacket src dst payload h) = true ↔
      src = paymentGatewayIp ∨ dst = paymentGatewayIp := by
  refine ⟨fun hsignal => ?_, isPaymentSignal_build h⟩
  have hlen : ¬ (buildSignalPacket src dst payload h).length < 20 := by
    rw [length_build]
    omega
  have hdst : addrAt (buildSignalPacket src dst payload h) 16 = dst := by
    have hd : dstIpv4 (buildSignalPacket src dst payload h) = some dst := dstIpv4_build h
    rwa [dstIpv4, if_neg hlen, Option.some.injEq] at hd
  rw [isPaymentSignal, if_neg (by rw [version_build]; simpa using hlen), addrAt_build, hdst,
    Bool.or_eq_true, beq_iff_eq, beq_iff_eq] at hsignal
  exact hsignal

/-- Builder, header, classifier, extractor and tunnel agree on every packet. -/
theorem signal_packet (src dst : Ipv4Addr) (payload : Bytes) (h : payload.length ≤ 65507) :
    ∃ hfits : 28 + payload.length ≤ 65535,
      let packet := buildSignalPacket src dst payload hfits
      extractSignalPayload packet = some payload ∧
      srcIpv4 packet = some src ∧ dstIpv4 packet = some dst ∧
      (isPaymentSignal packet = true ↔ src = paymentGatewayIp ∨ dst = paymentGatewayIp) ∧
      onesSum (packet.take 20) = 0xFFFF ∧
      Tunn.validateDecapsulatedPacket packet = .writeToTunnelV4 packet src := by
  have hfits : 28 + payload.length ≤ 65535 := by omega
  refine ⟨hfits, extract_build hfits, srcIpv4_build hfits, dstIpv4_build hfits,
    isPaymentSignal_build_iff hfits, ?_, validate_build hfits⟩
  rw [take_build]
  exact onesSum_header

theorem signal_packet_sample :
    isPaymentSignal (buildSignalPacket paymentGatewayIp (.new 10 0 0 2) [1, 2, 3] (by decide)) =
      true := by
  obtain ⟨_, h⟩ := signal_packet paymentGatewayIp (.new 10 0 0 2) [1, 2, 3] (by decide)
  exact h.2.2.2.1.mpr (.inl rfl)

end Xelt.Boringtun
