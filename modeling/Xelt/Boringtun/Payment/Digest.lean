import Xelt.Boringtun.Payment.Eip3009

/-!
# What a digest stands for

The digest of an authorization determines the authorization and its domain, as
long as the hash has no collision among the strings that are hashed for it.
-/

namespace Xelt.Boringtun.Payment

open Bytes

section
variable (prim : Primitives)

def domainPreimage (domain : Eip712Domain) : Bytes :=
  (eip712DomainTypeHash prim).toList ++ (prim.keccak256 (utf8 domain.name)).toList ++
    (prim.keccak256 (utf8 domain.version)).toList ++ abiEncodeU256 domain.chainId ++
    abiEncodeAddress domain.verifyingContract

def structPreimage (auth : TransferAuthorization) : Bytes :=
  (transferAuthorizationTypeHash prim).toList ++ abiEncodeAddress auth.fromAddr ++
    abiEncodeAddress auth.toAddr ++ abiEncodeU256 auth.value ++ abiEncodeU256 auth.validAfter ++
    abiEncodeU256 auth.validBefore ++ auth.nonce.toList

def digestPreimage (domain : Eip712Domain) (auth : TransferAuthorization) : Bytes :=
  [0x19, 0x01] ++ (computeDomainSeparator prim domain).toList ++
    (computeStructHash prim auth).toList

/-- The strings that are hashed for a digest, but for the two type strings. -/
def hashed (domain : Eip712Domain) (auth : TransferAuthorization) : List Bytes :=
  [utf8 domain.name, utf8 domain.version, domainPreimage prim domain, structPreimage prim auth,
    digestPreimage prim domain auth]

def CollisionFree (inputs : List Bytes) : Prop :=
  ∀ x ∈ inputs, ∀ y ∈ inputs, prim.keccak256 x = prim.keccak256 y → x = y

instance (inputs : List Bytes) : Decidable (CollisionFree prim inputs) :=
  inferInstanceAs (Decidable (∀ x ∈ inputs, ∀ y ∈ inputs, _))

end

theorem utf8_inj (h : utf8 s = utf8 t) : s = t := by
  unfold utf8 at h
  rw [String.toUTF8_eq_toByteArray, String.toUTF8_eq_toByteArray] at h
  exact String.toByteArray_inj.mp (ByteArray.ext (Array.toList_inj.mp h))

theorem abiEncodeAddress_inj {a b : Address} (h : abiEncodeAddress a = abiEncodeAddress b) :
    a = b :=
  Subtype.ext (List.append_cancel_left h)

theorem abiEncodeU256_inj (h : abiEncodeU256 m = abiEncodeU256 n) : m = n := by
  have hbe : beBytes 16 m.toNat = beBytes 16 n.toNat := List.append_cancel_left h
  have hm : m.toNat < 256 ^ 16 := m.toNat_lt.trans (by norm_num)
  have hn : n.toNat < 256 ^ 16 := n.toNat_lt.trans (by norm_num)
  rw [← UInt64.toNat_inj, ← readBe_beBytes_of_lt hm, hbe, readBe_beBytes_of_lt hn]

@[simp] theorem length_abiEncodeAddress (addr : Address) :
    (abiEncodeAddress addr).length = 32 := by
  simp [abiEncodeAddress]

@[simp] theorem length_abiEncodeU256 (value : UInt64) : (abiEncodeU256 value).length = 32 := by
  simp [abiEncodeU256]

theorem domainPreimage_inj {d₁ d₂ : Eip712Domain}
    (hname : prim.keccak256 (utf8 d₁.name) = prim.keccak256 (utf8 d₂.name) → d₁.name = d₂.name)
    (hversion : prim.keccak256 (utf8 d₁.version) = prim.keccak256 (utf8 d₂.version) →
      d₁.version = d₂.version)
    (h : domainPreimage prim d₁ = domainPreimage prim d₂) : d₁ = d₂ := by
  obtain ⟨h, hcontract⟩ := List.append_inj' h (by simp)
  obtain ⟨h, hchain⟩ := List.append_inj' h (by simp)
  obtain ⟨h, hv⟩ := List.append_inj' h (by simp)
  obtain ⟨-, hn⟩ := List.append_inj' h (by simp)
  cases d₁
  cases d₂
  rw [Eip712Domain.mk.injEq]
  exact ⟨hname (Subtype.ext hn), hversion (Subtype.ext hv), abiEncodeU256_inj hchain,
    abiEncodeAddress_inj hcontract⟩

theorem structPreimage_inj {a₁ a₂ : TransferAuthorization}
    (h : structPreimage prim a₁ = structPreimage prim a₂) : a₁ = a₂ := by
  obtain ⟨h, hnonce⟩ := List.append_inj' h (by simp)
  obtain ⟨h, hbefore⟩ := List.append_inj' h (by simp)
  obtain ⟨h, hafter⟩ := List.append_inj' h (by simp)
  obtain ⟨h, hvalue⟩ := List.append_inj' h (by simp)
  obtain ⟨h, hto⟩ := List.append_inj' h (by simp)
  obtain ⟨-, hfrom⟩ := List.append_inj' h (by simp)
  cases a₁
  cases a₂
  rw [TransferAuthorization.mk.injEq]
  exact ⟨abiEncodeAddress_inj hfrom, abiEncodeAddress_inj hto, abiEncodeU256_inj hvalue,
    abiEncodeU256_inj hafter, abiEncodeU256_inj hbefore, Subtype.ext hnonce⟩

/-- Two authorizations have one digest only when they and their domains are the
same in every field. -/
theorem digest_inj {d₁ d₂ : Eip712Domain} {a₁ a₂ : TransferAuthorization}
    (hfree : CollisionFree prim (hashed prim d₁ a₁ ++ hashed prim d₂ a₂)) :
    computeEip712Digest prim d₁ a₁ = computeEip712Digest prim d₂ a₂ ↔ d₁ = d₂ ∧ a₁ = a₂ := by
  constructor
  · intro h
    have hdigest : digestPreimage prim d₁ a₁ = digestPreimage prim d₂ a₂ :=
      hfree _ (by simp [hashed]) _ (by simp [hashed]) h
    obtain ⟨hseparator, hstruct⟩ := List.append_inj' hdigest (by simp)
    have hseparator : computeDomainSeparator prim d₁ = computeDomainSeparator prim d₂ :=
      Subtype.ext (List.append_cancel_left hseparator)
    constructor
    · refine domainPreimage_inj (fun hname => ?_) (fun hversion => ?_)
        (hfree _ (by simp [hashed]) _ (by simp [hashed]) hseparator)
      · exact utf8_inj (hfree _ (by simp [hashed]) _ (by simp [hashed]) hname)
      · exact utf8_inj (hfree _ (by simp [hashed]) _ (by simp [hashed]) hversion)
    · exact structPreimage_inj
        (hfree _ (by simp [hashed]) _ (by simp [hashed]) (Subtype.ext hstruct))
  · rintro ⟨rfl, rfl⟩
    rfl

-- ---------------------------------------------------------------------------
-- A tampered value
-- ---------------------------------------------------------------------------

/-- USDC on Base Sepolia. -/
def baseSepolia : Eip712Domain where
  name := "USD Coin"
  version := "2"
  chainId := 84532
  verifyingContract := beArray 20 0x036cbd53842c5426634e7929541ec2318f3dcf7e

def authorized (value : UInt64) : TransferAuthorization where
  fromAddr := beArray 20 0xe5018f40fe93f54942f59de1d96548eac9b0fd10
  toAddr := ⟨List.replicate 20 0x11, rfl⟩
  value
  validAfter := 0
  validBefore := 1000000000
  nonce := ⟨List.replicate 32 7, rfl⟩

/-- What is hashed for a value of 10000 and for one of 1, by its length and a
remainder of it, and its hash. -/
def authorizedHashes : List ((Nat × Nat) × Nat) :=
  [((82, 21951), 0x8b73c3c69bb8fe3d512ecc4cf759cc79239f7b179b0ffacaa9a75d522b39400f),
    ((8, 25591), 0x52878b207aaddbfc15ea7bebcda681eb8ccd306e2227b61cef68505c8c056341),
    ((1, 50), 0xad7c5bef027816a800da1736444fb58a807ef4c9603b7848673f7e3a68eb14a5),
    ((117, 27713), 0x7c7c6cdb67a18743f49ec6fa9b35f50d52ed05cbed4cc592e13b44501c1a2267),
    ((160, 18315), 0x2f5ab5eec6c6d261a8ad2b303ae4ef05c8509de2250e072c3a2df0ad7f9f068b),
    ((224, 25553), 0x531d0182a8a5de7654e3291678bb3577088b887c1d0337cc808c3ad84e2ddb34),
    ((66, 30112), 0xcee34819865eea9050a347121a0971884edab174eda10e9c068791415eca2b98),
    ((224, 8894), 0x5d70957fabcc48196f844a2f178f5958c19fb197a3474581cbe2f3da38e8da90),
    ((66, 50073), 0xca63ae4a20bc17c8c9c76520e1dcb56d86a55d1a22a61e4e9ea6b2df46e47566)]

def hashingPrimitives : Primitives where
  keccak256 input :=
    beArray 32 ((authorizedHashes.lookup (input.length, readBe input % 65521)).getD 0)
  x25519PublicKey key := key
  fromWireguardKey key := ⟨key, beArray 20 0⟩
  signDigest _ _ := (27, beArray 32 0, beArray 32 0)
  recoverAddress _ _ _ _ := none

theorem digest_tampered :
    computeEip712Digest hashingPrimitives baseSepolia (authorized 10000) ≠
      computeEip712Digest hashingPrimitives baseSepolia (authorized 1) := by
  intro h
  obtain ⟨-, hauth⟩ := (digest_inj (by decide +kernel)).mp h
  have hvalue := congrArg TransferAuthorization.value hauth
  revert hvalue
  decide

end Xelt.Boringtun.Payment
