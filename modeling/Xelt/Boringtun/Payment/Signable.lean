import Xelt.Boringtun.Payment.Deposit
import Xelt.Boringtun.Payment.Digest

/-!
# What a wallet signs

One key signs transfer authorizations for bandwidth, the authorization of a
deposit, and transactions. A hash stands for one of them only, with all its
fields, as long as the hash function has no collision among the strings that
are hashed for it: no signature serves twice.
-/

namespace Xelt.Boringtun.Payment

open Bytes

/-- The fields of the authorization that a deposit signs. -/
structure ReceiveAuthorization where
  fromAddr : Address
  toAddr : Address
  value : BitVec 128
  validAfter : UInt64
  validBefore : UInt64
  nonce : Bytes32

inductive Signable
  | transfer (domain : Eip712Domain) (auth : TransferAuthorization)
  | receive (domain : Eip712Domain) (auth : ReceiveAuthorization)
  | transaction (tx : Eip1559Tx)

/-- What the key is given for it. -/
def Signable.hash (prim : Primitives) : Signable → Bytes32
  | transfer domain auth => computeEip712Digest prim domain auth
  | receive domain auth => Deposit.receiveDigest prim domain auth.fromAddr auth.toAddr auth.value
      auth.validAfter auth.validBefore auth.nonce
  | transaction tx => tx.signingHash prim.keccak256

-- ---------------------------------------------------------------------------
-- The strings that are hashed
-- ---------------------------------------------------------------------------

theorem transferType_ne : transferType ≠ Deposit.receiveType := by
  intro h
  exact absurd (utf8_inj h) (by decide)

section
variable (prim : Primitives)

def receivePreimage (auth : ReceiveAuthorization) : Bytes :=
  (Deposit.receiveTypeHash prim).toList ++ abiEncodeAddress auth.fromAddr ++
    abiEncodeAddress auth.toAddr ++ Deposit.abiEncodeU256 auth.value ++
    Deposit.abiEncodeU256 (BitVec.ofNat 128 auth.validAfter.toNat) ++
    Deposit.abiEncodeU256 (BitVec.ofNat 128 auth.validBefore.toNat) ++ auth.nonce.toList

/-- Typed data of a domain, by the string that is hashed for its fields. -/
def typedPreimage (domain : Eip712Domain) (fields : Bytes) : Bytes :=
  [0x19, 0x01] ++ (computeDomainSeparator prim domain).toList ++ (prim.keccak256 fields).toList

def typedStrings (domain : Eip712Domain) (fields : Bytes) : List Bytes :=
  [utf8 domain.name, utf8 domain.version, domainPreimage prim domain, fields,
    typedPreimage prim domain fields]

namespace Signable

def preimage : Signable → Bytes
  | transfer domain auth => typedPreimage prim domain (structPreimage prim auth)
  | receive domain auth => typedPreimage prim domain (receivePreimage prim auth)
  | transaction tx => tx.preimage

def strings : Signable → List Bytes
  | transfer domain auth => transferType :: typedStrings prim domain (structPreimage prim auth)
  | receive domain auth => Deposit.receiveType :: typedStrings prim domain
    (receivePreimage prim auth)
  | transaction tx => [tx.preimage]

theorem hash_eq (x : Signable) : x.hash prim = prim.keccak256 (x.preimage prim) := by
  cases x with
  | transfer => rfl
  | receive => rfl
  | transaction => rfl

theorem preimage_mem (x : Signable) : x.preimage prim ∈ x.strings prim := by
  cases x with
  | transfer => simp [preimage, strings, typedStrings]
  | receive => simp [preimage, strings, typedStrings]
  | transaction => exact List.mem_singleton_self _

end Signable

end

variable {prim : Primitives}

-- ---------------------------------------------------------------------------
-- Typed data
-- ---------------------------------------------------------------------------

theorem CollisionFree.mono (h : CollisionFree prim inputs) (hsub : fewer ⊆ inputs) :
    CollisionFree prim fewer :=
  fun _ hx _ hy => h _ (hsub hx) _ (hsub hy)

theorem typed_inj
    (hfree : CollisionFree prim (typedStrings prim d₁ s₁ ++ typedStrings prim d₂ s₂))
    (h : typedPreimage prim d₁ s₁ = typedPreimage prim d₂ s₂) : d₁ = d₂ ∧ s₁ = s₂ := by
  obtain ⟨h, hfields⟩ := List.append_inj' h (by simp)
  have hseparator : computeDomainSeparator prim d₁ = computeDomainSeparator prim d₂ :=
    Subtype.ext (List.append_cancel_left h)
  constructor
  · refine domainPreimage_inj (fun hname => ?_) (fun hversion => ?_)
      (hfree _ (by simp [typedStrings]) _ (by simp [typedStrings]) hseparator)
    · exact utf8_inj (hfree _ (by simp [typedStrings]) _ (by simp [typedStrings]) hname)
    · exact utf8_inj (hfree _ (by simp [typedStrings]) _ (by simp [typedStrings]) hversion)
  · exact hfree _ (by simp [typedStrings]) _ (by simp [typedStrings]) (Subtype.ext hfields)

theorem encodeU256_inj {m n : BitVec 128}
    (h : Deposit.abiEncodeU256 m = Deposit.abiEncodeU256 n) : m = n := by
  have hread := congrArg readBe h
  rw [Deposit.readBe_encodeU256, Deposit.readBe_encodeU256] at hread
  exact BitVec.eq_of_toNat_eq hread

theorem encodeU64_inj {m n : UInt64} (h : Deposit.abiEncodeU256 (BitVec.ofNat 128 m.toNat) =
    Deposit.abiEncodeU256 (BitVec.ofNat 128 n.toNat)) : m = n := by
  have hnat := congrArg BitVec.toNat (encodeU256_inj h)
  rw [Deposit.ofNat_u64, Deposit.ofNat_u64] at hnat
  exact UInt64.toNat_inj.mp hnat

theorem receivePreimage_inj {a₁ a₂ : ReceiveAuthorization}
    (h : receivePreimage prim a₁ = receivePreimage prim a₂) : a₁ = a₂ := by
  obtain ⟨h, hnonce⟩ := List.append_inj' h (by simp)
  obtain ⟨h, hbefore⟩ := List.append_inj' h (by simp)
  obtain ⟨h, hafter⟩ := List.append_inj' h (by simp)
  obtain ⟨h, hvalue⟩ := List.append_inj' h (by simp)
  obtain ⟨h, hto⟩ := List.append_inj' h (by simp)
  obtain ⟨-, hfrom⟩ := List.append_inj' h (by simp)
  cases a₁
  cases a₂
  rw [ReceiveAuthorization.mk.injEq]
  exact ⟨abiEncodeAddress_inj hfrom, abiEncodeAddress_inj hto, encodeU256_inj hvalue,
    encodeU64_inj hafter, encodeU64_inj hbefore, Subtype.ext hnonce⟩

/-- The type strings tell the two authorizations apart. -/
theorem structPreimage_ne
    (htypes : prim.keccak256 transferType ≠ prim.keccak256 Deposit.receiveType)
    (transfer : TransferAuthorization) (receive : ReceiveAuthorization) :
    structPreimage prim transfer ≠ receivePreimage prim receive := by
  intro h
  obtain ⟨h, -⟩ := List.append_inj' h (by simp)
  obtain ⟨h, -⟩ := List.append_inj' h (by simp)
  obtain ⟨h, -⟩ := List.append_inj' h (by simp)
  obtain ⟨h, -⟩ := List.append_inj' h (by simp)
  obtain ⟨h, -⟩ := List.append_inj' h (by simp)
  obtain ⟨h, -⟩ := List.append_inj' h (by simp)
  exact htypes (Subtype.ext h)

-- ---------------------------------------------------------------------------
-- Transactions
-- ---------------------------------------------------------------------------

theorem items_inj {tx₁ tx₂ : Eip1559Tx} (h : tx₁.items = tx₂.items) : tx₁ = tx₂ := by
  simp only [Eip1559Tx.items, List.cons.injEq, Rlp.Item.str.injEq, and_true] at h
  obtain ⟨hchain, hnonce, htip, hfee, hgas, hto, hvalue, hdata⟩ := h
  cases tx₁
  cases tx₂
  rw [Eip1559Tx.mk.injEq]
  exact ⟨UInt64.toNat_inj.mp (numeral_inj hchain), UInt64.toNat_inj.mp (numeral_inj hnonce),
    BitVec.eq_of_toNat_eq (numeral_inj htip), BitVec.eq_of_toNat_eq (numeral_inj hfee),
    UInt64.toNat_inj.mp (numeral_inj hgas), Subtype.ext hto,
    BitVec.eq_of_toNat_eq (numeral_inj hvalue), hdata⟩

theorem preimage_inj {tx₁ tx₂ : Eip1559Tx} (h : tx₁.preimage = tx₂.preimage) : tx₁ = tx₂ := by
  have hdecode := @Eip1559Tx.decode_hashed tx₁
  rw [List.tail_eq_of_cons_eq h, Eip1559Tx.decode_hashed] at hdecode
  simp only [Option.some.injEq, Prod.mk.injEq, Rlp.Item.list.injEq, and_true] at hdecode
  exact items_inj hdecode.symm

/-- No typed data begins like a transaction. -/
theorem typedPreimage_ne (domain : Eip712Domain) (fields : Bytes) (tx : Eip1559Tx) :
    typedPreimage prim domain fields ≠ tx.preimage := by
  intro h
  exact absurd (List.head_eq_of_cons_eq h) (by decide)

-- ---------------------------------------------------------------------------
-- All of them
-- ---------------------------------------------------------------------------

/-- A hash that a wallet signs stands for one thing only. -/
theorem Signable.hash_inj {x y : Signable}
    (hfree : CollisionFree prim (x.strings prim ++ y.strings prim)) :
    x.hash prim = y.hash prim ↔ x = y := by
  refine ⟨fun h => ?_, fun h => by rw [h]⟩
  rw [hash_eq, hash_eq] at h
  have hpre : x.preimage prim = y.preimage prim :=
    hfree _ (List.mem_append_left _ (x.preimage_mem prim)) _
      (List.mem_append_right _ (y.preimage_mem prim)) h
  have htyped : ∀ {d₁ s₁ d₂ s₂}, typedStrings prim d₁ s₁ ⊆ x.strings prim →
      typedStrings prim d₂ s₂ ⊆ y.strings prim →
      typedPreimage prim d₁ s₁ = typedPreimage prim d₂ s₂ → d₁ = d₂ ∧ s₁ = s₂ :=
    fun h₁ h₂ => typed_inj (hfree.mono (List.append_subset.mpr
      ⟨fun _ hm => List.mem_append_left _ (h₁ hm), fun _ hm => List.mem_append_right _ (h₂ hm)⟩))
  cases x with
  | transfer d a =>
    cases y with
    | transfer d' a' =>
      obtain ⟨rfl, hstruct⟩ := htyped (List.subset_cons_self ..) (List.subset_cons_self ..) hpre
      rw [structPreimage_inj hstruct]
    | receive d' a' =>
      obtain ⟨-, hstruct⟩ := htyped (List.subset_cons_self ..) (List.subset_cons_self ..) hpre
      refine absurd hstruct (structPreimage_ne (fun htypes => transferType_ne ?_) a a')
      exact hfree _ (by simp [strings]) _ (by simp [strings]) htypes
    | transaction tx => exact absurd hpre (typedPreimage_ne d _ tx)
  | receive d a =>
    cases y with
    | transfer d' a' =>
      obtain ⟨-, hstruct⟩ := htyped (List.subset_cons_self ..) (List.subset_cons_self ..) hpre
      refine absurd hstruct.symm (structPreimage_ne (fun htypes => transferType_ne ?_) a' a)
      exact hfree _ (by simp [strings]) _ (by simp [strings]) htypes
    | receive d' a' =>
      obtain ⟨rfl, hstruct⟩ := htyped (List.subset_cons_self ..) (List.subset_cons_self ..) hpre
      rw [receivePreimage_inj hstruct]
    | transaction tx => exact absurd hpre (typedPreimage_ne d _ tx)
  | transaction tx =>
    cases y with
    | transfer d' a' => exact absurd hpre.symm (typedPreimage_ne d' _ tx)
    | receive d' a' => exact absurd hpre.symm (typedPreimage_ne d' _ tx)
    | transaction tx' => rw [preimage_inj hpre]

/-- A transfer and a deposit that agree in all fields. -/
def sampleTransfer : Signable :=
  .transfer baseSepolia (authorized 10000)

def sampleReceive : Signable :=
  .receive baseSepolia
    { fromAddr := (authorized 10000).fromAddr
      toAddr := (authorized 10000).toAddr
      value := 10000
      validAfter := 0
      validBefore := 1000000000
      nonce := (authorized 10000).nonce }

/-- What is hashed for the deposit besides. -/
def receiveHashes : List ((Nat × Nat) × Nat) :=
  [((116, 30794), 0xd099cc98ef71107a616c4f0f941f04c322d8e254fe26b3c6668db87aae413de8),
    ((224, 54445), 0x1cefc3079d2b444eddc334c3ee236bd995ab553ddcdd4fec96f95d1468716968),
    ((66, 17809), 0x9966e51d3fe26918647dd4fc628ac76532ed3f46fbfbcc513b278a2ff9485af7)]

def signablePrimitives : Primitives :=
  { hashingPrimitives with
    keccak256 := fun input => beArray 32
      (((authorizedHashes ++ receiveHashes).lookup (input.length, readBe input % 65521)).getD 0) }

theorem Signable.hash_inj_sample :
    sampleTransfer.hash signablePrimitives = sampleReceive.hash signablePrimitives ↔
      sampleTransfer = sampleReceive :=
  hash_inj (by decide +kernel)

end Xelt.Boringtun.Payment
