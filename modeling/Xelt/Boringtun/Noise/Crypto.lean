import Xelt.Lib.Bytes

/-!
# Primitives of the Noise protocol

Blake2s, its HMAC and keyed MAC, X25519 and the two AEADs are library calls;
they are the fields of `Primitives`, and the wrappers of `noise/handshake.rs`
stand above them. `Lawful` is what the protocol relies on: Diffie-Hellman
commutes, and opening inverts sealing under the same key, nonce and
associated data. Hashes and MACs are any functions.
-/

namespace Xelt.Boringtun.Noise.Crypto

open Bytes

abbrev aeadSize : Nat := 16

structure Primitives where
  blake2s : Bytes → Bytes32
  hmacBlake2s : Bytes → Bytes → Bytes32
  blake2sMac : Bytes → Bytes → ByteArr 16
  publicKey : Bytes32 → Bytes32
  diffieHellman : Bytes32 → Bytes32 → Bytes32
  /-- Key, nonce, associated data and plaintext to the ciphertext with its tag. -/
  sealInPlace : {n : Nat} → Bytes32 → ByteArr 12 → Bytes → ByteArr n → ByteArr (n + aeadSize)
  openInPlace : {n : Nat} → Bytes32 → ByteArr 12 → Bytes → ByteArr (n + aeadSize) →
    Option (ByteArr n)
  /-- XChaCha20-Poly1305 opening of a cookie. -/
  decryptCookie : Bytes32 → ByteArr 24 → Bytes → ByteArr 32 → Option (ByteArr 16)

structure Primitives.Lawful (p : Primitives) : Prop where
  dh_comm : ∀ a b, p.diffieHellman a (p.publicKey b) = p.diffieHellman b (p.publicKey a)
  open_seal : ∀ {n : Nat} key nonce aad (plain : ByteArr n),
    p.openInPlace key nonce aad (p.sealInPlace key nonce aad plain) = some plain

/-- The nonce of a counter: four zero bytes, then the counter. -/
def nonceOf (counter : Nat) : ByteArr 12 := ⟨List.replicate 4 0 ++ leBytes 8 counter, by simp⟩

theorem nonceOf_inj (hm : m < 2 ^ 64) (hn : n < 2 ^ 64) (h : nonceOf m = nonceOf n) : m = n := by
  have hbytes := List.append_cancel_left (congrArg Subtype.val h)
  exact leBytes_inj (by simpa using hm) (by simpa using hn) hbytes

namespace Primitives

def b2sHash (p : Primitives) (data1 data2 : Bytes) : Bytes32 := p.blake2s (data1 ++ data2)

/-- RFC 2401 HMAC+Blake2s, not to be confused with *keyed* Blake2s. -/
def b2sHmac (p : Primitives) (key data1 : Bytes) : Bytes32 := p.hmacBlake2s key data1

def b2sHmac2 (p : Primitives) (key data1 data2 : Bytes) : Bytes32 :=
  p.hmacBlake2s key (data1 ++ data2)

def b2sKeyedMac16 (p : Primitives) (key data1 : Bytes) : ByteArr 16 := p.blake2sMac key data1

def aeadChacha20Seal (p : Primitives) (key : Bytes32) (counter : Nat) (data : ByteArr n)
    (aad : Bytes) : ByteArr (n + aeadSize) :=
  p.sealInPlace key (nonceOf counter) aad data

def aeadChacha20Open (p : Primitives) (key : Bytes32) (counter : Nat)
    (data : ByteArr (n + aeadSize)) (aad : Bytes) : Option (ByteArr n) :=
  p.openInPlace key (nonceOf counter) aad data

theorem Lawful.aead_open_seal {p : Primitives} (hp : p.Lawful) (data : ByteArr n) :
    p.aeadChacha20Open key counter (p.aeadChacha20Seal key counter data aad) aad = some data :=
  hp.open_seal ..

-- ---------------------------------------------------------------------------
-- Data of any length
-- ---------------------------------------------------------------------------

def sealBytes (p : Primitives) (key : Bytes32) (nonce : ByteArr 12) (src : Bytes) : Bytes :=
  (p.sealInPlace key nonce [] src.toArr).toList

/-- Opening fails on what is too short to hold a tag. -/
def openBytes (p : Primitives) (key : Bytes32) (nonce : ByteArr 12) (ciphertext : Bytes) :
    Option Bytes :=
  if h : aeadSize ≤ ciphertext.length then
    (p.openInPlace (n := ciphertext.length - aeadSize) key nonce []
      ⟨ciphertext, (Nat.sub_add_cancel h).symm⟩).map List.Vector.toList
  else none

@[simp] theorem length_sealBytes (p : Primitives) :
    (p.sealBytes key nonce src).length = src.length + aeadSize := by
  simp [sealBytes]

theorem openBytes_toList (p : Primitives) (ciphertext : ByteArr (n + aeadSize)) :
    p.openBytes key nonce ciphertext.toList =
      (p.openInPlace key nonce [] ciphertext).map List.Vector.toList := by
  obtain ⟨bytes, hlen⟩ := ciphertext
  obtain rfl : n = bytes.length - aeadSize := (Nat.sub_eq_of_eq_add hlen).symm
  have h : aeadSize ≤ bytes.length := by omega
  simp only [List.Vector.toList_mk, openBytes, h, ↓reduceDIte]

theorem Lawful.openBytes_sealBytes {p : Primitives} (hp : p.Lawful) :
    p.openBytes key nonce (p.sealBytes key nonce src) = some src := by
  rw [sealBytes, openBytes_toList, hp.open_seal]
  rfl

end Primitives

/-- Primitives small enough to run: keys are exclusive-ored, and a tag is a
checksum of the key, the nonce, the associated data and the plaintext. -/
def samplePrimitives : Primitives where
  blake2s data := beArray 32 (31 * readBe data + data.length)
  hmacBlake2s key data := beArray 32 (37 * readBe key + 41 * readBe data + data.length)
  blake2sMac key data := beArray 16 (43 * readBe key + readBe data)
  publicKey a := a
  diffieHellman a b := List.Vector.map₂ (· ^^^ ·) a b
  sealInPlace {n} key nonce aad plain :=
    ⟨plain.toList ++ (sampleTag key nonce aad plain).toList, by simp⟩
  openInPlace {n} key nonce aad ciphertext :=
    let plain : ByteArr n := ⟨ciphertext.toList.take n, by simp⟩
    if ciphertext.toList.drop n = (sampleTag key nonce aad plain).toList then some plain
    else none
  decryptCookie _ _ _ _ := none
where
  sampleTag {n : Nat} (key : Bytes32) (nonce : ByteArr 12) (aad : Bytes)
      (plain : ByteArr n) : ByteArr aeadSize :=
    beArray aeadSize (readBe key.toList + 3 * readBe nonce.toList + 5 * readBe aad +
      7 * readBe plain.toList)

theorem samplePrimitives_lawful : samplePrimitives.Lawful where
  dh_comm a b := by
    obtain ⟨a, ha⟩ := a
    obtain ⟨b, hb⟩ := b
    apply Subtype.ext
    exact List.zipWith_comm_of_comm fun x y => UInt8.xor_comm x y
  open_seal {n} key nonce aad plain := by
    have hplain : (⟨(plain.toList ++
      (samplePrimitives.sampleTag key nonce aad plain).toList).take n,
        by simp⟩ : ByteArr n) = plain := Subtype.ext (List.take_left' plain.toList_length)
    simp only [samplePrimitives, List.Vector.toList_mk, hplain,
      List.drop_left' plain.toList_length, if_true]

end Xelt.Boringtun.Noise.Crypto
