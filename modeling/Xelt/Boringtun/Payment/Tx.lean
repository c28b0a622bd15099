import Xelt.Lib.Rlp
import Xelt.Boringtun.Payment.Eip3009

/-!
# Transactions

The RLP encoders of `payment/tx.rs`, and the EIP-1559 transactions that are
signed with them. Integers lose their leading zeros on the way, the two halves
of a signature do not.
-/

namespace Xelt.Boringtun.Payment

open Bytes

-- ---------------------------------------------------------------------------
-- RLP encoding
-- ---------------------------------------------------------------------------

/-- The bytes from the first one that is not zero. -/
def fromNonzero (last : Nat) (be : Bytes) : Bytes :=
  be.drop ((be.findIdx? fun b => b ≠ 0).getD last)

def encodeLength (len : Nat) : Bytes := fromNonzero 7 (beBytes 8 len)

/-- A payload behind its length. -/
def rlpFrame (short long : UInt8) (payload : Bytes) : Bytes :=
  if payload.length ≤ 55 then (short + UInt8.ofNat payload.length) :: payload
  else
    let lenBytes := encodeLength payload.length
    (long + UInt8.ofNat lenBytes.length) :: (lenBytes ++ payload)

def rlpEncodeBytes (data : Bytes) : Bytes :=
  if data.length = 1 ∧ data.getD 0 0 < 0x80 then [data.getD 0 0] else rlpFrame 0x80 0xb7 data

def rlpEncodeList (items : List Bytes) : Bytes := rlpFrame 0xc0 0xf7 items.flatten

def rlpEncodeUint (value : UInt64) : Bytes :=
  if value = 0 then [0x80] else rlpEncodeBytes (fromNonzero 7 (beBytes 8 value.toNat))

def rlpEncodeU128 (value : BitVec 128) : Bytes :=
  if value = 0 then [0x80] else rlpEncodeBytes (fromNonzero 15 (beBytes 16 value.toNat))

-- ---------------------------------------------------------------------------
-- What the encoders write
-- ---------------------------------------------------------------------------

theorem fromNonzero_eq (h : readBe be ≠ 0) : fromNonzero last be = be.dropWhile (· == 0) := by
  have hex : ∃ b ∈ be, b ≠ 0 := by
    by_contra hall
    push Not at hall
    refine h ?_
    have hnil : be.dropWhile (· == 0) = [] :=
      List.dropWhile_eq_nil_iff.mpr fun b hb => by simp [hall b hb]
    rw [← readBe_dropWhile, hnil]
    rfl
  have hfind : be.findIdx? (fun b => b ≠ 0) = some (be.findIdx fun b => b ≠ 0) := by
    rw [List.findIdx?_eq_some_iff_findIdx_eq]
    refine ⟨List.findIdx_lt_length.mpr ?_, rfl⟩
    simpa using hex
  rw [fromNonzero, hfind, Option.getD_some, List.dropWhile_eq_drop_findIdx_not]
  congr 2
  funext b
  by_cases hb : b = 0 <;> simp [hb]

theorem fromNonzero_numeral (h0 : n ≠ 0) (h : n < 256 ^ width) :
    fromNonzero last (beBytes width n) = numeral n := by
  have hread : readBe (beBytes width n) = n := readBe_beBytes_of_lt h
  rw [fromNonzero_eq (hread.symm ▸ h0)]
  refine (minimal_dropWhile _).inj (minimal_numeral n) ?_
  rw [readBe_dropWhile, hread, readBe_numeral]

theorem encodeLength_length (len : Nat) : (encodeLength len).length ≤ 8 := by
  rw [encodeLength, fromNonzero, List.length_drop, length_beBytes]
  omega

theorem framed_rlpFrame (base : Nat) (h : payload.length < 2 ^ 64) :
    Rlp.Framed base payload (rlpFrame (UInt8.ofNat base) (UInt8.ofNat (base + 55)) payload) := by
  constructor
  unfold rlpFrame
  split
  · rename_i hle
    exact .inl ⟨hle, by rw [UInt8.ofNat_add]⟩
  · rename_i hgt
    have hlen : encodeLength payload.length = numeral payload.length :=
      fromNonzero_numeral (by omega) h
    refine .inr ⟨encodeLength payload.length, by omega, ?_, encodeLength_length _, ?_,
      by rw [UInt8.ofNat_add (base + 55)]⟩
    · rw [hlen]
      exact minimal_numeral _
    · rw [hlen, readBe_numeral]

theorem encodes_rlpEncodeBytes (h : data.length < 2 ^ 64) :
    Rlp.Encodes (rlpEncodeBytes data) (.str data) := by
  unfold rlpEncodeBytes
  split
  · rename_i hsmall
    obtain ⟨b, rfl⟩ := List.length_eq_one_iff.mp hsmall.1
    exact Rlp.encodes_single (UInt8.lt_iff_toNat_lt.mp hsmall.2)
  · rename_i hbig
    refine (framed_rlpFrame 0x80 h).encodes_str fun hsmall => hbig ⟨hsmall.1, ?_⟩
    exact UInt8.lt_iff_toNat_lt.mpr hsmall.2

theorem encodes_rlpEncodeList (hitems : List.Forall₂ Rlp.Encodes encodings items)
    (h : encodings.flatten.length < 2 ^ 64) :
    Rlp.Encodes (rlpEncodeList encodings) (.list items) :=
  (framed_rlpFrame 0xc0 h).encodes_list hitems

theorem encodes_rlpEncodeUint (value : UInt64) :
    Rlp.Encodes (rlpEncodeUint value) (.str (numeral value.toNat)) := by
  unfold rlpEncodeUint
  split
  · rename_i hzero
    subst hzero
    exact encodes_rlpEncodeBytes (List.length_nil ▸ Nat.two_pow_pos 64)
  · rename_i hpos
    have h0 : value.toNat ≠ 0 := fun h => hpos (UInt64.toNat_inj.mp h)
    have hnum : fromNonzero 7 (beBytes 8 value.toNat) = numeral value.toNat :=
      fromNonzero_numeral h0 value.toNat_lt
    rw [← hnum]
    refine encodes_rlpEncodeBytes ?_
    rw [fromNonzero, List.length_drop, length_beBytes]
    omega

theorem encodes_rlpEncodeU128 (value : BitVec 128) :
    Rlp.Encodes (rlpEncodeU128 value) (.str (numeral value.toNat)) := by
  unfold rlpEncodeU128
  split
  · rename_i hzero
    subst hzero
    exact encodes_rlpEncodeBytes (List.length_nil ▸ Nat.two_pow_pos 64)
  · rename_i hpos
    have h0 : value.toNat ≠ 0 := fun h => hpos (BitVec.eq_of_toNat_eq h)
    have hnum : fromNonzero 15 (beBytes 16 value.toNat) = numeral value.toNat :=
      fromNonzero_numeral h0 value.isLt
    rw [← hnum]
    refine encodes_rlpEncodeBytes ?_
    rw [fromNonzero, List.length_drop, length_beBytes]
    omega

-- ---------------------------------------------------------------------------
-- Nested values
-- ---------------------------------------------------------------------------

/-- What can be put together with the encoders. -/
inductive RlpValue
  | uint (value : UInt64)
  | u128 (value : BitVec 128)
  | bytes (data : Bytes)
  | list (items : List RlpValue)

namespace RlpValue

mutual

def encode : RlpValue → Bytes
  | uint value => rlpEncodeUint value
  | u128 value => rlpEncodeU128 value
  | bytes data => rlpEncodeBytes data
  | list items => rlpEncodeList (encodeItems items)

def encodeItems : List RlpValue → List Bytes
  | [] => []
  | value :: values => encode value :: encodeItems values

end

mutual

/-- Its structure, of byte strings: an integer is its bytes without leading zeros. -/
def item : RlpValue → Rlp.Item
  | uint value => .str (numeral value.toNat)
  | u128 value => .str (numeral value.toNat)
  | bytes data => .str data
  | list values => .list (items values)

def items : List RlpValue → List Rlp.Item
  | [] => []
  | value :: values => item value :: items values

end

mutual

/-- Every byte string and every payload has a length below `2^64`. -/
def Fits : RlpValue → Prop
  | uint _ | u128 _ => True
  | bytes data => data.length < 2 ^ 64
  | list values => (encodeItems values).flatten.length < 2 ^ 64 ∧ AllFit values

def AllFit : List RlpValue → Prop
  | [] => True
  | value :: values => Fits value ∧ AllFit values

end

mutual

theorem encodes : ∀ v : RlpValue, v.Fits → Rlp.Encodes v.encode v.item
  | uint value, _ => encodes_rlpEncodeUint value
  | u128 value, _ => encodes_rlpEncodeU128 value
  | bytes _, h => encodes_rlpEncodeBytes h
  | list values, h => encodes_rlpEncodeList (encodes_items values h.2) h.1

theorem encodes_items : ∀ values : List RlpValue, AllFit values →
    List.Forall₂ Rlp.Encodes (encodeItems values) (items values)
  | [], _ => .nil
  | value :: values, h => .cons (encodes value h.1) (encodes_items values h.2)

end

/-- What has been encoded is read back, whatever follows it; so an encoding
determines its value, and is the beginning of no other one. -/
theorem decode_encode (v : RlpValue) (hv : v.Fits) :
    (∀ rest, Rlp.decode (v.encode ++ rest) = some (v.item, rest)) ∧
      ∀ w : RlpValue, w.Fits → v.encode <+: w.encode → v.encode = w.encode ∧ v.item = w.item := by
  have hencodes := encodes v hv
  refine ⟨hencodes, fun w hw hprefix => ?_⟩
  obtain ⟨rest, hrest⟩ := hprefix
  have hboth : v.encode ++ rest = w.encode ++ [] := by rw [hrest, List.append_nil]
  obtain ⟨hitem, rfl⟩ := hencodes.unique (encodes w hw) hboth
  exact ⟨by simpa using hrest, hitem⟩

theorem decode_encode_sample :
    Rlp.decode (list [uint 1024, bytes [], list [u128 0]]).encode =
      some (.list [.str [4, 0], .str [], .list [.str []]], []) := by
  have h := (decode_encode (list [uint 1024, bytes [], list [u128 0]])
    ⟨by decide, trivial, Nat.two_pow_pos 64, ⟨by decide, trivial, trivial⟩, trivial⟩).1 []
  rw [List.append_nil] at h
  exact h

end RlpValue

-- ---------------------------------------------------------------------------
-- Transactions
-- ---------------------------------------------------------------------------

/-- EIP-1559 (Type 2) transaction. -/
structure Eip1559Tx where
  chainId : UInt64
  nonce : UInt64
  maxPriorityFeePerGas : BitVec 128
  maxFeePerGas : BitVec 128
  gasLimit : UInt64
  toAddr : Address
  value : BitVec 128
  data : Bytes
  /-- No vector is longer. -/
  data_lt : data.length < 2 ^ 63

/-- A signature with its recovery id. -/
structure RecoverableSignature where
  r : Bytes32
  s : Bytes32
  recoveryId : UInt8
  deriving DecidableEq

namespace Eip1559Tx

variable (tx : Eip1559Tx)

def rlpFields : List Bytes :=
  [rlpEncodeUint tx.chainId,
    rlpEncodeUint tx.nonce,
    rlpEncodeU128 tx.maxPriorityFeePerGas,
    rlpEncodeU128 tx.maxFeePerGas,
    rlpEncodeUint tx.gasLimit,
    rlpEncodeBytes tx.toAddr.toList,
    rlpEncodeU128 tx.value,
    rlpEncodeBytes tx.data,
    rlpEncodeList []]

def preimage : Bytes := 0x02 :: rlpEncodeList tx.rlpFields

def signingHash (keccak256 : Bytes → Bytes32) : Bytes32 := keccak256 tx.preimage

/-- The bytes for `eth_sendRawTransaction`; `none` is a panic, where the library
cannot sign. -/
def sign (keccak256 : Bytes → Bytes32)
    (signPrehash : Bytes32 → Bytes32 → Option RecoverableSignature) (key : Bytes32) :
    Option Bytes :=
  (signPrehash key (tx.signingHash keccak256)).map fun signature =>
    0x02 :: rlpEncodeList (tx.rlpFields ++
      [rlpEncodeUint (UInt64.ofNat signature.recoveryId.toNat),
        rlpEncodeBytes signature.r.toList,
        rlpEncodeBytes signature.s.toList])

def items : List Rlp.Item :=
  [.str (numeral tx.chainId.toNat),
    .str (numeral tx.nonce.toNat),
    .str (numeral tx.maxPriorityFeePerGas.toNat),
    .str (numeral tx.maxFeePerGas.toNat),
    .str (numeral tx.gasLimit.toNat),
    .str tx.toAddr.toList,
    .str (numeral tx.value.toNat),
    .str tx.data,
    .list []]

/-- A typed transaction as the nodes read it: a list of twelve items, the
first nine of them hashed, every integer without leading zeros. -/
structure Canonical (signature : RecoverableSignature) (raw : Bytes) : Prop where
  hashed : ∃ bytes, tx.preimage = 0x02 :: bytes ∧ Rlp.decode bytes = some (.list tx.items, [])
  listed : ∃ bytes, raw = 0x02 :: bytes ∧
    Rlp.decode bytes = some (.list (tx.items ++
      [.str (numeral signature.recoveryId.toNat),
        .str (numeral (readBe signature.r.toList)),
        .str (numeral (readBe signature.s.toList))]), [])

variable {tx}

theorem encodes_rlpFields (tx : Eip1559Tx) : List.Forall₂ Rlp.Encodes tx.rlpFields tx.items := by
  have hto : tx.toAddr.toList.length < 2 ^ 64 := by simp
  have hdata : tx.data.length < 2 ^ 64 := by
    have h := tx.data_lt
    omega
  exact .cons (encodes_rlpEncodeUint _) <| .cons (encodes_rlpEncodeUint _) <|
    .cons (encodes_rlpEncodeU128 _) <| .cons (encodes_rlpEncodeU128 _) <|
    .cons (encodes_rlpEncodeUint _) <| .cons (encodes_rlpEncodeBytes hto) <|
    .cons (encodes_rlpEncodeU128 _) <| .cons (encodes_rlpEncodeBytes hdata) <|
    .cons (encodes_rlpEncodeList .nil (by simp)) .nil

theorem length_rlpFrame (payload : Bytes) :
    (rlpFrame short long payload).length ≤ 9 + payload.length := by
  unfold rlpFrame
  split
  · simp only [List.length_cons]
    omega
  · have h := encodeLength_length payload.length
    simp only [List.length_cons, List.length_append]
    omega

theorem length_rlpEncodeBytes (data : Bytes) : (rlpEncodeBytes data).length ≤ 9 + data.length := by
  unfold rlpEncodeBytes
  split
  · rw [List.length_singleton]
    omega
  · exact length_rlpFrame data

theorem length_fromNonzero (last : Nat) (be : Bytes) :
    (fromNonzero last be).length ≤ be.length := by
  simp [fromNonzero]

theorem length_rlpEncodeUint (value : UInt64) : (rlpEncodeUint value).length ≤ 17 := by
  unfold rlpEncodeUint
  split
  · simp
  · refine (length_rlpEncodeBytes _).trans ?_
    have h := length_fromNonzero 7 (beBytes 8 value.toNat)
    rw [length_beBytes] at h
    omega

theorem length_rlpEncodeU128 (value : BitVec 128) : (rlpEncodeU128 value).length ≤ 25 := by
  unfold rlpEncodeU128
  split
  · simp
  · refine (length_rlpEncodeBytes _).trans ?_
    have h := length_fromNonzero 15 (beBytes 16 value.toNat)
    rw [length_beBytes] at h
    omega

theorem length_rlpFields (tx : Eip1559Tx) : tx.rlpFields.flatten.length ≤ 256 + tx.data.length := by
  have hchain := length_rlpEncodeUint tx.chainId
  have hnonce := length_rlpEncodeUint tx.nonce
  have htip := length_rlpEncodeU128 tx.maxPriorityFeePerGas
  have hfee := length_rlpEncodeU128 tx.maxFeePerGas
  have hgas := length_rlpEncodeUint tx.gasLimit
  have hto := length_rlpEncodeBytes tx.toAddr.toList
  have hvalue := length_rlpEncodeU128 tx.value
  have hdata := length_rlpEncodeBytes tx.data
  have hlist : (rlpEncodeList []).length = 1 := rfl
  simp only [rlpFields, List.flatten_cons, List.flatten_nil, List.length_append, List.length_nil,
    hlist]
  rw [List.Vector.toList_length] at hto
  omega

theorem decode_signed (signature : RecoverableSignature) :
    Rlp.decode (rlpEncodeList (tx.rlpFields ++
      [rlpEncodeUint (UInt64.ofNat signature.recoveryId.toNat),
        rlpEncodeBytes signature.r.toList,
        rlpEncodeBytes signature.s.toList])) =
      some (.list (tx.items ++
        [.str (numeral signature.recoveryId.toNat),
          .str signature.r.toList,
          .str signature.s.toList]), []) := by
  have hdata := tx.data_lt
  have hfields := tx.length_rlpFields
  have hr : signature.r.toList.length < 2 ^ 64 := by simp
  have hs : signature.s.toList.length < 2 ^ 64 := by simp
  have hid : (UInt64.ofNat signature.recoveryId.toNat).toNat = signature.recoveryId.toNat := by
    have h := signature.recoveryId.toNat_lt
    rw [UInt64.toNat_ofNat', Nat.mod_eq_of_lt (by omega)]
  have hsigned := List.rel_append tx.encodes_rlpFields
    (.cons (encodes_rlpEncodeUint (UInt64.ofNat signature.recoveryId.toNat)) <|
      .cons (encodes_rlpEncodeBytes hr) <| .cons (encodes_rlpEncodeBytes hs) .nil)
  have hsize : (tx.rlpFields ++ [rlpEncodeUint (UInt64.ofNat signature.recoveryId.toNat),
      rlpEncodeBytes signature.r.toList, rlpEncodeBytes signature.s.toList]).flatten.length <
        2 ^ 64 := by
    have h1 := length_rlpEncodeUint (UInt64.ofNat signature.recoveryId.toNat)
    have h2 := length_rlpEncodeBytes signature.r.toList
    have h3 := length_rlpEncodeBytes signature.s.toList
    rw [List.Vector.toList_length] at h2 h3
    simp only [List.flatten_append, List.flatten_cons, List.flatten_nil, List.length_append,
      List.length_nil]
    omega
  have hdecode := encodes_rlpEncodeList hsigned hsize []
  rwa [List.append_nil, hid] at hdecode

theorem decode_hashed : Rlp.decode (rlpEncodeList tx.rlpFields) = some (.list tx.items, []) := by
  have hdata := tx.data_lt
  have hfields := tx.length_rlpFields
  have hdecode := encodes_rlpEncodeList tx.encodes_rlpFields (by omega) []
  rwa [List.append_nil] at hdecode

theorem Canonical.minimal (hs : signPrehash key (tx.signingHash keccak256) = some signature)
    (hraw : tx.sign keccak256 signPrehash key = some raw) (h : tx.Canonical signature raw) :
    Minimal signature.r.toList ∧ Minimal signature.s.toList := by
  obtain ⟨bytes, rfl, hdecode⟩ := h.listed
  rw [sign, hs, Option.map_some, Option.some.injEq, List.cons.injEq] at hraw
  have hitems := (decode_signed signature).symm.trans (hraw.2 ▸ hdecode)
  simp only [Option.some.injEq, Prod.mk.injEq, Rlp.Item.list.injEq, List.append_cancel_left_eq,
    List.cons.injEq, Rlp.Item.str.injEq, and_true, true_and] at hitems
  rw [hitems.1, hitems.2]
  exact ⟨minimal_numeral _, minimal_numeral _⟩

/-- The transaction is canonical exactly when neither half of its signature
begins with a zero byte. -/
theorem sign_canonical_iff
    (hs : signPrehash key (tx.signingHash keccak256) = some signature) :
    (∃ raw, tx.sign keccak256 signPrehash key = some raw ∧ tx.Canonical signature raw) ↔
      Minimal signature.r.toList ∧ Minimal signature.s.toList := by
  constructor
  · rintro ⟨raw, hraw, hcanonical⟩
    exact hcanonical.minimal hs hraw
  · rintro ⟨hr, hs'⟩
    refine ⟨_, by rw [sign, hs, Option.map_some], ⟨⟨_, rfl, decode_hashed⟩, ⟨_, rfl, ?_⟩⟩⟩
    rw [← hr.inj (minimal_numeral _) (readBe_numeral _).symm,
      ← hs'.inj (minimal_numeral _) (readBe_numeral _).symm]
    exact decode_signed signature

-- ---------------------------------------------------------------------------
-- Approvals by one account
-- ---------------------------------------------------------------------------

def sample (nonce : UInt64) : Eip1559Tx where
  chainId := 5042002
  nonce
  maxPriorityFeePerGas := 1000000
  maxFeePerGas := 2000000
  gasLimit := 60000
  toAddr := ⟨List.replicate 20 0xaa, rfl⟩
  value := 0
  data := [0x09, 0x5e, 0xa7, 0xb3]
  data_lt := by decide

def firstHash : Bytes32 :=
  beArray 32 0x730ad3de1349e331614d37ed99bae28f7d5bc0a1623b51ec79da2e6a31010aab

def laterHash : Bytes32 :=
  beArray 32 0x51ad90d4b83d92a530620eb11581ac99559c28f6edf81b269c7b312558fa6f49

/-- The hashes of the first transaction and of the 383rd one. -/
def sampleKeccak (input : Bytes) : Bytes32 :=
  if input = (sample 0).preimage then firstHash else laterHash

def firstSignature : RecoverableSignature where
  r := beArray 32 0xc4213f1c0f00e3140b35c2c0d19be3713ce8bb4f06a067ec0dc709bc8f337b8e
  s := beArray 32 0x71437c89ad0b8bd4ea4e8bead41f7e6c634c0e4eac42a2cccd031f047945fa07
  recoveryId := 1

/-- Of 256 signatures about one has such an `r`. -/
def laterSignature : RecoverableSignature where
  r := beArray 32 0x00f692a5faf94ec11bc38c6f9900e53477bc0174e20c3321396cbe8c1ecd7124
  s := beArray 32 0x1ebcd463a2de8d5da603bfddaa46416baa3b106f52bc58a72b519248e2ec0baf
  recoveryId := 1

/-- The signatures of these hashes with the key of 32 ones. -/
def sampleSign (_key hash : Bytes32) : Option RecoverableSignature :=
  if hash = firstHash then some firstSignature else some laterSignature

def sampleKey : Bytes32 := ⟨List.replicate 32 1, rfl⟩

theorem sign_canonical_first :
    ∃ raw, (sample 0).sign sampleKeccak sampleSign sampleKey = some raw ∧
      (sample 0).Canonical firstSignature raw := by
  have hs : sampleSign sampleKey ((sample 0).signingHash sampleKeccak) = some firstSignature := by
    decide +kernel
  exact (sign_canonical_iff hs).mpr ⟨by decide +kernel, by decide +kernel⟩

theorem sign_not_canonical :
    sampleSign sampleKey ((sample 382).signingHash sampleKeccak) = some laterSignature ∧
      ∀ raw, (sample 382).sign sampleKeccak sampleSign sampleKey = some raw →
        ¬ (sample 382).Canonical laterSignature raw := by
  have hs : sampleSign sampleKey ((sample 382).signingHash sampleKeccak) = some laterSignature := by
    decide +kernel
  refine ⟨hs, fun raw hraw hcanonical => ?_⟩
  have hminimal : ¬ Minimal laterSignature.r.toList := by decide +kernel
  exact hminimal (hcanonical.minimal hs hraw).1

end Eip1559Tx

end Xelt.Boringtun.Payment
