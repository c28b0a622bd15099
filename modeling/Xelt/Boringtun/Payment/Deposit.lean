import Xelt.Lib.Text
import Xelt.Boringtun.Payment.Tx

/-!
# The deposit

A client that starts up puts the USDC of its wallet into the gateway contract,
as `payment/deposit.rs` does: it signs an EIP-3009 authorization, wraps it in a
call of `depositWithAuthorization` and submits that as a transaction. Of the
node behind `payment/rpc.rs` there are its answers.
-/

namespace Xelt.Boringtun.Payment.Deposit

open Bytes

-- ---------------------------------------------------------------------------
-- The node
-- ---------------------------------------------------------------------------

/-- The answers of a node. A receipt comes with its status, if it has one, after
a number of attempts. -/
structure RpcClient where
  ethCall : Address → Bytes → Except String Bytes
  getNonce : Address → Except String UInt64
  gasPrice : Except String (BitVec 128)
  maxPriorityFee : Except String (BitVec 128)
  estimateGas : Address → Address → Bytes → Except String UInt64
  sendRawTx : Bytes → Except String String
  getReceipt : Nat → String → Except String (Option (Option String))

namespace RpcClient

def receiptFrom (rpc : RpcClient) (txHash : String) (attempt : Nat) : Nat → Except String Bool
  | 0 => .error "timeout waiting for receipt"
  | left + 1 =>
    match rpc.getReceipt attempt txHash with
    | .error e => .error e
    | .ok (some status) => .ok (status.getD "0x0" == "0x1")
    | .ok none => rpc.receiptFrom txHash (attempt + 1) left

def waitForReceipt (rpc : RpcClient) (txHash : String) (maxAttempts : Nat) : Except String Bool :=
  rpc.receiptFrom txHash 0 maxAttempts

end RpcClient

/-- The low 128 bits of the last word. -/
def parseU256Result (data : Bytes) : BitVec 128 :=
  if data.length < 32 then 0 else BitVec.ofNat 128 (readBe (data.drop (data.length - 16)))

-- ---------------------------------------------------------------------------
-- The transaction
-- ---------------------------------------------------------------------------

structure DepositConfig extends PaymentConfig where
  usdcName : String
  usdcVersion : String

/-- EIP-712 domain for the USDC contract. -/
def DepositConfig.usdcDomain (c : DepositConfig) : Eip712Domain where
  name := c.usdcName
  version := c.usdcVersion
  chainId := c.chainId
  verifyingContract := c.usdcContract

def selBalanceOf : Bytes := [0x70, 0xa0, 0x82, 0x31]

def selAvailableBalance : Bytes := [0x3c, 0xcb, 0x64, 0xae]

def selDepositWithAuth : Bytes := [0x8a, 0x94, 0xd4, 0xfc]

def abiEncodeU256 (value : BitVec 128) : Bytes := List.replicate 16 0 ++ beBytes 16 value.toNat

/-- The libraries, the node, the clock and the random bytes of a deposit. -/
structure Env where
  prim : Primitives
  signPrehash : Bytes32 → Bytes32 → Option RecoverableSignature
  rpc : RpcClient
  now : UInt64
  random : Bytes32

def receiveType : Bytes :=
  utf8 ("ReceiveWithAuthorization(address from,address to,uint256 value," ++
    "uint256 validAfter,uint256 validBefore,bytes32 nonce)")

def receiveTypeHash (prim : Primitives) : Bytes32 := prim.keccak256 receiveType

def receiveDigest (prim : Primitives) (domain : Eip712Domain) (fromAddr toAddr : Address)
    (amount : BitVec 128) (validAfter validBefore : UInt64) (nonce : Bytes32) : Bytes32 :=
  let structHash := prim.keccak256
    ((receiveTypeHash prim).toList ++ abiEncodeAddress fromAddr ++ abiEncodeAddress toAddr ++
      abiEncodeU256 amount ++ abiEncodeU256 (BitVec.ofNat 128 validAfter.toNat) ++
      abiEncodeU256 (BitVec.ofNat 128 validBefore.toNat) ++ nonce.toList)
  prim.keccak256
    ([0x19, 0x01] ++ (computeDomainSeparator prim domain).toList ++ structHash.toList)

section
variable (env : Env) (wallet : PaymentWallet) (config : DepositConfig)

def calldata (amount : BitVec 128) : Bytes :=
  let addr := wallet.ethereumAddress
  let validAfter : UInt64 := 0
  let validBefore := env.now + 600
  let signed := env.prim.signDigest wallet (receiveDigest env.prim config.usdcDomain addr
    config.gatewayWallet amount validAfter validBefore env.random)
  selDepositWithAuth ++ (abiEncodeAddress config.usdcContract ++ (abiEncodeAddress addr ++
    (abiEncodeU256 amount ++ (abiEncodeU256 (BitVec.ofNat 128 validAfter.toNat) ++
      (abiEncodeU256 (BitVec.ofNat 128 validBefore.toNat) ++ (env.random.toList ++
        (abiEncodeU256 (BitVec.ofNat 128 signed.1.toNat) ++ (signed.2.1.toList ++
          signed.2.2.toList))))))))

@[simp] theorem length_encodeU256 (value : BitVec 128) : (abiEncodeU256 value).length = 32 := by
  simp [abiEncodeU256]

@[simp] theorem length_encodeAddress (addr : Address) : (abiEncodeAddress addr).length = 32 := by
  simp [abiEncodeAddress]

theorem length_calldata (amount : BitVec 128) :
    (calldata env wallet config amount).length = 292 := by
  simp [calldata, selDepositWithAuth]

def depositTx (amount : BitVec 128) (txNonce : UInt64) (priorityFee baseFee : BitVec 128) :
    Eip1559Tx where
  chainId := config.chainId
  nonce := txNonce
  maxPriorityFeePerGas := priorityFee
  maxFeePerGas := BitVec.ofNat 128 (min (baseFee.toNat + priorityFee.toNat) (2 ^ 128 - 1))
  gasLimit :=
    -- 30% buffer
    match env.rpc.estimateGas wallet.ethereumAddress config.gatewayWallet
      (calldata env wallet config amount) with
    | .ok gas => gas * 130 / 100
    | .error _ => 200000
  toAddr := config.gatewayWallet
  value := 0
  data := calldata env wallet config amount
  data_lt := by
    rw [length_calldata]
    decide

/-- The transactions it submits, and its answer; `none` is a panic. -/
def depositWithAuthorization (amount : BitVec 128) :
    Option (List Bytes × Except String String) :=
  match env.rpc.getNonce wallet.ethereumAddress with
  | .error e => some ([], .error e)
  | .ok txNonce =>
    let priorityFee := match env.rpc.maxPriorityFee with
      | .ok fee => fee
      | .error _ => 1000000
    match env.rpc.gasPrice with
    | .error e => some ([], .error e)
    | .ok baseFee =>
      let tx := depositTx env wallet config amount txNonce priorityFee baseFee
      (tx.sign env.prim.keccak256 env.signPrehash wallet.signingKey).map fun raw =>
        ([raw], env.rpc.sendRawTx raw)

end

def queryBalance (rpc : RpcClient) (token addr : Address) : Except String (BitVec 128) :=
  (rpc.ethCall token (selBalanceOf ++ abiEncodeAddress addr)).map parseU256Result

def queryGatewayBalance (rpc : RpcClient) (gateway token addr : Address) :
    Except String (BitVec 128) :=
  (rpc.ethCall gateway
    (selAvailableBalance ++ abiEncodeAddress token ++ abiEncodeAddress addr)).map parseU256Result

/-- 0.1 USDC, kept for gas. -/
def gasReserve : Nat := 100000

/-- The end of `autoDeposit`: what was submitted waits for its receipt. -/
def awaitDeposit (rpc : RpcClient) :
    List Bytes × Except String String → List Bytes × Except String String
  | (sent, .error e) => (sent, .error e)
  | (sent, .ok txHash) =>
    match rpc.waitForReceipt txHash 30 with
    | .error e => (sent, .error e)
    | .ok true => (sent, .ok txHash)
    | .ok false => (sent, .error ("Deposit tx reverted: " ++ txHash))

/-- Deposits what the wallet has, but for the reserve. -/
def autoDeposit (env : Env) (wallet : PaymentWallet) (config : DepositConfig) :
    Option (List Bytes × Except String String) :=
  let addr := wallet.ethereumAddress
  match queryBalance env.rpc config.usdcContract addr with
  | .error e => some ([], .error e)
  | .ok usdcBalance =>
    match queryGatewayBalance env.rpc config.gatewayWallet config.usdcContract addr with
    | .error e => some ([], .error e)
    | .ok gwBalance =>
      if usdcBalance = 0 ∧ gwBalance = 0 then
        some ([], .error ("No USDC available. Fund wallet with USDC on Arc testnet: 0x" ++
          .ofList (Text.hexEncode addr.toList)))
      else if usdcBalance = 0 then some ([], .ok "already_deposited")
      else
        let depositAmount := BitVec.ofNat 128 (usdcBalance.toNat - gasReserve)
        if depositAmount = 0 then
          some ([], .error "USDC balance too low to deposit (need >1 USDC for gas reserve)")
        else
          (depositWithAuthorization env wallet config depositAmount).map (awaitDeposit env.rpc)

-- ---------------------------------------------------------------------------
-- What the contracts read
-- ---------------------------------------------------------------------------

/-- The first `n` words of a string. -/
def words : Nat → Bytes → List Bytes
  | 0, _ => []
  | n + 1, b => b.take 32 :: words n (b.drop 32)

theorem words_append (h : w.length = 32) : words (n + 1) (w ++ b) = w :: words n b := by
  simp [words, ← h]

theorem words_last (h : w.length = 32) : words 1 w = [w] := by
  simp [words, ← h]

def readAddress (w : Bytes) : Option Address :=
  if h : w.length = 32 ∧ w.take 12 = List.replicate 12 0 then some ⟨w.drop 12, by simp [h.1]⟩
  else none

def readWord (w : Bytes) : Option Bytes32 := if h : w.length = 32 then some ⟨w, h⟩ else none

@[simp] theorem readAddress_encode (addr : Address) :
    readAddress (abiEncodeAddress addr) = some addr := by
  have h : (abiEncodeAddress addr).length = 32 ∧
      (abiEncodeAddress addr).take 12 = List.replicate 12 0 := by
    simp [abiEncodeAddress]
  rw [readAddress, dif_pos h]
  exact congrArg some (Subtype.ext (by simp [abiEncodeAddress, List.Vector.toList]))

@[simp] theorem readWord_toList (w : Bytes32) : readWord w.toList = some w := by
  rw [readWord, dif_pos w.toList_length]
  rfl

theorem beBytes_add (k : Nat) (h : n < 256 ^ width) :
    beBytes (k + width) n = List.replicate k 0 ++ beBytes width n := by
  induction k with
  | zero => rw [Nat.zero_add]; rfl
  | succ k ih =>
    have hlt : n < 256 ^ (k + width) :=
      h.trans_le (Nat.pow_le_pow_right (by decide) (Nat.le_add_left ..))
    rw [Nat.succ_add, beBytes, ih, Nat.div_eq_of_lt hlt]
    rfl

/-- A word of the encoder is the 256-bit word of the number. -/
theorem abiEncodeU256_eq (value : BitVec 128) : abiEncodeU256 value = beBytes 32 value.toNat :=
  (beBytes_add 16 (value.isLt.trans_le (by norm_num))).symm

@[simp] theorem readBe_encodeU256 (value : BitVec 128) :
    readBe (abiEncodeU256 value) = value.toNat := by
  rw [abiEncodeU256_eq]
  exact readBe_beBytes_of_lt (value.isLt.trans_le (by norm_num))

/-- A call of `depositWithAuthorization`. -/
structure DepositCall where
  token : Address
  fromAddr : Address
  value : Nat
  validAfter : Nat
  validBefore : Nat
  nonce : Bytes32
  v : Nat
  r : Bytes32
  s : Bytes32

namespace DepositCall

def read (data : Bytes) : Option DepositCall :=
  if data.take 4 = selDepositWithAuth ∧ data.length = 4 + 9 * 32 then
    match words 9 (data.drop 4) with
    | [token, fromAddr, value, validAfter, validBefore, nonce, v, r, s] => do
      return ⟨← readAddress token, ← readAddress fromAddr, readBe value, readBe validAfter,
        readBe validBefore, ← readWord nonce, readBe v, ← readWord r, ← readWord s⟩
    | _ => none
  else none

/-- What the token hashes: all numbers are words of 256 bits. -/
def digest (prim : Primitives) (domain : Eip712Domain) (toAddr : Address) (c : DepositCall) :
    Bytes32 :=
  let structHash := prim.keccak256
    ((receiveTypeHash prim).toList ++ abiEncodeAddress c.fromAddr ++ abiEncodeAddress toAddr ++
      beBytes 32 c.value ++ beBytes 32 c.validAfter ++ beBytes 32 c.validBefore ++ c.nonce.toList)
  prim.keccak256
    ([0x19, 0x01] ++ (computeDomainSeparator prim domain).toList ++ structHash.toList)

/-- The token lets `toAddr` have the payer's money: the payer has signed for it,
and now is in the time that the payer gives. -/
structure Authorized (prim : Primitives) (domain : Eip712Domain) (toAddr : Address) (now : Nat)
    (c : DepositCall) : Prop where
  token : c.token = domain.verifyingContract
  v_lt : c.v < 256
  signed : prim.recoverAddress (c.digest prim domain toAddr) (UInt8.ofNat c.v) c.r c.s =
    some c.fromAddr
  after : c.validAfter < now
  before : now < c.validBefore

end DepositCall

/-- A typed transaction as a node reads it: chain, receiver, value, data. Whether
it takes the halves of the signature is `Eip1559Tx.Canonical`. -/
def readTx : Bytes → Option (Nat × Bytes × Nat × Bytes)
  | 0x02 :: bytes =>
    match Rlp.decode bytes with
    | some (.list [.str chainId, .str _, .str _, .str _, .str _, .str toAddr, .str value,
        .str data, .list [], .str _, .str _, .str _], []) =>
      some (readBe chainId, toAddr, readBe value, data)
    | _ => none
  | _ => none

theorem readTx_sign {tx : Eip1559Tx} (h : tx.sign keccak256 signPrehash key = some raw) :
    readTx raw = some (tx.chainId.toNat, tx.toAddr.toList, tx.value.toNat, tx.data) := by
  obtain ⟨signature, -, rfl⟩ := Option.map_eq_some_iff.mp h
  have hdecode := @Eip1559Tx.decode_signed tx signature
  simp only [Eip1559Tx.items, List.cons_append, List.nil_append] at hdecode
  simp only [readTx, hdecode, readBe_numeral]

-- ---------------------------------------------------------------------------
-- What it deposits
-- ---------------------------------------------------------------------------

variable {env : Env} {wallet : PaymentWallet} {config : DepositConfig}

/-- The call of a deposit. -/
def depositCall (env : Env) (wallet : PaymentWallet) (config : DepositConfig)
    (amount : BitVec 128) : DepositCall :=
  let signed := env.prim.signDigest wallet (receiveDigest env.prim config.usdcDomain
    wallet.ethereumAddress config.gatewayWallet amount 0 (env.now + 600) env.random)
  ⟨config.usdcContract, wallet.ethereumAddress, amount.toNat, 0, (env.now + 600).toNat,
    env.random, signed.1.toNat, signed.2.1, signed.2.2⟩

theorem ofNat_u64 (x : UInt64) : (BitVec.ofNat 128 x.toNat).toNat = x.toNat := by
  have h := x.toNat_lt
  rw [BitVec.toNat_ofNat, Nat.mod_eq_of_lt (by omega)]

theorem ofNat_u8 (x : UInt8) : (BitVec.ofNat 128 x.toNat).toNat = x.toNat := by
  have h := x.toNat_lt
  rw [BitVec.toNat_ofNat, Nat.mod_eq_of_lt (by omega)]

theorem read_calldata (amount : BitVec 128) :
    DepositCall.read (calldata env wallet config amount) =
      some (depositCall env wallet config amount) := by
  have hlen := length_calldata env wallet config amount
  rw [DepositCall.read, if_pos ⟨by simp [calldata, selDepositWithAuth], hlen⟩]
  have hdrop : ∀ rest, (selDepositWithAuth ++ rest).drop 4 = rest := fun _ => rfl
  unfold calldata
  rw [hdrop, words_append (by simp), words_append (by simp), words_append (by simp),
    words_append (by simp), words_append (by simp), words_append (by simp),
    words_append (by simp), words_append (by simp), words_last (by simp)]
  simp only [readAddress_encode, readWord_toList, readBe_encodeU256, ofNat_u64, ofNat_u8]
  rfl

theorem digest_depositCall (amount : BitVec 128) :
    (depositCall env wallet config amount).digest env.prim config.usdcDomain config.gatewayWallet =
      receiveDigest env.prim config.usdcDomain wallet.ethereumAddress config.gatewayWallet amount 0
        (env.now + 600) env.random := by
  unfold DepositCall.digest receiveDigest
  simp only [abiEncodeU256_eq, ofNat_u64]
  rfl

/-- The wallet's signatures are its address's. -/
def Signs (prim : Primitives) (wallet : PaymentWallet) : Prop :=
  ∀ digest, prim.recoverAddress digest (prim.signDigest wallet digest).1
    (prim.signDigest wallet digest).2.1 (prim.signDigest wallet digest).2.2 =
      some wallet.ethereumAddress

theorem authorized_depositCall (hsign : Signs env.prim wallet)
    (hclock : env.now.toNat + 600 < 2 ^ 64) (amount : BitVec 128) (hpos : 0 < now)
    (hnow : now < env.now.toNat + 600) :
    (depositCall env wallet config amount).Authorized env.prim config.usdcDomain
      config.gatewayWallet now where
  token := rfl
  v_lt := UInt8.toNat_lt _
  signed := by
    rw [digest_depositCall, depositCall, UInt8.ofNat_toNat]
    exact hsign _
  after := hpos
  before := by
    have hbefore : (env.now + 600).toNat = env.now.toNat + 600 := by
      exact (UInt64.toNat_add ..).trans (Nat.mod_eq_of_lt hclock)
    exact hnow.trans_eq hbefore.symm

theorem depositWithAuthorization_sends
    (h : depositWithAuthorization env wallet config amount = some (sent, res)) :
    (sent = [] ∧ ∃ e, res = .error e) ∨
      ∃ raw, sent = [raw] ∧ res = env.rpc.sendRawTx raw ∧
        readTx raw = some (config.chainId.toNat, config.gatewayWallet.toList, 0,
          calldata env wallet config amount) := by
  unfold depositWithAuthorization at h
  cases hnonce : env.rpc.getNonce wallet.ethereumAddress with
  | error e =>
    simp only [hnonce, Option.some.injEq, Prod.mk.injEq] at h
    obtain ⟨rfl, rfl⟩ := h
    exact .inl ⟨rfl, e, rfl⟩
  | ok txNonce =>
    cases hprice : env.rpc.gasPrice with
    | error e =>
      simp only [hnonce, hprice, Option.some.injEq, Prod.mk.injEq] at h
      obtain ⟨rfl, rfl⟩ := h
      exact .inl ⟨rfl, e, rfl⟩
    | ok baseFee =>
      simp only [hnonce, hprice] at h
      obtain ⟨raw, hraw, heq⟩ := Option.map_eq_some_iff.mp h
      obtain ⟨rfl, rfl⟩ := Prod.mk.inj heq
      exact .inr ⟨raw, rfl, rfl, readTx_sign hraw⟩

theorem awaitDeposit_ok {rpc : RpcClient} {sent sent' : List Bytes}
    (h : awaitDeposit rpc (sent, submitted) = (sent', res)) :
    sent' = sent ∧ ∀ txHash, res = .ok txHash →
      submitted = .ok txHash ∧ rpc.waitForReceipt txHash 30 = .ok true := by
  cases submitted with
  | error e =>
    cases h
    exact ⟨rfl, fun _ hok => by cases hok⟩
  | ok hash =>
    unfold awaitDeposit at h
    cases hwait : rpc.waitForReceipt hash 30 with
    | error e =>
      simp only [hwait] at h
      cases h
      exact ⟨rfl, fun _ hok => by cases hok⟩
    | ok success =>
      cases success with
      | true =>
        simp only [hwait] at h
        cases h
        refine ⟨rfl, fun _ hok => ?_⟩
        cases hok
        exact ⟨rfl, hwait⟩
      | false =>
        simp only [hwait] at h
        cases h
        exact ⟨rfl, fun _ hok => by cases hok⟩

/-- A client submits at most one transaction. It is a call of the gateway, in
its own chain and with no native value, by which all that the wallet has but
the reserve goes to the gateway: for ten minutes the token lets it have that.
The answer is a hash only when the receipt was good, or nothing was to do. -/
theorem autoDeposit_authorized (hsign : Signs env.prim wallet)
    (hclock : env.now.toNat + 600 < 2 ^ 64)
    (h : autoDeposit env wallet config = some (sent, res)) :
    (sent = [] ∧ ((∃ e, res = .error e) ∨ res = .ok "already_deposited" ∧
        queryBalance env.rpc config.usdcContract wallet.ethereumAddress = .ok 0)) ∨
      ∃ raw balance data call, sent = [raw] ∧
        queryBalance env.rpc config.usdcContract wallet.ethereumAddress = .ok balance ∧
        readTx raw = some (config.chainId.toNat, config.gatewayWallet.toList, 0, data) ∧
        DepositCall.read data = some call ∧
        call.fromAddr = wallet.ethereumAddress ∧ call.nonce = env.random ∧
        0 < call.value ∧ call.value + gasReserve = balance.toNat ∧
        (∀ now, 0 < now → now < env.now.toNat + 600 →
          call.Authorized env.prim config.usdcDomain config.gatewayWallet now) ∧
        ∀ txHash, res = .ok txHash → env.rpc.sendRawTx raw = .ok txHash ∧
          env.rpc.waitForReceipt txHash 30 = .ok true := by
  unfold autoDeposit at h
  cases hbalance : queryBalance env.rpc config.usdcContract wallet.ethereumAddress with
  | error e =>
    simp only [hbalance, Option.some.injEq, Prod.mk.injEq] at h
    exact .inl ⟨h.1.symm, .inl ⟨e, h.2.symm⟩⟩
  | ok balance =>
    cases hheld : queryGatewayBalance env.rpc config.gatewayWallet config.usdcContract
        wallet.ethereumAddress with
    | error e =>
      simp only [hbalance, hheld, Option.some.injEq, Prod.mk.injEq] at h
      exact .inl ⟨h.1.symm, .inl ⟨e, h.2.symm⟩⟩
    | ok held =>
      simp only [hbalance, hheld] at h
      split at h
      · obtain ⟨rfl, rfl⟩ := Prod.mk.inj (Option.some.inj h)
        exact .inl ⟨rfl, .inl ⟨_, rfl⟩⟩
      split at h
      · rename_i hzero
        obtain ⟨rfl, rfl⟩ := Prod.mk.inj (Option.some.inj h)
        exact .inl ⟨rfl, .inr ⟨rfl, by rw [hzero]⟩⟩
      split at h
      · obtain ⟨rfl, rfl⟩ := Prod.mk.inj (Option.some.inj h)
        exact .inl ⟨rfl, .inl ⟨_, rfl⟩⟩
      · rename_i hamount
        obtain ⟨⟨sent', submitted⟩, hdeposit, hawait⟩ := Option.map_eq_some_iff.mp h
        obtain ⟨rfl, hok⟩ := awaitDeposit_ok hawait
        obtain ⟨hnone, e, rfl⟩ | ⟨raw, hsent, rfl, hraw⟩ :=
          depositWithAuthorization_sends hdeposit
        · cases hawait
          exact .inl ⟨hnone, .inl ⟨e, rfl⟩⟩
        · have htoNat : (BitVec.ofNat 128 (balance.toNat - gasReserve)).toNat =
              balance.toNat - gasReserve := by
            rw [BitVec.toNat_ofNat, Nat.mod_eq_of_lt (balance.isLt.trans_le' (Nat.sub_le ..))]
          have hpos : 0 < balance.toNat - gasReserve := by
            refine Nat.pos_of_ne_zero fun h0 => hamount ?_
            rw [h0]
            rfl
          refine .inr ⟨raw, balance, _, _, hsent, rfl, hraw, read_calldata _, rfl, rfl, ?_, ?_,
            fun now => authorized_depositCall hsign hclock _, hok⟩
          · exact hpos.trans_eq htoNat.symm
          · exact (congrArg (· + gasReserve) htoNat).trans
              (Nat.sub_add_cancel (Nat.lt_of_sub_pos hpos).le)

-- ---------------------------------------------------------------------------
-- A deposit of 4.9 USDC
-- ---------------------------------------------------------------------------

def keyAddress (key : Bytes32) : Address := ⟨key.toList.drop 12, by simp⟩

def sampleWallet : PaymentWallet := ⟨beArray 32 7, keyAddress (beArray 32 7)⟩

/-- A signature is the digest beside its key. -/
def samplePrim : Primitives where
  keccak256 input := beArray 32 (readBe input % 65521)
  x25519PublicKey key := key
  fromWireguardKey key := ⟨key, keyAddress key⟩
  signDigest wallet digest := (27, digest, wallet.signingKey)
  recoverAddress digest v r s := if v = 27 ∧ r = digest then some (keyAddress s) else none

def sampleConfig : DepositConfig where
  chainId := 5042002
  usdcContract := beArray 20 0x3600000000000000000000000000000000000000
  amountPerQuota := 10000
  quotaBytes := 10485760
  gatewayWallet := beArray 20 0x0077777d7EBA4688BDeF3E311b846F25870A19B9
  gatewayName := "GatewayWalletBatched"
  gatewayVersion := "1"
  isServer := false
  usdcName := "USDC"
  usdcVersion := "2"

/-- The receipt comes at the third attempt. -/
def sampleRpc : RpcClient where
  ethCall toAddr _ := .ok (beBytes 32 (if toAddr = sampleConfig.usdcContract then 5000000 else 0))
  getNonce _ := .ok 3
  gasPrice := .ok 1000
  maxPriorityFee := .error "RPC error: method not found"
  estimateGas _ _ _ := .ok 90000
  sendRawTx _ := .ok "0x01"
  getReceipt attempt _ := .ok (if attempt < 2 then none else some (some "0x1"))

def sampleEnv : Env where
  prim := samplePrim
  signPrehash _ hash := some ⟨hash, hash, 0⟩
  rpc := sampleRpc
  now := 1700000000
  random := beArray 32 99

theorem sample_deposits :
    (autoDeposit sampleEnv sampleWallet sampleConfig).map Prod.snd = some (.ok "0x01") := by
  decide +kernel

theorem autoDeposit_authorized_sample : ∃ sent,
    autoDeposit sampleEnv sampleWallet sampleConfig = some (sent, .ok "0x01") ∧
      ∃ raw balance data call, sent = [raw] ∧
        queryBalance sampleRpc sampleConfig.usdcContract sampleWallet.ethereumAddress =
          .ok balance ∧
        readTx raw = some (5042002, sampleConfig.gatewayWallet.toList, 0, data) ∧
        DepositCall.read data = some call ∧
        call.fromAddr = sampleWallet.ethereumAddress ∧ call.nonce = beArray 32 99 ∧
        0 < call.value ∧ call.value + gasReserve = balance.toNat ∧
        (∀ now, 0 < now → now < 1700000600 →
          call.Authorized samplePrim sampleConfig.usdcDomain sampleConfig.gatewayWallet now) ∧
        ∀ txHash, (Except.ok "0x01" : Except String String) = .ok txHash →
          sampleRpc.sendRawTx raw = .ok txHash ∧
            sampleRpc.waitForReceipt txHash 30 = .ok true := by
  obtain ⟨⟨sent, res⟩, h, hres⟩ := Option.map_eq_some_iff.mp sample_deposits
  obtain rfl : res = .ok "0x01" := hres
  have hsign : Signs sampleEnv.prim sampleWallet := fun _ => if_pos ⟨rfl, rfl⟩
  obtain ⟨-, ⟨e, he⟩ | ⟨he, -⟩⟩ | hdeposit :=
    autoDeposit_authorized hsign (by decide) h
  · cases he
  · exact absurd he (by decide)
  · exact ⟨sent, h, hdeposit⟩

end Xelt.Boringtun.Payment.Deposit
