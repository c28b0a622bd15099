import Xelt.Boringtun.Payment.Protocol

/-!
# Transfer authorizations

The EIP-712 digest of an EIP-3009 authorization as `payment/eip3009.rs`
computes it, the configuration it takes its domain from, and the wallet that
signs it. Hashing, signing, recovery and key derivation are library calls;
they are the fields of `Primitives`.
-/

namespace Xelt.Boringtun.Payment

open Bytes

structure PaymentWallet where
  signingKey : Bytes32
  ethereumAddress : Address
  deriving DecidableEq

/-- The library calls the payment code makes. -/
structure Primitives where
  keccak256 : Bytes → Bytes32
  x25519PublicKey : Bytes32 → Bytes32
  fromWireguardKey : Bytes32 → PaymentWallet
  signDigest : PaymentWallet → Bytes32 → UInt8 × Bytes32 × Bytes32
  recoverAddress : Bytes32 → UInt8 → Bytes32 → Bytes32 → Option Address

/-- Payment configuration: the fields the packet paths read. -/
structure PaymentConfig where
  chainId : UInt64
  usdcContract : Address
  amountPerQuota : UInt64
  quotaBytes : UInt64
  gatewayWallet : Address
  gatewayName : String
  gatewayVersion : String
  isServer : Bool

structure Eip712Domain where
  name : String
  version : String
  chainId : UInt64
  verifyingContract : Address

/-- EIP-712 domain for GatewayWalletBatched (used for nanopayment signing). -/
def PaymentConfig.gatewayDomain (c : PaymentConfig) : Eip712Domain where
  name := c.gatewayName
  version := c.gatewayVersion
  chainId := c.chainId
  verifyingContract := c.gatewayWallet

structure TransferAuthorization where
  fromAddr : Address
  toAddr : Address
  value : UInt64
  validAfter : UInt64
  validBefore : UInt64
  nonce : Bytes32

structure SignedAuthorization where
  auth : TransferAuthorization
  v : UInt8
  r : Bytes32
  s : Bytes32

/-- An address as a 32-byte word. -/
def abiEncodeAddress (addr : Address) : Bytes := List.replicate 12 0 ++ addr.toList

/-- A number as a 32-byte big-endian word. -/
def abiEncodeU256 (value : UInt64) : Bytes := List.replicate 16 0 ++ beBytes 16 value.toNat

def utf8 (s : String) : Bytes := s.toUTF8.data.toList

def transferType : Bytes :=
  utf8 ("TransferWithAuthorization(address from,address to,uint256 value," ++
    "uint256 validAfter,uint256 validBefore,bytes32 nonce)")

section
variable (prim : Primitives)

def eip712DomainTypeHash : Bytes32 :=
  prim.keccak256 (utf8
    "EIP712Domain(string name,string version,uint256 chainId,address verifyingContract)")

def transferAuthorizationTypeHash : Bytes32 := prim.keccak256 transferType

def computeDomainSeparator (domain : Eip712Domain) : Bytes32 :=
  prim.keccak256
    ((eip712DomainTypeHash prim).toList ++ (prim.keccak256 (utf8 domain.name)).toList ++
      (prim.keccak256 (utf8 domain.version)).toList ++ abiEncodeU256 domain.chainId ++
      abiEncodeAddress domain.verifyingContract)

def computeStructHash (auth : TransferAuthorization) : Bytes32 :=
  prim.keccak256
    ((transferAuthorizationTypeHash prim).toList ++ abiEncodeAddress auth.fromAddr ++
      abiEncodeAddress auth.toAddr ++ abiEncodeU256 auth.value ++ abiEncodeU256 auth.validAfter ++
      abiEncodeU256 auth.validBefore ++ auth.nonce.toList)

/-- The EIP-712 digest for signing. -/
def computeEip712Digest (domain : Eip712Domain) (auth : TransferAuthorization) : Bytes32 :=
  prim.keccak256
    ([0x19, 0x01] ++ (computeDomainSeparator prim domain).toList ++
      (computeStructHash prim auth).toList)

/-- The signer of an authorization, as recovered from its signature. -/
def verifyAuthorization (domain : Eip712Domain) (signed : SignedAuthorization) : Option Address :=
  prim.recoverAddress (computeEip712Digest prim domain signed.auth) signed.v signed.r signed.s

end

end Xelt.Boringtun.Payment
