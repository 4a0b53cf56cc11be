import VeilVpn.Payment.Impl.Protocol

/-!
This module contains the payment configuration, the payment wallet and the authorizations that are
signed with it and verified by the server.
-/

namespace Payment

structure Primitives where
  keccak256 : Bytes → FixedBytes 32
  deriveSigningKey : FixedBytes 32 → FixedBytes 32
  computeAddress : FixedBytes 32 → FixedBytes 20
  /-- The recovery id and the two halves of the signature. -/
  signPrehashRecoverable : FixedBytes 32 → FixedBytes 32 → UInt8 × FixedBytes 32 × FixedBytes 32
  recoverFromPrehash : FixedBytes 32 → UInt8 → FixedBytes 32 → FixedBytes 32 →
    Option (FixedBytes 20)

structure Eip712Domain where
  name : String
  version : String
  chainId : UInt64
  verifyingContract : FixedBytes 20
  deriving DecidableEq

structure PaymentConfig where
  chainId : UInt64
  usdcContract : FixedBytes 20
  amountPerQuota : UInt64
  quotaBytes : UInt64
  usdcName : String
  usdcVersion : String
  gatewayWallet : FixedBytes 20
  gatewayName : String
  gatewayVersion : String
  /-- When true, this node enforces bandwidth quotas and sends PaymentRequired. When false, this
  node only responds to PaymentRequired signals. -/
  isServer : Bool

def PaymentConfig.usdcDomain (config : PaymentConfig) : Eip712Domain where
  name := config.usdcName
  version := config.usdcVersion
  chainId := config.chainId
  verifyingContract := config.usdcContract

def PaymentConfig.gatewayDomain (config : PaymentConfig) : Eip712Domain where
  name := config.gatewayName
  version := config.gatewayVersion
  chainId := config.chainId
  verifyingContract := config.gatewayWallet

structure TransferAuthorization where
  «from» : FixedBytes 20
  «to» : FixedBytes 20
  value : UInt64
  validAfter : UInt64
  validBefore : UInt64
  nonce : FixedBytes 32
  deriving DecidableEq

structure SignedAuthorization where
  auth : TransferAuthorization
  v : UInt8
  r : FixedBytes 32
  s : FixedBytes 32

def utf8 (s : String) : Bytes :=
  s.toUTF8.toList

def abiEncodeAddress (addr : FixedBytes 20) : Bytes :=
  List.replicate 12 0 ++ addr.val

def abiEncodeU256 (value : Nat) : Bytes :=
  List.replicate 16 0 ++ Bytes.beBytes 16 value

structure PaymentWallet where
  signingKey : FixedBytes 32
  ethereumAddress : FixedBytes 20
  deriving DecidableEq

variable (K : Primitives)

def eip712DomainTypeHash : FixedBytes 32 :=
  K.keccak256 <| utf8
    "EIP712Domain(string name,string version,uint256 chainId,address verifyingContract)"

def transferAuthorizationTypeHash : FixedBytes 32 :=
  K.keccak256 <| utf8 <|
    "TransferWithAuthorization(address from,address to,uint256 value,uint256 validAfter,"
      ++ "uint256 validBefore,bytes32 nonce)"

def computeDomainSeparator (domain : Eip712Domain) : FixedBytes 32 :=
  K.keccak256 <|
    (eip712DomainTypeHash K).val ++ ((K.keccak256 (utf8 domain.name)).val
      ++ ((K.keccak256 (utf8 domain.version)).val ++ (abiEncodeU256 domain.chainId.toNat
      ++ abiEncodeAddress domain.verifyingContract)))

def computeStructHash (auth : TransferAuthorization) : FixedBytes 32 :=
  K.keccak256 <|
    (transferAuthorizationTypeHash K).val ++ (abiEncodeAddress auth.from
      ++ (abiEncodeAddress auth.to ++ (abiEncodeU256 auth.value.toNat
      ++ (abiEncodeU256 auth.validAfter.toNat ++ (abiEncodeU256 auth.validBefore.toNat
      ++ auth.nonce.val)))))

def computeEip712Digest (domain : Eip712Domain) (auth : TransferAuthorization) : FixedBytes 32 :=
  K.keccak256 <|
    [0x19, 0x01] ++ ((computeDomainSeparator K domain).val ++ (computeStructHash K auth).val)

namespace PaymentWallet

def fromWireguardKey (x25519PrivateBytes : FixedBytes 32) : PaymentWallet :=
  let signingKey := K.deriveSigningKey x25519PrivateBytes
  { signingKey, ethereumAddress := K.computeAddress signingKey }

def signDigest (wallet : PaymentWallet) (digest : FixedBytes 32)
    : UInt8 × FixedBytes 32 × FixedBytes 32 :=
  let (recoveryId, r, s) := K.signPrehashRecoverable wallet.signingKey digest
  (recoveryId + 27, r, s)

def recoverAddress (digest : FixedBytes 32) (v : UInt8) (r s : FixedBytes 32)
    : Option (FixedBytes 20) :=
  -- A recovery id is a number from 0 to 3
  if v < 27 ∨ 30 < v then
    none
  else
    K.recoverFromPrehash digest (v - 27) r s

end PaymentWallet

def verifyAuthorization (domain : Eip712Domain) (signed : SignedAuthorization)
    : Option (FixedBytes 20) :=
  PaymentWallet.recoverAddress K (computeEip712Digest K domain signed.auth) signed.v signed.r
    signed.s

def PaymentSubmit.signed (submit : PaymentSubmit) : SignedAuthorization where
  auth := {
    «from» := submit.from
    «to» := submit.to
    value := submit.value
    validAfter := submit.validAfter
    validBefore := submit.validBefore
    nonce := submit.nonce
  }
  v := submit.v
  r := submit.r
  s := submit.s

end Payment
