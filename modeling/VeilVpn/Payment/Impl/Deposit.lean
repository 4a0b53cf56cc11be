import VeilVpn.Payment.Impl.Authorization

/-!
This module contains the authorization that a client signs when it deposits into the gateway. The
deposit has its own versions of the encodings.
-/

namespace Payment
namespace Deposit

def abiEncodeAddress (addr : FixedBytes 20) : Bytes :=
  List.replicate 12 0 ++ addr.val

def abiEncodeU256 (value : BitVec 128) : Bytes :=
  List.replicate 16 0 ++ Bytes.beBytes 16 value.toNat

variable (K : Primitives)

def computeDomainSeparator (domain : Eip712Domain) : FixedBytes 32 :=
  let typeHash := K.keccak256 <| utf8
    "EIP712Domain(string name,string version,uint256 chainId,address verifyingContract)"
  K.keccak256 <|
    typeHash.val ++ ((K.keccak256 (utf8 domain.name)).val
      ++ ((K.keccak256 (utf8 domain.version)).val
      ++ (abiEncodeU256 (.ofNat 128 domain.chainId.toNat)
      ++ abiEncodeAddress domain.verifyingContract)))

/--
The digest that `deposit_with_authorization` signs, with the nonce that it draws at the given time.
-/
def digest (wallet : PaymentWallet) (config : PaymentConfig) (amount : BitVec 128)
    (nonce : FixedBytes 32) (now : UInt64) : FixedBytes 32 :=
  let validAfter : UInt64 := 0
  let validBefore := now + 600
  let receiveTypeHash := K.keccak256 <| utf8 <|
    "ReceiveWithAuthorization(address from,address to,uint256 value,uint256 validAfter,"
      ++ "uint256 validBefore,bytes32 nonce)"
  let structHash := K.keccak256 <|
    receiveTypeHash.val ++ (abiEncodeAddress wallet.ethereumAddress
      ++ (abiEncodeAddress config.gatewayWallet ++ (abiEncodeU256 amount
      ++ (abiEncodeU256 (.ofNat 128 validAfter.toNat)
      ++ (abiEncodeU256 (.ofNat 128 validBefore.toNat) ++ nonce.val)))))
  let domainSeparator := computeDomainSeparator K config.usdcDomain
  K.keccak256 ([0x19, 0x01] ++ (domainSeparator.val ++ structHash.val))

end Deposit
end Payment
