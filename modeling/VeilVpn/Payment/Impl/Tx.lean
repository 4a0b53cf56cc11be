import VeilVpn.Payment.Impl.Authorization

/-!
This module contains the transactions with which a client pays into the gateway.
-/

namespace Payment

/--
The bytes of a `Vec<u8>`, of which there are never more than `isize::MAX`.
-/
def ByteVec := { bytes : Bytes // bytes.length < 2 ^ 63 }

structure Eip1559Tx where
  chainId : UInt64
  nonce : UInt64
  maxPriorityFeePerGas : BitVec 128
  maxFeePerGas : BitVec 128
  gasLimit : UInt64
  «to» : FixedBytes 20
  value : BitVec 128
  data : ByteVec

/--
The bytes from the first one that is not zero. If there is none, the last byte stays.
-/
def significant (be : Bytes) : Bytes :=
  be.drop ((be.findIdx? (· ≠ 0)).getD (be.length - 1))

def encodeLength (len : Nat) : Bytes :=
  significant (Bytes.beBytes 8 len)

def rlpEncodeBytes (data : Bytes) : Bytes :=
  if data.length = 1 ∧ data.headD 0 < 0x80 then
    [data.headD 0]
  else if data.length ≤ 55 then
    (0x80 + UInt8.ofNat data.length) :: data
  else
    let lenBytes := encodeLength data.length
    (0xb7 + UInt8.ofNat lenBytes.length) :: (lenBytes ++ data)

def rlpEncodeUint (value : UInt64) : Bytes :=
  if value = 0 then
    -- Empty string = zero
    [0x80]
  else
    rlpEncodeBytes (significant (Bytes.beBytes 8 value.toNat))

def rlpEncodeU128 (value : BitVec 128) : Bytes :=
  if value = 0 then
    [0x80]
  else
    rlpEncodeBytes (significant (Bytes.beBytes 16 value.toNat))

def rlpEncodeList (items : List Bytes) : Bytes :=
  let payload := items.flatten
  if payload.length ≤ 55 then
    (0xc0 + UInt8.ofNat payload.length) :: payload
  else
    let lenBytes := encodeLength payload.length
    (0xf7 + UInt8.ofNat lenBytes.length) :: (lenBytes ++ payload)

namespace Eip1559Tx

def rlpFields (tx : Eip1559Tx) : List Bytes :=
  [
    rlpEncodeUint tx.chainId,
    rlpEncodeUint tx.nonce,
    rlpEncodeU128 tx.maxPriorityFeePerGas,
    rlpEncodeU128 tx.maxFeePerGas,
    rlpEncodeUint tx.gasLimit,
    rlpEncodeBytes tx.to.val,
    rlpEncodeU128 tx.value,
    rlpEncodeBytes tx.data.val,
    -- Empty access list
    rlpEncodeList []
  ]

variable (P : Primitives)

def signingHash (tx : Eip1559Tx) : FixedBytes 32 :=
  P.keccak256 (0x02 :: rlpEncodeList tx.rlpFields)

def sign (tx : Eip1559Tx) (key : FixedBytes 32) : Bytes :=
  let (yParity, r, s) := P.signPrehashRecoverable key (tx.signingHash P)
  let fields := tx.rlpFields
    ++ [rlpEncodeUint yParity.toUInt64, rlpEncodeBytes r.val, rlpEncodeBytes s.val]
  0x02 :: rlpEncodeList fields

end Eip1559Tx

end Payment
