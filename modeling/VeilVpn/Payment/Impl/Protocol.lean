import VeilVpn.Loop
import VeilVpn.Net

/-!
This module contains the payment messages, their encoding and the IP packets that carry them.
-/

namespace Payment

def paymentGatewayIp : Ipv4Addr := .new 169 254 254 1

def paymentPort : Nat := 7078

def msgPaymentRequired : UInt8 := 0x01

def msgPaymentAccepted : UInt8 := 0x02

def msgPaymentSubmit : UInt8 := 0x81

structure PaymentRequired where
  amountUsdc : UInt64
  nonce : FixedBytes 32
  recipient : FixedBytes 20
  deadline : UInt64
  chainId : UInt64
  usdcContract : FixedBytes 20
  deriving DecidableEq

structure PaymentSubmit where
  «from» : FixedBytes 20
  «to» : FixedBytes 20
  value : UInt64
  validAfter : UInt64
  validBefore : UInt64
  nonce : FixedBytes 32
  v : UInt8
  r : FixedBytes 32
  s : FixedBytes 32
  deriving DecidableEq

structure PaymentAccepted where
  newQuotaBytes : UInt64
  deriving DecidableEq

def encodeTlv (msgType : UInt8) (payload : Bytes) : Bytes :=
  msgType :: (Bytes.beBytes 2 payload.length ++ payload)

/--
The payload of a message of the given type, and whatever follows it, if it is long enough.
-/
def decodeTlv (msgType : UInt8) (minLen : Nat) (data : Bytes)
    : Option { payload : Bytes // minLen ≤ payload.length } :=
  if data.length < 3 ∨ data.head? ≠ some msgType then
    none
  else
    let len := (data.slice 1 3).beNat
    if h : data.length < 3 + len ∨ len < minLen then
      none
    else
      some ⟨data.drop 3, by rw [List.length_drop]; omega⟩

def u64Be (b : Bytes) (start : Nat) : UInt64 :=
  UInt64.ofNat (b.slice start (start + 8)).beNat

namespace PaymentRequired

def encode (m : PaymentRequired) : Bytes :=
  encodeTlv msgPaymentRequired <|
    Bytes.beBytes 8 m.amountUsdc.toNat ++ (m.nonce.val ++ (m.recipient.val
      ++ (Bytes.beBytes 8 m.deadline.toNat ++ (Bytes.beBytes 8 m.chainId.toNat
      ++ m.usdcContract.val))))

def decode (data : Bytes) : Option PaymentRequired :=
  match decodeTlv msgPaymentRequired 96 data with
  | none => none
  | some ⟨p, h⟩ =>
    some {
      amountUsdc := u64Be p 0
      nonce := .slice p 8 32 (by omega)
      recipient := .slice p 40 20 (by omega)
      deadline := u64Be p 60
      chainId := u64Be p 68
      usdcContract := .slice p 76 20 (by omega)
    }

end PaymentRequired

namespace PaymentSubmit

def encode (m : PaymentSubmit) : Bytes :=
  encodeTlv msgPaymentSubmit <|
    m.from.val ++ (m.to.val ++ (Bytes.beBytes 8 m.value.toNat
      ++ (Bytes.beBytes 8 m.validAfter.toNat ++ (Bytes.beBytes 8 m.validBefore.toNat
      ++ (m.nonce.val ++ ([m.v] ++ (m.r.val ++ m.s.val)))))))

def decode (data : Bytes) : Option PaymentSubmit :=
  match decodeTlv msgPaymentSubmit 161 data with
  | none => none
  | some ⟨p, h⟩ =>
    some {
      «from» := .slice p 0 20 (by omega)
      «to» := .slice p 20 20 (by omega)
      value := u64Be p 40
      validAfter := u64Be p 48
      validBefore := u64Be p 56
      nonce := .slice p 64 32 (by omega)
      v := p[96]
      r := .slice p 97 32 (by omega)
      s := .slice p 129 32 (by omega)
    }

end PaymentSubmit

namespace PaymentAccepted

def encode (m : PaymentAccepted) : Bytes :=
  encodeTlv msgPaymentAccepted (Bytes.beBytes 8 m.newQuotaBytes.toNat)

def decode (data : Bytes) : Option PaymentAccepted :=
  match decodeTlv msgPaymentAccepted 8 data with
  | none => none
  | some ⟨p, _⟩ => some { newQuotaBytes := u64Be p 0 }

end PaymentAccepted

/--
The sum of the 16 bit words of a header, a last odd byte counts as the high byte of a word.
-/
def sumWords (sum : UInt32) : Bytes → UInt32
  | [] => sum
  | [hi] => sum + hi.toUInt32 * 256
  | hi :: lo :: rest => sumWords (sum + (hi.toUInt32 * 256 + lo.toUInt32)) rest

def foldCarry (sum : UInt32) : UInt32 :=
  (sum &&& (0xFFFF : UInt32)) + (sum >>> (16 : UInt32))

def ipChecksum (header : Bytes) : UInt16 :=
  let sum := whileLoop (fun sum : UInt32 => sum >>> 16 ≠ 0) foldCarry (2 ^ 32) (sumWords 0 header)
  ~~~sum.toUInt16

/--
The IPv4 header without checksum, cut in two where the checksum belongs.
-/
def ipHeaderStart (totalLen : Nat) : Bytes :=
  -- version 4 and IHL 5, length, don't fragment, TTL 64 and UDP
  [0x45, 0] ++ Bytes.beBytes 2 totalLen ++ [0, 0, 0x40, 0, 64, 17]

def signalPacket (srcIp dstIp : Ipv4Addr) (payload : Bytes) : Bytes :=
  let udpLen := 8 + payload.length
  let totalLen := 20 + udpLen
  let cksum := ipChecksum (ipHeaderStart totalLen ++ [0, 0] ++ srcIp.val ++ dstIp.val)
  ipHeaderStart totalLen ++ (Bytes.beBytes 2 cksum.toNat ++ (srcIp.val ++ (dstIp.val
    ++ (Bytes.beBytes 2 paymentPort ++ (Bytes.beBytes 2 paymentPort ++ (Bytes.beBytes 2 udpLen
    ++ ([0, 0] ++ payload)))))))

/--
Build a complete IPv4/UDP packet wrapping a TLV payload. Panics if it would be too large.
-/
def buildSignalPacket (srcIp dstIp : Ipv4Addr) (payload : Bytes) : Option Bytes :=
  if 20 + (8 + payload.length) ≤ 65535 then
    some (signalPacket srcIp dstIp payload)
  else
    none

def srcIpv4 (packet : Bytes) : Option Ipv4Addr :=
  if h : packet.length < 20 then none else some (.slice packet 12 4 (by omega))

def dstIpv4 (packet : Bytes) : Option Ipv4Addr :=
  if h : packet.length < 20 then none else some (.slice packet 16 4 (by omega))

def isPaymentSignal (packet : Bytes) : Bool :=
  if h : packet.length < 20 then
    false
  else if packet[0] >>> 4 ≠ 4 then
    false
  else
    srcIpv4 packet = some paymentGatewayIp || dstIpv4 packet = some paymentGatewayIp

def extractSignalPayload (packet : Bytes) : Option Bytes :=
  if h : packet.length < 20 then
    none
  else
    let ihl := (packet[0] &&& 0x0f).toNat * 4
    let protocol := packet[9]
    if protocol ≠ 17 then
      none
    else if packet.length < ihl + 8 then
      none
    else
      let udpLen := (packet.slice (ihl + 4) (ihl + 6)).beNat
      if udpLen < 8 ∨ packet.length < ihl + udpLen then
        none
      else
        some (packet.slice (ihl + 8) (ihl + udpLen))

end Payment
