import VeilVpn.Loop
import VeilVpn.Noise.Impl.Crypto
import VeilVpn.Noise.Impl.Packet
import Mathlib.Logic.Function.Basic

/-!
This module contains the transport sessions: encryption and decryption of data packets and the
bitmap that protects against replays.
-/

namespace Noise

def wordSize : UInt64 := 64

def nWords : UInt64 := 16

def nBits : UInt64 := wordSize * nWords

structure ReceivingKeyCounterValidator where
  /-- One more than the highest counter. -/
  next : UInt64
  receiveCnt : UInt64
  bitmap : Fin 16 → UInt64

namespace ReceivingKeyCounterValidator

def default : ReceivingKeyCounterValidator where
  next := 0
  receiveCnt := 0
  bitmap := fun _ => 0

instance neZero_words : NeZero 16 :=
  ⟨by decide⟩

def wordOf (idx : UInt64) : Fin 16 :=
  Fin.ofNat 16 (idx % nBits / wordSize).toNat

def bitOf (idx : UInt64) : UInt64 :=
  idx % nBits % wordSize

def setBit (v : ReceivingKeyCounterValidator) (idx : UInt64) : ReceivingKeyCounterValidator :=
  let word := wordOf idx
  { v with bitmap := Function.update v.bitmap word (v.bitmap word ||| (1 <<< bitOf idx)) }

def clearBit (v : ReceivingKeyCounterValidator) (idx : UInt64) : ReceivingKeyCounterValidator :=
  let word := wordOf idx
  { v with bitmap := Function.update v.bitmap word (v.bitmap word &&& ~~~(1 <<< bitOf idx)) }

def clearWord (v : ReceivingKeyCounterValidator) (idx : UInt64) : ReceivingKeyCounterValidator :=
  { v with bitmap := Function.update v.bitmap (wordOf idx) 0 }

def checkBit (v : ReceivingKeyCounterValidator) (idx : UInt64) : Bool :=
  ((v.bitmap (wordOf idx) >>> bitOf idx) &&& 1) = 1

def willAccept (v : ReceivingKeyCounterValidator) (counter : UInt64)
    : Except WireGuardError Unit :=
  if v.next ≤ counter then
    .ok ()
  else if counter + nBits < v.next then
    .error .invalidCounter
  else if !v.checkBit counter then
    .ok ()
  else
    .error .duplicateCounter

/--
Clear the bits from `v.next` up to `counter`, whole words at a time where possible.
-/
def clearSkipped (v : ReceivingKeyCounterValidator) (counter : UInt64)
    : ReceivingKeyCounterValidator :=
  let fuel := 2 ^ 64
  let (v, i) := whileLoop
    (fun (_, i) => i % wordSize ≠ 0 && i < counter)
    (fun (v, i) => (v.clearBit i, i + 1)) fuel (v, v.next)
  let (v, i) := whileLoop
    (fun (_, i) => i + wordSize < counter)
    (fun (v, i) => (v.clearWord i, (i + wordSize) &&& (0 - wordSize))) fuel (v, i)
  let (v, _) := whileLoop
    (fun (_, i) => i < counter)
    (fun (v, i) => (v.clearBit i, i + 1)) fuel (v, i)
  v

def markDidReceive (v : ReceivingKeyCounterValidator) (counter : UInt64)
    : ReceivingKeyCounterValidator × Except WireGuardError Unit :=
  if counter + nBits < v.next then
    -- Drop if too far back
    (v, .error .invalidCounter)
  else if counter = v.next then
    ({ v.setBit counter with next := v.next + 1 }, .ok ())
  else if counter < v.next then
    -- A packet arrived out of order
    if v.checkBit counter then
      (v, .error .invalidCounter)
    else
      (v.setBit counter, .ok ())
  else
    let cleared :=
      if nBits ≤ counter - v.next then
        { v with bitmap := fun _ => 0 }
      else
        v.clearSkipped counter
    ({ cleared.setBit counter with next := counter + 1 }, .ok ())

end ReceivingKeyCounterValidator

structure Session where
  receivingIndex : UInt32
  sendingIndex : UInt32
  receiver : FixedBytes 32
  sender : FixedBytes 32
  sendingKeyCounter : UInt64
  receivingKeyCounter : ReceivingKeyCounterValidator

namespace Session

def new (localIndex peerIndex : UInt32) (receivingKey sendingKey : FixedBytes 32) : Session where
  receivingIndex := localIndex
  sendingIndex := peerIndex
  receiver := receivingKey
  sender := sendingKey
  sendingKeyCounter := 0
  receivingKeyCounter := .default

def localIndex (s : Session) : Nat :=
  s.receivingIndex.toNat

def receivingCounterQuickCheck (s : Session) (counter : UInt64) : Except WireGuardError Unit :=
  s.receivingKeyCounter.willAccept counter

def receivingCounterMark (s : Session) (counter : UInt64)
    : Session × Except WireGuardError Unit :=
  match s.receivingKeyCounter.markDidReceive counter with
  | (v, .ok ()) =>
    ({ s with receivingKeyCounter := { v with receiveCnt := v.receiveCnt + 1 } }, .ok ())
  | (v, .error e) => ({ s with receivingKeyCounter := v }, .error e)

variable (P : Primitives)

def sealPacket (s : Session) (src : Bytes) : Bytes :=
  Bytes.leBytes 4 dataType
    ++ Bytes.leBytes 4 s.sendingIndex.toNat
    ++ Bytes.leBytes 8 s.sendingKeyCounter.toNat
    ++ P.chacha20Poly1305Seal s.sender (counterNonce s.sendingKeyCounter) src []

/--
Panics if the destination buffer is too small.
-/
def formatPacketData (s : Session) (src : Bytes) (dstLen : Nat) : Option (Session × Bytes) :=
  if dstLen < src.length + dataOverheadSz then
    none
  else
    some ({ s with sendingKeyCounter := s.sendingKeyCounter + 1 }, s.sealPacket P src)

/--
Panics if the destination buffer is too small.
-/
def receivePacketData (s : Session) (packet : PacketData) (dstLen : Nat)
    : Option (Session × Except WireGuardError Bytes) :=
  if dstLen < packet.encryptedEncapsulatedPacket.length then
    none
  else if packet.receiverIdx ≠ s.receivingIndex then
    some (s, .error .wrongIndex)
  else
    match s.receivingCounterQuickCheck packet.counter with
    | .error e => some (s, .error e)
    | .ok () =>
      match
        P.chacha20Poly1305Open s.receiver (counterNonce packet.counter)
          packet.encryptedEncapsulatedPacket []
      with
      | none => some (s, .error .invalidAeadTag)
      | some plain =>
        -- After decryption is done, check counter again, and mark as received
        match s.receivingCounterMark packet.counter with
        | (s, .error e) => some (s, .error e)
        | (s, .ok ()) => some (s, .ok plain)

end Session

end Noise
