import VeilVpn.Noise.Impl.Crypto
import VeilVpn.Noise.Impl.Packet
import VeilVpn.Time

/-!
This module contains the rate limiter: it checks the MACs of handshake messages and hands out
cookies when there are too many of them.
-/

namespace Noise

/-- `b"mac1----"` -/
def labelMac1 : Bytes := [109, 97, 99, 49, 45, 45, 45, 45]

/-- `b"cookie--"` -/
def labelCookie : Bytes := [99, 111, 111, 107, 105, 101, 45, 45]

/--
Use 128 and not 120, like the program does to save a division.
-/
def cookieRefresh : Nat := 128

def resetPeriod : Nat := 1

structure RateLimiter where
  nonceKey : FixedBytes 32
  secretKey : FixedBytes 16
  startTime : Instant
  nonceCtr : UInt64
  mac1Key : FixedBytes 32
  cookieKey : FixedBytes 32
  limit : UInt64
  count : UInt64
  lastReset : Instant

namespace RateLimiter

variable (P : Primitives)

/--
The two keys are drawn at random.
-/
def new (publicKey : FixedBytes 32) (limit : UInt64) (nonceKey : FixedBytes 32)
    (secretKey : FixedBytes 16) (now : Instant) : RateLimiter where
  nonceKey := nonceKey
  secretKey := secretKey
  startTime := now
  nonceCtr := 0
  mac1Key := b2sHash P labelMac1 publicKey.val
  cookieKey := b2sHash P labelCookie publicKey.val
  limit := limit
  count := 0
  lastReset := now

def resetCount (rl : RateLimiter) (now : Instant) : RateLimiter :=
  if resetPeriod ≤ (now.durationSince rl.lastReset).asSecs then
    { rl with count := 0, lastReset := now }
  else
    rl

def addrBytes : IpAddr → Bytes
  | .v4 addr => addr.val ++ List.replicate 12 0
  | .v6 addr => addr.val

def currentCookie (rl : RateLimiter) (addr : IpAddr) (now : Instant) : FixedBytes 16 :=
  let curCounter := (now.durationSince rl.startTime).asSecs / cookieRefresh
  b2sKeyedMac16_2 P rl.secretKey.val (Bytes.leBytes 8 curCounter) (addrBytes addr)

def nonce (rl : RateLimiter) : RateLimiter × FixedBytes 24 :=
  ({ rl with nonceCtr := rl.nonceCtr + 1 },
    b2sMac24 P rl.nonceKey.val (Bytes.leBytes 8 rl.nonceCtr.toNat))

def isUnderLoad (rl : RateLimiter) : RateLimiter × Bool :=
  ({ rl with count := rl.count + 1 }, rl.limit ≤ rl.count)

def formatCookieReply (rl : RateLimiter) (idx : UInt32) (cookie : FixedBytes 16) (mac1 : Bytes)
    (dstLen : Nat) : RateLimiter × Except WireGuardError Bytes :=
  if dstLen < cookieReplySz then
    (rl, .error .destinationBufferTooSmall)
  else
    let (rl, nonce) := rl.nonce P
    let encryptedCookie := P.xChacha20Poly1305Encrypt rl.cookieKey nonce cookie.val mac1
    (rl, .ok <|
      Bytes.leBytes 4 cookieReplyType ++ Bytes.leBytes 4 idx.toNat ++ nonce.val ++ encryptedCookie)

def limitedSenderIdx : Packet → Option UInt32
  | .handshakeInit p => some p.senderIdx
  | .handshakeResponse p => some p.senderIdx
  | .packetCookieReply _ => none
  | .packetData _ => none

def verifyPacket (rl : RateLimiter) (srcAddr : Option IpAddr) (src : Bytes) (dstLen : Nat)
    (now : Instant) : RateLimiter × Except TunnResult Packet :=
  match parseIncomingPacket src with
  | .error e => (rl, .error (.err e))
  | .ok packet =>
    match limitedSenderIdx packet with
    | none => (rl, .ok packet)
    | some senderIdx =>
      let msg := src.take (src.length - 32)
      let macs := src.drop (src.length - 32)
      let mac1 := macs.take 16
      let mac2 := macs.drop 16
      if (b2sKeyedMac16 P rl.mac1Key.val msg).val ≠ mac1 then
        (rl, .error (.err .invalidMac))
      else
        match rl.isUnderLoad with
        | (rl, false) => (rl, .ok packet)
        | (rl, true) =>
          match srcAddr with
          | none => (rl, .error (.err .underLoad))
          | some addr =>
            -- Only given an address can we validate mac2
            let cookie := rl.currentCookie P addr now
            if (b2sKeyedMac16_2 P cookie.val msg mac1).val ≠ mac2 then
              match rl.formatCookieReply P senderIdx cookie mac1 dstLen with
              | (rl, .error e) => (rl, .error (.err e))
              | (rl, .ok cookiePacket) => (rl, .error (.writeToNetwork cookiePacket))
            else
              (rl, .ok packet)

end RateLimiter

end Noise
