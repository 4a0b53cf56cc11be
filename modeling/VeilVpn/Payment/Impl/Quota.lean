import VeilVpn.Bytes
import VeilVpn.HashMap

/-!
This module contains the bandwidth quota of a peer.
-/

namespace Payment

/--
10 MB
-/
def defaultQuotaBytes : UInt64 := 10 * 1024 * 1024

structure BandwidthQuota where
  remainingBytes : UInt64
  blocked : Bool
  totalConsumed : UInt64
  paymentCount : UInt64
  usedNonces : HashSet (FixedBytes 32)
  deriving DecidableEq

namespace BandwidthQuota

def new (initialBytes : UInt64) : BandwidthQuota where
  remainingBytes := initialBytes
  blocked := false
  totalConsumed := 0
  paymentCount := 0
  usedNonces := ∅

def consume (q : BandwidthQuota) (bytes : UInt64) : BandwidthQuota × Bool :=
  if q.remainingBytes = 0 then
    (q, false)
  else if q.remainingBytes < bytes then
    ({ q with
      remainingBytes := 0
      totalConsumed := q.totalConsumed + q.remainingBytes
      blocked := true
    }, false)
  else
    ({ q with
      remainingBytes := q.remainingBytes - bytes
      totalConsumed := q.totalConsumed + bytes
    }, true)

def credit (q : BandwidthQuota) (bytes : UInt64) : BandwidthQuota :=
  { q with
    remainingBytes := q.remainingBytes + bytes
    paymentCount := q.paymentCount + 1
    blocked := false
  }

def checkAndRecordNonce (q : BandwidthQuota) (nonce : FixedBytes 32) : BandwidthQuota × Bool :=
  ({ q with usedNonces := insert nonce q.usedNonces }, nonce ∉ q.usedNonces)

def isBlocked (q : BandwidthQuota) : Bool :=
  q.blocked

end BandwidthQuota

end Payment
