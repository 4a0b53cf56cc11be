import VeilVpn.Noise.Impl.Tunn
import VeilVpn.Payment.Impl.Quota
import VeilVpn.Device.Impl.AllowedIps

/-!
This module contains a peer of the device.
-/

namespace Device

/--
A connected socket is only referred to, the sockets themselves belong to the event loop.
-/
abbrev ConnId := Nat

structure Endpoint where
  addr : Option SocketAddr
  conn : Option ConnId
  deriving DecidableEq

structure Peer where
  tunnel : Noise.Tunn
  /-- The index the tunnel uses -/
  index : UInt32
  endpoint : Endpoint
  allowedIps : AllowedIps Unit
  presharedKey : Option (FixedBytes 32)
  quota : Option Payment.BandwidthQuota

namespace Peer

def new (tunnel : Noise.Tunn) (index : UInt32) (endpoint : Option SocketAddr)
    (allowedIps : List AllowedIP) (presharedKey : Option (FixedBytes 32)) : Peer where
  tunnel := tunnel
  index := index
  endpoint := { addr := endpoint, conn := none }
  allowedIps := .ofList allowedIps ()
  presharedKey := presharedKey
  quota := none

def isAllowedIp (p : Peer) (addr : IpAddr) : Bool :=
  (p.allowedIps.find addr).isSome

/--
The address of the first allowed network if it is an IPv4 network, this is taken for the tunnel
address of the peer.
-/
def firstAllowedIpv4 (p : Peer) : Option Ipv4Addr :=
  match p.allowedIps.iter with
  | (_, .v4 ip, _) :: _ => some ip
  | _ => none

/--
Forget the connected socket. It is returned so that it can be shut down.
-/
def shutdownEndpoint (p : Peer) : Peer × Option ConnId :=
  ({ p with endpoint := { p.endpoint with conn := none } }, p.endpoint.conn)

/--
Update the address if it differs from the current one, and return a connected socket that has to be
shut down because of this.
-/
def setEndpoint (p : Peer) (addr : SocketAddr) : Peer × Option ConnId :=
  if p.endpoint.addr ≠ some addr then
    ({ p with endpoint := { addr := some addr, conn := none } }, p.endpoint.conn)
  else
    (p, none)

def setConn (p : Peer) (conn : ConnId) : Peer :=
  { p with endpoint := { p.endpoint with conn := some conn } }

def persistentKeepalive (p : Peer) : Option UInt16 :=
  p.tunnel.persistentKeepalive

def timeSinceLastHandshake (p : Peer) (now : Instant) : Option (Option Duration) :=
  p.tunnel.timeSinceLastHandshake now

end Peer

end Device
