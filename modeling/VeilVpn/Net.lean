import VeilVpn.Bytes

/-!
This module contains IP and socket addresses.
-/

abbrev Ipv4Addr := FixedBytes 4

abbrev Ipv6Addr := FixedBytes 16

inductive IpAddr where
  | v4 (addr : Ipv4Addr)
  | v6 (addr : Ipv6Addr)
  deriving DecidableEq

inductive Family where
  | v4
  | v6
  deriving DecidableEq

def IpAddr.family : IpAddr → Family
  | .v4 _ => .v4
  | .v6 _ => .v6

structure SocketAddr where
  ip : IpAddr
  port : UInt16
  deriving DecidableEq

def SocketAddr.family (addr : SocketAddr) : Family :=
  addr.ip.family

def Ipv4Addr.new (a b c d : UInt8) : Ipv4Addr :=
  ⟨[a, b, c, d], rfl⟩
