import VeilVpn.Net

/-!
This module contains the table of IP networks. The entries are kept in the order in which the table
is iterated: IPv4 before IPv6, then by network address, then by length of the mask.
-/

def Family.width : Family → Nat
  | .v4 => 32
  | .v6 => 128

namespace IpAddr

def toNat : IpAddr → Nat
  | .v4 addr => Bytes.beNat addr.val
  | .v6 addr => Bytes.beNat addr.val

def width (ip : IpAddr) : Nat :=
  ip.family.width

theorem le_width_v4 (addr : Ipv4Addr) : 32 ≤ (IpAddr.v4 addr).width :=
  Nat.le_refl 32

def truncate (ip : IpAddr) (cidr : Nat) : IpAddr :=
  let host := 2 ^ (ip.width - cidr)
  let network := ip.toNat / host * host
  match ip with
  | .v4 _ => .v4 (.ofBe 4 network)
  | .v6 _ => .v6 (.ofBe 16 network)

end IpAddr

namespace Device

structure AllowedIP where
  addr : IpAddr
  cidr : Nat
  cidr_le : cidr ≤ addr.width
  deriving DecidableEq

structure IpNetwork where
  networkAddress : IpAddr
  netmask : Nat
  deriving DecidableEq

namespace IpNetwork

def newTruncate (ip : AllowedIP) : IpNetwork where
  networkAddress := ip.addr.truncate ip.cidr
  netmask := ip.cidr

def contains (net : IpNetwork) (ip : IpAddr) : Bool :=
  net.networkAddress.family = ip.family && ip.truncate net.netmask = net.networkAddress

def lt (a b : IpNetwork) : Bool :=
  match a.networkAddress, b.networkAddress with
  | .v4 _, .v6 _ => true
  | .v6 _, .v4 _ => false
  | x, y => x.toNat < y.toNat || (x.toNat = y.toNat && a.netmask < b.netmask)

end IpNetwork

structure AllowedIps (D : Type) where
  ips : List (IpNetwork × D)

namespace AllowedIps

variable {D : Type}

def new : AllowedIps D where
  ips := []

def insert (table : AllowedIps D) (ip : AllowedIP) (data : D) : AllowedIps D where
  ips := go (IpNetwork.newTruncate ip) table.ips
where
  go (net : IpNetwork) : List (IpNetwork × D) → List (IpNetwork × D)
    | [] => [(net, data)]
    | entry :: rest =>
      if entry.1 = net then
        (net, data) :: rest
      else if net.lt entry.1 then
        (net, data) :: entry :: rest
      else
        entry :: go net rest

def longestMatch (ip : IpAddr) : List (IpNetwork × D) → Option (IpNetwork × D)
  | [] => none
  | entry :: rest =>
    match longestMatch ip rest with
    | none => if entry.1.contains ip then some entry else none
    | some best =>
      if entry.1.contains ip && best.1.netmask < entry.1.netmask then some entry else some best

def find (table : AllowedIps D) (ip : IpAddr) : Option D :=
  (longestMatch ip table.ips).map Prod.snd

def remove (table : AllowedIps D) (predicate : D → Bool) : AllowedIps D where
  ips := table.ips.filter fun entry => !predicate entry.2

def iter (table : AllowedIps D) : List (D × IpAddr × Nat) :=
  table.ips.map fun entry => (entry.2, entry.1.networkAddress, entry.1.netmask)

def ofList (ips : List AllowedIP) (data : D) : AllowedIps D :=
  ips.foldl (fun table ip => table.insert ip data) new

end AllowedIps

end Device
