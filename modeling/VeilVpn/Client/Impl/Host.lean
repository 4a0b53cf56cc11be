import VeilVpn.Text
import Mathlib.Logic.Function.Basic

/-!
This module contains the host of the desktop client as the commands that the client runs see it. The
routes through an interface exist only as long as the interface does.
-/

namespace Client

inductive Platform where
  | macos
  | linux
  | other
  deriving DecidableEq

inductive Nexthop where
  | gateway (addr : String)
  | interface (name : String)
  deriving DecidableEq

inductive Dest where
  | default
  | host (ip : String)
  | net (cidr : String)
  deriving DecidableEq

def mainTable : Nat := 254

inductive Rule where
  | notFwmark (mark table : Nat)
  | suppressPrefixlength (table length : Nat)
  | other (selector : String)
  deriving DecidableEq

structure WgPeer where
  publicKey : String
  allowedIps : String
  endpoint : String
  persistentKeepalive : Nat
  deriving DecidableEq

structure Interface where
  /-- Whether it belongs to a running `boringtun-cli`, with which it disappears -/
  boringtun : Bool
  privateKey : Option String
  peer : Option WgPeer
  fwmark : Option Nat
  addresses : List String
  up : Bool
  deriving DecidableEq

namespace Interface

def tunnel : Interface where
  boringtun := true
  privateKey := none
  peer := none
  fwmark := none
  addresses := []
  up := false

end Interface

structure Dns where
  /-- The servers of a network service, none of them if they are left to DHCP -/
  servers : String → List String
  /-- The content of `/etc/resolv.conf`, if the file exists -/
  resolvConf : Option Bytes
  /-- The records of resolvconf -/
  records : String → Option String

structure Host where
  /-- The interfaces for which a `boringtun-cli` is running -/
  processes : String → Bool
  interfaces : String → Option Interface
  routes : Nat → Dest → Option Nexthop
  /-- How many copies there are of a rule -/
  rules : Rule → Nat
  dns : Dns
  /-- What resolvconf, if it is installed, makes of its records and of `/etc/resolv.conf` -/
  resolvconf : Option ((String → Option String) → Option Bytes → Option Bytes)
  isSome_interface : ∀ table dest name, routes table dest = some (.interface name) →
    (interfaces name).isSome

namespace Host

def setInterface (h : Host) (name : String) (i : Interface) : Host :=
  { h with
    interfaces := Function.update h.interfaces name (some i)
    isSome_interface := by
      intro table dest n hroute
      rw [Function.update_apply]
      split
      . rfl
      . exact h.isSome_interface table dest n hroute }

def removeInterfaces (h : Host) (gone : String → Bool) : Host :=
  { h with
    interfaces := fun name => if gone name then none else h.interfaces name
    routes := fun table dest =>
      match h.routes table dest with
      | some (.interface name) => if gone name then none else some (.interface name)
      | hop => hop
    isSome_interface := by
      intro table dest name hroute
      split at hroute
      . next n hold =>
        split at hroute
        . simp at hroute
        . next hstays =>
          cases hroute
          rw [if_neg hstays]
          exact h.isSome_interface table dest name hold
      . next hop hnot => exact absurd hroute (hnot name) }

def addRoute (h : Host) (table : Nat) (dest : Dest) (hop : Nexthop)
    (hhop : ∀ name, hop = .interface name → (h.interfaces name).isSome)
    : Host :=
  { h with
    routes := fun t d => if t = table ∧ d = dest then some hop else h.routes t d
    isSome_interface := by
      intro t d name hroute
      split at hroute
      . cases hroute
        exact hhop name rfl
      . exact h.isSome_interface t d name hroute }

theorem isSome_of_gateway (h : Host) (addr : String)
    : ∀ name, Nexthop.gateway addr = .interface name → (h.interfaces name).isSome := by
  simp

def removeRoutes (h : Host) (gone : Nat → Dest → Bool) : Host :=
  { h with
    routes := fun table dest => if gone table dest then none else h.routes table dest
    isSome_interface := by
      intro table dest name hroute
      split at hroute
      . simp at hroute
      . exact h.isSome_interface table dest name hroute }

def addRule (h : Host) (rule : Rule) : Host :=
  { h with rules := Function.update h.rules rule (h.rules rule + 1) }

def deleteRule (h : Host) (rule : Rule) : Host :=
  { h with rules := Function.update h.rules rule (h.rules rule - 1) }

def isTunnel (h : Host) (name : String) : Bool :=
  (h.interfaces name).any Interface.boringtun

/--
All processes with the name `boringtun-cli` end, and with them their interfaces.
-/
def pkill (h : Host) : Host :=
  { h.removeInterfaces h.isTunnel with processes := fun _ => false }

end Host

inductive Command where
  | boringtunCli (path iface : String)
  | wgSetPeer (iface privateKey : String) (peer : WgPeer)
  | wgSetFwmark (iface : String) (mark : Nat)
  | ifconfigUp (iface ip : String)
  | ipAddrAdd (cidr iface : String)
  | ipLinkUp (iface : String)
  | routeAddHost (ip gateway : String)
  | routeAddNet (cidr iface : String)
  | ipRuleAdd (rule : Rule)
  | ipRouteAddDefault (iface : String) (table : Nat)
  | setDnsServers (service : String) (servers : List String)
  | resolvconfAdd (record content : String)
  | writeResolvConf (content : String)
  | routeDeleteNet (cidr iface : String)
  | routeDeleteHost (ip : String)
  | ipRuleDelete (rule : Rule)
  | ipRouteFlush (table : Nat)
  | ifconfigDown (iface : String)
  | ifconfigDestroy (iface : String)
  | ipLinkDelete (iface : String)
  | resolvconfDelete (record : String)
  | pkillBoringtun
  deriving DecidableEq

namespace Command

def updateInterface (h : Host) (name : String) (f : Interface → Interface) : Option Host :=
  (h.interfaces name).map fun i => h.setInterface name (f i)

/--
There can not be two routes to the same destination in a table.
-/
def addRoute (h : Host) (table : Nat) (dest : Dest) (hop : Nexthop)
    (hhop : ∀ name, hop = .interface name → (h.interfaces name).isSome) : Option Host :=
  if (h.routes table dest).isNone then some (h.addRoute table dest hop hhop) else none

def addInterfaceRoute (h : Host) (table : Nat) (dest : Dest) (iface : String) : Option Host :=
  if hiface : (h.interfaces iface).isSome then
    addRoute h table dest (.interface iface) fun name hname => by
      cases hname
      exact hiface
  else
    none

def setDns (h : Host) (dns : Dns) : Host :=
  { h with dns }

/--
What a command does to the host, unless it fails because of the state of the host.
-/
def apply (h : Host) : Command → Option Host
  -- The interface is created by the process that is started here
  | .boringtunCli _ iface => some { h with processes := Function.update h.processes iface true }
  | .wgSetPeer iface privateKey peer =>
    updateInterface h iface fun i => { i with privateKey := some privateKey, peer := some peer }
  | .wgSetFwmark iface mark => updateInterface h iface fun i => { i with fwmark := some mark }
  | .ifconfigUp iface ip =>
    updateInterface h iface fun i => { i with addresses := ip :: i.addresses, up := true }
  | .ipAddrAdd cidr iface =>
    updateInterface h iface fun i => { i with addresses := cidr :: i.addresses }
  | .ipLinkUp iface => updateInterface h iface fun i => { i with up := true }
  | .routeAddHost ip gateway =>
    addRoute h mainTable (.host ip) (.gateway gateway) (h.isSome_of_gateway gateway)
  | .routeAddNet cidr iface => addInterfaceRoute h mainTable (.net cidr) iface
  -- Without a priority there is always one more rule
  | .ipRuleAdd rule => some (h.addRule rule)
  | .ipRouteAddDefault iface table => addInterfaceRoute h table .default iface
  | .setDnsServers service servers =>
    some (setDns h { h.dns with servers := Function.update h.dns.servers service servers })
  | .resolvconfAdd record content =>
    h.resolvconf.map fun render =>
      let records := Function.update h.dns.records record (some content)
      setDns h { h.dns with records, resolvConf := render records h.dns.resolvConf }
  | .writeResolvConf content => some (setDns h { h.dns with resolvConf := some (Text.bytes content) })
  | .routeDeleteNet cidr iface =>
    if h.routes mainTable (.net cidr) = some (.interface iface) then
      some (h.removeRoutes fun table dest => table = mainTable ∧ dest = .net cidr)
    else
      none
  | .routeDeleteHost ip =>
    if (h.routes mainTable (.host ip)).isSome then
      some (h.removeRoutes fun table dest => table = mainTable ∧ dest = .host ip)
    else
      none
  | .ipRuleDelete rule => if h.rules rule ≠ 0 then some (h.deleteRule rule) else none
  | .ipRouteFlush table => some (h.removeRoutes fun t _ => t = table)
  | .ifconfigDown iface => updateInterface h iface fun i => { i with up := false }
  | .ifconfigDestroy iface | .ipLinkDelete iface =>
    if (h.interfaces iface).isSome then some (h.removeInterfaces (· = iface)) else none
  | .resolvconfDelete record =>
    h.resolvconf.map fun render =>
      let records := Function.update h.dns.records record none
      setDns h { h.dns with records, resolvConf := render records h.dns.resolvConf }
  | .pkillBoringtun => some h.pkill

def ruleArgs : Rule → List String
  | .notFwmark mark table => ["not", "fwmark", toString mark, "table", toString table]
  | .suppressPrefixlength table length =>
    ["table", if table = mainTable then "main" else toString table, "suppress_prefixlength",
      toString length]
  | .other selector => [selector]

/--
The arguments that are given to `sudo`. The private key is passed in a file.
-/
def args : Command → List String
  | .boringtunCli path iface => [path, iface, "--disable-drop-privileges", "--foreground"]
  | .wgSetPeer iface _ peer =>
    ["wg", "set", iface, "private-key", "/tmp/vpntee_" ++ iface ++ ".key", "peer", peer.publicKey,
      "allowed-ips", peer.allowedIps, "endpoint", peer.endpoint, "persistent-keepalive",
      toString peer.persistentKeepalive]
  | .wgSetFwmark iface mark => ["wg", "set", iface, "fwmark", toString mark]
  | .ifconfigUp iface ip => ["ifconfig", iface, ip, ip, "up"]
  | .ipAddrAdd cidr iface => ["ip", "addr", "add", cidr, "dev", iface]
  | .ipLinkUp iface => ["ip", "link", "set", iface, "up"]
  | .routeAddHost ip gateway => ["route", "add", "-host", ip, gateway]
  | .routeAddNet cidr iface => ["route", "add", "-net", cidr, "-interface", iface]
  | .ipRuleAdd rule => ["ip", "rule", "add"] ++ ruleArgs rule
  | .ipRouteAddDefault iface table =>
    ["ip", "route", "add", "default", "dev", iface, "table", toString table]
  | .setDnsServers service servers =>
    ["networksetup", "-setdnsservers", service] ++ (if servers.isEmpty then ["Empty"] else servers)
  | .resolvconfAdd record _ => ["resolvconf", "-a", record]
  | .writeResolvConf _ => []
  | .routeDeleteNet cidr iface => ["route", "delete", "-net", cidr, "-interface", iface]
  | .routeDeleteHost ip => ["route", "delete", "-host", ip]
  | .ipRuleDelete rule => ["ip", "rule", "delete"] ++ ruleArgs rule
  | .ipRouteFlush table => ["ip", "route", "flush", "table", toString table]
  | .ifconfigDown iface => ["ifconfig", iface, "down"]
  | .ifconfigDestroy iface => ["ifconfig", iface, "destroy"]
  | .ipLinkDelete iface => ["ip", "link", "delete", iface]
  | .resolvconfDelete record => ["resolvconf", "-d", record]
  | .pkillBoringtun => ["pkill", "-f", "boringtun-cli"]

end Command

end Client
