import VeilVpn.Attempt
import VeilVpn.Lines
import VeilVpn.Client.Impl.Host

/-!
This module contains the manager of the connection. What is not decided by the host is decided by an
environment: which commands fail, what the server answers and what the tools print.
-/

namespace Client

structure RegisterResponse where
  serverPublicKey : String
  endpoint : String
  assignedIp : String

inductive RegisterResult where
  | noClient (error : String)
  | unreachable (error : String)
  | status (code text : String)
  | unparsable (error : String)
  | registered (response : RegisterResponse)

inductive Query where
  | notRun (error : String)
  | failed
  | printed

structure Env where
  serverIp : String
  /-- The private key in base64, and the address of the wallet that is derived from it -/
  key : Except String (String × String)
  register : RegisterResult
  /-- What is printed by the tool that lists the interfaces -/
  listing : Except String (List Char)
  /-- Where `boringtun-cli` is found -/
  binary : Except String String
  /-- Whether the file for the output of `boringtun-cli` can be created, and opened again -/
  log : Except String Unit
  logClone : Except String Unit
  /-- Whether a process for `boringtun-cli` can be started -/
  spawnsTunnel : Except String Unit
  /-- Whether `boringtun-cli` creates its interface in time -/
  appears : Bool
  /-- Whether the connection attempt is abandoned while it waits for the interface -/
  cancelled : Bool
  keyFile : Except String Unit
  permits : Command → Bool
  /-- What a command that fails prints -/
  stderr : Command → List Char
  /-- What is printed about the default route -/
  defaultRoute : Except String (List Char)
  hardwarePorts : Except String (List Char)
  dnsQuery : Query
  /-- Whether `which` can be run -/
  which : Bool
  /-- Whether a process for resolvconf can be started -/
  spawnsResolvconf : Except String Unit
  balance : Except String String

variable (p : Platform) (env : Env)

def command (c : Command) (h : Host) : Option Host :=
  if env.permits c then c.apply h else none

def runSudo (c : Command) : Attempt Host String Unit :=
  fun h =>
    match command env c h with
    | some h => (.ok (), h)
    | none =>
      (.error ("Command failed: sudo " ++ " ".intercalate c.args ++ " — "
        ++ String.ofList (Text.trimChars (env.stderr c))), h)

/--
A command whose result is ignored. It takes effect if what it removes exists.
-/
def teardown (h : Host) (c : Command) : Host :=
  (c.apply h).getD h

section Interface

def ifaceName (kind : String) (i : Nat) : String :=
  kind ++ String.ofList (Decimal.display i)

def findAvailableIface : Except String String :=
  match p with
  | .macos =>
    match env.listing with
    | .error e => .error ("ifconfig -l failed: " ++ e)
    | .ok existing =>
      match (List.range' 9 22).find? fun i =>
        !((Lines.splitWhitespace existing).any (· == (ifaceName "utun" i).toList)) with
      | some i => .ok (ifaceName "utun" i)
      | none => .error "No available utun interface found"
  | .linux =>
    match env.listing with
    | .error e => .error ("ip link show failed: " ++ e)
    | .ok existing =>
      match (List.range' 0 21).find? fun i =>
        !decide ((ifaceName "wg" i).toList ++ [':'] <:+: existing) with
      | some i => .ok (ifaceName "wg" i)
      | none => .error "No available wg interface found"
  | .other => .ok "wg0"

def interfaceExists (h : Host) (iface : String) : Bool :=
  match p with
  | .macos | .linux => (h.interfaces iface).isSome
  | .other => false

/--
What `boringtun-cli` does while the client waits for it.
-/
def createInterface (iface : String) (h : Host) : Host :=
  if env.appears && h.processes iface && (h.interfaces iface).isNone then
    h.setInterface iface .tunnel
  else
    h

def configureWireguard (iface privKey serverPub endpoint : String) : Attempt Host String Unit :=
  match env.keyFile with
  | .error e => .fail ("Failed to write key file: " ++ e)
  | .ok () =>
    runSudo env (.wgSetPeer iface privKey {
      publicKey := serverPub
      allowedIps := "0.0.0.0/0"
      endpoint := endpoint
      persistentKeepalive := 25
    })

def configureInterfaceIp (iface ipBare assignedIp : String) : Attempt Host String Unit :=
  match p with
  | .macos => runSudo env (.ifconfigUp iface ipBare)
  | .linux => do
    let ipCidr := if assignedIp.toList.contains '/' then assignedIp else assignedIp ++ "/32"
    runSudo env (.ipAddrAdd ipCidr iface)
    runSudo env (.ipLinkUp iface)
  | .other => .fail "Unsupported platform"

def teardownInterface (iface : String) (h : Host) : Host :=
  match p with
  | .macos => [.ifconfigDown iface, .ifconfigDestroy iface].foldl teardown h
  | .linux => teardown h (.ipLinkDelete iface)
  | .other => h

end Interface

section Routes

def fwmark : Nat := 51820

def tunnelRule : Rule := .notFwmark fwmark fwmark

def suppressRule : Rule := .suppressPrefixlength mainTable 0

def configureFullTunnel (iface serverIp originalGw : String) : Attempt Host String Unit :=
  match p with
  | .macos => do
    -- This must come before the split routes so that the packets of the tunnel bypass it
    runSudo env (.routeAddHost serverIp originalGw)
    -- Split default: override the default route without deleting it
    runSudo env (.routeAddNet "0.0.0.0/1" iface)
    runSudo env (.routeAddNet "128.0.0.0/1" iface)
  | .linux => do
    runSudo env (.wgSetFwmark iface fwmark)
    runSudo env (.ipRuleAdd tunnelRule)
    runSudo env (.ipRouteAddDefault iface fwmark)
    runSudo env (.ipRuleAdd suppressRule)
  | .other => .fail "Unsupported platform"

def teardownRoutes (iface serverIp : String) (h : Host) : Host :=
  match p with
  | .macos =>
    [.routeDeleteNet "0.0.0.0/1" iface, .routeDeleteNet "128.0.0.0/1" iface,
      .routeDeleteHost serverIp].foldl teardown h
  | .linux =>
    [.ipRuleDelete tunnelRule, .ipRuleDelete suppressRule, .ipRouteFlush fwmark].foldl teardown h
  | .other => h

def findField (name : String) (text : List Char) : Option String :=
  ((Lines.lines text).findSome? fun line => Lines.afterFront name.toList (Text.trimChars line)).map
    fun rest => String.ofList (Text.trimChars rest)

def getDefaultGateway : Except String String :=
  match p with
  | .macos =>
    match env.defaultRoute with
    | .error e => .error ("route -n get default failed: " ++ e)
    | .ok text =>
      match findField "gateway:" text with
      | some gw => .ok gw
      | none => .error "Could not determine default gateway"
  | .linux =>
    match env.defaultRoute with
    | .error e => .error ("ip route show default failed: " ++ e)
    | .ok text =>
      -- "default via 192.168.1.1 dev eth0 ..."
      match (Lines.splitWhitespace text).map String.ofList with
      | "default" :: "via" :: gw :: _ => .ok gw
      | _ => .error "Could not determine default gateway"
  | .other => .error "Unsupported platform"

end Routes

section Dns

inductive OriginalDns where
  | macos (service : String) (servers : List String)
  | linux (resolvConfBackup : String)
  | other

def serviceOf (iface : String) (currentService : String) : List (List Char) → String
  | [] => "Wi-Fi"
  | line :: rest =>
    let currentService := ((Lines.afterFront "Hardware Port: ".toList line).map String.ofList).getD
      currentService
    match Lines.afterFront "Device: ".toList line with
    | some dev =>
      if Text.trimChars dev = iface.toList then currentService else serviceOf iface currentService rest
    | none => serviceOf iface currentService rest

def getPrimaryNetworkService : Except String String :=
  match env.defaultRoute with
  | .error e => .error ("route failed: " ++ e)
  | .ok text =>
    match findField "interface:" text with
    | none => .error "Could not find default interface"
    | some iface =>
      -- Map interface to network service name
      match env.hardwarePorts with
      | .error e => .error ("networksetup failed: " ++ e)
      | .ok text => .ok (serviceOf iface "" (Lines.lines text))

/--
What `networksetup -getdnsservers` prints.
-/
def displayDnsServers (service : String) (servers : List String) : List Char :=
  if servers.isEmpty then
    Lines.write [("There aren't any DNS Servers set on " ++ service ++ ".").toList]
  else
    Lines.write (servers.map String.toList)

def parseDnsServers (text : List Char) : List String :=
  let text := Text.trimChars text
  if "any DNS Servers set".toList <:+: text then
    []
  else
    (Lines.lines text).map fun line => String.ofList (Text.trimChars line)

/--
The backup is empty if there is no file or if it is not valid UTF-8.
-/
def readResolvConf (dns : Dns) : String :=
  (dns.resolvConf.bind Text.fromUTF8).getD ""

def saveOriginalDns (h : Host) : Except String OriginalDns :=
  match p with
  | .macos =>
    match getPrimaryNetworkService env with
    | .error e => .error e
    | .ok service =>
      match env.dnsQuery with
      | .notRun e => .error ("networksetup -getdnsservers failed: " ++ e)
      | .failed => .ok (.macos service (parseDnsServers []))
      | .printed => .ok (.macos service (parseDnsServers (displayDnsServers service (h.dns.servers service))))
  | .linux => .ok (.linux (readResolvConf h.dns))
  | .other => .ok .other

def vpnServers : List String := ["1.1.1.1", "8.8.8.8"]

def resolvconfRecord : String := "tun.vpntee"

def vpnNameservers : String := "nameserver 1.1.1.1\nnameserver 8.8.8.8\n"

def setVpnDns : Attempt Host String Unit :=
  match p with
  | .macos =>
    match getPrimaryNetworkService env with
    | .error e => .fail e
    | .ok service => runSudo env (.setDnsServers service vpnServers)
  | .linux => fun h =>
    -- Write DNS through resolvconf if available, otherwise direct write
    if env.which && h.resolvconf.isSome then
      match env.spawnsResolvconf with
      | .error e => (.error ("resolvconf failed: " ++ e), h)
      -- Nobody waits for the process that was started
      | .ok () => (.ok (), (command env (.resolvconfAdd resolvconfRecord vpnNameservers) h).getD h)
    else
      let write := Command.writeResolvConf ("# Set by vpntee\n" ++ vpnNameservers)
      match command env write h with
      | some h => (.ok (), h)
      | none => (.error ("Failed to write resolv.conf: " ++ String.ofList (env.stderr write)), h)
  | .other => pure ()

def restoreDns (dns : OriginalDns) (h : Host) : Host :=
  match dns with
  | .macos service servers => (command env (.setDnsServers service servers) h).getD h
  | .linux backup =>
    if backup.isEmpty then h else (command env (.writeResolvConf backup) h).getD h
  | .other => h

def restoreDnsBestEffort (h : Host) : Host :=
  match p with
  | .macos =>
    let service := (getPrimaryNetworkService env).toOption.getD "Wi-Fi"
    (command env (.setDnsServers service []) h).getD h
  | .linux => teardown h (.resolvconfDelete resolvconfRecord)
  | .other => h

end Dns

section Cleanup

inductive CleanupStep where
  | killBoringtun
  | teardownInterface (iface : String)
  | teardownRoutes (iface serverIp : String)
  | restoreDns
  deriving DecidableEq

def CleanupStep.execute (h : Host) : CleanupStep → Host
  | .killBoringtun => teardown h .pkillBoringtun
  | .teardownInterface iface => Client.teardownInterface p iface h
  | .teardownRoutes iface serverIp => Client.teardownRoutes p iface serverIp h
  | .restoreDns => restoreDnsBestEffort p env h

structure Cleanup where
  steps : List CleanupStep
  armed : Bool

/--
What happens to the cleanup steps, in the order in which it happens.
-/
inductive CleanupEvent where
  | registered (step : CleanupStep)
  | executed (step : CleanupStep)
  | disarmed
  deriving DecidableEq

structure ConnectionContext where
  iface : String
  originalGateway : String
  originalDns : OriginalDns
  serverIp : String

structure System where
  ctx : Option ConnectionContext
  host : Host
  cleanup : Cleanup
  log : List CleanupEvent

namespace Cleanup

def new : Cleanup where
  steps := []
  armed := true

def push (step : CleanupStep) (s : System) : System :=
  { s with
    cleanup := { s.cleanup with steps := s.cleanup.steps ++ [step] }
    log := s.log ++ [.registered step] }

def disarm (s : System) : System :=
  { s with cleanup := { s.cleanup with armed := false }, log := s.log ++ [.disarmed] }

def run (s : System) : System :=
  if s.cleanup.armed then
    { s with
      host := s.cleanup.steps.reverse.foldl (CleanupStep.execute p env) s.host
      cleanup := { steps := [], armed := false }
      log := s.log ++ s.cleanup.steps.reverse.map .executed }
  else
    s

def drop (s : System) : System :=
  if s.cleanup.armed then run p env s else s

end Cleanup

end Cleanup

section Connect

structure ConnectedInfo where
  assignedIp : String
  serverEndpoint : String
  walletAddress : String
  gatewayBalance : String

inductive Stop where
  | failed (error : String)
  | cancelled

abbrev Connect := Attempt System Stop

def onHost {α : Type} (x : Attempt Host String α) : Connect α :=
  x.zoom System.host (fun s host => { s with host }) .failed

def orFail {α : Type} (r : Except String α) : Connect α :=
  .ofExcept (r.mapError .failed)

/--
Run the cleanup if the given step fails. An attempt that is abandoned does not get that far.
-/
def orCleanup {α : Type} (x : Connect α) : Connect α :=
  x.onError fun e s =>
    match e with
    | .failed _ => Cleanup.run p env s
    | .cancelled => s

def register : Except String RegisterResponse :=
  match env.register with
  | .noClient e => .error ("HTTP client error: " ++ e)
  | .unreachable e => .error ("Failed to reach server: " ++ e)
  | .status code text => .error ("Server returned " ++ code ++ ": " ++ text)
  | .unparsable e => .error ("Failed to parse register response: " ++ e)
  | .registered response => .ok response

/--
The attempt can only be abandoned while it waits.
-/
def waitForInterface (iface : String) : Connect Unit :=
  fun s =>
    let s := { s with host := createInterface env iface s.host }
    if env.cancelled then
      (.error .cancelled, s)
    else if interfaceExists p s.host iface then
      (.ok (), s)
    else
      (.error (.failed ("Interface " ++ iface ++ " not ready after 5s")), s)

/--
The steps of `connect` after `boringtun-cli` was launched.
-/
def bringUp (activeServerIp iface privB64 wallet : String) (reg : RegisterResponse)
    : Connect ConnectedInfo := do
  let ipBare := String.ofList (reg.assignedIp.toList.takeWhile (· ≠ '/'))
  .modify (Cleanup.push .killBoringtun)
  -- 4. Wait for interface
  orCleanup p env (waitForInterface p env iface)
  -- 5. Configure WireGuard peer
  orCleanup p env (onHost (configureWireguard env iface privB64 reg.serverPublicKey reg.endpoint))
  -- 6. Set interface IP and bring up
  orCleanup p env (onHost (configureInterfaceIp p env iface ipBare reg.assignedIp))
  .modify (Cleanup.push (.teardownInterface iface))
  -- 7. Save original gateway and DNS
  let originalGw ← orCleanup p env (orFail
    ((getDefaultGateway p env).mapError ("Failed to get default gateway: " ++ ·)))
  let s ← .get
  let originalDns ← orCleanup p env (orFail
    ((saveOriginalDns p env s.host).mapError ("Failed to save DNS state: " ++ ·)))
  -- 8. Configure full-tunnel routing
  orCleanup p env (onHost (configureFullTunnel p env iface activeServerIp originalGw))
  .modify (Cleanup.push (.teardownRoutes iface activeServerIp))
  -- 9. Set DNS
  orCleanup p env (onHost (setVpnDns p env))
  .modify (Cleanup.push .restoreDns)
  -- Success: disarm cleanup, store context
  .modify Cleanup.disarm
  .modify fun s => { s with
    ctx := some { iface, originalGateway := originalGw, originalDns, serverIp := activeServerIp } }
  -- 10. Query gateway balance
  return {
    assignedIp := ipBare
    serverEndpoint := reg.endpoint
    walletAddress := wallet
    gatewayBalance := env.balance.toOption.getD "0.000000"
  }

def connectSystem (serverIp : Option String) : Connect ConnectedInfo := do
  let s ← .get
  if s.ctx.isSome then
    .fail (.failed "Already connected")
  let activeServerIp := serverIp.getD env.serverIp
  -- 1. Load or generate persistent key pair and derive wallet
  let (privB64, wallet) ← orFail env.key
  -- 2. Register with server
  let reg ← orFail (register env)
  -- 3. Launch boringtun-cli
  .modify fun s => { s with host := teardown s.host .pkillBoringtun }
  let iface ← orFail (findAvailableIface p env)
  let boringtunPath ← orFail env.binary
  orFail (env.log.mapError ("Failed to create boringtun log: " ++ ·))
  orFail (env.logClone.mapError ("Failed to clone log handle: " ++ ·))
  orFail (env.spawnsTunnel.mapError ("Failed to start boringtun-cli: " ++ ·))
  .modify fun s => { s with host := (command env (.boringtunCli boringtunPath iface) s.host).getD s.host }
  -- From here, every error must clean up previous steps
  (bringUp p env activeServerIp iface privB64 wallet reg).atEnd (Cleanup.drop p env)

end Connect

structure VpnManager where
  ctx : Option ConnectionContext

structure ConnectOutcome where
  result : Except Stop ConnectedInfo
  manager : VpnManager
  host : Host
  log : List CleanupEvent

namespace VpnManager

def connect (m : VpnManager) (serverIp : Option String) (h : Host) : ConnectOutcome :=
  let (result, s) := connectSystem p env serverIp
    { ctx := m.ctx, host := h, cleanup := .new, log := [] }
  { result, manager := { ctx := s.ctx }, host := s.host, log := s.log }

def disconnect (m : VpnManager) (h : Host) : Except String Unit × VpnManager × Host :=
  match m.ctx with
  | none => (.error "Not connected", m, h)
  | some ctx =>
    -- Restore DNS first
    let h := restoreDns env ctx.originalDns h
    -- Remove full-tunnel routes
    let h := teardownRoutes p ctx.iface ctx.serverIp h
    -- Tear down interface
    let h := teardownInterface p ctx.iface h
    -- Kill boringtun
    (.ok (), { ctx := none }, teardown h .pkillBoringtun)

end VpnManager

end Client
