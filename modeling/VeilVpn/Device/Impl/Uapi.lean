import VeilVpn.Lines
import VeilVpn.Text
import VeilVpn.Device.Impl.Device

/-!
This module contains the user space API of the device as the text that goes over its socket. Functions
that can panic return an `Option`.
-/

namespace Device

namespace Uapi

/--
What the device takes from the standard library and the base64 crate to read and write texts.
-/
structure TextFormat where
  base64Decode : List Char → Option Bytes
  displayIp : IpAddr → List Char
  parseIp : List Char → Option IpAddr
  displaySocketAddr : SocketAddr → List Char
  parseSocketAddr : List Char → Option SocketAddr
  parse_displayIp : ∀ ip, parseIp (displayIp ip) = some ip
  printable_displayIp : ∀ ip, ∀ c ∈ displayIp ip, c ≠ '\n' ∧ c ≠ '\r' ∧ c ≠ '/'
  printable_displaySocketAddr : ∀ addr, ∀ c ∈ displaySocketAddr addr, c ≠ '\n' ∧ c ≠ '\r'

inductive Errno where
  | success
  | eio
  | einval
  | eproto
  | eaddrinuse
  deriving DecidableEq

def Errno.code : Errno → Nat
  | .success => 0
  | .eio => 5
  | .einval => 22
  | .eproto => 71
  | .eaddrinuse => 98

def isContinuation (byte : UInt8) : Bool :=
  0x80 ≤ byte && byte < 0xc0

/--
A byte from two hexadecimal digits, of which the first one may be a plus sign.
-/
def fromStrRadix (hi lo : UInt8) : Option UInt8 :=
  let value := fun (byte : UInt8) => Hex.value (Char.ofNat byte.toNat)
  if hi = 43 then
    (value lo).map UInt8.ofNat
  else
    match value hi, value lo with
    | some hi, some lo => some (UInt8.ofNat (hi * 16 + lo))
    | _, _ => none

/--
Read pairs of digits until one of them is wrong. A pair that cuts a character panics.
-/
def fromHex : Bytes → Option (Option Bytes)
  | hi :: lo :: rest =>
    if isContinuation hi || rest.head?.any isContinuation then
      none
    else
      match fromStrRadix hi lo with
      | none => some none
      | some byte => (fromHex rest).map fun bytes => bytes.map (byte :: ·)
  | _ => some (some [])

def keyBytes (F : TextFormat) (s : List Char) : Option (Option (FixedBytes 32)) :=
  let bytes := s.flatMap String.utf8EncodeChar
  if bytes.length = 64 then
    -- Try to parse as hex
    (fromHex bytes).map fun key => key.map (FixedBytes.ofBytes 32)
  else if bytes.length = 43 ∨ bytes.length = 44 then
    -- Try to parse as base64
    match F.base64Decode s with
    | some key => some (if h : key.length = 32 then some ⟨key, h⟩ else none)
    | none => some (some (.zero 32))
  else
    some none

def parseBool (s : List Char) : Option Bool :=
  match String.ofList s with
  | "true" => some true
  | "false" => some false
  | _ => none

def parseU16 (s : List Char) : Option UInt16 :=
  (Decimal.parseBelow (2 ^ 16) s).map UInt16.ofNat

def parseU32 (s : List Char) : Option UInt32 :=
  (Decimal.parseBelow (2 ^ 32) s).map UInt32.ofNat

def parseAllowedIp (F : TextFormat) (s : List Char) : Option AllowedIP :=
  match s.splitOn '/' with
  | [addr, cidr] =>
    match F.parseIp addr, Decimal.parseBelow (2 ^ 8) cidr with
    | some addr, some cidr => if h : cidr ≤ addr.width then some ⟨addr, cidr, h⟩ else none
    | _, _ => none
  | _ => none

def field (key : String) (val : List Char) : List Char :=
  key.toList ++ '=' :: val

def hex (b : Bytes) : List Char :=
  (Hex.encode b).toList

def displayBool (b : Bool) : List Char :=
  if b then "true".toList else "false".toList

def quotaLines (quota : Payment.BandwidthQuota) : List (List Char) := [
  field "quota_remaining" (Decimal.display quota.remainingBytes.toNat),
  field "quota_blocked" (displayBool quota.isBlocked),
  field "quota_total_consumed" (Decimal.display quota.totalConsumed.toNat),
  field "quota_payment_count" (Decimal.display quota.paymentCount.toNat)
]

def handshakeLines (time : Duration) : List (List Char) := [
  field "last_handshake_time_sec" (Decimal.display time.asSecs),
  field "last_handshake_time_nsec" (Decimal.display time.subsecNanos)
]

def peerLines (F : TextFormat) (p : Peer) (key : FixedBytes 32) (now : Instant)
    : Option (List (List Char)) :=
  match p.timeSinceLastHandshake now with
  | none => none
  | some time =>
    some <|
      field "public_key" (hex key.val) ::
        ((p.presharedKey.map fun key => field "preshared_key" (hex key.val)).toList
        ++ (p.persistentKeepalive.map fun keepalive =>
          field "persistent_keepalive_interval" (Decimal.display keepalive.toNat)).toList
        ++ (p.endpoint.addr.map fun addr => field "endpoint" (F.displaySocketAddr addr)).toList
        ++ p.allowedIps.iter.map (fun (_, ip, cidr) =>
          field "allowed_ip" (F.displayIp ip ++ '/' :: Decimal.display cidr))
        ++ (time.map handshakeLines).getD []
        ++ [field "rx_bytes" (Decimal.display p.tunnel.rxBytes),
          field "tx_bytes" (Decimal.display p.tunnel.txBytes)]
        ++ (p.quota.map quotaLines).getD [])

def deviceLines (d : Device) : List (List Char) :=
  (d.keyPair.map fun keyPair => field "own_public_key" (hex keyPair.2.val)).toList
  ++ (if d.listenPort ≠ 0 then [field "listen_port" (Decimal.display d.listenPort.toNat)] else [])
  ++ (d.fwmark.map fun fwmark => field "fwmark" (Decimal.display fwmark.toNat)).toList

def apiGet (F : TextFormat) (d : Device) (order : HashMap.Iteration d.peers) (now : Instant)
    : Option (List (List Char)) :=
  match order.entries.mapM fun (key, id) => do peerLines F (← d.peerArena.get id) key now with
  | none => none
  | some peers => some (deviceLines d ++ peers.flatten)

structure ApiEnv where
  env : Env
  /-- The port on which the sockets are opened, if they can be -/
  assigned : Option UInt16
  /-- Whether the sockets can be marked -/
  marks : Bool

inductive PeerOption where
  | remove (remove : Bool)
  | presharedKey (key : FixedBytes 32)
  | endpoint (addr : SocketAddr)
  | persistentKeepaliveInterval (interval : UInt16)
  | replaceAllowedIps (replace : Bool)
  | allowedIp (ip : AllowedIP)

inductive PeerLine where
  | option (o : PeerOption)
  /-- Indicates a new peer section -/
  | publicKey (val : List Char)
  | protocolVersion

def PeerLine.ofOption {α : Type} (o : α → PeerOption) (parsed : Option α) : Except Errno PeerLine :=
  match parsed with
  | some a => .ok (.option (o a))
  | none => .error .einval

def parsePeerLine (F : TextFormat) (cmd : List Char) : Option (Except Errno PeerLine) :=
  match Lines.splitOnce '=' cmd with
  | none => some (.error .eproto)
  | some (key, val) =>
    match String.ofList key with
    | "remove" => some (PeerLine.ofOption .remove (parseBool val))
    | "preshared_key" => (keyBytes F val).map (PeerLine.ofOption .presharedKey)
    | "endpoint" => some (PeerLine.ofOption .endpoint (F.parseSocketAddr val))
    | "persistent_keepalive_interval" =>
      some (PeerLine.ofOption .persistentKeepaliveInterval (parseU16 val))
    | "replace_allowed_ips" => some (PeerLine.ofOption .replaceAllowedIps (parseBool val))
    | "allowed_ip" => some (PeerLine.ofOption .allowedIp (parseAllowedIp F val))
    | "public_key" => some (.ok (.publicKey val))
    -- Only version 1 is legal
    | "protocol_version" =>
      some (if parseU32 val = some 1 then .ok .protocolVersion else .error .einval)
    | _ => some (.error .einval)

/--
What `api_set_peer` has read about a peer so far.
-/
structure PeerSettings where
  publicKey : FixedBytes 32
  remove : Bool
  replaceIps : Bool
  endpoint : Option SocketAddr
  keepalive : Option UInt16
  presharedKey : Option (FixedBytes 32)
  allowedIps : List AllowedIP

namespace PeerSettings

def new (publicKey : FixedBytes 32) : PeerSettings where
  publicKey := publicKey
  remove := false
  replaceIps := false
  endpoint := none
  keepalive := none
  presharedKey := none
  allowedIps := []

def apply (s : PeerSettings) : PeerOption → PeerSettings
  | .remove remove => { s with remove }
  | .presharedKey key => { s with presharedKey := some key }
  | .endpoint addr => { s with endpoint := some addr }
  | .persistentKeepaliveInterval interval => { s with keepalive := some interval }
  | .replaceAllowedIps replace => { s with replaceIps := replace }
  | .allowedIp ip => { s with allowedIps := s.allowedIps ++ [ip] }

end PeerSettings

section Set

variable (C : Primitives) (F : TextFormat) (envs : Nat → ApiEnv)

def commit (d : Device) (s : PeerSettings) (env : Env) : Option Device :=
  d.updatePeer C s.publicKey s.remove s.endpoint s.allowedIps s.keepalive s.presharedKey env

/--
Read the sections of peers. `n` counts how often the device was changed, the end of the text reads as
an empty line.
-/
def apiSetPeer (d : Device) (s : PeerSettings) (n : Nat)
    : List (List Char) → Option (Device × Errno)
  | [] => (commit C d s (envs n).env).map fun d => (d, .success)
  | line :: rest =>
    -- remove newline if any
    let cmd := line.dropLast
    if cmd.isEmpty then
      (commit C d s (envs n).env).map fun d => (d, .success)
    else
      match parsePeerLine F cmd with
      | none => none
      | some (.error e) => some (d, e)
      | some (.ok (.option o)) => apiSetPeer d (s.apply o) n rest
      | some (.ok .protocolVersion) => apiSetPeer d s n rest
      | some (.ok (.publicKey val)) =>
        -- Commit changes for current peer, and continue to next peer
        match commit C d s (envs n).env with
        | none => none
        | some d =>
          match keyBytes F val with
          | none => none
          | some none => some (d, .einval)
          | some (some key) => apiSetPeer d { s with publicKey := key, allowedIps := [] } (n + 1) rest

/--
Read the lines that configure the device itself, up to the first section of a peer.
-/
def apiSet (d : Device) (n : Nat) : List (List Char) → Option (Device × Errno)
  | [] => some (d, .success)
  | line :: rest =>
    let cmd := line.dropLast
    if cmd.isEmpty then
      some (d, .success)
    else
      match cmd.splitOn '=' with
      | [key, val] =>
        match String.ofList key with
        | "private_key" =>
          match keyBytes F val with
          | none => none
          | some none => some (d, .einval)
          | some (some key) => apiSet (d.setKey C key (envs n).env) (n + 1) rest
        | "listen_port" =>
          match parseU16 val with
          | none => some (d, .einval)
          | some port =>
            let d := d.openListenSocket port (envs n).assigned
            if (envs n).assigned.isSome then apiSet d (n + 1) rest else some (d, .eaddrinuse)
        | "fwmark" =>
          match parseU32 val with
          | none => some (d, .einval)
          | some mark =>
            let d := d.setFwmark mark
            if (envs n).marks then apiSet d (n + 1) rest else some (d, .eaddrinuse)
        | "replace_peers" =>
          match parseBool val with
          | none => some (d, .einval)
          | some true => apiSet d.clearPeers (n + 1) rest
          | some false => apiSet d n rest
        | "public_key" =>
          match keyBytes F val with
          | none => none
          | some none => some (d, .einval)
          -- Indicates a new peer section
          | some (some key) => apiSetPeer C F envs d (.new key) n rest
        | _ => some (d, .einval)
      | _ => some (d, .eproto)

def trailer (status : Errno) : List Char :=
  Lines.write [field "errno" (Decimal.display status.code), []]

def apiHandler (d : Device) (order : HashMap.Iteration d.peers) (request : List Char)
    : Option (Device × List Char) :=
  let lines := Lines.read request
  match String.ofList (lines.headD []).dropLast with
  -- Only two commands are legal according to the protocol, get=1 and set=1.
  | "get=1" =>
    (apiGet F d order (envs 0).env.now).map fun lines => (d, Lines.write lines ++ trailer .success)
  | "set=1" => (apiSet C F envs d 0 lines.tail).map fun (d, status) => (d, trailer status)
  | _ => some (d, trailer .eio)

end Set

end Uapi

end Device
