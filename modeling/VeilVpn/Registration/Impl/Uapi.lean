import VeilVpn.Device.Impl.Uapi
import VeilVpn.Registration.Impl.Registration

/-!
This module contains the client of the user space API: the texts that it sends to the device, and how
it reads the answer to `get=1`.
-/

namespace Registration

/--
What was read so far. The peer whose section is being read is not yet among `peers`.
-/
structure UapiReader where
  peers : HashMap String (Option Nat)
  currentPubkey : Option String
  currentHandshake : Option Nat
  ownPubkey : Option String
  listenPort : Option UInt16

namespace UapiReader

def new : UapiReader where
  peers := ∅
  currentPubkey := none
  currentHandshake := none
  ownPubkey := none
  listenPort := none

def flush (r : UapiReader) : UapiReader :=
  match r.currentPubkey with
  | none => r
  | some pk =>
    { r with
      peers := r.peers.insert pk r.currentHandshake
      currentPubkey := none
      currentHandshake := none
    }

variable (B : Base64)

def readField (r : UapiReader) (key : String) (val : List Char) : UapiReader :=
  match key with
  | "own_public_key" =>
    -- Convert hex to base64
    match Hex.decode (String.ofList val) with
    | some bytes => { r with ownPubkey := some (B.encode bytes) }
    | none => r
  | "listen_port" => { r with listenPort := (Decimal.parseBelow (2 ^ 16) val).map UInt16.ofNat }
  | "public_key" =>
    { r.flush with currentPubkey := some (String.ofList val), currentHandshake := none }
  | "last_handshake_time_sec" => { r with currentHandshake := Decimal.parseBelow (2 ^ 64) val }
  | _ => r

def readLine (r : UapiReader) (line : List Char) : UapiReader :=
  match Lines.splitOnce '=' line with
  | none => r
  | some (key, val) => r.readField B (String.ofList key) val

def readLines (r : UapiReader) : List (List Char) → UapiReader
  | [] => r
  | line :: rest =>
    let line := Lines.strip line
    if line.isEmpty then
      -- Empty lines separate peer blocks
      r.flush.readLines rest
    else if "errno=".toList.isPrefixOf line then
      -- Terminates the UAPI response
      r.flush
    else
      (r.readLine B line).readLines rest

end UapiReader

def uapiGetPeers (B : Base64) (response : List Char) : UapiPeers :=
  let r := (UapiReader.new.readLines B (Lines.read response)).flush
  { ownPubkey := r.ownPubkey, listenPort := r.listenPort, peers := r.peers }

def uapiGetRequest : List Char :=
  Lines.write ["get=1".toList]

section Requests

open Device.Uapi (TextFormat field)

def uapiSetPeer (F : TextFormat) (pubkeyHex : String) (allowedIp : Ipv4Addr) : List Char :=
  Lines.write [
    "set=1".toList,
    field "public_key" pubkeyHex.toList,
    "replace_allowed_ips=true".toList,
    field "allowed_ip" (F.displayIp (.v4 allowedIp) ++ "/32".toList),
    []
  ]

def uapiRemovePeer (pubkeyHex : String) : List Char :=
  Lines.write [
    "set=1".toList,
    field "public_key" pubkeyHex.toList,
    "remove=true".toList,
    []
  ]

end Requests

end Registration
