import VeilVpn.HashMap
import VeilVpn.Net
import VeilVpn.Text
import VeilVpn.Time

/-!
This module contains the registration of peers over HTTP. The calls to the user space API of the
device are made between two parts of the handler, since they are answered by another program.
-/

namespace Registration

structure Base64 where
  encode : Bytes → String
  decode : String → Option Bytes

structure PaymentConfigSnapshot where
  chainId : UInt64
  gatewayWallet : FixedBytes 20
  usdcContract : FixedBytes 20
  amountPerQuota : UInt64
  quotaBytes : UInt64

structure RegistrationInner where
  registeredPeers : HashSet String
  availableIps : HashSet UInt8
  peerToOctet : HashMap String UInt8
  /-- When each peer was registered -/
  peerRegisteredAt : HashMap String Instant
  /-- Lazily cached server public key -/
  serverPubkeyCache : Option String
  /-- Lazily cached listen port -/
  listenPortCache : Option UInt16

structure RegistrationState where
  inner : RegistrationInner
  subnetPrefix : FixedBytes 3
  paymentConfig : PaymentConfigSnapshot
  publicIp : String

def octets : HashSet UInt8 :=
  (List.range' 2 253).foldl (fun ips octet => insert (UInt8.ofNat octet) ips) ∅

/--
The answer to `get=1`: the public key of the device, its port, and for each peer the time since the
last handshake in seconds.
-/
structure UapiPeers where
  ownPubkey : Option String
  listenPort : Option UInt16
  peers : HashMap String (Option Nat)

abbrev Response := UInt16 × String

def errorBody (message : String) : String :=
  "\x7b\"error\":\"" ++ message ++ "\"\x7d"

def internalError (e : String) : Response :=
  (500, errorBody ("internal error: " ++ e))

def showIp (ip : Ipv4Addr) : String :=
  ".".intercalate (ip.val.map fun byte => toString byte.toNat)

def buildSuccessResponse (ip : Ipv4Addr) (pc : PaymentConfigSnapshot) (publicIp : String)
    (serverPubkey : String) (listenPort : UInt16) : String :=
  "\x7b\"status\":\"ok\",\"server_public_key\":\"" ++ serverPubkey
    ++ "\",\"endpoint\":\"" ++ publicIp ++ ":" ++ toString listenPort.toNat
    ++ "\",\"assigned_ip\":\"" ++ showIp ip
    ++ "/32\",\"chain_id\":" ++ toString pc.chainId.toNat
    ++ ",\"gateway_wallet\":\"0x" ++ Hex.encode pc.gatewayWallet.val
    ++ "\",\"usdc_contract\":\"0x" ++ Hex.encode pc.usdcContract.val
    ++ "\",\"amount_per_quota\":" ++ toString pc.amountPerQuota.toNat
    ++ ",\"quota_bytes\":" ++ toString pc.quotaBytes.toNat ++ "\x7d"

namespace RegistrationState

def new (subnetPrefix : FixedBytes 3) (paymentConfig : PaymentConfigSnapshot) (publicIp : String)
    : RegistrationState where
  inner := {
    registeredPeers := ∅
    availableIps := octets
    peerToOctet := ∅
    peerRegisteredAt := ∅
    serverPubkeyCache := none
    listenPortCache := none
  }
  subnetPrefix
  paymentConfig
  publicIp

def ip (state : RegistrationState) (octet : UInt8) : Ipv4Addr :=
  ⟨state.subnetPrefix.val ++ [octet], by simp [state.subnetPrefix.property]⟩

def success (state : RegistrationState) (octet : UInt8) : Response :=
  (200, buildSuccessResponse (state.ip octet) state.paymentConfig state.publicIp
    (state.inner.serverPubkeyCache.getD "") (state.inner.listenPortCache.getD 51820))

def populate (state : RegistrationState) (uapiGet : Except String UapiPeers)
    : Except Response RegistrationState :=
  match state.inner.serverPubkeyCache with
  | some _ => .ok state
  | none =>
    match uapiGet with
    | .ok { ownPubkey := some pk, listenPort := port, .. } =>
      .ok { state with inner := { state.inner with
        serverPubkeyCache := some pk
        listenPortCache := port } }
    | .ok { ownPubkey := none, .. } => .error (503, errorBody "server not configured yet")
    | .error e => .error (internalError e)

end RegistrationState

inductive Prepared where
  | respond (response : Response)
  | setPeer (pubkey : FixedBytes 32) (octet : UInt8)

def RegistrationInner.assignedOctet (inner : RegistrationInner) (pubkeyHex : String)
    : Option UInt8 :=
  if pubkeyHex ∈ inner.registeredPeers then inner.peerToOctet.lookup pubkeyHex else none

/--
Allocate IP from pool. `pick` is the order in which the free addresses are visited.
-/
def allocateIp (state : RegistrationState) (pubkey : FixedBytes 32)
    (pick : (ips : HashSet UInt8) → HashSet.First ips) : Prepared :=
  match (pick state.inner.availableIps).get with
  | none => .respond (503, errorBody "no addresses available")
  | some octet => .setPeer pubkey octet

/--
The first part of `handle_registration`.
-/
def prepareRegistration (B : Base64) (state : RegistrationState) (pubkeyBase64 : String)
    (uapiGet : Except String UapiPeers) (pick : (ips : HashSet UInt8) → HashSet.First ips)
    : RegistrationState × Prepared :=
  -- Input validation: decode base64, verify 32 bytes
  match B.decode (Text.trim pubkeyBase64) with
  | none => (state, .respond (400, errorBody "invalid base64 encoding"))
  | some pubkeyBytes =>
    if hlen : pubkeyBytes.length = 32 then
      match state.populate uapiGet with
      | .error response => (state, .respond response)
      | .ok state =>
        -- Check if peer already exists (prevents `update_peer` panic)
        match state.inner.assignedOctet (Hex.encode pubkeyBytes) with
        | some octet => (state, .respond (state.success octet))
        | none => (state, allocateIp state ⟨pubkeyBytes, hlen⟩ pick)
    else
      (state, .respond (400, errorBody "public key must be exactly 32 bytes"))

/--
The second part of `handle_registration`, with the answer to `uapi_set_peer`.
-/
def commitRegistration (state : RegistrationState) (pubkey : FixedBytes 32) (octet : UInt8)
    (answer : Except String Unit) (now : Instant) : RegistrationState × Response :=
  match answer with
  | .ok () =>
    let pubkeyHex := Hex.encode pubkey.val
    let state := { state with inner := { state.inner with
      availableIps := state.inner.availableIps.erase octet
      registeredPeers := insert pubkeyHex state.inner.registeredPeers
      peerToOctet := state.inner.peerToOctet.insert pubkeyHex octet
      peerRegisteredAt := state.inner.peerRegisteredAt.insert pubkeyHex now } }
    (state, state.success octet)
  | .error e => (state, internalError e)

/--
What happens around a call to `handle_registration`: the answers of the device, the order in which
addresses are visited and the time.
-/
structure Call where
  uapiGet : Except String UapiPeers
  uapiSet : FixedBytes 32 → Ipv4Addr → Except String Unit
  pick : (ips : HashSet UInt8) → HashSet.First ips
  now : Instant

def handleRegistration (B : Base64) (state : RegistrationState) (pubkeyBase64 : String)
    (call : Call) : RegistrationState × Response :=
  match prepareRegistration B state pubkeyBase64 call.uapiGet call.pick with
  | (state, .respond response) => (state, response)
  | (state, .setPeer pubkey octet) =>
    commitRegistration state pubkey octet (call.uapiSet pubkey (state.ip octet)) call.now

end Registration
