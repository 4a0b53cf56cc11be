import VeilVpn.Machine
import VeilVpn.Tee.Impl.Registry
import VeilVpn.Text

/-!
This module contains how nodes register themselves and how attested nodes are discovered. A discovery
asks one chain for the attestations and another one for the text records, with one request for each of
them. The chains go on in between.
-/

namespace Tee

section Register

variable (keccak256 : Bytes → FixedBytes 32)

/--
The subname that `registerSubname` registers: keccak256(parentNode, keccak256(label)).
-/
def subnode (parentNode : Node) (label : String) : Node :=
  keccak256 (parentNode.val ++ (keccak256 (Text.bytes label)).val)

def registerAttestation (parentNode : Node) (label : String) : Node × Bytes :=
  (subnode keccak256 parentNode label, Text.bytes label)

end Register

/--
The 64 bit float that is nearest to an integer, and the even one of two.
-/
def number (n : Nat) : Nat :=
  let ulp := 2 ^ (n.log2 - 52)
  let down := n / ulp
  let rest := n % ulp
  if 2 * rest < ulp ∨ (2 * rest = ulp ∧ down % 2 = 0) then down * ulp else (down + 1) * ulp

def maxTime : Nat := 8640000000000000

/--
The time that `new Date(timestamp * 1000).toISOString()` prints, or `none` if it throws. The product is
exact up to the latest time, as that is below 2^53.
-/
def toDate (timestamp : Nat) : Option Nat :=
  if timestamp * 1000 ≤ maxTime then some (timestamp * 1000) else none

structure AttestationInfo where
  ensNode : Node
  attester : Address
  label : String
  timestamp : Nat

def attestationInfo (ensNode : Node) (a : Attestation) : Option AttestationInfo :=
  match Text.fromUTF8 a.label with
  | none => none
  | some label => some { ensNode, attester := a.attester, label, timestamp := number a.timestamp }

inductive TextKey where
  | publicKey
  | endpoint
  | wsEndpoint
  | httpUrl
  deriving DecidableEq

namespace TextKey

def key : TextKey → String
  | publicKey => "vpn.publickey"
  | endpoint => "vpn.endpoint"
  | wsEndpoint => "vpn.ws"
  | httpUrl => "vpn.http"

end TextKey

structure VpnTextRecords where
  publicKey : String
  endpoint : String
  wsEndpoint : String
  httpUrl : String

namespace VpnTextRecords

def get (records : VpnTextRecords) : TextKey → String
  | .publicKey => records.publicKey
  | .endpoint => records.endpoint
  | .wsEndpoint => records.wsEndpoint
  | .httpUrl => records.httpUrl

/--
The records once all of the requests, which are made at the same time, have been answered.
-/
def ofAnswers (answers : TextKey → Option String) : Option VpnTextRecords := do
  let publicKey ← answers .publicKey
  let endpoint ← answers .endpoint
  let wsEndpoint ← answers .wsEndpoint
  let httpUrl ← answers .httpUrl
  return { publicKey, endpoint, wsEndpoint, httpUrl }

end VpnTextRecords

def orNotSet (s : String) : String :=
  if s = "" then "(not set)" else s

structure DiscoveredNode where
  label : String
  attester : Address
  attestedAt : Nat
  records : VpnTextRecords

def discoveredNode (info : AttestationInfo) (records : VpnTextRecords) : Option DiscoveredNode :=
  match toDate info.timestamp with
  | none => none
  | some attestedAt =>
    some {
      label := info.label
      attester := info.attester
      attestedAt
      records := {
        publicKey := orNotSet records.publicKey
        endpoint := orNotSet records.endpoint
        wsEndpoint := orNotSet records.wsEndpoint
        httpUrl := orNotSet records.httpUrl
      }
    }

inductive Discovery where
  /-- Nothing was requested yet -/
  | idle
  /-- The attestations of `todo` are still to be requested -/
  | attesting (todo : List Node) (results : List AttestationInfo)
  /-- The text records of `todo` are still to be requested, apart from some of its first node -/
  | resolving (todo : List AttestationInfo) (answers : TextKey → Option String)
      (nodes : List DiscoveredNode)
  | failed
  | done (nodes : List DiscoveredNode)

namespace Discovery

def attested (ensNode : Node) (a : Attestation) (todo : List Node) (results : List AttestationInfo)
    : Discovery :=
  match attestationInfo ensNode a with
  | none => failed
  | some info => attesting todo (results ++ [info])

/--
Use the answer to one of the requests for the text records of a node. If it is not valid UTF-8 then the
request is rejected, and all of them are with it.
-/
def answered (info : AttestationInfo) (todo : List AttestationInfo) (answers : TextKey → Option String)
    (nodes : List DiscoveredNode) (key : TextKey) (value : Bytes)
    : Discovery :=
  match Text.fromUTF8 value with
  | none => failed
  | some value => resolving (info :: todo) (Function.update answers key (some value)) nodes

def resolved (info : AttestationInfo) (records : VpnTextRecords) (todo : List AttestationInfo)
    (nodes : List DiscoveredNode)
    : Discovery :=
  match discoveredNode info records with
  | none => failed
  | some node => resolving todo (fun _ => none) (nodes ++ [node])

def proceed : Discovery → Option Discovery
  | attesting [] results => some (resolving results (fun _ => none) [])
  | resolving [] _ nodes => some (done nodes)
  | resolving (info :: todo) answers nodes =>
    (VpnTextRecords.ofAnswers answers).map fun records => resolved info records todo nodes
  | _ => none

end Discovery

/--
Both chains and a discovery. Neither contract checks that a string is valid UTF-8.
-/
structure World where
  registry : AttestationRegistry
  texts : Node → Bytes → Bytes
  discovery : Discovery

namespace World

def start (roflAppId : RoflAppId) (texts : Node → Bytes → Bytes) : World where
  registry := .new roflAppId
  texts := texts
  discovery := .idle

inductive Event where
  /-- Anyone calls `register` -/
  | register (msg : Msg) (ensNode : Node) (label : Bytes)
  /-- The resolver changes a text record -/
  | setText (node : Node) (key value : Bytes)
  | getSubnames
  | getAttestation
  | text (key : TextKey)
  | proceed
  deriving DecidableEq

def step (w : World) : Event → Option (World × List AttestationRegistered)
  | .register msg ensNode label =>
    match w.registry.register msg ensNode label with
    -- The transaction is reverted
    | none => some (w, [])
    | some (registry, event) => some ({ w with registry }, [event])
  | .setText node key value =>
    some ({ w with texts := Function.update w.texts node (Function.update (w.texts node) key value) }, [])
  | .getSubnames =>
    match w.discovery with
    | .idle => some ({ w with discovery := .attesting w.registry.getSubnames [] }, [])
    | _ => none
  | .getAttestation =>
    match w.discovery with
    | .attesting (ensNode :: todo) results =>
      let discovery := .attested ensNode (w.registry.getAttestation ensNode) todo results
      some ({ w with discovery }, [])
    | _ => none
  | .text key =>
    match w.discovery with
    | .resolving (info :: todo) answers nodes =>
      if (answers key).isSome then
        none
      else
        let value := w.texts info.ensNode (Text.bytes key.key)
        some ({ w with discovery := .answered info todo answers nodes key value }, [])
    | _ => none
  | .proceed => w.discovery.proceed.map fun discovery => ({ w with discovery }, [])

def machine : Machine World Event AttestationRegistered where
  step := step

end World

end Tee
