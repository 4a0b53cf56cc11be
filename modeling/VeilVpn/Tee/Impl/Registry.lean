import VeilVpn.Bytes
import Mathlib.Logic.Function.Basic

/-!
This module contains the contract in which nodes that run inside of a trusted execution environment are
attested.
-/

namespace Tee

abbrev Address := FixedBytes 20

abbrev Node := FixedBytes 32

abbrev RoflAppId := FixedBytes 21

structure Attestation where
  attester : Address
  label : Bytes
  timestamp : Nat
  deriving DecidableEq

namespace Attestation

def zero : Attestation where
  attester := .zero 20
  label := []
  timestamp := 0

end Attestation

structure AttestationRegistered where
  ensNode : Node
  label : Bytes
  attester : Address
  timestamp : Nat
  deriving DecidableEq

namespace AttestationRegistered

def attestation (e : AttestationRegistered) : Attestation where
  attester := e.attester
  label := e.label
  timestamp := e.timestamp

end AttestationRegistered

/--
What a call knows about its transaction. The sender can be a contract that the origin has called.
-/
structure Msg where
  sender : Address
  timestamp : Nat
  /-- The apps of which the origin of the transaction is an authorized instance -/
  apps : List RoflAppId
  deriving DecidableEq

structure AttestationRegistry where
  roflAppId : RoflAppId
  attestations : Node → Attestation
  subnameNodes : List Node
  registered : Node → Bool

namespace AttestationRegistry

def new (roflAppId : RoflAppId) : AttestationRegistry where
  roflAppId := roflAppId
  attestations := fun _ => .zero
  subnameNodes := []
  registered := fun _ => false

def roflEnsureAuthorizedOrigin (appId : RoflAppId) (msg : Msg) : Option Unit :=
  if appId ∈ msg.apps then some () else none

def setAttestation (r : AttestationRegistry) (ensNode : Node) (a : Attestation) : AttestationRegistry :=
  { r with attestations := Function.update r.attestations ensNode a }

def addSubname (r : AttestationRegistry) (ensNode : Node) : AttestationRegistry :=
  if !r.registered ensNode then
    { r with
      registered := Function.update r.registered ensNode true
      subnameNodes := r.subnameNodes ++ [ensNode]
    }
  else
    r

/--
Register an attestation, which reverts unless the origin is authorized. Nothing relates the label to
the node.
-/
def register (r : AttestationRegistry) (msg : Msg) (ensNode : Node) (label : Bytes)
    : Option (AttestationRegistry × AttestationRegistered) := do
  roflEnsureAuthorizedOrigin r.roflAppId msg
  let r := r.setAttestation ensNode { attester := msg.sender, label, timestamp := msg.timestamp }
  let r := r.addSubname ensNode
  return (r, { ensNode, label, attester := msg.sender, timestamp := msg.timestamp })

def getAttestation (r : AttestationRegistry) (ensNode : Node) : Attestation :=
  r.attestations ensNode

def getSubnames (r : AttestationRegistry) : List Node :=
  r.subnameNodes

def isAttested (r : AttestationRegistry) (ensNode : Node) : Bool :=
  r.registered ensNode

end AttestationRegistry

end Tee
