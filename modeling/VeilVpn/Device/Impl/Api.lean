import VeilVpn.Text
import VeilVpn.Device.Impl.Device

/-!
This module contains what the user space API of the device answers, apart from the text in which it
answers.
-/

namespace Device

/--
What `api_get` reports about a peer, as far as it is read.
-/
structure ApiPeer where
  publicKey : String
  lastHandshakeTimeSec : Option Nat

structure ApiGet where
  ownPublicKey : Option (FixedBytes 32)
  /-- Not reported if it is zero -/
  listenPort : Option UInt16
  peers : List ApiPeer

def apiGetPeer (d : Device) (now : Instant) (key : FixedBytes 32) (id : PeerId) : Option ApiPeer :=
  match d.peerArena.get id with
  | none => none
  | some p =>
    match p.tunnel.timeSinceLastHandshake now with
    | none => none
    | some time =>
      some {
        publicKey := Hex.encode key.val
        lastHandshakeTimeSec := time.map Duration.asSecs
      }

def apiGet (d : Device) (order : HashMap.Iteration d.peers) (now : Instant) : Option ApiGet :=
  match order.entries.mapM fun (key, id) => d.apiGetPeer now key id with
  | none => none
  | some peers =>
    some {
      ownPublicKey := d.keyPair.map Prod.snd
      listenPort := if d.listenPort ≠ 0 then some d.listenPort else none
      peers
    }

def parseKey (s : String) : Option (FixedBytes 32) :=
  match Hex.decode s with
  | none => none
  | some bytes => if h : bytes.length = 32 then some ⟨bytes, h⟩ else none

variable (C : Primitives)

/--
The request to add a peer with one address, and nothing else.
-/
def apiSetPeer (d : Device) (pubkeyHex : String) (allowedIp : Ipv4Addr) (env : Env)
    : Option Device :=
  match parseKey pubkeyHex with
  | none => some d
  | some key =>
    d.updatePeer C key false none [⟨.v4 allowedIp, 32, Nat.le_refl 32⟩] none none env

def apiRemovePeer (d : Device) (pubkeyHex : String) (env : Env) : Option Device :=
  match parseKey pubkeyHex with
  | none => some d
  | some key => d.updatePeer C key true none [] none none env

end Device
