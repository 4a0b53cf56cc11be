import VeilVpn.Device.Impl.Api
import VeilVpn.Device.Lemmas.Step
import VeilVpn.Registration.Impl.Reaper

/-!
This module contains the registration together with the device that answers its requests.
-/

structure Service where
  threads : Registration.Threads
  device : Device
  now : Instant
  /-- When the device answered the last query of the reaper -/
  queriedAt : Instant
  /-- When the last handshake with a peer was completed, which the program does not record -/
  handshakes : Device.PeerId → Option Instant

namespace Service

def new (state : Registration.RegistrationState) (device : Device) (now : Instant) : Service where
  threads := { state, reaper := .sleeping }
  device := device
  now := now
  queriedAt := now
  handshakes := fun _ => none

/--
What becomes of a request that changes the device. It can fail after the device has executed it.
-/
inductive Fate (ε : Type) where
  | answered
  | failed (executed : Bool) (error : ε)

namespace Fate

def executed {ε : Type} : Fate ε → Bool
  | .answered => true
  | .failed executed _ => executed

def setAnswer : Fate String → Except String Unit
  | .answered => .ok ()
  | .failed _ e => .error e

/--
The result of `uapi_remove_peer`, which is not an error if the answer is not `errno=0`.
-/
def removeAnswer : Fate (Option String) → Except String Bool
  | .answered => .ok true
  | .failed _ none => .ok false
  | .failed _ (some e) => .error e

end Fate

abbrev DeviceOrder := (m : HashMap (FixedBytes 32) Device.PeerId) → HashMap.Iteration m

/--
What is decided outside of the program while it handles a request to register.
-/
structure Request where
  order : DeviceOrder
  /-- Why the query of the device fails, if it does -/
  getError : Option String
  pick : (ips : HashSet UInt8) → HashSet.First ips
  fate : Fate String
  env : Device.Env

inductive Event where
  | tick (duration : Duration)
  | device (e : Device.Event)
  | register (pubkeyBase64 : String) (r : Request)
  | query (order : DeviceOrder) (error : Option String)
  | lock (nowInstant : Instant) (order : (m : HashMap String UInt8) → HashMap.Iteration m)
  | remove (fate : Fate (Option String)) (env : Device.Env)

variable (C : Primitives) (B : Registration.Base64)

def readPeers (answer : Device.ApiGet) : Registration.UapiPeers where
  ownPubkey := answer.ownPublicKey.map fun key => B.encode key.val
  listenPort := answer.listenPort
  peers := answer.peers.foldl (fun peers p => peers.insert p.publicKey p.lastHandshakeTimeSec) ∅

def uapiGetPeers (s : Service) (order : DeviceOrder) (error : Option String)
    : Option (Except String Registration.UapiPeers) :=
  match error with
  | some e => some (.error e)
  | none => (s.device.apiGet (order s.device.peers) s.now).map fun answer => .ok (readPeers B answer)

/--
The information about the server, which is only asked for if it is not cached.
-/
def serverInfo (s : Service) (r : Request) : Option (Except String Registration.UapiPeers) :=
  if s.threads.state.inner.serverPubkeyCache.isSome then
    some (.error "")
  else
    uapiGetPeers B s r.order r.getError

def setRequest (s : Service) (pubkeyBase64 : String) (r : Request)
    : Option (FixedBytes 32 × Ipv4Addr) :=
  match serverInfo B s r with
  | none => none
  | some info =>
    match Registration.prepareRegistration B s.threads.state pubkeyBase64 info r.pick with
    | (state, .setPeer pubkey octet) => some (pubkey, state.ip octet)
    | (_, .respond _) => none

def executeSet (s : Service) (pubkeyBase64 : String) (r : Request) : Option Device :=
  match setRequest B s pubkeyBase64 r with
  | none => some s.device
  | some (pubkey, ip) =>
    if r.fate.executed then
      s.device.apiSetPeer C (Hex.encode pubkey.val) ip r.env
    else
      some s.device

def executeRemove (s : Service) (fate : Fate (Option String)) (env : Device.Env) : Option Device :=
  match s.threads.reaper with
  | .removing entry _ =>
    if fate.executed then s.device.apiRemovePeer C entry.1 env else some s.device
  | _ => some s.device

/--
The peer with which an event completes a handshake. The tunnel answers to that with a handshake
response or with a keepalive, but a cookie is only another question.
-/
def completedHandshake (d : Device) (e : Device.Event) : Option Device.PeerId :=
  match Device.incoming C d e with
  | none => none
  | some i =>
    match i.result with
    | .writeToNetwork packet =>
      if packet.head?.map UInt8.toNat = some Noise.cookieReplyType then none else some i.id
    | _ => none

def recordHandshake (s : Service) (e : Device.Event) : Device.PeerId → Option Instant :=
  match completedHandshake C s.device e with
  | none => s.handshakes
  | some id => Function.update s.handshakes id (some s.now)

def stepThreads (s : Service) (e : Registration.Event) (device : Option Device)
    : Option (Service × List Registration.Response) :=
  match Registration.step B s.threads e, device with
  | some (threads, responses), some device => some ({ s with threads, device }, responses)
  | _, _ => none

def step (s : Service) : Event → Option (Service × List Registration.Response)
  | .tick duration => some ({ s with now := s.now + duration }, [])
  | .device e =>
    if e.isConfig || e.env.map Device.Env.now ≠ some s.now then
      none
    else
      match (Device.machine C).step s.device e with
      | none => none
      | some (device, _) => some ({ s with device, handshakes := recordHandshake C s e }, [])
  | .register pubkeyBase64 r =>
    if r.env.now ≠ s.now then
      none
    else
      match serverInfo B s r with
      | none => none
      | some info =>
        let call := {
          uapiGet := info
          uapiSet := fun _ _ => r.fate.setAnswer
          pick := r.pick
          now := s.now
        }
        stepThreads B s (.register pubkeyBase64 call) (executeSet C B s pubkeyBase64 r)
  | .query order error =>
    match uapiGetPeers B s order error with
    | none => none
    | some answer => stepThreads B { s with queriedAt := s.now } (.query answer) (some s.device)
  | .lock nowInstant order =>
    if s.queriedAt ≤ nowInstant ∧ nowInstant ≤ s.now then
      stepThreads B s (.lock nowInstant order) (some s.device)
    else
      none
  | .remove fate env =>
    stepThreads B s (.remove fate.removeAnswer) (executeRemove C s fate env)

def machine : Machine Service Event Registration.Response where
  step := step C B

end Service
