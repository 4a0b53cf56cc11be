import VeilVpn.Machine
import VeilVpn.Registration.Impl.Registration

/-!
This module contains the reaper of stale peers and the two threads that share the state of the
registration: the HTTP server and the reaper.
-/

namespace Registration

def stalePeerSecs : Nat := 600

def staleNeverConnectedSecs : Nat := 600

def neverConnected (inner : RegistrationInner) (nowInstant : Instant) (pubkeyHex : String) : Bool :=
  match inner.peerRegisteredAt.lookup pubkeyHex with
  | some registeredAt => staleNeverConnectedSecs < (nowInstant.durationSince registeredAt).asSecs
  | none => false

def isStale (inner : RegistrationInner) (uapiPeers : HashMap String (Option Nat))
    (nowInstant : Instant) (pubkeyHex : String) : Bool :=
  match uapiPeers.lookup pubkeyHex with
  | some (some handshakeSec) =>
    if 0 < handshakeSec then
      stalePeerSecs < handshakeSec
    else
      neverConnected inner nowInstant pubkeyHex
  | some none => neverConnected inner nowInstant pubkeyHex
  -- Not found in UAPI
  | none => true

def toRemove (inner : RegistrationInner) (uapiPeers : HashMap String (Option Nat))
    (nowInstant : Instant) (order : HashMap.Iteration inner.peerToOctet) : List (String × UInt8) :=
  order.entries.filter fun entry => isStale inner uapiPeers nowInstant entry.1

/--
Remove a stale peer, with the answer to `uapi_remove_peer`. The state only changes if the removal
succeeds.
-/
def removeStale (state : RegistrationState) (entry : String × UInt8) (answer : Except String Bool)
    : RegistrationState :=
  match answer with
  | .ok true =>
    { state with inner := { state.inner with
      availableIps := insert entry.2 state.inner.availableIps
      registeredPeers := state.inner.registeredPeers.erase entry.1
      peerToOctet := state.inner.peerToOctet.erase entry.1
      peerRegisteredAt := state.inner.peerRegisteredAt.erase entry.1 } }
  | .ok false => state
  | .error _ => state

/--
Where the reaper stands in its loop. It holds the lock while it removes peers, but not while it waits
for the answer of the device.
-/
inductive Reaper where
  | sleeping
  | queried (uapiPeers : HashMap String (Option Nat))
  | removing (entry : String × UInt8) (rest : List (String × UInt8))

def Reaper.ofList : List (String × UInt8) → Reaper
  | [] => .sleeping
  | entry :: rest => .removing entry rest

/--
The two threads. The HTTP server handles one request after the other.
-/
structure Threads where
  state : RegistrationState
  reaper : Reaper

inductive Event where
  | register (pubkeyBase64 : String) (call : Call)
  | query (answer : Except String UapiPeers)
  | lock (nowInstant : Instant) (order : (m : HashMap String UInt8) → HashMap.Iteration m)
  | remove (answer : Except String Bool)

def step (B : Base64) (s : Threads) : Event → Option (Threads × List Response)
  | .register pubkeyBase64 call =>
    match s.reaper with
    -- The reaper holds the lock
    | .removing _ _ => none
    | _ =>
      let (state, response) := handleRegistration B s.state pubkeyBase64 call
      some ({ s with state }, [response])
  | .query answer =>
    match s.reaper, answer with
    | .sleeping, .ok result => some ({ s with reaper := .queried result.peers }, [])
    | .sleeping, .error _ => some (s, [])
    | _, _ => none
  | .lock nowInstant order =>
    match s.reaper with
    | .queried uapiPeers =>
      let inner := s.state.inner
      some ({ s with
        reaper := .ofList (toRemove inner uapiPeers nowInstant (order inner.peerToOctet)) }, [])
    | _ => none
  | .remove answer =>
    match s.reaper with
    | .removing entry rest =>
      some ({ s with state := removeStale s.state entry answer, reaper := .ofList rest }, [])
    | _ => none

def machine (B : Base64) : Machine Threads Event Response where
  step := step B

end Registration
