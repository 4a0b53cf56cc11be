import VeilVpn.Device.Lemmas.Step

/-!
This module contains a server and one honest client of it, together with the payment signals that are
on the way between them. A signal is in flight from the moment it is passed to the tunnel of the
sender. It may be lost, delayed and reordered, whether in the queue of the tunnel, at the socket or in
the network. What is authentic about the tunnel is that a signal only arrives if it is in flight.
-/

structure Link where
  server : Device
  client : Device
  toClient : List Bytes
  toServer : List Bytes

namespace Link

open Device (PeerId)

def signalPacket : Device.Effect → Option Bytes
  | .signal _ packet _ _ _ => some packet
  | _ => none

def signalPackets (effects : List Device.Effect) : List Bytes :=
  effects.filterMap signalPacket

inductive Event where
  | server (e : Device.Event)
  | client (e : Device.Event)
  | loseToClient (packet : Bytes)
  | loseToServer (packet : Bytes)

/--
Take a signal that arrives out of those in flight, which is impossible if it was not sent.
-/
def receive (arrival : Option Bytes) (inFlight : List Bytes) : Option (List Bytes) :=
  match arrival with
  | none => some inFlight
  | some packet => if packet ∈ inFlight then some (inFlight.erase packet) else none

variable (C : Primitives)

def arrival (id : PeerId) (d : Device) (e : Device.Event) : Option Bytes :=
  match Device.incoming C d e with
  | none => none
  | some i =>
    if i.id = id then
      match i.result with
      | .writeToTunnelV4 packet _ => if Payment.isPaymentSignal packet then some packet else none
      | _ => none
    else
      none

/--
A step of one of the two devices that is not a change of its configuration.
-/
def deviceStep (id : PeerId) (d : Device) (e : Device.Event) (incoming outgoing : List Bytes)
    : Option (Device × List Device.Output × List Bytes × List Bytes) :=
  if e.isConfig then
    none
  else
    match receive (arrival C id d e) incoming, (Device.machine C).step d e with
    | some incoming, some (d, outputs) =>
      some (d, outputs, incoming, outgoing ++ signalPackets (Device.effectsOf id outputs))
    | _, _ => none

/--
`id` is the client as a peer of the server, and `id'` is the server as a peer of the client.
-/
def step (id id' : PeerId) (l : Link) : Event → Option (Link × List Device.Output)
  | .server e =>
    match deviceStep C id l.server e l.toServer l.toClient with
    | none => none
    | some (server, outputs, toServer, toClient) =>
      some ({ l with server, toServer, toClient }, outputs)
  | .client e =>
    match deviceStep C id' l.client e l.toClient l.toServer with
    | none => none
    | some (client, outputs, toClient, toServer) =>
      some ({ l with client, toServer, toClient }, outputs)
  | .loseToClient packet =>
    match receive (some packet) l.toClient with
    | none => none
    | some toClient => some ({ l with toClient }, [])
  | .loseToServer packet =>
    match receive (some packet) l.toServer with
    | none => none
    | some toServer => some ({ l with toServer }, [])

def machine (id id' : PeerId) : Machine Link Event Device.Output where
  step := step C id id'

def Blocked (id : PeerId) (l : Link) : Prop :=
  ∃ p q, l.server.peerArena.get id = some p ∧ p.quota = some q ∧ q.blocked = true

/--
A request for payment is on its way to the client, or a payment on its way to the server. There is no
state in which a settlement is pending, since the server waits for it.
-/
def Pending (l : Link) : Prop :=
  (∃ packet ∈ l.toClient, ∃ payload request,
    Payment.extractSignalPayload packet = some payload
      ∧ Payment.PaymentRequired.decode payload = some request)
    ∨
  (∃ packet ∈ l.toServer, ∃ payload submit,
    Payment.extractSignalPayload packet = some payload
      ∧ Payment.PaymentSubmit.decode payload = some submit)

end Link
