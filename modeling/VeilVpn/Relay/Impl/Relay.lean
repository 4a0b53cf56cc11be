import VeilVpn.Machine
import VeilVpn.Net

/-!
This module contains the WebSocket transport: the bridge next to the client and the proxy next to
the server, each of them a loop that alternates between its UDP socket and the WebSocket.
-/

namespace Relay

def maxWgPacket : Nat := 1500

/--
What `recv_from` leaves of a datagram in the buffer of a relay.
-/
def recvFrom (datagram : Bytes) : Bytes :=
  datagram.take maxWgPacket

inductive Message where
  | binary (data : Bytes)
  | text (data : Bytes)
  | ping (payload : Bytes)
  | pong (payload : Bytes)
  | close

inductive UdpRead where
  | ok (datagram : Bytes) (src : SocketAddr)
  | timedOut
  | error

inductive WsRead where
  | ok (message : Message)
  | timedOut
  | error

/--
One half of an iteration: what it sends, and whether the loop goes on after it. At most one thing is
sent, so the result of the sending is one more argument of each half.
-/
structure Half where
  ws : List Message
  udp : List (Bytes × SocketAddr)
  continues : Bool

namespace Half

def idle : Half := ⟨[], [], true⟩

def stop : Half := ⟨[], [], false⟩

end Half

namespace Bridge

def fromUdp (clientAddr : Option SocketAddr) (read : UdpRead) (sent : Bool)
    : Option SocketAddr × Half :=
  match read with
  | .ok datagram src =>
    if sent then
      (some src, ⟨[.binary (recvFrom datagram)], [], true⟩)
    else
      (some src, .stop)
  | .timedOut => (clientAddr, .idle)
  | .error => (clientAddr, .stop)

def fromWs (clientAddr : Option SocketAddr) (read : WsRead) (sent : Bool) : Half :=
  match read with
  | .ok (.binary data) =>
    match clientAddr with
    | none => .idle
    | some addr => if sent then ⟨[], [(data, addr)], true⟩ else .idle
  | .ok (.ping payload) => if sent then ⟨[.pong payload], [], true⟩ else .idle
  | .ok .close => .stop
  | .ok (.text _) => .idle
  | .ok (.pong _) => .idle
  | .timedOut => .idle
  | .error => .stop

end Bridge

namespace Proxy

def fromWs (wgAddr : SocketAddr) (read : WsRead) (sent : Bool) : Half :=
  match read with
  | .ok (.binary data) => if sent then ⟨[], [(data, wgAddr)], true⟩ else .stop
  | .ok .close => .stop
  | .ok (.ping payload) => if sent then ⟨[.pong payload], [], true⟩ else .idle
  | .ok (.text _) => .idle
  | .ok (.pong _) => .idle
  | .timedOut => .idle
  | .error => .stop

def fromUdp (read : UdpRead) (sent : Bool) : Half :=
  match read with
  | .ok datagram _ => if sent then ⟨[.binary (recvFrom datagram)], [], true⟩ else .stop
  | .timedOut => .idle
  | .error => .stop

end Proxy

/--
The two ends of a connection and the messages that are under way between them.
-/
structure State where
  clientAddr : Option SocketAddr
  /-- The loop of the bridge is running. -/
  bridge : Bool
  /-- The loop of the proxy is running. -/
  proxy : Bool
  /-- From the bridge to the proxy, in the order in which they arrive. -/
  up : List Message
  down : List Message
  /-- The server has heard from the socket of the proxy. -/
  contacted : Bool
  /-- The bridge has seen the flag that tells it to shut down. -/
  shutdown : Bool

inductive Arrival where
  | next
  | timedOut
  | error

/--
`none` if there is nothing to be read.
-/
def Arrival.read (arrival : Arrival) (queue : List Message) : Option (WsRead × List Message) :=
  match arrival, queue with
  | .next, [] => none
  | .next, message :: rest => some (.ok message, rest)
  | .timedOut, queue => some (.timedOut, queue)
  | .error, queue => some (.error, queue)

inductive Event where
  | bridge (shutdown : Bool) (udp : UdpRead) (wsSent : Bool) (ws : Arrival) (udpSent : Bool)
  | proxy (shutdown : Bool) (ws : Arrival) (udpSent : Bool) (udp : UdpRead) (wsSent : Bool)
  /-- Something on the way adds a message of its own, but no binary one. -/
  | inject (toProxy : Bool) (message : Message)
  | reconnect

inductive Delivery where
  | toServer (data : Bytes) (dst : SocketAddr)
  | toClient (data : Bytes) (dst : SocketAddr)
  deriving DecidableEq

namespace State

def start (clientAddr : Option SocketAddr) : State :=
  ⟨clientAddr, true, true, [], [], false, false⟩

def stopBridge (s : State) : State :=
  { s with bridge := false, up := s.up ++ [.close] }

def stopProxy (s : State) : State :=
  { s with proxy := false, down := s.down ++ [.close] }

def bridgeIteration (s : State) (udp : UdpRead) (wsSent : Bool) (ws : Arrival) (udpSent : Bool)
    : Option (State × List Delivery) :=
  let first := Bridge.fromUdp s.clientAddr udp wsSent
  let s := { s with clientAddr := first.1, up := s.up ++ first.2.ws }
  if !first.2.continues then
    some (s.stopBridge, [])
  else
    match ws.read s.down with
    | none => none
    | some (read, down) =>
      let second := Bridge.fromWs s.clientAddr read udpSent
      let s := { s with down, up := s.up ++ second.ws }
      some (if second.continues then s else s.stopBridge,
        second.udp.map fun sent => .toClient sent.1 sent.2)

def proxyIteration (wgAddr : SocketAddr) (s : State) (ws : Arrival) (udpSent : Bool) (udp : UdpRead)
    (wsSent : Bool) : Option (State × List Delivery) :=
  match ws.read s.up with
  | none => none
  | some (read, up) =>
    let first := Proxy.fromWs wgAddr read udpSent
    let deliveries := first.udp.map fun sent => .toServer sent.1 sent.2
    let s := { s with
      up
      down := s.down ++ first.ws
      contacted := s.contacted || !first.udp.isEmpty
    }
    if !first.continues then
      some (s.stopProxy, deliveries)
    else
      match udp, s.contacted with
      -- Only the server sends to the socket, and only after it has heard from it
      | .ok _ _, false => none
      | _, _ =>
        let second := Proxy.fromUdp udp wsSent
        let s := { s with down := s.down ++ second.ws }
        some (if second.continues then s else s.stopProxy, deliveries)

def step (wgAddr : SocketAddr) (s : State) : Event → Option (State × List Delivery)
  | .bridge shutdown udp wsSent ws udpSent =>
    if !s.bridge then
      none
    else if shutdown then
      some ({ s.stopBridge with shutdown := true }, [])
    else
      s.bridgeIteration udp wsSent ws udpSent
  | .proxy shutdown ws udpSent udp wsSent =>
    if !s.proxy then
      none
    else if shutdown then
      some (s.stopProxy, [])
    else
      s.proxyIteration wgAddr ws udpSent udp wsSent
  | .inject toProxy message =>
    match message with
    | .binary _ => none
    | _ =>
      some (if toProxy then { s with up := s.up ++ [message] }
        else { s with down := s.down ++ [message] }, [])
  | .reconnect =>
    -- The bridge remembers the client, the rest starts anew
    if s.bridge || s.shutdown then none else some (start s.clientAddr, [])

end State

def machine (wgAddr : SocketAddr) : Machine State Event Delivery where
  step := State.step wgAddr

end Relay
