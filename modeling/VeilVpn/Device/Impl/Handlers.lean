import VeilVpn.Machine
import VeilVpn.Device.Impl.Payment

/-!
This module contains the event handlers of the device: datagrams from the listening sockets and
from connected sockets, packets from the TUN interface and timers.
-/

namespace Device

def maxUdpSize : Nat := 2 ^ 16 - 1

/--
A datagram or packet that fits into the buffers of a thread.
-/
abbrev Received := { bytes : Bytes // bytes.length ≤ maxUdpSize }

structure Output where
  peer : Option PeerId
  effect : Effect

/--
What to do after the result of the tunnel was handled: go on with the next datagram, or finish this
one and maybe flush the queue before.
-/
inductive Flow where
  | continue
  | finish (flush : Bool)
  deriving DecidableEq

inductive Verdict where
  | forward
  | blocked
  | exhausted
  deriving DecidableEq

def enforceQuota (d : Device) (p : Peer) (packet : Bytes) : Peer × Verdict :=
  if d.paymentConfig.isServer then
    match p.quota with
    | none => (p, .forward)
    | some quota =>
      if quota.isBlocked then
        (p, .blocked)
      else
        match quota.consume (UInt64.ofNat packet.length) with
        | (quota, true) => ({ p with quota := some quota }, .forward)
        | (quota, false) => ({ p with quota := some quota }, .exhausted)
  else
    (p, .forward)

variable (C : Primitives)

/--
Payment signals are told apart by their addresses only. `addr` is where answers go, needing it when
it is not known panics.
-/
def handlePaymentSignal (d : Device) (p : Peer) (packet : Bytes) (sock : Socket)
    (addr : Option SocketAddr) (env : Env) : Option (Peer × List Effect) :=
  match Payment.extractSignalPayload packet, Payment.dstIpv4 packet with
  | some payload, some dst =>
    if dst = Payment.paymentGatewayIp then
      -- Client → Server: PaymentSubmit
      match addr with
      | none => none
      | some addr => handlePaymentSubmit C d p payload sock addr env
    else if Payment.srcIpv4 packet = some Payment.paymentGatewayIp then
      -- Server → Client: handle on client side
      match addr with
      | none => none
      | some addr => handlePaymentSignalClient C d p payload sock addr env
    else
      some (p, [])
  | _, _ => some (p, [])

def inboundV4 (d : Device) (p : Peer) (packet : Bytes) (srcIp : Ipv4Addr) (sock : Socket)
    (addr : Option SocketAddr) (env : Env) : Option (Peer × List Effect × Flow) :=
  -- Check BEFORE allowed-ip filter
  if Payment.isPaymentSignal packet then
    match handlePaymentSignal C d p packet sock addr env with
    | none => none
    | some (p, effects) => some (p, effects, .continue)
  else if p.isAllowedIp (.v4 srcIp) then
    match enforceQuota d p packet with
    | (p, .blocked) => some (p, [], .continue)
    | (p, .exhausted) =>
      match addr with
      | none => none
      | some addr =>
        match sendPaymentRequired C d p sock addr env with
        | none => none
        | some (p, effects) => some (p, effects, .continue)
    | (p, .forward) => some (p, [.writeTun packet], .finish false)
  else
    some (p, [], .finish false)

def inboundV6 (d : Device) (p : Peer) (packet : Bytes) (srcIp : Ipv6Addr)
    : Peer × List Effect × Flow :=
  if p.isAllowedIp (.v6 srcIp) then
    match enforceQuota d p packet with
    | (p, .blocked) => (p, [], .continue)
    | (p, .exhausted) => (p, [], .continue)
    | (p, .forward) => (p, [.writeTun packet], .finish false)
  else
    (p, [], .finish false)

/--
The match on the result of the tunnel in the two handlers for datagrams. They differ in the socket,
in the addresses `dest` for the answer of the tunnel and `addr` for signals, and in what happens after
an error.
-/
def handleResult (d : Device) (p : Peer) (result : Noise.TunnResult) (sock : Socket)
    (dest addr : Option SocketAddr) (afterErr : Flow) (env : Env)
    : Option (Peer × List Effect × Flow) :=
  match result with
  | .done => some (p, [], .finish false)
  | .err _ => some (p, [], afterErr)
  | .writeToNetwork packet => some (p, [.send sock dest packet], .finish true)
  | .writeToTunnelV4 packet srcIp => inboundV4 C d p packet srcIp sock addr env
  | .writeToTunnelV6 packet srcIp => some (inboundV6 d p packet srcIp)

/--
Flush pending queue. Every round takes a packet out of it, and only the first round that finds no
session can put it back and start a handshake, so that the length bounds the number of rounds.
-/
def flushQueue (p : Peer) (sock : Socket) (dest : Option SocketAddr) (env : Env)
    : Option (Peer × List Effect) :=
  go (p.tunnel.packetQueue.length + 2) p
where
  go : Nat → Peer → Option (Peer × List Effect)
    | 0, p => some (p, [])
    | fuel + 1, p =>
      match
        p.tunnel.sendQueuedPacket C.noise maxUdpSize env.now (env.ephemeral (fuel + 2))
      with
      | none => none
      | some (tunnel, .writeToNetwork packet) =>
        match go fuel { p with tunnel } with
        | none => none
        | some (p, effects) => some (p, .send sock dest packet :: effects)
      | some (tunnel, _) => some ({ p with tunnel }, [])

structure Inbound where
  /-- The device, with the rate limiter updated -/
  device : Device
  id : PeerId
  /-- The peer, with the tunnel updated -/
  peer : Peer
  result : Noise.TunnResult

def findPeer (d : Device) (privateKey publicKey : FixedBytes 32) (packet : Noise.Packet)
    : Option PeerId :=
  match packet with
  | .handshakeInit p =>
    match Noise.parseHandshakeAnon C.noise privateKey publicKey p with
    | .error _ => none
    | .ok hh => d.peers.lookup hh.peerStaticPublic
  | .handshakeResponse p => d.peersByIdx.lookup (p.receiverIdx >>> 8)
  | .packetCookieReply p => d.peersByIdx.lookup (p.receiverIdx >>> 8)
  | .packetData p => d.peersByIdx.lookup (p.receiverIdx >>> 8)

def udpSocket (addr : SocketAddr) : Socket :=
  match addr.family with
  | .v4 => .udp4
  | .v6 => .udp6

/--
The part of the handler of the listening sockets up to the tunnel. Without a peer the datagram is
dropped, at most it is answered with a cookie.
-/
def receiveUdp (d : Device) (addr : SocketAddr) (datagram : Received) (env : Env)
    : Option (Device × List Output ⊕ Inbound) :=
  match d.keyPair, d.rateLimiter with
  | some (privateKey, publicKey), some ref =>
    match d.limiterArena.get ref with
    | none => none
    | some limiter =>
      -- The rate limiter initially checks mac1 and mac2, and optionally asks to send a cookie
      let (limiter, verified) :=
        limiter.verifyPacket C.noise (some addr.ip) datagram.val maxUdpSize env.now
      let d := d.setLimiter ref limiter
      match verified with
      | .error (.writeToNetwork cookie) =>
        some (.inl (d, [⟨none, .send (udpSocket addr) (some addr) cookie⟩]))
      | .error _ => some (.inl (d, []))
      | .ok packet =>
        match d.findPeer C privateKey publicKey packet with
        | none => some (.inl (d, []))
        | some id =>
          match d.peerArena.get id with
          | none => none
          | some p =>
            match
              p.tunnel.handleVerifiedPacket C.noise packet maxUdpSize env.now (env.ephemeral 0)
            with
            | none => none
            | some (tunnel, result) =>
              some (.inr { device := d, id, peer := { p with tunnel }, result })
  | _, _ => none

def outputsFor (id : PeerId) (effects : List Effect) : List Output :=
  effects.map fun effect => ⟨some id, effect⟩

/--
The rest of a handler for datagrams: the result of the tunnel is handled and the queue flushed. The
last component tells whether the datagram was finished or skipped.
-/
def finishInbound (i : Inbound) (sock : Socket) (dest addr : Option SocketAddr) (afterErr : Flow)
    (env : Env) : Option (Device × List Output × Bool) :=
  match handleResult C i.device i.peer i.result sock dest addr afterErr env with
  | none => none
  | some (p, effects, .continue) =>
    some (i.device.setPeer i.id p, outputsFor i.id effects, false)
  | some (p, effects, .finish false) =>
    some (i.device.setPeer i.id p, outputsFor i.id effects, true)
  | some (p, effects, .finish true) =>
    match flushQueue C p sock dest env with
    | none => none
    | some (p, flushed) =>
      some (i.device.setPeer i.id p, outputsFor i.id (effects ++ flushed), true)

def udpHandler (d : Device) (addr : SocketAddr) (datagram : Received) (env : Env)
    : Option (Device × List Output) :=
  match receiveUdp C d addr datagram env with
  | none => none
  | some (.inl dropped) => some dropped
  | some (.inr i) =>
    match finishInbound C i (udpSocket addr) (some addr) (some addr) .continue env with
    | none => none
    | some (d, outputs, false) => some (d, outputs)
    | some (d, outputs, true) =>
      -- This packet was OK, that means we want to create a connected socket for this peer
      let d := d.setEndpoint i.id addr
      if d.config.useConnectedSocket then
        some (d.connectEndpoint i.id addr.ip env, outputs)
      else
        some (d, outputs)

def receiveConn (d : Device) (c : Conn) (datagram : Received) (env : Env) : Option Inbound :=
  match d.peerArena.get c.peer with
  | none => none
  | some p =>
    match d.limiterArena.get p.tunnel.rateLimiter with
    | none => none
    | some limiter =>
      match
        Noise.Tunn.decapsulate C.noise limiter p.tunnel (some c.peerAddr) datagram.val maxUdpSize
          env.now (env.ephemeral 0)
      with
      | none => none
      | some (limiter, tunnel, result) =>
        some {
          device := d.setLimiter p.tunnel.rateLimiter limiter
          id := c.peer
          peer := { p with tunnel }
          result
        }

def connHandler (d : Device) (id : ConnId) (datagram : Received) (env : Env)
    : Option (Device × List Output) :=
  match d.connArena.get id with
  | none => none
  | some c =>
    if !c.isOpen then
      none
    else
      match receiveConn C d c datagram env with
      | none => none
      | some i =>
        match
          finishInbound C i (.conn id c.addr) none i.peer.endpoint.addr (.finish false) env
        with
        | none => none
        | some (d, outputs, _) => some (d, outputs)

def sendToEndpoint (d : Device) (endpoint : Endpoint) (packet : Bytes) : Option (List Effect) :=
  match endpoint.conn with
  | some id =>
    match d.connArena.get id with
    | none => none
    | some c => some [.send (.conn id c.addr) none packet]
  | none =>
    match endpoint.addr with
    | some addr => some [.send (udpSocket addr) (some addr) packet]
    | none => some []

def outbound (d : Device) (p : Peer) (src : Bytes) (env : Env) : Option (Peer × List Effect) :=
  match enforceQuota d p src with
  | (p, .blocked) => some (p, [])
  | (p, .exhausted) =>
    match p.endpoint.addr with
    | none => some (p, [])
    | some addr => sendPaymentRequired C d p .udp4 addr env
  | (p, .forward) =>
    match p.tunnel.encapsulate C.noise src maxUdpSize env.now (env.ephemeral 0) with
    | none => none
    | some (tunnel, .done) => some ({ p with tunnel }, [.encapsulateTun src])
    | some (tunnel, .err _) => some ({ p with tunnel }, [.encapsulateTun src])
    | some (tunnel, .writeToNetwork packet) =>
      match d.sendToEndpoint p.endpoint packet with
      | none => none
      | some effects => some ({ p with tunnel }, .encapsulateTun src :: effects)
    -- Unexpected result from encapsulate
    | some (_, .writeToTunnelV4 _ _) => none
    | some (_, .writeToTunnelV6 _ _) => none

def ifaceHandler (d : Device) (src : Received) (env : Env) : Option (Device × List Output) :=
  if !d.udp4 || !d.udp6 then
    none
  else
    match Noise.Tunn.dstAddress src.val with
    | none => some (d, [])
    | some dst =>
      match d.peersByIp.find dst with
      | none => some (d, [])
      | some id =>
        match d.peerArena.get id with
        | none => none
        | some p =>
          match outbound C d p src.val env with
          | none => none
          | some (p, effects) => some (d.setPeer id p, outputsFor id effects)

def timerHandler (d : Device) (id : PeerId) (env : Env) : Option (Device × List Output) :=
  if !d.udp4 || !d.udp6 || !d.holds id then
    some (d, [])
  else
    match d.peerArena.get id with
    | none => none
    | some p =>
      match p.endpoint.addr with
      | none => some (d, [])
      | some addr =>
        match d.limiterArena.get p.tunnel.rateLimiter with
        | none => none
        | some limiter =>
          match
            Noise.Tunn.updateTimers C.noise limiter p.tunnel maxUdpSize env.now env.later
              (env.ephemeral 0)
          with
          | none => none
          | some (limiter, tunnel, result) =>
            let d := (d.setLimiter p.tunnel.rateLimiter limiter).setPeer id { p with tunnel }
            match result with
            | .done => some (d, [])
            | .err .connectionExpired => some (d.shutdownEndpoint id, [])
            | .err _ => some (d, [])
            | .writeToNetwork packet =>
              some (d, outputsFor id [.send (udpSocket addr) (some addr) packet])
            -- Unexpected result from update_timers
            | .writeToTunnelV4 _ _ => none
            | .writeToTunnelV6 _ _ => none

def resetRateLimiter (d : Device) (env : Env) : Device :=
  match d.rateLimiter with
  | none => d
  | some ref =>
    match d.limiterArena.get ref with
    | none => d
    | some limiter => d.setLimiter ref (limiter.resetCount env.now)

inductive Event where
  | udp (addr : SocketAddr) (datagram : Received) (env : Env)
  | conn (id : ConnId) (datagram : Received) (env : Env)
  | iface (src : Received) (env : Env)
  | timer (id : PeerId) (env : Env)
  | resetRateLimiter (env : Env)
  | updatePeer (pubKey : FixedBytes 32) (remove : Bool) (endpoint : Option SocketAddr)
    (allowedIps : List AllowedIP) (keepalive : Option UInt16)
    (presharedKey : Option (FixedBytes 32)) (env : Env)
  | clearPeers
  | setKey (privateKey : FixedBytes 32) (env : Env)
  | openListenSocket (port : UInt16) (assigned : Option UInt16)
  | setFwmark (mark : UInt32)

/--
The device as a machine. Handlers run in several threads, but each one holds the lock of its peer
while it handles a datagram or packet, and configuration holds the lock of the device.
-/
def step (d : Device) : Event → Option (Device × List Output)
  | .udp addr datagram env => udpHandler C d addr datagram env
  | .conn id datagram env => connHandler C d id datagram env
  | .iface src env => ifaceHandler C d src env
  | .timer id env => timerHandler C d id env
  | .resetRateLimiter env => some (d.resetRateLimiter env, [])
  | .updatePeer pubKey remove endpoint allowedIps keepalive presharedKey env =>
    match d.updatePeer C pubKey remove endpoint allowedIps keepalive presharedKey env with
    | none => none
    | some d => some (d, [])
  | .clearPeers => some (d.clearPeers, [])
  | .setKey privateKey env =>
    let changed := some (C.noise.x25519Public privateKey) ≠ d.keyPair.map Prod.snd
    some (d.setKey C privateKey env,
      if changed ∧ !d.paymentConfig.isServer then [⟨none, .autoDeposit⟩] else [])
  | .openListenSocket port assigned => some (d.openListenSocket port assigned, [])
  | .setFwmark mark => some (d.setFwmark mark, [])

def machine : Machine Device Event Output where
  step := step C

end Device
