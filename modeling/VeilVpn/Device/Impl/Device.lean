import VeilVpn.Arena
import VeilVpn.HashMap
import VeilVpn.Payment.Impl.Settlement
import VeilVpn.Device.Impl.Peer

/-!
This module contains the state of the device and the functions that configure it. Functions that
can panic return an `Option`.
-/

structure Primitives where
  noise : Noise.Primitives
  payment : Payment.Primitives

namespace Device

def handshakeRateLimit : UInt64 := 100

/--
Peers are shared between the tables of the device and the handlers of connected sockets, they are
referred to by their number in the arena of all peers.
-/
abbrev PeerId := Nat

/--
A socket that is connected to a peer, with what its handler has captured.
-/
structure Conn where
  peer : PeerId
  peerAddr : IpAddr
  /-- The address the socket is connected to -/
  addr : SocketAddr
  isOpen : Bool

structure IndexLfsr where
  initial : UInt32
  lfsr : UInt32
  mask : UInt32

def IndexLfsr.next (l : IndexLfsr) : Option (IndexLfsr × UInt32) :=
  let value := l.lfsr - 1
  let lfsr := (l.lfsr >>> 1) ^^^ ((0 - (l.lfsr &&& 1)) &&& 0xd80000)
  if lfsr = l.initial then
    none
  else
    some ({ l with lfsr }, value ^^^ l.mask)

abbrev RandomIndex := { i : UInt32 // 0 < i ∧ i ≤ 0xffffff }

def IndexLfsr.default (seed mask : RandomIndex) : IndexLfsr where
  initial := seed.val
  lfsr := seed.val
  mask := mask.val

structure DeviceConfig where
  useConnectedSocket : Bool

/--
What the operating system and the settlement service answer while one event is handled.
-/
structure Env where
  now : Instant
  /-- What the clock shows when the timers of a tunnel read it again -/
  later : Instant
  /-- Time since the Unix epoch -/
  systemTime : Duration
  /-- The ephemeral keys that are drawn, in order -/
  ephemeral : Nat → FixedBytes 32
  /-- The nonce for a payment request -/
  nonce : FixedBytes 32
  limiterNonceKey : FixedBytes 32
  limiterSecretKey : FixedBytes 16
  settle : Payment.SettleRequest → Except Payment.SettlementError Payment.SettleResponse
  /-- Whether a socket can be connected to the endpoint -/
  connects : Bool

end Device

structure Device where
  keyPair : Option (FixedBytes 32 × FixedBytes 32)
  listenPort : UInt16
  fwmark : Option UInt32
  /-- Whether the two listening sockets are open -/
  udp4 : Bool
  udp6 : Bool
  peers : HashMap (FixedBytes 32) Device.PeerId
  peersByIp : Device.AllowedIps Device.PeerId
  peersByIdx : HashMap UInt32 Device.PeerId
  nextIndex : Device.IndexLfsr
  config : Device.DeviceConfig
  rateLimiter : Option Noise.RateLimiterRef
  paymentWallet : Option Payment.PaymentWallet
  paymentConfig : Payment.PaymentConfig
  /-- Whether there is a settlement client -/
  settlementClient : Bool
  peerArena : Arena Device.Peer
  limiterArena : Arena Noise.RateLimiter
  connArena : Arena Device.Conn

namespace Device

def new (nextIndex : IndexLfsr) (config : DeviceConfig) (paymentConfig : Payment.PaymentConfig)
    : Device where
  keyPair := none
  listenPort := 0
  fwmark := none
  udp4 := false
  udp6 := false
  peers := ∅
  peersByIp := .new
  peersByIdx := ∅
  nextIndex := nextIndex
  config := config
  rateLimiter := none
  paymentWallet := none
  paymentConfig := paymentConfig
  settlementClient := false
  peerArena := .empty
  limiterArena := .empty
  connArena := .empty

def setPeer (d : Device) (id : PeerId) (p : Peer) : Device :=
  { d with peerArena := d.peerArena.set id p }

def setLimiter (d : Device) (ref : Noise.RateLimiterRef) (rl : Noise.RateLimiter) : Device :=
  { d with limiterArena := d.limiterArena.set ref rl }

def shutdown (d : Device) (conn : Option ConnId) : Device :=
  match conn with
  | none => d
  | some id =>
    match d.connArena.get id with
    | none => d
    | some c => { d with connArena := d.connArena.set id { c with isOpen := false } }

def shutdownEndpoint (d : Device) (id : PeerId) : Device :=
  match d.peerArena.get id with
  | none => d
  | some p =>
    let (p, conn) := p.shutdownEndpoint
    (d.setPeer id p).shutdown conn

def setEndpoint (d : Device) (id : PeerId) (addr : SocketAddr) : Device :=
  match d.peerArena.get id with
  | none => d
  | some p =>
    let (p, conn) := p.setEndpoint addr
    (d.setPeer id p).shutdown conn

/--
Connect a socket to the endpoint of a peer and register its handler, if there is none yet.
-/
def connectEndpoint (d : Device) (id : PeerId) (peerAddr : IpAddr) (env : Env) : Device :=
  match d.peerArena.get id with
  | none => d
  | some p =>
    match p.endpoint.conn, p.endpoint.addr, env.connects with
    | none, some addr, true =>
      let d := d.setPeer id (p.setConn d.connArena.size)
      { d with connArena := d.connArena.alloc { peer := id, peerAddr, addr, isOpen := true } }
    | _, _, _ => d

def removePeer (d : Device) (pubKey : FixedBytes 32) : Device :=
  match d.peers.lookup pubKey with
  | none => d
  | some id =>
    match d.peerArena.get id with
    | none => d
    | some p =>
      -- Found a peer to remove, now purge all references to it
      let d := d.shutdownEndpoint id
      { d with
        peers := d.peers.erase pubKey
        peersByIdx := d.peersByIdx.erase p.index
        peersByIp := d.peersByIp.remove (· == id)
      }

def clearPeers (d : Device) : Device :=
  { d with peers := ∅, peersByIdx := ∅, peersByIp := .new }

def holds (d : Device) (id : PeerId) : Bool :=
  d.peers.any fun _ id' => id' == id

/--
Close the listening sockets and open new ones. `assigned` is the port that the operating system
assigns, there is none if the sockets can not be opened.
-/
def openListenSocket (d : Device) (port : UInt16) (assigned : Option UInt16) : Device :=
  let d := { d with udp4 := false, udp6 := false }
  let d := (List.range d.peerArena.size).foldl
    (fun acc id => if d.holds id then acc.shutdownEndpoint id else acc) d
  match assigned with
  | none => d
  | some assigned =>
    { d with
      udp4 := true
      udp6 := true
      listenPort := if port = 0 then assigned else port
    }

/--
Mark what the sockets of the device send. The mark of a socket is not seen in anything that the
device does.
-/
def setFwmark (d : Device) (mark : UInt32) : Device :=
  { d with fwmark := some mark }

variable (C : Primitives)

/--
Register a new peer or remove one. Modifying an existing peer panics.
-/
def updatePeer (d : Device) (pubKey : FixedBytes 32) (remove : Bool) (endpoint : Option SocketAddr)
    (allowedIps : List AllowedIP) (keepalive : Option UInt16)
    (presharedKey : Option (FixedBytes 32)) (env : Env) : Option Device :=
  if remove then
    some (d.removePeer pubKey)
  else if (d.peers.lookup pubKey).isSome then
    none
  else
    match d.nextIndex.next, d.keyPair with
    | some (lfsr, nextIndex), some (privateKey, publicKey) =>
      let limiter := Noise.RateLimiter.new C.noise publicKey Noise.peerHandshakeRateLimit
        env.limiterNonceKey env.limiterSecretKey env.now
      let stamper := { durationAtStart := env.systemTime, instantAtStart := env.now }
      let tunn := Noise.Tunn.new C.noise privateKey pubKey presharedKey keepalive nextIndex
        d.limiterArena.size true stamper env.now
      let peer := Peer.new tunn nextIndex endpoint allowedIps presharedKey
      let peer := { peer with quota := some (.new Payment.defaultQuotaBytes) }
      let id := d.peerArena.size
      some { d with
        nextIndex := lfsr
        limiterArena := d.limiterArena.alloc limiter
        peerArena := d.peerArena.alloc peer
        peers := d.peers.insert pubKey id
        peersByIdx := d.peersByIdx.insert nextIndex id
        peersByIp := allowedIps.foldl (fun table ip => table.insert ip id) d.peersByIp
      }
    | _, _ => none

def setKey (d : Device) (privateKey : FixedBytes 32) (env : Env) : Device :=
  let publicKey := C.noise.x25519Public privateKey
  if some publicKey = d.keyPair.map Prod.snd then
    d
  else
    let limiter := Noise.RateLimiter.new C.noise publicKey handshakeRateLimit
      env.limiterNonceKey env.limiterSecretKey env.now
    let ref := d.limiterArena.size
    { d with
      limiterArena := d.limiterArena.alloc limiter
      peerArena := d.peerArena.map fun id p =>
        if d.holds id then
          { p with
            tunnel := (p.tunnel.setStaticPrivate C.noise privateKey publicKey ref).get
              (p.tunnel.isSome_setStaticPrivate C.noise privateKey ref) }
        else
          p
      keyPair := some (privateKey, publicKey)
      rateLimiter := some ref
      paymentWallet := some (.fromWireguardKey C.payment privateKey)
      settlementClient := d.settlementClient || d.paymentConfig.isServer
    }

end Device
