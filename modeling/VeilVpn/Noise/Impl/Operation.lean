import VeilVpn.Machine
import VeilVpn.Noise.Impl.Tunn

/-!
This module contains the tunnel as a machine: what its owner can call, in any order.
-/

namespace Noise

inductive Operation where
  | encapsulate (src : Bytes)
  | decapsulate (rl : RateLimiter) (srcAddr : Option IpAddr) (datagram : Bytes)
  /-- A device looks at the packet before it decides which tunnel it is for. -/
  | handleVerifiedPacket (packet : Packet)
  | formatHandshakeInitiation (forceResend : Bool)
  /-- The clock is read for a second time after all timers were looked at. -/
  | updateTimers (rl : RateLimiter) (later : Instant)
  | setStaticPrivate (staticPrivate staticPublic : FixedBytes 32) (rateLimiter : RateLimiterRef)

structure Call where
  operation : Operation
  dstLen : Nat
  now : Instant
  ephemeral : FixedBytes 32

namespace Tunn

variable (P : Primitives)

/--
The rate limiter is shared between tunnels, so a call finds it in any state.
-/
def call (t : Tunn) (c : Call) : Option (Tunn × TunnResult) :=
  match c.operation with
  | .encapsulate src => t.encapsulate P src c.dstLen c.now c.ephemeral
  | .decapsulate rl srcAddr datagram =>
    (decapsulate P rl t srcAddr datagram c.dstLen c.now c.ephemeral).map Prod.snd
  | .handleVerifiedPacket packet => t.handleVerifiedPacket P packet c.dstLen c.now c.ephemeral
  | .formatHandshakeInitiation forceResend =>
    some (t.formatHandshakeInitiation P c.dstLen forceResend c.now c.ephemeral)
  | .updateTimers rl later =>
    (updateTimers P rl t c.dstLen c.now later c.ephemeral).map Prod.snd
  | .setStaticPrivate staticPrivate staticPublic rateLimiter =>
    (t.setStaticPrivate P staticPrivate staticPublic rateLimiter).map fun t => (t, .done)

def machine : Machine Tunn Call TunnResult where
  step := fun t c => (t.call P c).map fun (t, r) => (t, [r])

/--
The loop with which the receive handlers flush the queue: the empty datagram asks for the next packet,
as long as there is one for the network. Each round reads the clock and has a fresh ephemeral key,
there is no result if `rounds` has not enough of them.
-/
def flush (rl : RateLimiter) (dstLen : Nat) (rounds : List (Instant × FixedBytes 32)) (t : Tunn)
    : Option (Tunn × List Bytes) :=
  match rounds with
  | [] => none
  | (now, ephemeral) :: rounds =>
    match decapsulate P rl t none [] dstLen now ephemeral with
    | none => none
    | some (rl, t, .writeToNetwork packet) =>
      match flush rl dstLen rounds t with
      | none => none
      | some (t, packets) => some (t, packet :: packets)
    | some (_, t, _) => some (t, [])

end Tunn

/--
Two tunnels, of which one sends and the other receives. The network is not part of the state: it may
hand any datagram to any of the two.
-/
structure Channel where
  sender : Tunn
  receiver : Tunn

namespace Channel

inductive Event where
  | sender (c : Call)
  | receiver (c : Call)

def step (P : Primitives) (ch : Channel) : Event → Option (Channel × List TunnResult)
  | .sender c => (ch.sender.call P c).map fun (t, r) => ({ ch with sender := t }, [r])
  | .receiver c => (ch.receiver.call P c).map fun (t, r) => ({ ch with receiver := t }, [r])

def machine (P : Primitives) : Machine Channel Event TunnResult where
  step := step P

end Channel

end Noise
