import VeilVpn.Noise.Impl.Handshake

/-!
This module contains the tunnel: the ring of sessions, the packet queue and the timers around one
handshake. Functions that can panic return an `Option`.
-/

namespace Noise

def rekeyAfterTime : Duration := .fromSecs 120

def rejectAfterTime : Duration := .fromSecs 180

def rekeyAttemptTime : Duration := .fromSecs 90

def rekeyTimeout : Duration := .fromSecs 5

def keepaliveTimeout : Duration := .fromSecs 10

def cookieExpirationTime : Duration := .fromSecs 120

def peerHandshakeRateLimit : UInt64 := 10

def maxQueueDepth : Nat := 256

inductive TimerName where
  /-- Current time, updated each call to `updateTimers` -/
  | timeCurrent
  | timeSessionEstablished
  | timeLastHandshakeStarted
  | timeLastPacketReceived
  | timeLastPacketSent
  | timeLastDataPacketReceived
  | timeLastDataPacketSent
  | timeCookieReceived
  | timePersistentKeepalive
  deriving DecidableEq

structure Timers where
  isInitiator : Bool
  timeStarted : Instant
  timers : TimerName → Duration
  sessionTimers : Fin 8 → Duration
  wantKeepalive : Bool
  wantHandshake : Bool
  persistentKeepalive : Nat
  shouldResetRr : Bool

namespace Timers

def new (persistentKeepalive : Option UInt16) (resetRr : Bool) (now : Instant) : Timers where
  isInitiator := false
  timeStarted := now
  timers := fun _ => 0
  sessionTimers := fun _ => 0
  wantKeepalive := false
  wantHandshake := false
  persistentKeepalive := (persistentKeepalive.getD 0).toNat
  shouldResetRr := resetRr

/--
The timers are not really cleared, but set to the current time.
-/
def clear (timers : Timers) (now : Instant) : Timers :=
  { timers with
    timers := fun _ => now.durationSince timers.timeStarted
    wantHandshake := false
    wantKeepalive := false
  }

end Timers

/--
Rate limiters are shared between the tunnels of a device, a tunnel only holds a reference.
-/
abbrev RateLimiterRef := Nat

structure Tunn where
  handshake : Handshake
  sessions : Fin 8 → Option Session
  /-- Index of most recently used session -/
  current : Nat
  packetQueue : List Bytes
  timers : Timers
  txBytes : Nat
  rxBytes : Nat
  rateLimiter : RateLimiterRef

namespace Tunn

def slot (idx : Nat) : Fin 8 :=
  Fin.ofNat 8 idx

def currentSession (t : Tunn) : Option Session :=
  t.sessions (slot t.current)

def ipv4MinHeaderSize : Nat := 20

def ipv6MinHeaderSize : Nat := 40

def dstAddress (packet : Bytes) : Option IpAddr :=
  match packet with
  | [] => none
  | first :: _ =>
    if h : first >>> 4 = 4 ∧ ipv4MinHeaderSize ≤ packet.length then
      some (.v4 (.slice packet 16 4 h.2))
    else if h : first >>> 4 = 6 ∧ ipv6MinHeaderSize ≤ packet.length then
      some (.v6 (.slice packet 24 16 h.2))
    else
      none

variable (P : Primitives)

def new (staticPrivate peerStaticPublic : FixedBytes 32) (presharedKey : Option (FixedBytes 32))
    (persistentKeepalive : Option UInt16) (index : UInt32) (rateLimiter : RateLimiterRef)
    (ownRateLimiter : Bool) (stamper : TimeStamper) (now : Instant) : Tunn where
  handshake := .new P staticPrivate (P.x25519Public staticPrivate) peerStaticPublic (index <<< 8)
    presharedKey stamper
  sessions := fun _ => none
  current := 0
  packetQueue := []
  timers := .new persistentKeepalive ownRateLimiter now
  txBytes := 0
  rxBytes := 0
  rateLimiter := rateLimiter

def setStaticPrivate (t : Tunn) (staticPrivate staticPublic : FixedBytes 32)
    (rateLimiter : RateLimiterRef) : Option Tunn :=
  match t.handshake.setStaticPrivate P staticPrivate staticPublic with
  | none => none
  | some handshake =>
    some { t with
      handshake
      rateLimiter
      timers := { t.timers with shouldResetRr := false }
      sessions := fun _ => none
    }

theorem isSome_setStaticPrivate (t : Tunn) (staticPrivate : FixedBytes 32)
    (rateLimiter : RateLimiterRef)
    : (t.setStaticPrivate P staticPrivate (P.x25519Public staticPrivate) rateLimiter).isSome := by
  simp [setStaticPrivate, Handshake.setStaticPrivate, NoiseParams.setStaticPrivate]

def timerTick (t : Tunn) (name : TimerName) : Tunn :=
  let timers :=
    match name with
    | .timeLastPacketReceived => { t.timers with wantKeepalive := true, wantHandshake := false }
    | .timeLastPacketSent => { t.timers with wantHandshake := true, wantKeepalive := false }
    | _ => t.timers
  let time := timers.timers .timeCurrent
  { t with timers := { timers with timers := Function.update timers.timers name time } }

def timerTickSessionEstablished (t : Tunn) (isInitiator : Bool) (sessionIdx : Nat) : Tunn :=
  let t := t.timerTick .timeSessionEstablished
  let time := t.timers.timers .timeCurrent
  { t with timers := { t.timers with
      sessionTimers := Function.update t.timers.sessionTimers (slot sessionIdx) time
      isInitiator := isInitiator } }

def queuePacket (t : Tunn) (packet : Bytes) : Tunn :=
  if t.packetQueue.length < maxQueueDepth then
    { t with packetQueue := t.packetQueue ++ [packet] }
  else
    t

def requeuePacket (t : Tunn) (packet : Bytes) : Tunn :=
  if t.packetQueue.length < maxQueueDepth then
    { t with packetQueue := packet :: t.packetQueue }
  else
    t

def formatHandshakeInitiation (t : Tunn) (dstLen : Nat) (forceResend : Bool) (now : Instant)
    (ephemeral : FixedBytes 32) : Tunn × TunnResult :=
  if t.handshake.isInProgress && !forceResend then
    (t, .done)
  else
    let t := if t.handshake.isExpired then { t with timers := t.timers.clear now } else t
    let startingNewHandshake := !t.handshake.isInProgress
    match t.handshake.formatHandshakeInitiation P dstLen now ephemeral with
    | (handshake, .error e) => ({ t with handshake }, .err e)
    | (handshake, .ok packet) =>
      let t := { t with handshake }
      let t := if startingNewHandshake then t.timerTick .timeLastHandshakeStarted else t
      (t.timerTick .timeLastPacketSent, .writeToNetwork packet)

def encapsulate (t : Tunn) (src : Bytes) (dstLen : Nat) (now : Instant)
    (ephemeral : FixedBytes 32) : Option (Tunn × TunnResult) :=
  match t.currentSession with
  | some session =>
    -- Send the packet using an established session
    match session.formatPacketData P src dstLen with
    | none => none
    | some (session, packet) =>
      let t := { t with sessions := Function.update t.sessions (slot t.current) (some session) }
      let t := t.timerTick .timeLastPacketSent
      -- Exclude Keepalive packets from timer update.
      let t := if src.isEmpty then t else t.timerTick .timeLastDataPacketSent
      some ({ t with txBytes := t.txBytes + src.length }, .writeToNetwork packet)
  | none =>
    -- If there is no session, queue the packet for future retry
    some ((t.queuePacket src).formatHandshakeInitiation P dstLen false now ephemeral)

def sendQueuedPacket (t : Tunn) (dstLen : Nat) (now : Instant) (ephemeral : FixedBytes 32)
    : Option (Tunn × TunnResult) :=
  match t.packetQueue with
  | [] => some (t, .done)
  | packet :: rest =>
    match ({ t with packetQueue := rest }).encapsulate P packet dstLen now ephemeral with
    | none => none
    | some (t, .err _) => some (t.requeuePacket packet, .done)
    | some (t, r) => some (t, r)

def handleHandshakeInit (t : Tunn) (p : HandshakeInit) (dstLen : Nat) (ephemeral : FixedBytes 32)
    : Tunn × Except WireGuardError TunnResult :=
  match t.handshake.receiveHandshakeInitialization P p dstLen ephemeral with
  | (handshake, .error e) => ({ t with handshake }, .error e)
  | (handshake, .ok (packet, session)) =>
    -- Store new session in ring buffer
    let index := session.localIndex
    let t := { t with
      handshake
      sessions := Function.update t.sessions (slot index) (some session)
    }
    let t := t.timerTick .timeLastPacketReceived
    let t := t.timerTick .timeLastPacketSent
    -- New session established, we are not the initiator
    (t.timerTickSessionEstablished false index, .ok (.writeToNetwork packet))

def setCurrentSession (t : Tunn) (newIdx : Nat) : Tunn :=
  if t.current = newIdx then
    t
  else if
    t.currentSession.isNone
      || t.timers.sessionTimers (slot t.current) ≤ t.timers.sessionTimers (slot newIdx)
  then
    { t with current := newIdx }
  else
    t

def handleHandshakeResponse (t : Tunn) (p : HandshakeResponse) (dstLen : Nat) (now : Instant)
    : Option (Tunn × Except WireGuardError TunnResult) :=
  match t.handshake.receiveHandshakeResponse P p now with
  | (handshake, .error e) => some ({ t with handshake }, .error e)
  | (handshake, .ok session) =>
    match session.formatPacketData P [] dstLen with
    | none => none
    | some (session, keepalivePacket) =>
      -- Store new session in ring buffer
      let lIdx := session.localIndex
      let t := { t with
        handshake
        sessions := Function.update t.sessions (slot lIdx) (some session)
      }
      let t := t.timerTick .timeLastPacketReceived
      -- New session established, we are the initiator
      let t := t.timerTickSessionEstablished true lIdx
      some (t.setCurrentSession lIdx, .ok (.writeToNetwork keepalivePacket))

def handleCookieReply (t : Tunn) (p : PacketCookieReply)
    : Tunn × Except WireGuardError TunnResult :=
  match t.handshake.receiveCookieReply P p with
  | (handshake, .error e) => ({ t with handshake }, .error e)
  | (handshake, .ok ()) =>
    let t := { t with handshake }
    let t := t.timerTick .timeLastPacketReceived
    (t.timerTick .timeCookieReceived, .ok .done)

def ipHeader (packet : Bytes) : Option (Nat × IpAddr) :=
  match packet with
  | [] => none
  | first :: _ =>
    if h : first >>> 4 = 4 ∧ ipv4MinHeaderSize ≤ packet.length then
      some ((packet.slice 2 4).beNat,
        .v4 (.slice packet 12 4 (by have := h.2; unfold ipv4MinHeaderSize at this; omega)))
    else if h : first >>> 4 = 6 ∧ ipv6MinHeaderSize ≤ packet.length then
      some ((packet.slice 4 6).beNat + ipv6MinHeaderSize,
        .v6 (.slice packet 8 16 (by have := h.2; unfold ipv6MinHeaderSize at this; omega)))
    else
      none

/--
Check if an IP packet is v4 or v6, truncate to the length indicated by the length field.
-/
def validateDecapsulatedPacket (t : Tunn) (packet : Bytes) : Tunn × TunnResult :=
  if packet.isEmpty then
    -- This is keepalive, and not an error
    (t, .done)
  else
    match ipHeader packet with
    | none => (t, .err .invalidPacket)
    | some (computedLen, srcIpAddress) =>
      if packet.length < computedLen then
        (t, .err .invalidPacket)
      else
        let t := t.timerTick .timeLastDataPacketReceived
        let t := { t with rxBytes := t.rxBytes + computedLen }
        match srcIpAddress with
        | .v4 addr => (t, .writeToTunnelV4 (packet.take computedLen) addr)
        | .v6 addr => (t, .writeToTunnelV6 (packet.take computedLen) addr)

def handleData (t : Tunn) (packet : PacketData) (dstLen : Nat)
    : Option (Tunn × Except WireGuardError TunnResult) :=
  let rIdx := packet.receiverIdx.toNat
  match t.sessions (slot rIdx) with
  | none => some (t, .error .noCurrentSession)
  | some session =>
    match session.receivePacketData P packet dstLen with
    | none => none
    | some (session, .error e) =>
      some ({ t with sessions := Function.update t.sessions (slot rIdx) (some session) }, .error e)
    | some (session, .ok decapsulatedPacket) =>
      let t := { t with sessions := Function.update t.sessions (slot rIdx) (some session) }
      let t := t.setCurrentSession rIdx
      let t := t.timerTick .timeLastPacketReceived
      let (t, r) := t.validateDecapsulatedPacket decapsulatedPacket
      some (t, .ok r)

def unwrapResult (r : Tunn × Except WireGuardError TunnResult) : Tunn × TunnResult :=
  match r with
  | (t, .error e) => (t, .err e)
  | (t, .ok r) => (t, r)

def handleVerifiedPacket (t : Tunn) (packet : Packet) (dstLen : Nat) (now : Instant)
    (ephemeral : FixedBytes 32) : Option (Tunn × TunnResult) :=
  match packet with
  | .handshakeInit p => some (unwrapResult (t.handleHandshakeInit P p dstLen ephemeral))
  | .handshakeResponse p => (t.handleHandshakeResponse P p dstLen now).map unwrapResult
  | .packetCookieReply p => some (unwrapResult (t.handleCookieReply P p))
  | .packetData p => (t.handleData P p dstLen).map unwrapResult

/--
Receives a UDP datagram from the network and parses it. `rl` is what the rate limiter reference of
the tunnel points to.
-/
def decapsulate (rl : RateLimiter) (t : Tunn) (srcAddr : Option IpAddr) (datagram : Bytes)
    (dstLen : Nat) (now : Instant) (ephemeral : FixedBytes 32)
    : Option (RateLimiter × Tunn × TunnResult) :=
  if datagram.isEmpty then
    -- Indicates a repeated call
    (t.sendQueuedPacket P dstLen now ephemeral).map fun (t, r) => (rl, t, r)
  else
    match rl.verifyPacket P srcAddr datagram cookieReplySz now with
    | (rl, .error r) => some (rl, t, r)
    | (rl, .ok packet) =>
      (t.handleVerifiedPacket P packet dstLen now ephemeral).map fun (t, r) => (rl, t, r)

def clearAll (t : Tunn) (now : Instant) : Tunn :=
  { t with
    sessions := fun _ => none
    packetQueue := []
    timers := t.timers.clear now
  }

def updateSessionTimers (t : Tunn) (timeNow : Duration) : Option Tunn :=
  if ∀ i, t.timers.sessionTimers i ≤ timeNow then
    let stale := fun i => rejectAfterTime < timeNow - t.timers.sessionTimers i
    some { t with
      sessions := fun i => if stale i then none else t.sessions i
      timers := { t.timers with
        sessionTimers := fun i => if stale i then timeNow else t.timers.sessionTimers i }
    }
  else
    none

/--
`data_packet_sent > since && now - since >= limit`, the subtraction is only done if the first
condition holds.
-/
def idleFor (packet since now limit : Duration) : Option Bool :=
  if since < packet then
    (Duration.sub now since).map fun d => limit ≤ d
  else
    some false

/--
What the timers ask for while no handshake is in flight: a new handshake and a keepalive.
-/
def dueActions (t : Tunn) (now : Duration) : Option (Tunn × Bool × Bool) := do
  let get := t.timers.timers
  let sessionEstablished := get .timeSessionEstablished
  let autPacketReceived := get .timeLastPacketReceived
  let autPacketSent := get .timeLastPacketSent
  let dataPacketReceived := get .timeLastDataPacketReceived
  let dataPacketSent := get .timeLastDataPacketSent
  let rekeyOnSend ←
    if t.timers.isInitiator then
      idleFor dataPacketSent sessionEstablished now rekeyAfterTime
    else
      some false
  let rekeyOnReceive ←
    if t.timers.isInitiator then
      idleFor dataPacketReceived sessionEstablished now
        (rejectAfterTime - keepaliveTimeout - rekeyTimeout)
    else
      some false
  let noAnswer ← idleFor dataPacketSent autPacketReceived now (keepaliveTimeout + rekeyTimeout)
  let wantHandshake := noAnswer && t.timers.wantHandshake
  let t := if noAnswer then { t with timers := { t.timers with wantHandshake := false } } else t
  if rekeyOnSend || rekeyOnReceive || wantHandshake then
    return (t, true, false)
  let noReply ← idleFor dataPacketReceived autPacketSent now keepaliveTimeout
  let wantKeepalive := noReply && t.timers.wantKeepalive
  let t := if noReply then { t with timers := { t.timers with wantKeepalive := false } } else t
  if 0 < t.timers.persistentKeepalive then
    let d ← Duration.sub now (t.timers.timers .timePersistentKeepalive)
    if .fromSecs t.timers.persistentKeepalive ≤ d then
      return (t.timerTick .timePersistentKeepalive, false, true)
  return (t, false, wantKeepalive)

def expire (t : Tunn) (now : Instant) : Tunn × TunnResult :=
  (({ t with handshake := t.handshake.setExpired }).clearAll now, .err .connectionExpired)

/--
The part of `updateTimers` after the clock was advanced and old sessions were dropped. What comes of it
reads the clock again, which then shows `later`.
-/
def runTimers (t : Tunn) (dstLen : Nat) (time later : Instant) (ephemeral : FixedBytes 32)
    : Option (Tunn × TunnResult) := do
  let now := time.durationSince t.timers.timeStarted
  if t.handshake.isExpired then
    return (t, .err .connectionExpired)
  let cookieAge ←
    if t.handshake.hasCookie then
      Duration.sub now (t.timers.timers .timeCookieReceived)
    else
      some 0
  let t :=
    if t.handshake.hasCookie && cookieExpirationTime ≤ cookieAge then
      { t with handshake := t.handshake.clearCookie }
    else
      t
  let sessionAge ← Duration.sub now (t.timers.timers .timeSessionEstablished)
  if rejectAfterTime * 3 ≤ sessionAge then
    return t.expire later
  let (t, handshakeInitiationRequired, keepaliveRequired) ←
    match t.handshake.timer with
    | some timeInitSent =>
      -- Handshake Initiation Retransmission
      let attemptAge ← Duration.sub now (t.timers.timers .timeLastHandshakeStarted)
      if rekeyAttemptTime ≤ attemptAge then
        return t.expire later
      some (t, decide (rekeyTimeout ≤ later.durationSince timeInitSent), false)
    | none => t.dueActions now
  if handshakeInitiationRequired then
    return t.formatHandshakeInitiation P dstLen true later ephemeral
  if keepaliveRequired then
    t.encapsulate P [] dstLen later ephemeral
  else
    return (t, .done)

def updateTimers (rl : RateLimiter) (t : Tunn) (dstLen : Nat) (time later : Instant)
    (ephemeral : FixedBytes 32) : Option (RateLimiter × Tunn × TunnResult) := do
  let rl := if t.timers.shouldResetRr then rl.resetCount time else rl
  let now := time.durationSince t.timers.timeStarted
  let t := { t with timers := { t.timers with
    timers := Function.update t.timers.timers .timeCurrent now } }
  let t ← t.updateSessionTimers now
  let (t, r) ← t.runTimers P dstLen time later ephemeral
  return (rl, t, r)

def timeSinceLastHandshake (t : Tunn) (now : Instant) : Option (Option Duration) :=
  if t.currentSession.isSome then
    (Duration.sub (now.durationSince t.timers.timeStarted)
      (t.timers.timers .timeSessionEstablished)).map some
  else
    some none

def persistentKeepalive (t : Tunn) : Option UInt16 :=
  if 0 < t.timers.persistentKeepalive then some (.ofNat t.timers.persistentKeepalive) else none

end Tunn

end Noise
