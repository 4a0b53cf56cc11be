import VeilVpn.Noise.Impl.RateLimiter
import VeilVpn.Noise.Impl.Session

/-!
This module contains the handshake state machine. Every function returns the handshake as the
program leaves it behind, also when it returns an error.
-/

namespace Noise

def initialChainKey : FixedBytes 32 :=
  ⟨[96, 226, 109, 174, 243, 39, 239, 192, 46, 195, 53, 226, 160, 37, 210, 208, 22, 235, 66, 6, 248,
    114, 119, 245, 45, 56, 209, 152, 139, 120, 205, 54], rfl⟩

def initialChainHash : FixedBytes 32 :=
  ⟨[34, 17, 179, 97, 8, 26, 197, 102, 105, 18, 67, 219, 69, 138, 213, 50, 45, 156, 108, 102, 34,
    147, 232, 183, 14, 225, 156, 101, 186, 7, 158, 243], rfl⟩

structure Tai64N where
  secs : UInt64
  nano : UInt32
  deriving DecidableEq

namespace Tai64N

def zero : Tai64N := ⟨0, 0⟩

def parse (buf : FixedBytes 12) : Tai64N where
  secs := UInt64.ofNat (buf.val.slice 0 8).beNat
  nano := UInt32.ofNat (buf.val.slice 8 12).beNat

def after (self other : Tai64N) : Bool :=
  other.secs < self.secs || (self.secs = other.secs && other.nano < self.nano)

end Tai64N

structure TimeStamper where
  durationAtStart : Duration
  instantAtStart : Instant

def tai64Base : Nat := 2 ^ 62 + 37

def TimeStamper.stamp (stamper : TimeStamper) (now : Instant) : FixedBytes 12 :=
  let stamp := now.durationSince stamper.instantAtStart + stamper.durationAtStart
  ⟨Bytes.beBytes 8 (stamp.asSecs + tai64Base) ++ Bytes.beBytes 4 stamp.subsecNanos, by simp⟩

structure NoiseParams where
  staticPublic : FixedBytes 32
  staticPrivate : FixedBytes 32
  peerStaticPublic : FixedBytes 32
  /-- `DH(static_private, peer_static_public)` -/
  staticShared : FixedBytes 32
  sendingMac1Key : FixedBytes 32
  presharedKey : Option (FixedBytes 32)

structure HandshakeInitSentState where
  localIndex : UInt32
  hash : FixedBytes 32
  chainingKey : FixedBytes 32
  ephemeralPrivate : FixedBytes 32
  timeSent : Instant

structure HandshakeInitReceivedState where
  hash : FixedBytes 32
  chainingKey : FixedBytes 32
  peerEphemeralPublic : FixedBytes 32
  peerIndex : UInt32

inductive HandshakeState where
  /-- No handshake in process -/
  | none
  /-- We initiated the handshake -/
  | initSent (s : HandshakeInitSentState)
  /-- Handshake initiated by peer -/
  | initReceived (s : HandshakeInitReceivedState)
  /-- Handshake was established too long ago -/
  | expired

structure Cookies where
  lastMac1 : Option (FixedBytes 16)
  index : UInt32
  writeCookie : Option (FixedBytes 16)

structure Handshake where
  params : NoiseParams
  nextIndex : UInt32
  /-- Allow to have two outgoing handshakes in flight -/
  previous : HandshakeState
  state : HandshakeState
  cookies : Cookies
  lastHandshakeTimestamp : Tai64N
  stamper : TimeStamper
  lastRtt : Option UInt32

structure HalfHandshake where
  peerIndex : UInt32
  peerStaticPublic : FixedBytes 32

variable (P : Primitives)

def parseHandshakeAnon (staticPrivate staticPublic : FixedBytes 32) (packet : HandshakeInit)
    : Except WireGuardError HalfHandshake :=
  let peerIndex := packet.senderIdx
  let chainingKey := initialChainKey
  let hash := initialChainHash
  let hash := b2sHash P hash.val staticPublic.val
  let peerEphemeralPublic := packet.unencryptedEphemeral
  let hash := b2sHash P hash.val peerEphemeralPublic.val
  let chainingKey := b2sHmac P (b2sHmac P chainingKey peerEphemeralPublic.val) [0x01]
  let ephemeralShared := P.diffieHellman staticPrivate peerEphemeralPublic
  let temp := b2sHmac P chainingKey ephemeralShared.val
  let chainingKey := b2sHmac P temp [0x01]
  let key := b2sHmac2 P temp chainingKey.val [0x02]
  match aeadChacha20Open P key 0 packet.encryptedStatic.val hash.val with
  | none => .error .invalidAeadTag
  | some peerStaticPublic =>
    .ok { peerIndex, peerStaticPublic := .ofBytes 32 peerStaticPublic }

def NoiseParams.new (staticPrivate staticPublic peerStaticPublic : FixedBytes 32)
    (presharedKey : Option (FixedBytes 32)) : NoiseParams where
  staticPublic := staticPublic
  staticPrivate := staticPrivate
  peerStaticPublic := peerStaticPublic
  staticShared := P.diffieHellman staticPrivate peerStaticPublic
  sendingMac1Key := b2sHash P labelMac1 peerStaticPublic.val
  presharedKey := presharedKey

/--
Panics if the public key does not belong to the private key.
-/
def NoiseParams.setStaticPrivate (params : NoiseParams) (staticPrivate staticPublic : FixedBytes 32)
    : Option NoiseParams :=
  if P.x25519Public staticPrivate ≠ staticPublic then
    none
  else
    some { params with
      staticPrivate := staticPrivate
      staticPublic := staticPublic
      staticShared := P.diffieHellman staticPrivate params.peerStaticPublic
    }

namespace Handshake

def new (staticPrivate staticPublic peerStaticPublic : FixedBytes 32) (globalIdx : UInt32)
    (presharedKey : Option (FixedBytes 32)) (stamper : TimeStamper) : Handshake where
  params := .new P staticPrivate staticPublic peerStaticPublic presharedKey
  nextIndex := globalIdx
  previous := .none
  state := .none
  cookies := { lastMac1 := none, index := 0, writeCookie := none }
  lastHandshakeTimestamp := .zero
  stamper := stamper
  lastRtt := none

def isInProgress (h : Handshake) : Bool :=
  match h.state with
  | .none => false
  | .expired => false
  | .initSent _ => true
  | .initReceived _ => true

def timer (h : Handshake) : Option Instant :=
  match h.state with
  | .initSent s => some s.timeSent
  | _ => none

def setExpired (h : Handshake) : Handshake :=
  { h with previous := .expired, state := .expired }

def isExpired (h : Handshake) : Bool :=
  match h.state with
  | .expired => true
  | _ => false

def hasCookie (h : Handshake) : Bool :=
  h.cookies.writeCookie.isSome

def clearCookie (h : Handshake) : Handshake :=
  { h with cookies := { h.cookies with writeCookie := none } }

/--
24 bits of the index are the peer, the other 8 are a cyclic session index.
-/
def incIndex (h : Handshake) : Handshake × UInt32 :=
  let index := h.nextIndex
  let idx8 := index.toUInt8
  let next := (index &&& ~~~0xff) ||| (idx8 + 1).toUInt32
  ({ h with nextIndex := next }, next)

def setStaticPrivate (h : Handshake) (privateKey publicKey : FixedBytes 32) : Option Handshake :=
  match h.params.setStaticPrivate P privateKey publicKey with
  | none => none
  | some params => some { h with params }

def appendMac1AndMac2 (h : Handshake) (localIndex : UInt32) (msg : Bytes) : Handshake × Bytes :=
  let mac1 := b2sKeyedMac16 P h.params.sendingMac1Key.val msg
  let mac2 :=
    match h.cookies.writeCookie with
    | some cookie => b2sKeyedMac16 P cookie.val (msg ++ mac1.val)
    | none => .zero 16
  ({ h with cookies := { h.cookies with index := localIndex, lastMac1 := some mac1 } },
    msg ++ mac1.val ++ mac2.val)

def formatHandshakeInitiation (h : Handshake) (dstLen : Nat) (now : Instant)
    (ephemeralPrivate : FixedBytes 32) : Handshake × Except WireGuardError Bytes :=
  if dstLen < handshakeInitSz then
    (h, .error .destinationBufferTooSmall)
  else
    let (h, localIndex) := h.incIndex
    let chainingKey := initialChainKey
    let hash := initialChainHash
    let hash := b2sHash P hash.val h.params.peerStaticPublic.val
    let unencryptedEphemeral := P.x25519Public ephemeralPrivate
    let hash := b2sHash P hash.val unencryptedEphemeral.val
    let chainingKey := b2sHmac P (b2sHmac P chainingKey unencryptedEphemeral.val) [0x01]
    let ephemeralShared := P.diffieHellman ephemeralPrivate h.params.peerStaticPublic
    let temp := b2sHmac P chainingKey ephemeralShared.val
    let chainingKey := b2sHmac P temp [0x01]
    let key := b2sHmac2 P temp chainingKey.val [0x02]
    let encryptedStatic := aeadChacha20Seal P key 0 h.params.staticPublic.val hash.val
    let hash := b2sHash P hash.val encryptedStatic
    let temp := b2sHmac P chainingKey h.params.staticShared.val
    let chainingKey := b2sHmac P temp [0x01]
    let key := b2sHmac2 P temp chainingKey.val [0x02]
    let timestamp := h.stamper.stamp now
    let encryptedTimestamp := aeadChacha20Seal P key 0 timestamp.val hash.val
    let hash := b2sHash P hash.val encryptedTimestamp
    let sent := { localIndex, hash, chainingKey, ephemeralPrivate, timeSent := now }
    let h := { h with previous := h.state, state := .initSent sent }
    let (h, msg) := h.appendMac1AndMac2 P localIndex <|
      Bytes.leBytes 4 handshakeInitType ++ Bytes.leBytes 4 localIndex.toNat
        ++ unencryptedEphemeral.val ++ encryptedStatic ++ encryptedTimestamp
    (h, .ok msg)

/--
`received` is the state that `receive_handshake_initialization` has just stored, it is taken out
again here.
-/
def formatHandshakeResponse (h : Handshake) (received : HandshakeInitReceivedState) (dstLen : Nat)
    (ephemeralPrivate : FixedBytes 32) : Handshake × Except WireGuardError (Bytes × Session) :=
  if dstLen < handshakeRespSz then
    (h, .error .destinationBufferTooSmall)
  else
    let h := { h with state := .none }
    let (h, localIndex) := h.incIndex
    let unencryptedEphemeral := P.x25519Public ephemeralPrivate
    let hash := b2sHash P received.hash.val unencryptedEphemeral.val
    let temp := b2sHmac P received.chainingKey unencryptedEphemeral.val
    let chainingKey := b2sHmac P temp [0x01]
    let ephemeralShared := P.diffieHellman ephemeralPrivate received.peerEphemeralPublic
    let temp := b2sHmac P chainingKey ephemeralShared.val
    let chainingKey := b2sHmac P temp [0x01]
    let temp := b2sHmac P chainingKey
      (P.diffieHellman ephemeralPrivate h.params.peerStaticPublic).val
    let chainingKey := b2sHmac P temp [0x01]
    let temp := b2sHmac P chainingKey (h.params.presharedKey.getD (.zero 32)).val
    let chainingKey := b2sHmac P temp [0x01]
    let temp2 := b2sHmac2 P temp chainingKey.val [0x02]
    let key := b2sHmac2 P temp temp2.val [0x03]
    let hash := b2sHash P hash.val temp2.val
    let encryptedNothing := aeadChacha20Seal P key 0 [] hash.val
    -- Derive keys
    let temp1 := b2sHmac P chainingKey []
    let temp2 := b2sHmac P temp1 [0x01]
    let temp3 := b2sHmac2 P temp1 temp2.val [0x02]
    let (h, msg) := h.appendMac1AndMac2 P localIndex <|
      Bytes.leBytes 4 handshakeRespType ++ Bytes.leBytes 4 localIndex.toNat
        ++ Bytes.leBytes 4 received.peerIndex.toNat ++ unencryptedEphemeral.val
        ++ encryptedNothing
    (h, .ok (msg, .new localIndex received.peerIndex temp2 temp3))

def receiveHandshakeInitialization (h : Handshake) (packet : HandshakeInit) (dstLen : Nat)
    (ephemeralPrivate : FixedBytes 32) : Handshake × Except WireGuardError (Bytes × Session) :=
  let chainingKey := initialChainKey
  let hash := initialChainHash
  let hash := b2sHash P hash.val h.params.staticPublic.val
  let peerIndex := packet.senderIdx
  let peerEphemeralPublic := packet.unencryptedEphemeral
  let hash := b2sHash P hash.val peerEphemeralPublic.val
  let chainingKey := b2sHmac P (b2sHmac P chainingKey peerEphemeralPublic.val) [0x01]
  let ephemeralShared := P.diffieHellman h.params.staticPrivate peerEphemeralPublic
  let temp := b2sHmac P chainingKey ephemeralShared.val
  let chainingKey := b2sHmac P temp [0x01]
  let key := b2sHmac2 P temp chainingKey.val [0x02]
  match aeadChacha20Open P key 0 packet.encryptedStatic.val hash.val with
  | none => (h, .error .invalidAeadTag)
  | some peerStaticPublicDecrypted =>
    if h.params.peerStaticPublic.val ≠ peerStaticPublicDecrypted then
      (h, .error .wrongKey)
    else
      let hash := b2sHash P hash.val packet.encryptedStatic.val
      let temp := b2sHmac P chainingKey h.params.staticShared.val
      let chainingKey := b2sHmac P temp [0x01]
      let key := b2sHmac2 P temp chainingKey.val [0x02]
      match aeadChacha20Open P key 0 packet.encryptedTimestamp.val hash.val with
      | none => (h, .error .invalidAeadTag)
      | some timestamp =>
        let timestamp := Tai64N.parse (.ofBytes 12 timestamp)
        if !timestamp.after h.lastHandshakeTimestamp then
          -- Possibly a replay
          (h, .error .wrongTai64nTimestamp)
        else
          let hash := b2sHash P hash.val packet.encryptedTimestamp.val
          let received : HandshakeInitReceivedState :=
            { hash, chainingKey, peerEphemeralPublic, peerIndex }
          let h := { h with
            lastHandshakeTimestamp := timestamp
            previous := h.state
            state := .initReceived received
          }
          h.formatHandshakeResponse P received dstLen ephemeralPrivate

/--
The initiation that waits for a response to `receiverIdx`, and whether it is the previous one.
-/
def awaitingResponse (h : Handshake) (receiverIdx : UInt32)
    : Option (HandshakeInitSentState × Bool) :=
  let previous :=
    match h.previous with
    | .initSent s => if s.localIndex = receiverIdx then some (s, true) else none
    | _ => none
  match h.state with
  | .initSent s => if s.localIndex = receiverIdx then some (s, false) else previous
  | _ => previous

def receiveHandshakeResponse (h : Handshake) (packet : HandshakeResponse) (now : Instant)
    : Handshake × Except WireGuardError Session :=
  match h.awaitingResponse packet.receiverIdx with
  | none => (h, .error .unexpectedPacket)
  | some (state, isPrevious) =>
    let peerIndex := packet.senderIdx
    let localIndex := state.localIndex
    let unencryptedEphemeral := packet.unencryptedEphemeral
    let hash := b2sHash P state.hash.val unencryptedEphemeral.val
    let temp := b2sHmac P state.chainingKey unencryptedEphemeral.val
    let chainingKey := b2sHmac P temp [0x01]
    let ephemeralShared := P.diffieHellman state.ephemeralPrivate unencryptedEphemeral
    let temp := b2sHmac P chainingKey ephemeralShared.val
    let chainingKey := b2sHmac P temp [0x01]
    let temp := b2sHmac P chainingKey
      (P.diffieHellman h.params.staticPrivate unencryptedEphemeral).val
    let chainingKey := b2sHmac P temp [0x01]
    let temp := b2sHmac P chainingKey (h.params.presharedKey.getD (.zero 32)).val
    let chainingKey := b2sHmac P temp [0x01]
    let temp2 := b2sHmac2 P temp chainingKey.val [0x02]
    let key := b2sHmac2 P temp temp2.val [0x03]
    let hash := b2sHash P hash.val temp2.val
    match aeadChacha20Open P key 0 packet.encryptedNothing.val hash.val with
    | none => (h, .error .invalidAeadTag)
    | some _ =>
      -- Derive keys
      let temp1 := b2sHmac P chainingKey []
      let temp2 := b2sHmac P temp1 [0x01]
      let temp3 := b2sHmac2 P temp1 temp2.val [0x02]
      let rtt := UInt32.ofNat (now.durationSince state.timeSent).asMillis
      let h := { h with lastRtt := some rtt }
      let h := if isPrevious then { h with previous := .none } else { h with state := .none }
      (h, .ok (.new localIndex peerIndex temp3 temp2))

def receiveCookieReply (h : Handshake) (packet : PacketCookieReply)
    : Handshake × Except WireGuardError Unit :=
  match h.cookies.lastMac1 with
  | none => (h, .error .unexpectedPacket)
  | some mac1 =>
    if packet.receiverIdx ≠ h.cookies.index then
      (h, .error .wrongIndex)
    else
      let key := b2sHash P labelCookie h.params.peerStaticPublic.val
      match P.xChacha20Poly1305Decrypt key packet.nonce packet.encryptedCookie.val mac1.val with
      | none => (h, .error .invalidAeadTag)
      | some plain =>
        if hlen : plain.length = 16 then
          ({ h with cookies := { h.cookies with writeCookie := some ⟨plain, hlen⟩ } }, .ok ())
        else
          (h, .error .invalidPacket)

end Handshake

end Noise
