import VeilVpn.Machine
import VeilVpn.Noise.Impl.Handshake
import VeilVpn.Noise.Lemmas.Packet

namespace Noise

section Transcript

variable (P : Primitives)

/--
The hash and the chaining key of a handshake.
-/
structure Transcript where
  hash : FixedBytes 32
  chainingKey : FixedBytes 32

/--
What the end of a handshake gives: key and hash for `encrypted_nothing`, and the two transport keys.
-/
structure ResponseKeys where
  key : FixedBytes 32
  hash : FixedBytes 32
  temp2 : FixedBytes 32
  temp3 : FixedBytes 32

namespace Transcript

def initial : Transcript :=
  ⟨initialChainHash, initialChainKey⟩

def mixHash (t : Transcript) (data : Bytes) : Transcript :=
  { t with hash := b2sHash P t.hash.val data }

def mixKey (t : Transcript) (input : FixedBytes 32) : Transcript :=
  { t with chainingKey := b2sHmac P (b2sHmac P t.chainingKey input.val) [0x01] }

def key (t : Transcript) (shared : FixedBytes 32) : FixedBytes 32 :=
  b2sHmac2 P (b2sHmac P t.chainingKey shared.val) (t.mixKey P shared).chainingKey.val [0x02]

def start (responderStaticPublic ephemeralPublic : FixedBytes 32) : Transcript :=
  ((initial.mixHash P responderStaticPublic.val).mixHash P ephemeralPublic.val).mixKey P
    ephemeralPublic

def addField (t : Transcript) (shared : FixedBytes 32) (encrypted : Bytes) : Transcript :=
  (t.mixKey P shared).mixHash P encrypted

def finish (t : Transcript) (ephemeralPublic ephemeralShared staticShared : FixedBytes 32)
    (presharedKey : Option (FixedBytes 32)) : ResponseKeys :=
  let t := t.mixHash P ephemeralPublic.val
  let t := ((t.mixKey P ephemeralPublic).mixKey P ephemeralShared).mixKey P staticShared
  let temp := b2sHmac P t.chainingKey (presharedKey.getD (.zero 32)).val
  let chainingKey := b2sHmac P temp [0x01]
  let temp2 := b2sHmac2 P temp chainingKey.val [0x02]
  let key := b2sHmac2 P temp temp2.val [0x03]
  let t := t.mixHash P temp2.val
  let temp1 := b2sHmac P chainingKey []
  let temp2 := b2sHmac P temp1 [0x01]
  let temp3 := b2sHmac2 P temp1 temp2.val [0x02]
  { key, hash := t.hash, temp2, temp3 }

end Transcript

def initiation (params : NoiseParams) (localIndex : UInt32) (ephemeralPrivate : FixedBytes 32)
    (timestamp : FixedBytes 12) : HandshakeInit :=
  let ephemeralPublic := P.x25519Public ephemeralPrivate
  let ephemeralShared := P.diffieHellman ephemeralPrivate params.peerStaticPublic
  let t := Transcript.start P params.peerStaticPublic ephemeralPublic
  let encryptedStatic : FixedBytes 48 :=
    ⟨aeadChacha20Seal P (t.key P ephemeralShared) 0 params.staticPublic.val t.hash.val,
      by simp [aeadChacha20Seal, P.length_seal]⟩
  let t := t.addField P ephemeralShared encryptedStatic.val
  let encryptedTimestamp : FixedBytes 28 :=
    ⟨aeadChacha20Seal P (t.key P params.staticShared) 0 timestamp.val t.hash.val,
      by simp [aeadChacha20Seal, P.length_seal]⟩
  ⟨localIndex, ephemeralPublic, encryptedStatic, encryptedTimestamp⟩

def HandshakeInit.transcript (packet : HandshakeInit)
    (responderStaticPublic ephemeralShared staticShared : FixedBytes 32) : Transcript :=
  ((Transcript.start P responderStaticPublic packet.unencryptedEphemeral).addField P
    ephemeralShared packet.encryptedStatic.val).addField P
    staticShared packet.encryptedTimestamp.val

def HandshakeInit.openStatic (packet : HandshakeInit) (staticPrivate staticPublic : FixedBytes 32)
    : Option Bytes :=
  let t := Transcript.start P staticPublic packet.unencryptedEphemeral
  aeadChacha20Open P (t.key P (P.diffieHellman staticPrivate packet.unencryptedEphemeral)) 0
    packet.encryptedStatic.val t.hash.val

def HandshakeInit.openTimestamp (packet : HandshakeInit) (params : NoiseParams) : Option Tai64N :=
  let t := (Transcript.start P params.staticPublic packet.unencryptedEphemeral).addField P
    (P.diffieHellman params.staticPrivate packet.unencryptedEphemeral) packet.encryptedStatic.val
  (aeadChacha20Open P (t.key P params.staticShared) 0 packet.encryptedTimestamp.val
    t.hash.val).map fun timestamp => .parse (.ofBytes 12 timestamp)

def HandshakeInit.sent (packet : HandshakeInit) (params : NoiseParams)
    (ephemeralPrivate : FixedBytes 32) (now : Instant) : HandshakeInitSentState :=
  let t := packet.transcript P params.peerStaticPublic
    (P.diffieHellman ephemeralPrivate params.peerStaticPublic) params.staticShared
  {
    localIndex := packet.senderIdx
    hash := t.hash
    chainingKey := t.chainingKey
    ephemeralPrivate
    timeSent := now
  }

def HandshakeInit.received (packet : HandshakeInit) (params : NoiseParams)
    : HandshakeInitReceivedState :=
  let t := packet.transcript P params.staticPublic
    (P.diffieHellman params.staticPrivate packet.unencryptedEphemeral) params.staticShared
  {
    hash := t.hash
    chainingKey := t.chainingKey
    peerEphemeralPublic := packet.unencryptedEphemeral
    peerIndex := packet.senderIdx
  }

def HandshakeInitReceivedState.keys (received : HandshakeInitReceivedState) (params : NoiseParams)
    (ephemeralPrivate : FixedBytes 32) : ResponseKeys :=
  Transcript.finish P ⟨received.hash, received.chainingKey⟩ (P.x25519Public ephemeralPrivate)
    (P.diffieHellman ephemeralPrivate received.peerEphemeralPublic)
    (P.diffieHellman ephemeralPrivate params.peerStaticPublic) params.presharedKey

def HandshakeInitSentState.keys (sent : HandshakeInitSentState) (params : NoiseParams)
    (ephemeralPublic : FixedBytes 32) : ResponseKeys :=
  Transcript.finish P ⟨sent.hash, sent.chainingKey⟩ ephemeralPublic
    (P.diffieHellman sent.ephemeralPrivate ephemeralPublic)
    (P.diffieHellman params.staticPrivate ephemeralPublic) params.presharedKey

def response (keys : ResponseKeys) (localIndex peerIndex : UInt32)
    (ephemeralPrivate : FixedBytes 32) : HandshakeResponse where
  senderIdx := localIndex
  receiverIdx := peerIndex
  unencryptedEphemeral := P.x25519Public ephemeralPrivate
  encryptedNothing :=
    ⟨aeadChacha20Seal P keys.key 0 [] keys.hash.val, by simp [aeadChacha20Seal, P.length_seal]⟩

end Transcript

variable {P : Primitives}

section Messages

theorem appendMac1AndMac2_eq (h : Handshake) (localIndex : UInt32) (msg : Bytes)
    : ∃ macs : FixedBytes 32, (h.appendMac1AndMac2 P localIndex msg).2 = msg ++ macs.val := by
  unfold Handshake.appendMac1AndMac2
  exact ⟨⟨_ ++ _, by simp⟩, List.append_assoc _ _ _⟩

theorem formatHandshakeInitiation_eq (h : Handshake) {dstLen : Nat} (hlen : handshakeInitSz ≤ dstLen)
    (now : Instant) (ephemeralPrivate : FixedBytes 32)
    : h.formatHandshakeInitiation P dstLen now ephemeralPrivate
        =
      let packet := initiation P h.params h.incIndex.2 ephemeralPrivate (h.stamper.stamp now)
      let h' := { h with
        nextIndex := h.incIndex.2
        previous := h.state
        state := .initSent (packet.sent P h.params ephemeralPrivate now) }
      let appended := h'.appendMac1AndMac2 P h.incIndex.2 <|
        Bytes.leBytes 4 handshakeInitType ++ Bytes.leBytes 4 packet.senderIdx.toNat
          ++ packet.unencryptedEphemeral.val ++ packet.encryptedStatic.val
          ++ packet.encryptedTimestamp.val
      (appended.1, .ok appended.2) := by
  unfold Handshake.formatHandshakeInitiation
  rw [if_neg (Nat.not_lt.mpr hlen)]
  rfl

theorem formatHandshakeInitiation_eq_ok {h h' : Handshake} {dstLen : Nat} {now : Instant}
    {ephemeralPrivate : FixedBytes 32} {msg : Bytes}
    (hformat : h.formatHandshakeInitiation P dstLen now ephemeralPrivate = (h', .ok msg))
    : ∃ packet,
        parseIncomingPacket msg = .ok (.handshakeInit packet)
          ∧
        packet.unencryptedEphemeral = P.x25519Public ephemeralPrivate
          ∧
        h'.state = .initSent (packet.sent P h.params ephemeralPrivate now)
          ∧
        h'.nextIndex = packet.senderIdx := by
  by_cases hlen : handshakeInitSz ≤ dstLen
  . rw [formatHandshakeInitiation_eq h hlen] at hformat
    cases hformat
    refine ⟨initiation P h.params h.incIndex.2 ephemeralPrivate (h.stamper.stamp now), ?_, rfl, rfl,
      rfl⟩
    obtain ⟨macs, hmacs⟩ := appendMac1AndMac2_eq (P := P) { h with
      nextIndex := h.incIndex.2
      previous := h.state
      state := .initSent ((initiation P h.params h.incIndex.2 ephemeralPrivate
        (h.stamper.stamp now)).sent P h.params ephemeralPrivate now) } h.incIndex.2 _
    rw [hmacs]
    exact parseIncomingPacket_handshakeInit _ macs
  . rw [Handshake.formatHandshakeInitiation, if_pos (Nat.not_le.mp hlen)] at hformat
    simp at hformat

theorem formatHandshakeResponse_eq (h : Handshake) (received : HandshakeInitReceivedState)
    {dstLen : Nat} (hlen : handshakeRespSz ≤ dstLen) (ephemeralPrivate : FixedBytes 32)
    : h.formatHandshakeResponse P received dstLen ephemeralPrivate
        =
      let keys := received.keys P h.params ephemeralPrivate
      let packet := response P keys h.incIndex.2 received.peerIndex ephemeralPrivate
      let h' := { h with nextIndex := h.incIndex.2, state := .none }
      let appended := h'.appendMac1AndMac2 P h.incIndex.2 <|
        Bytes.leBytes 4 handshakeRespType ++ Bytes.leBytes 4 packet.senderIdx.toNat
          ++ Bytes.leBytes 4 packet.receiverIdx.toNat ++ packet.unencryptedEphemeral.val
          ++ packet.encryptedNothing.val
      (appended.1,
        .ok (appended.2, .new packet.senderIdx packet.receiverIdx keys.temp2 keys.temp3)) := by
  unfold Handshake.formatHandshakeResponse
  rw [if_neg (Nat.not_lt.mpr hlen)]
  rfl

theorem parseHandshakeAnon_eq (staticPrivate staticPublic : FixedBytes 32) (packet : HandshakeInit)
    : parseHandshakeAnon P staticPrivate staticPublic packet
        =
      match packet.openStatic P staticPrivate staticPublic with
      | none => .error .invalidAeadTag
      | some key => .ok ⟨packet.senderIdx, .ofBytes 32 key⟩ :=
  rfl

theorem receiveHandshakeInitialization_checks (h : Handshake) (packet : HandshakeInit)
    (dstLen : Nat) (ephemeralPrivate : FixedBytes 32)
    : h.receiveHandshakeInitialization P packet dstLen ephemeralPrivate
        =
      match packet.openStatic P h.params.staticPrivate h.params.staticPublic with
      | none => (h, .error .invalidAeadTag)
      | some key =>
        if h.params.peerStaticPublic.val ≠ key then
          (h, .error .wrongKey)
        else
          match packet.openTimestamp P h.params with
          | none => (h, .error .invalidAeadTag)
          | some timestamp =>
            if !timestamp.after h.lastHandshakeTimestamp then
              (h, .error .wrongTai64nTimestamp)
            else
              let received := packet.received P h.params
              { h with
                lastHandshakeTimestamp := timestamp
                previous := h.state
                state := .initReceived received }.formatHandshakeResponse P received dstLen
                  ephemeralPrivate := by
  unfold Handshake.receiveHandshakeInitialization
  dsimp only
  split
  . next hopen =>
    have hstatic : packet.openStatic P h.params.staticPrivate h.params.staticPublic = none := hopen
    rw [hstatic]
  . next key hopen =>
    have hstatic : packet.openStatic P h.params.staticPrivate h.params.staticPublic = some key :=
      hopen
    rw [hstatic]
    dsimp only
    split
    . rfl
    . split
      . next hopen =>
        have htimestamp : packet.openTimestamp P h.params = none := congrArg (Option.map _) hopen
        rw [htimestamp]
      . next timestamp hopen =>
        have htimestamp : packet.openTimestamp P h.params = some (.parse (.ofBytes 12 timestamp)) :=
          congrArg (Option.map _) hopen
        rw [htimestamp]
        rfl

theorem receiveHandshakeInitialization_eq (h : Handshake) (packet : HandshakeInit) (dstLen : Nat)
    (ephemeralPrivate : FixedBytes 32)
    : (∃ e, h.receiveHandshakeInitialization P packet dstLen ephemeralPrivate = (h, .error e))
        ∨
      ∃ timestamp,
        packet.openTimestamp P h.params = some timestamp
          ∧
        timestamp.after h.lastHandshakeTimestamp = true
          ∧
        let received := packet.received P h.params
        h.receiveHandshakeInitialization P packet dstLen ephemeralPrivate
          =
        { h with
          lastHandshakeTimestamp := timestamp
          previous := h.state
          state := .initReceived received }.formatHandshakeResponse P received dstLen
            ephemeralPrivate := by
  rw [receiveHandshakeInitialization_checks]
  split
  . exact .inl ⟨_, rfl⟩
  . split
    . exact .inl ⟨_, rfl⟩
    . split
      . exact .inl ⟨_, rfl⟩
      . next timestamp htimestamp =>
        split
        . exact .inl ⟨_, rfl⟩
        . next hafter => exact .inr ⟨timestamp, htimestamp, by simpa using hafter, rfl⟩

theorem formatHandshakeResponse_eq_ok {h h' : Handshake} {received : HandshakeInitReceivedState}
    {dstLen : Nat} {ephemeralPrivate : FixedBytes 32} {msg : Bytes} {session : Session}
    (hformat : h.formatHandshakeResponse P received dstLen ephemeralPrivate
      = (h', .ok (msg, session)))
    : let keys := received.keys P h.params ephemeralPrivate
      parseIncomingPacket msg = .ok (.handshakeResponse
        (response P keys h.incIndex.2 received.peerIndex ephemeralPrivate))
        ∧
      session = .new h.incIndex.2 received.peerIndex keys.temp2 keys.temp3 := by
  by_cases hlen : handshakeRespSz ≤ dstLen
  . rw [formatHandshakeResponse_eq h received hlen] at hformat
    cases hformat
    refine ⟨?_, rfl⟩
    obtain ⟨macs, hmacs⟩ := appendMac1AndMac2_eq (P := P)
      { h with nextIndex := h.incIndex.2, state := .none } h.incIndex.2 _
    rw [hmacs]
    exact parseIncomingPacket_handshakeResponse _ macs
  . rw [Handshake.formatHandshakeResponse, if_pos (Nat.not_le.mp hlen)] at hformat
    simp at hformat

theorem receiveHandshakeInitialization_eq_ok {h h' : Handshake} {packet : HandshakeInit}
    {dstLen : Nat} {ephemeralPrivate : FixedBytes 32} {msg : Bytes} {session : Session}
    (hreceive : h.receiveHandshakeInitialization P packet dstLen ephemeralPrivate
      = (h', .ok (msg, session)))
    : let keys := (packet.received P h.params).keys P h.params ephemeralPrivate
      parseIncomingPacket msg = .ok (.handshakeResponse
        (response P keys h.incIndex.2 packet.senderIdx ephemeralPrivate))
        ∧
      session = .new h.incIndex.2 packet.senderIdx keys.temp2 keys.temp3 := by
  rcases receiveHandshakeInitialization_eq (P := P) h packet dstLen ephemeralPrivate with
    ⟨_, heq⟩ | ⟨_, _, _, heq⟩
  . rw [heq] at hreceive
    simp at hreceive
  . rw [heq] at hreceive
    have hformat := formatHandshakeResponse_eq_ok hreceive
    exact hformat

theorem receiveHandshakeResponse_eq {h : Handshake} {packet : HandshakeResponse} {now : Instant}
    {sent : HandshakeInitSentState} {isPrevious : Bool}
    (hsent : h.awaitingResponse packet.receiverIdx = some (sent, isPrevious))
    : let keys := sent.keys P h.params packet.unencryptedEphemeral
      h.receiveHandshakeResponse P packet now
        =
      match aeadChacha20Open P keys.key 0 packet.encryptedNothing.val keys.hash.val with
      | none => (h, .error .invalidAeadTag)
      | some _ =>
        let rtt := UInt32.ofNat (now.durationSince sent.timeSent).asMillis
        let h := { h with lastRtt := some rtt }
        (if isPrevious then { h with previous := .none } else { h with state := .none },
          .ok (.new sent.localIndex packet.senderIdx keys.temp3 keys.temp2)) := by
  unfold Handshake.receiveHandshakeResponse
  rw [hsent]
  rfl

theorem receiveHandshakeResponse_eq_ok {h h' : Handshake} {packet : HandshakeResponse}
    {now : Instant} {session : Session}
    (hreceive : h.receiveHandshakeResponse P packet now = (h', .ok session))
    : ∃ sent isPrevious,
        h.awaitingResponse packet.receiverIdx = some (sent, isPrevious)
          ∧
        let keys := sent.keys P h.params packet.unencryptedEphemeral
        session = .new sent.localIndex packet.senderIdx keys.temp3 keys.temp2 := by
  cases hawaiting : h.awaitingResponse packet.receiverIdx with
  | none =>
    rw [Handshake.receiveHandshakeResponse, hawaiting] at hreceive
    simp at hreceive
  | some awaiting =>
    rw [receiveHandshakeResponse_eq hawaiting] at hreceive
    split at hreceive
    . simp at hreceive
    . cases hreceive
      exact ⟨awaiting.1, awaiting.2, rfl, rfl⟩

end Messages

section Run

inductive HandshakeEvent where
  | initiate (dstLen : Nat) (now : Instant) (ephemeralPrivate : FixedBytes 32)
  | receiveInit (packet : HandshakeInit) (dstLen : Nat) (ephemeralPrivate : FixedBytes 32)
  | receiveResponse (packet : HandshakeResponse) (now : Instant)
  | receiveCookieReply (packet : PacketCookieReply)
  | clearCookie
  | setExpired

def Handshake.machine (P : Primitives) : Machine Handshake HandshakeEvent Empty where
  step := fun h e =>
    match e with
    | .initiate dstLen now ephemeralPrivate =>
      some ((h.formatHandshakeInitiation P dstLen now ephemeralPrivate).1, [])
    | .receiveInit packet dstLen ephemeralPrivate =>
      some ((h.receiveHandshakeInitialization P packet dstLen ephemeralPrivate).1, [])
    | .receiveResponse packet now => some ((h.receiveHandshakeResponse P packet now).1, [])
    | .receiveCookieReply packet => some ((h.receiveCookieReply P packet).1, [])
    | .clearCookie => some (h.clearCookie, [])
    | .setExpired => some (h.setExpired, [])

inductive Handshake.Moves (h h' : Handshake) : Prop where
  | keep (hstate : h'.state = h.state) (hindex : h'.nextIndex = h.nextIndex)
    (hprevious : h'.previous = h.previous ∨ h'.previous = .none)
  | initiate (sent : HandshakeInitSentState) (hstate : h'.state = .initSent sent)
    (hlocal : sent.localIndex = h.incIndex.2) (hindex : h'.nextIndex = h.incIndex.2)
    (hprevious : h'.previous = h.state)
  | drop (hstate : ∀ sent, h'.state ≠ .initSent sent)

variable {h h' : Handshake} {e : HandshakeEvent} {os : List Empty}

theorem moves_formatHandshakeInitiation (dstLen : Nat) (now : Instant)
    (ephemeralPrivate : FixedBytes 32)
    : h.Moves (h.formatHandshakeInitiation P dstLen now ephemeralPrivate).1
        ∧
      (h.formatHandshakeInitiation P dstLen now ephemeralPrivate).1.params = h.params := by
  by_cases hlen : handshakeInitSz ≤ dstLen
  . rw [formatHandshakeInitiation_eq h hlen]
    exact ⟨.initiate _ rfl rfl rfl rfl, rfl⟩
  . rw [Handshake.formatHandshakeInitiation, if_pos (Nat.not_le.mp hlen)]
    exact ⟨.keep rfl rfl (.inl rfl), rfl⟩

theorem moves_receiveHandshakeInitialization (packet : HandshakeInit) (dstLen : Nat)
    (ephemeralPrivate : FixedBytes 32)
    : h.Moves (h.receiveHandshakeInitialization P packet dstLen ephemeralPrivate).1
        ∧
      (h.receiveHandshakeInitialization P packet dstLen ephemeralPrivate).1.params = h.params := by
  rcases receiveHandshakeInitialization_eq (P := P) h packet dstLen ephemeralPrivate with
    ⟨_, heq⟩ | ⟨_, _, _, heq⟩
  . rw [heq]
    exact ⟨.keep rfl rfl (.inl rfl), rfl⟩
  . rw [heq]
    by_cases hlen : handshakeRespSz ≤ dstLen
    . rw [formatHandshakeResponse_eq _ _ hlen]
      exact ⟨.drop (by intro sent hstate; cases hstate), rfl⟩
    . rw [Handshake.formatHandshakeResponse, if_pos (Nat.not_le.mp hlen)]
      exact ⟨.drop (by intro sent hstate; cases hstate), rfl⟩

theorem moves_receiveHandshakeResponse (packet : HandshakeResponse) (now : Instant)
    : h.Moves (h.receiveHandshakeResponse P packet now).1
        ∧
      (h.receiveHandshakeResponse P packet now).1.params = h.params := by
  cases hawaiting : h.awaitingResponse packet.receiverIdx with
  | none =>
    rw [Handshake.receiveHandshakeResponse, hawaiting]
    exact ⟨.keep rfl rfl (.inl rfl), rfl⟩
  | some awaiting =>
    rw [receiveHandshakeResponse_eq hawaiting]
    split
    . exact ⟨.keep rfl rfl (.inl rfl), rfl⟩
    . dsimp only
      split
      . exact ⟨.keep rfl rfl (.inr rfl), rfl⟩
      . exact ⟨.drop (by intro sent hstate; cases hstate), rfl⟩

theorem moves_receiveCookieReply (packet : PacketCookieReply)
    : h.Moves (h.receiveCookieReply P packet).1
        ∧
      (h.receiveCookieReply P packet).1.params = h.params := by
  unfold Handshake.receiveCookieReply
  split
  . exact ⟨.keep rfl rfl (.inl rfl), rfl⟩
  . split
    . exact ⟨.keep rfl rfl (.inl rfl), rfl⟩
    . dsimp only
      split
      . exact ⟨.keep rfl rfl (.inl rfl), rfl⟩
      . split
        . exact ⟨.keep rfl rfl (.inl rfl), rfl⟩
        . exact ⟨.keep rfl rfl (.inl rfl), rfl⟩

theorem moves_of_step (hstep : (Handshake.machine P).step h e = some (h', os))
    : h.Moves h' ∧ h'.params = h.params := by
  cases e with
  | initiate dstLen now ephemeralPrivate =>
    cases hstep
    exact moves_formatHandshakeInitiation dstLen now ephemeralPrivate
  | receiveInit packet dstLen ephemeralPrivate =>
    cases hstep
    exact moves_receiveHandshakeInitialization packet dstLen ephemeralPrivate
  | receiveResponse packet now =>
    cases hstep
    exact moves_receiveHandshakeResponse packet now
  | receiveCookieReply packet =>
    cases hstep
    exact moves_receiveCookieReply packet
  | clearCookie =>
    cases hstep
    exact ⟨.keep rfl rfl (.inl rfl), rfl⟩
  | setExpired =>
    cases hstep
    exact ⟨.drop (by intro sent hstate; cases hstate), rfl⟩

theorem toUInt8_incIndex (h : Handshake) : h.incIndex.2.toUInt8 = h.nextIndex.toUInt8 + 1 := by
  have hmask : (~~~(0xff : UInt32)).toUInt8 = 0 := by decide
  simp only [Handshake.incIndex, UInt32.toUInt8_or, UInt32.toUInt8_and, hmask, UInt8.and_zero,
    UInt8.zero_or, UInt8.toUInt8_toUInt32]

theorem incIndex_ne_nextIndex (h : Handshake) : h.incIndex.2 ≠ h.nextIndex := by
  intro heq
  have hbyte := toUInt8_incIndex h
  rw [heq] at hbyte
  simp at hbyte

/--
The index of an initiation that was sent tells it apart from the next one.
-/
structure Distinguished (sent : HandshakeInitSentState) (h : Handshake) : Prop where
  current : ∀ s, h.state = .initSent s → s.localIndex = h.nextIndex
  previous : ∀ s, h.previous = .initSent sent → h.state = .initSent s →
    s.localIndex = sent.localIndex → s = sent

theorem Distinguished.moves {sent : HandshakeInitSentState} (hsent : Distinguished sent h)
    (hmoves : h.Moves h')
    : Distinguished sent h' := by
  cases hmoves with
  | keep hstate hindex hprevious =>
    refine ⟨?_, ?_⟩
    . rw [hstate, hindex]
      exact hsent.current
    . intro s hprev hs hlocal
      rw [hstate] at hs
      rcases hprevious with heq | heq
      . exact hsent.previous s (heq.symm.trans hprev) hs hlocal
      . rw [heq] at hprev
        cases hprev
  | initiate new hstate hlocal hindex hprevious =>
    refine ⟨?_, ?_⟩
    . intro s hs
      rw [hstate] at hs
      cases hs
      rw [hlocal, hindex]
    . intro s hprev hs heq
      rw [hstate] at hs
      cases hs
      -- The index of the new initiation is not the one that was used last
      rw [hprevious] at hprev
      rw [hlocal, hsent.current sent hprev] at heq
      exact absurd heq (incIndex_ne_nextIndex h)
  | drop hstate =>
    exact ⟨fun s hs => absurd hs (hstate s), fun s _ hs => absurd hs (hstate s)⟩

theorem Distinguished.awaitingResponse {sent : HandshakeInitSentState}
    (hsent : Distinguished sent h) (hinFlight : h.state = .initSent sent ∨ h.previous = .initSent sent)
    : ∃ isPrevious, h.awaitingResponse sent.localIndex = some (sent, isPrevious) := by
  unfold Handshake.awaitingResponse
  rcases hinFlight with hstate | hprevious
  . simp [hstate]
  . simp only [hprevious, if_true]
    split
    . next s hs =>
      split
      . next hlocal =>
        rw [hsent.previous s hprevious hs hlocal]
        exact ⟨false, rfl⟩
      . exact ⟨true, rfl⟩
    . exact ⟨true, rfl⟩

theorem distinguished_of_run {h₀ h : Handshake}
    {ts : List (Transition Handshake HandshakeEvent Empty)}
    (hrun : (Handshake.machine P).Run h₀ ts h) {sent : HandshakeInitSentState}
    (hstate : h₀.state = .initSent sent) (hindex : sent.localIndex = h₀.nextIndex)
    : h.params = h₀.params ∧ Distinguished sent h := by
  apply hrun.invariant (fun h => h.params = h₀.params ∧ Distinguished sent h)
  . refine ⟨rfl, ?_, ?_⟩
    . intro s hs
      rw [hstate] at hs
      cases hs
      exact hindex
    . intro s _ hs _
      rw [hstate] at hs
      cases hs
      rfl
  . intro h e h' os ⟨hparams, hsent⟩ hstep
    obtain ⟨hmoves, hsame⟩ := moves_of_step hstep
    exact ⟨hsame.trans hparams, hsent.moves hmoves⟩

end Run

section Agreement

/--
What the primitives have to give for two sides to understand each other.
-/
structure Primitives.Lawful (P : Primitives) : Prop where
  diffieHellman_comm : ∀ a b,
    P.diffieHellman a (P.x25519Public b) = P.diffieHellman b (P.x25519Public a)
  open_seal : ∀ key nonce plain aad,
    P.chacha20Poly1305Open key nonce (P.chacha20Poly1305Seal key nonce plain aad) aad = some plain

structure NoiseParams.Own (P : Primitives) (params : NoiseParams) : Prop where
  staticPublic : params.staticPublic = P.x25519Public params.staticPrivate
  staticShared : params.staticShared = P.diffieHellman params.staticPrivate params.peerStaticPublic

/--
Two sides hold each other's public keys and the same preshared key.
-/
structure NoiseParams.Paired (P : Primitives) (a b : NoiseParams) : Prop where
  own_left : a.Own P
  own_right : b.Own P
  peer_left : a.peerStaticPublic = b.staticPublic
  peer_right : b.peerStaticPublic = a.staticPublic
  presharedKey : a.presharedKey.getD (.zero 32) = b.presharedKey.getD (.zero 32)

/--
What one session sends is what the other one receives.
-/
structure Session.Paired (a b : Session) : Prop where
  sender : a.sender = b.receiver
  receiver : a.receiver = b.sender
  sendingIndex : a.sendingIndex = b.receivingIndex
  receivingIndex : a.receivingIndex = b.sendingIndex

theorem NoiseParams.own_new (staticPrivate peerStaticPublic : FixedBytes 32)
    (presharedKey : Option (FixedBytes 32))
    : (NoiseParams.new P staticPrivate (P.x25519Public staticPrivate) peerStaticPublic
        presharedKey).Own P :=
  ⟨rfl, rfl⟩

theorem finish_congr {t : Transcript} {e ee se : FixedBytes 32} {psk psk' : Option (FixedBytes 32)}
    (h : psk.getD (.zero 32) = psk'.getD (.zero 32))
    : t.finish P e ee se psk = t.finish P e ee se psk' := by
  unfold Transcript.finish
  rw [h]

variable {a b : NoiseParams} {e e' : FixedBytes 32}

theorem transcript_eq (hP : P.Lawful) (hpaired : a.Paired P b) {packet : HandshakeInit}
    (hephemeral : packet.unencryptedEphemeral = P.x25519Public e)
    : packet.transcript P a.peerStaticPublic (P.diffieHellman e a.peerStaticPublic) a.staticShared
        =
      packet.transcript P b.staticPublic
        (P.diffieHellman b.staticPrivate packet.unencryptedEphemeral) b.staticShared := by
  have hephemeralShared : P.diffieHellman e a.peerStaticPublic
      = P.diffieHellman b.staticPrivate packet.unencryptedEphemeral := by
    rw [hpaired.peer_left, hpaired.own_right.staticPublic, hephemeral]
    exact hP.diffieHellman_comm e b.staticPrivate
  have hstaticShared : a.staticShared = b.staticShared := by
    rw [hpaired.own_left.staticShared, hpaired.own_right.staticShared, hpaired.peer_left,
      hpaired.peer_right, hpaired.own_left.staticPublic, hpaired.own_right.staticPublic]
    exact hP.diffieHellman_comm a.staticPrivate b.staticPrivate
  rw [hephemeralShared, hstaticShared, hpaired.peer_left]

theorem keys_eq (hP : P.Lawful) (hpaired : a.Paired P b) {packet : HandshakeInit}
    (hephemeral : packet.unencryptedEphemeral = P.x25519Public e) (e' : FixedBytes 32) (now : Instant)
    : (packet.sent P a e now).keys P a (P.x25519Public e')
        =
      (packet.received P b).keys P b e' := by
  have ht := transcript_eq hP hpaired hephemeral
  have hstatic : P.diffieHellman a.staticPrivate (P.x25519Public e')
      = P.diffieHellman e' b.peerStaticPublic := by
    rw [hpaired.peer_right, hpaired.own_left.staticPublic]
    exact hP.diffieHellman_comm a.staticPrivate e'
  simp only [HandshakeInitSentState.keys, HandshakeInit.sent, HandshakeInitReceivedState.keys,
    HandshakeInit.received]
  rw [ht, hstatic, hP.diffieHellman_comm e e', hephemeral]
  exact finish_congr hpaired.presharedKey

theorem exists_receiveHandshakeResponse (hP : P.Lawful) {h : Handshake}
    {sent : HandshakeInitSentState} {isPrevious : Bool} {keys : ResponseKeys}
    (hsent : h.awaitingResponse sent.localIndex = some (sent, isPrevious))
    (hkeys : sent.keys P h.params (P.x25519Public e') = keys) (localIndex : UInt32) (now : Instant)
    : ∃ h', h.receiveHandshakeResponse P (response P keys localIndex sent.localIndex e') now
        = (h', .ok (.new sent.localIndex localIndex keys.temp3 keys.temp2)) := by
  have hawaiting : h.awaitingResponse (response P keys localIndex sent.localIndex e').receiverIdx
      = some (sent, isPrevious) := hsent
  rw [receiveHandshakeResponse_eq hawaiting]
  simp only [response, hkeys, aeadChacha20Open, aeadChacha20Seal, hP.open_seal]
  exact ⟨_, rfl⟩

/--
If an initiation is accepted, and the response arrives as long as it is awaited, then both sides end
up with sessions for each other.
-/
theorem sessions_paired (hP : P.Lawful) {i₀ i₁ i₂ r r' : Handshake} {dstLen dstLen' : Nat}
    {now now' : Instant} {msg reply : Bytes} {packet : HandshakeInit} {session : Session}
    {ts : List (Transition Handshake HandshakeEvent Empty)}
    (hpaired : i₀.params.Paired P r.params)
    (hinitiation : i₀.formatHandshakeInitiation P dstLen now e = (i₁, .ok msg))
    (hparse : parseIncomingPacket msg = .ok (.handshakeInit packet))
    (haccept : r.receiveHandshakeInitialization P packet dstLen' e' = (r', .ok (reply, session)))
    (hrun : (Handshake.machine P).Run i₁ ts i₂)
    (hawaited : i₂.state = i₁.state ∨ i₂.previous = i₁.state)
    : ∃ packet' i₃ session',
        parseIncomingPacket reply = .ok (.handshakeResponse packet')
          ∧
        i₂.receiveHandshakeResponse P packet' now' = (i₃, .ok session')
          ∧
        session'.Paired session := by
  obtain ⟨_, hparsed, hephemeral, hstate, hindex⟩ := formatHandshakeInitiation_eq_ok hinitiation
  rw [hparse] at hparsed
  cases hparsed
  obtain ⟨hparams, hsent⟩ := distinguished_of_run hrun hstate hindex.symm
  have hmoves := moves_formatHandshakeInitiation (P := P) (h := i₀) dstLen now e
  rw [hinitiation] at hmoves
  rw [hmoves.2] at hparams
  rw [hstate] at hawaited
  obtain ⟨isPrevious, hawaiting⟩ := hsent.awaitingResponse hawaited
  have hkeys := keys_eq hP hpaired hephemeral e' now
  nth_rewrite 2 [← hparams] at hkeys
  obtain ⟨hreply, rfl⟩ := receiveHandshakeInitialization_eq_ok haccept
  obtain ⟨i₃, hreceive⟩ := exists_receiveHandshakeResponse hP hawaiting hkeys r.incIndex.2 now'
  exact ⟨_, i₃, _, hreply, hreceive, rfl, rfl, rfl, rfl⟩

end Agreement

namespace Sample

/--
Primitives that hide nothing, but in which a tag fits only one key.
-/
def primitives : Primitives where
  x25519Public := id
  diffieHellman := fun a b => ⟨List.zipWith (· + ·) a.val b.val, by simp⟩
  blake2s256 := fun data => .ofBytes 32 data.reverse
  hmacBlake2s := fun key data => .ofBytes 32 (data ++ key)
  blake2sMac16 := fun key _ => .ofBytes 16 key
  blake2sMac24 := fun key _ => .ofBytes 24 key
  chacha20Poly1305Seal := fun key _ data _ => data ++ key.val.take 16
  chacha20Poly1305Open := fun key _ data _ =>
    if data.drop (data.length - 16) = key.val.take 16 then
      some (data.take (data.length - 16))
    else
      none
  xChacha20Poly1305Encrypt := fun key _ data _ => data ++ key.val.take 16
  xChacha20Poly1305Decrypt := fun _ _ data _ => some data
  length_seal := by simp
  length_open := by
    intro key _ data _ plain h
    simp only [Option.ite_none_right_eq_some, Option.some.injEq] at h
    have htag := congrArg List.length h.1
    simp only [List.length_drop, List.length_take, FixedBytes.length_val] at htag
    rw [← h.2, List.length_take]
    omega
  length_encrypt := by simp

theorem lawful : primitives.Lawful where
  diffieHellman_comm := by
    intro a b
    apply FixedBytes.ext
    simp only [primitives, id]
    rw [List.zipWith_comm]
    simp only [UInt8.add_comm]
  open_seal := by
    intro key nonce plain aad
    simp [primitives]

def key (byte : UInt8) : FixedBytes 32 :=
  .replicate 32 byte

def side (staticPrivate peerStaticPublic : FixedBytes 32) (index : UInt32) : Handshake :=
  .new primitives staticPrivate staticPrivate peerStaticPublic index none ⟨0, 0⟩

def accepts : Bool :=
  match (side (key 1) (key 2) 0x100).formatHandshakeInitiation primitives 148 0 (key 3) with
  | (_, .ok msg) =>
    match parseIncomingPacket msg with
    | .ok (.handshakeInit packet) =>
      ((side (key 2) (key 1) 0x200).receiveHandshakeInitialization primitives packet 148
        (key 4)).2.isOk
    | _ => false
  | _ => false

theorem exists_accepted
    : ∃ i msg packet r reply session,
        (side (key 1) (key 2) 0x100).formatHandshakeInitiation primitives 148 0 (key 3)
          = (i, .ok msg)
          ∧
        parseIncomingPacket msg = .ok (.handshakeInit packet)
          ∧
        (side (key 2) (key 1) 0x200).receiveHandshakeInitialization primitives packet 148 (key 4)
          = (r, .ok (reply, session)) := by
  have haccepts : accepts = true := by decide +kernel
  unfold accepts at haccepts
  split at haccepts
  . next i msg hformat =>
    split at haccepts
    . next packet hparse =>
      cases hreceive : (side (key 2) (key 1) 0x200).receiveHandshakeInitialization primitives packet
        148 (key 4) with
      | mk r result =>
        cases result with
        | error _ => simp [hreceive, Except.isOk, Except.toBool] at haccepts
        | ok answer => exact ⟨i, msg, packet, r, answer.1, answer.2, hformat, hparse, hreceive⟩
    . simp at haccepts
  . simp at haccepts

end Sample

theorem sessions_paired_retransmitted
    : ∃ i msg packet r reply session,
        (Sample.side (Sample.key 1) (Sample.key 2) 0x100).formatHandshakeInitiation
          Sample.primitives 148 0 (Sample.key 3) = (i, .ok msg)
          ∧
        (Sample.side (Sample.key 2) (Sample.key 1) 0x200).receiveHandshakeInitialization
          Sample.primitives packet 148 (Sample.key 4) = (r, .ok (reply, session))
          ∧
        ∃ packet' i' session',
          parseIncomingPacket reply = .ok (.handshakeResponse packet')
            ∧
          (i.formatHandshakeInitiation Sample.primitives 148 0 (Sample.key 5)).1.receiveHandshakeResponse
            Sample.primitives packet' 0 = (i', .ok session')
            ∧
          session'.Paired session := by
  obtain ⟨i, msg, packet, r, reply, session, hformat, hparse, haccept⟩ := Sample.exists_accepted
  have hpaired : (Sample.side (Sample.key 1) (Sample.key 2) 0x100).params.Paired Sample.primitives
      (Sample.side (Sample.key 2) (Sample.key 1) 0x200).params :=
    ⟨NoiseParams.own_new _ _ _, NoiseParams.own_new _ _ _, rfl, rfl, rfl⟩
  have hrun : (Handshake.machine Sample.primitives).Run i _
      (i.formatHandshakeInitiation Sample.primitives 148 0 (Sample.key 5)).1 :=
    .single (e := .initiate 148 0 (Sample.key 5)) rfl
  have hprevious
      : (i.formatHandshakeInitiation Sample.primitives 148 0 (Sample.key 5)).1.previous = i.state := by
    rw [formatHandshakeInitiation_eq i (by decide : handshakeInitSz ≤ 148)]
    rfl
  exact ⟨i, msg, packet, r, reply, session, hformat, haccept,
    sessions_paired Sample.lawful hpaired hformat hparse haccept hrun (.inr hprevious)⟩

end Noise
