import VeilVpn.Noise.Lemmas.Rejection

namespace Noise

variable {P : Primitives}

section Speaker

inductive HandshakeCall where
  | event (e : HandshakeEvent)
  | setStaticPrivate (privateKey publicKey : FixedBytes 32)

/--
A handshake with the messages that it formats as output.
-/
def Handshake.speaker (P : Primitives) : Machine Handshake HandshakeCall Bytes where
  step := fun h c =>
    match c with
    | .event (.initiate dstLen now ephemeralPrivate) =>
      let result := h.formatHandshakeInitiation P dstLen now ephemeralPrivate
      some (result.1, result.2.toOption.toList)
    | .event (.receiveInit packet dstLen ephemeralPrivate) =>
      let result := h.receiveHandshakeInitialization P packet dstLen ephemeralPrivate
      some (result.1, (result.2.toOption.map Prod.fst).toList)
    | .event (.receiveResponse packet now) => some ((h.receiveHandshakeResponse P packet now).1, [])
    | .event (.receiveCookieReply packet) => some ((h.receiveCookieReply P packet).1, [])
    | .event .clearCookie => some (h.clearCookie, [])
    | .event .setExpired => some (h.setExpired, [])
    | .setStaticPrivate privateKey publicKey =>
      (h.setStaticPrivate P privateKey publicKey).map fun h => (h, [])

namespace Handshake

variable (P) in
def mac1 (h : Handshake) (body : Bytes) : FixedBytes 16 :=
  b2sKeyedMac16 P h.params.sendingMac1Key.val body

variable (P) in
def mac2 (h : Handshake) (body : Bytes) : FixedBytes 16 :=
  match h.cookies.writeCookie with
  | some cookie => b2sKeyedMac16 P cookie.val (body ++ (h.mac1 P body).val)
  | none => .zero 16

structure Formats (P : Primitives) (h : Handshake) (packet : Packet) (body msg : Bytes)
    (h' : Handshake) : Prop where
  parse : parseIncomingPacket msg = .ok packet
  sender : RateLimiter.limitedSenderIdx packet = some h'.cookies.index
  msg_eq : msg = body ++ ((h.mac1 P body).val ++ (h.mac2 P body).val)
  lastMac1 : h'.cookies.lastMac1 = some (h.mac1 P body)
  params : h'.params = h.params

variable {h h' : Handshake} {dstLen : Nat} {now : Instant} {ephemeralPrivate : FixedBytes 32}
  {msg : Bytes}

theorem appendMac1AndMac2_macs (h : Handshake) (localIndex : UInt32) (body : Bytes)
    : h.appendMac1AndMac2 P localIndex body
        =
      ({ h with cookies := { h.cookies with index := localIndex, lastMac1 := some (h.mac1 P body) } },
        body ++ ((h.mac1 P body).val ++ (h.mac2 P body).val)) := by
  rw [← List.append_assoc]
  rfl

theorem formats_formatHandshakeInitiation
    (hformat : h.formatHandshakeInitiation P dstLen now ephemeralPrivate = (h', .ok msg))
    : ∃ body, h.Formats P (.handshakeInit
        (initiation P h.params h.incIndex.2 ephemeralPrivate (h.stamper.stamp now))) body msg h' := by
  by_cases hlen : handshakeInitSz ≤ dstLen
  . rw [formatHandshakeInitiation_eq h hlen] at hformat
    dsimp only at hformat
    rw [appendMac1AndMac2_macs] at hformat
    cases hformat
    refine ⟨_, ?_, rfl, rfl, rfl, rfl⟩
    apply parseIncomingPacket_handshakeInit _ ⟨_ ++ _, by simp⟩
  . rw [Handshake.formatHandshakeInitiation, if_pos (Nat.not_le.mp hlen)] at hformat
    simp at hformat

theorem formats_formatHandshakeResponse {received : HandshakeInitReceivedState} {session : Session}
    (hformat : h.formatHandshakeResponse P received dstLen ephemeralPrivate
      = (h', .ok (msg, session)))
    : ∃ body, h.Formats P (.handshakeResponse (response P (received.keys P h.params ephemeralPrivate)
        h.incIndex.2 received.peerIndex ephemeralPrivate)) body msg h' := by
  by_cases hlen : handshakeRespSz ≤ dstLen
  . rw [formatHandshakeResponse_eq h received hlen] at hformat
    dsimp only at hformat
    rw [appendMac1AndMac2_macs] at hformat
    cases hformat
    refine ⟨_, ?_, rfl, rfl, rfl, rfl⟩
    apply parseIncomingPacket_handshakeResponse _ ⟨_ ++ _, by simp⟩
  . rw [Handshake.formatHandshakeResponse, if_pos (Nat.not_le.mp hlen)] at hformat
    simp at hformat

theorem formats_receiveHandshakeInitialization {packet : HandshakeInit} {session : Session}
    (hreceive : h.receiveHandshakeInitialization P packet dstLen ephemeralPrivate
      = (h', .ok (msg, session)))
    : ∃ response body, h.Formats P (.handshakeResponse response) body msg h' := by
  rcases receiveHandshakeInitialization_eq (P := P) h packet dstLen ephemeralPrivate with
    ⟨_, heq⟩ | ⟨_, _, _, heq⟩
  . rw [heq] at hreceive
    simp at hreceive
  . rw [heq] at hreceive
    obtain ⟨body, hformats⟩ := formats_formatHandshakeResponse hreceive
    exact ⟨_, body, hformats.parse, hformats.sender, hformats.msg_eq, hformats.lastMac1,
      hformats.params⟩

/--
`h` and `h'` speak to the same peer, and have sent the same message last.
-/
structure Silent (h h' : Handshake) : Prop where
  peer : h'.params.peerStaticPublic = h.params.peerStaticPublic
  mac1Key : h'.params.sendingMac1Key = h.params.sendingMac1Key
  lastMac1 : h'.cookies.lastMac1 = h.cookies.lastMac1
  index : h'.cookies.index = h.cookies.index

theorem Silent.refl (h : Handshake) : h.Silent h :=
  ⟨rfl, rfl, rfl, rfl⟩

theorem Silent.trans {h₁ h₂ h₃ : Handshake} (h : h₁.Silent h₂) (h' : h₂.Silent h₃)
    : h₁.Silent h₃ where
  peer := h'.peer.trans h.peer
  mac1Key := h'.mac1Key.trans h.mac1Key
  lastMac1 := h'.lastMac1.trans h.lastMac1
  index := h'.index.trans h.index

theorem silent_formatHandshakeInitiation {e : WireGuardError}
    (hformat : h.formatHandshakeInitiation P dstLen now ephemeralPrivate = (h', .error e))
    : h.Silent h' := by
  by_cases hlen : handshakeInitSz ≤ dstLen
  . rw [formatHandshakeInitiation_eq h hlen] at hformat
    simp at hformat
  . rw [Handshake.formatHandshakeInitiation, if_pos (Nat.not_le.mp hlen)] at hformat
    cases hformat
    exact .refl h

theorem silent_receiveHandshakeInitialization {packet : HandshakeInit} {e : WireGuardError}
    (hreceive : h.receiveHandshakeInitialization P packet dstLen ephemeralPrivate = (h', .error e))
    : h.Silent h' := by
  rcases receiveHandshakeInitialization_eq (P := P) h packet dstLen ephemeralPrivate with
    ⟨_, heq⟩ | ⟨_, _, _, heq⟩
  . rw [heq] at hreceive
    cases hreceive
    exact .refl h
  . rw [heq] at hreceive
    by_cases hlen : handshakeRespSz ≤ dstLen
    . rw [formatHandshakeResponse_eq _ _ hlen] at hreceive
      simp at hreceive
    . rw [Handshake.formatHandshakeResponse, if_pos (Nat.not_le.mp hlen)] at hreceive
      cases hreceive
      exact ⟨rfl, rfl, rfl, rfl⟩

theorem silent_receiveHandshakeResponse (h : Handshake) (packet : HandshakeResponse) (now : Instant)
    : h.Silent (h.receiveHandshakeResponse P packet now).1 := by
  cases hawaiting : h.awaitingResponse packet.receiverIdx with
  | none =>
    rw [Handshake.receiveHandshakeResponse, hawaiting]
    exact .refl h
  | some awaiting =>
    rw [receiveHandshakeResponse_eq hawaiting]
    split
    . exact .refl h
    . dsimp only
      split
      . exact ⟨rfl, rfl, rfl, rfl⟩
      . exact ⟨rfl, rfl, rfl, rfl⟩

theorem silent_receiveCookieReply (h : Handshake) (packet : PacketCookieReply)
    : h.Silent (h.receiveCookieReply P packet).1 := by
  unfold Handshake.receiveCookieReply
  split
  . exact .refl h
  . split
    . exact .refl h
    . dsimp only
      split
      . exact .refl h
      . split
        . exact ⟨rfl, rfl, rfl, rfl⟩
        . exact .refl h

theorem silent_setStaticPrivate {privateKey publicKey : FixedBytes 32}
    (hset : h.setStaticPrivate P privateKey publicKey = some h')
    : h.Silent h' := by
  unfold Handshake.setStaticPrivate at hset
  split at hset
  . simp at hset
  . next params hparams =>
    cases hset
    unfold NoiseParams.setStaticPrivate at hparams
    split at hparams
    . simp at hparams
    . cases hparams
      exact ⟨rfl, rfl, rfl, rfl⟩

theorem speaker_step {c : HandshakeCall} {os : List Bytes}
    (hstep : (speaker P).step h c = some (h', os))
    : (os = [] ∧ h.Silent h') ∨ ∃ packet body msg, os = [msg] ∧ h.Formats P packet body msg h' := by
  cases c with
  | event e =>
    cases e with
    | initiate dstLen now ephemeralPrivate =>
      cases hformat : h.formatHandshakeInitiation P dstLen now ephemeralPrivate with
      | mk h₁ r =>
        simp only [speaker, hformat, Option.some.injEq, Prod.mk.injEq] at hstep
        obtain ⟨rfl, rfl⟩ := hstep
        cases r with
        | error e => exact .inl ⟨rfl, silent_formatHandshakeInitiation hformat⟩
        | ok msg =>
          obtain ⟨body, hformats⟩ := formats_formatHandshakeInitiation hformat
          exact .inr ⟨_, body, msg, rfl, hformats⟩
    | receiveInit packet dstLen ephemeralPrivate =>
      cases hreceive : h.receiveHandshakeInitialization P packet dstLen ephemeralPrivate with
      | mk h₁ r =>
        simp only [speaker, hreceive, Option.some.injEq, Prod.mk.injEq] at hstep
        obtain ⟨rfl, rfl⟩ := hstep
        cases r with
        | error e => exact .inl ⟨rfl, silent_receiveHandshakeInitialization hreceive⟩
        | ok result =>
          obtain ⟨_, body, hformats⟩ := formats_receiveHandshakeInitialization hreceive
          exact .inr ⟨_, body, result.1, rfl, hformats⟩
    | receiveResponse packet now =>
      cases hstep
      exact .inl ⟨rfl, silent_receiveHandshakeResponse h packet now⟩
    | receiveCookieReply packet =>
      cases hstep
      exact .inl ⟨rfl, silent_receiveCookieReply h packet⟩
    | clearCookie =>
      cases hstep
      exact .inl ⟨rfl, rfl, rfl, rfl, rfl⟩
    | setExpired =>
      cases hstep
      exact .inl ⟨rfl, rfl, rfl, rfl, rfl⟩
  | setStaticPrivate privateKey publicKey =>
    simp only [speaker, Option.map_eq_some_iff, Prod.mk.injEq] at hstep
    obtain ⟨h₁, hset, rfl, rfl⟩ := hstep
    exact .inl ⟨rfl, silent_setStaticPrivate hset⟩

variable (P) in
structure Addresses (h : Handshake) (publicKey : FixedBytes 32) : Prop where
  peer : h.params.peerStaticPublic = publicKey
  mac1Key : h.params.sendingMac1Key = b2sHash P labelMac1 publicKey.val

variable {publicKey : FixedBytes 32} {hs : List (Transition Handshake HandshakeCall Bytes)}

theorem addresses_new (staticPrivate staticPublic publicKey : FixedBytes 32) (index : UInt32)
    (presharedKey : Option (FixedBytes 32)) (stamper : TimeStamper)
    : (Handshake.new P staticPrivate staticPublic publicKey index presharedKey stamper).Addresses P
        publicKey :=
  ⟨rfl, rfl⟩

theorem Addresses.step {c : HandshakeCall} {os : List Bytes} (h₁ : h.Addresses P publicKey)
    (hstep : (speaker P).step h c = some (h', os))
    : h'.Addresses P publicKey := by
  rcases speaker_step hstep with ⟨_, hsilent⟩ | ⟨_, _, _, _, hformats⟩
  . exact ⟨hsilent.peer.trans h₁.peer, hsilent.mac1Key.trans h₁.mac1Key⟩
  . have hparams := hformats.params
    exact ⟨by rw [hparams, h₁.peer], by rw [hparams, h₁.mac1Key]⟩

theorem Addresses.run (h₁ : h.Addresses P publicKey) (hrun : (speaker P).Run h hs h')
    : h'.Addresses P publicKey :=
  hrun.invariant (·.Addresses P publicKey) h₁ fun _ _ _ _ h hstep => h.step hstep

theorem silent_of_run (hrun : (speaker P).Run h hs h') (hquiet : Machine.outputs hs = [])
    : h.Silent h' := by
  induction hrun with
  | nil => exact .refl h
  | snoc _ hstep ih =>
    rw [Machine.outputs_append, Machine.outputs_singleton, List.append_eq_nil_iff] at hquiet
    rcases speaker_step hstep with ⟨_, hsilent⟩ | ⟨_, _, _, hos, _⟩
    . exact (ih hquiet.1).trans hsilent
    . rw [hos] at hquiet
      simp at hquiet

end Handshake

end Speaker

section Limiter

inductive RateLimiterEvent where
  | verifyPacket (srcAddr : Option IpAddr) (src : Bytes) (dstLen : Nat) (now : Instant)
  | resetCount (now : Instant)

namespace RateLimiter

def machine (P : Primitives) : Machine RateLimiter RateLimiterEvent (Except TunnResult Packet) where
  step := fun rl e =>
    match e with
    | .verifyPacket srcAddr src dstLen now =>
      let result := rl.verifyPacket P srcAddr src dstLen now
      some (result.1, [result.2])
    | .resetCount now => some (rl.resetCount now, [])

variable {rl rl' rl₀ : RateLimiter} {publicKey : FixedBytes 32}
  {rs : List (Transition RateLimiter RateLimiterEvent (Except TunnResult Packet))}

structure SameKeys (rl rl' : RateLimiter) : Prop where
  secretKey : rl'.secretKey = rl.secretKey
  startTime : rl'.startTime = rl.startTime
  mac1Key : rl'.mac1Key = rl.mac1Key
  cookieKey : rl'.cookieKey = rl.cookieKey

theorem SameKeys.refl (rl : RateLimiter) : rl.SameKeys rl :=
  ⟨rfl, rfl, rfl, rfl⟩

theorem SameKeys.trans (h : rl₀.SameKeys rl) (h' : rl.SameKeys rl') : rl₀.SameKeys rl' where
  secretKey := h'.secretKey.trans h.secretKey
  startTime := h'.startTime.trans h.startTime
  mac1Key := h'.mac1Key.trans h.mac1Key
  cookieKey := h'.cookieKey.trans h.cookieKey

theorem Counts.sameKeys (h : rl.Counts rl') : rl.SameKeys rl' := by
  obtain ⟨_, _, rfl⟩ := h
  exact ⟨rfl, rfl, rfl, rfl⟩

theorem sameKeys_of_step {e : RateLimiterEvent} {os : List (Except TunnResult Packet)}
    (hstep : (machine P).step rl e = some (rl', os))
    : rl.SameKeys rl' := by
  cases e with
  | verifyPacket srcAddr src dstLen now =>
    cases hstep
    exact (verifyPacket_eq rfl).1.sameKeys
  | resetCount now =>
    cases hstep
    unfold resetCount
    split
    . exact ⟨rfl, rfl, rfl, rfl⟩
    . exact .refl rl

theorem sameKeys_of_run (hrun : (machine P).Run rl rs rl') : rl.SameKeys rl' :=
  hrun.invariant (rl.SameKeys ·) (.refl rl) fun _ _ _ _ h hstep => h.trans (sameKeys_of_step hstep)

variable (P) in
/--
The rate limiter is the one of the side with this public key.
-/
structure Guards (rl : RateLimiter) (publicKey : FixedBytes 32) : Prop where
  mac1Key : rl.mac1Key = b2sHash P labelMac1 publicKey.val
  cookieKey : rl.cookieKey = b2sHash P labelCookie publicKey.val

theorem guards_new (publicKey : FixedBytes 32) (limit : UInt64) (nonceKey : FixedBytes 32)
    (secretKey : FixedBytes 16) (now : Instant)
    : (RateLimiter.new P publicKey limit nonceKey secretKey now).Guards P publicKey :=
  ⟨rfl, rfl⟩

theorem Guards.of_sameKeys (h : rl.Guards P publicKey) (hsame : rl.SameKeys rl')
    : rl'.Guards P publicKey :=
  ⟨hsame.mac1Key.trans h.mac1Key, hsame.cookieKey.trans h.cookieKey⟩

def epoch (rl : RateLimiter) (now : Instant) : Nat :=
  (now.durationSince rl.startTime).asSecs / cookieRefresh

theorem SameKeys.currentCookie (h : rl.SameKeys rl') (addr : IpAddr) {now now' : Instant}
    (hepoch : rl.epoch now' = rl.epoch now)
    : rl'.currentCookie P addr now' = rl.currentCookie P addr now := by
  unfold epoch at hepoch
  unfold RateLimiter.currentCookie
  rw [h.secretKey, h.startTime]
  dsimp only
  rw [hepoch]

variable {h h' : Handshake} {packet : Packet} {body msg : Bytes}

theorem formatCookieReply_eq_ok {idx : UInt32} {cookie : FixedBytes 16} {mac1 reply : Bytes}
    {dstLen : Nat} (hformat : rl.formatCookieReply P idx cookie mac1 dstLen = (rl', .ok reply))
    : ∃ encryptedCookie : FixedBytes 32,
        encryptedCookie.val
          =
        P.xChacha20Poly1305Encrypt rl.cookieKey (rl.nonce P).2 cookie.val mac1
          ∧
        parseIncomingPacket reply = .ok (.packetCookieReply ⟨idx, (rl.nonce P).2, encryptedCookie⟩) := by
  unfold formatCookieReply at hformat
  split at hformat
  . simp at hformat
  . cases hformat
    refine ⟨⟨_, ?_⟩, rfl, ?_⟩
    . rw [P.length_encrypt, FixedBytes.length_val]
    . exact parseIncomingPacket_packetCookieReply ⟨idx, (rl.nonce P).2, ⟨_, _⟩⟩

theorem verifyPacket_of_formats (hformats : h.Formats P packet body msg h')
    (hkey : rl.mac1Key = h.params.sendingMac1Key) (srcAddr : Option IpAddr) (dstLen : Nat)
    (now : Instant)
    : rl.verifyPacket P srcAddr msg dstLen now
        =
      match rl.isUnderLoad with
      | (rl, false) => (rl, .ok packet)
      | (rl, true) =>
        match srcAddr with
        | none => (rl, .error (.err .underLoad))
        | some addr =>
          let cookie := rl.currentCookie P addr now
          if (b2sKeyedMac16 P cookie.val (body ++ (h.mac1 P body).val)).val ≠ (h.mac2 P body).val then
            match rl.formatCookieReply P h'.cookies.index cookie (h.mac1 P body).val dstLen with
            | (rl, .error e) => (rl, .error (.err e))
            | (rl, .ok cookiePacket) => (rl, .error (.writeToNetwork cookiePacket))
          else
            (rl, .ok packet) := by
  have hlen : msg.length - 32 = body.length := by
    rw [hformats.msg_eq]
    simp
  have hbody : msg.take body.length = body := by
    rw [hformats.msg_eq, List.take_left]
  have hmacs : msg.drop body.length = (h.mac1 P body).val ++ (h.mac2 P body).val := by
    rw [hformats.msg_eq, List.drop_left]
  have hmac1 : ((h.mac1 P body).val ++ (h.mac2 P body).val).take 16 = (h.mac1 P body).val :=
    List.take_left' (FixedBytes.length_val _)
  have hmac2 : ((h.mac1 P body).val ++ (h.mac2 P body).val).drop 16 = (h.mac2 P body).val :=
    List.drop_left' (FixedBytes.length_val _)
  have hright : (b2sKeyedMac16 P rl.mac1Key.val body).val = (h.mac1 P body).val := by
    rw [hkey]
    rfl
  unfold verifyPacket
  rw [hformats.parse]
  dsimp only
  rw [hformats.sender]
  dsimp only
  rw [hlen, hbody, hmacs, hmac1, hmac2, if_neg (by rw [hright]; simp)]
  rfl

theorem verifyPacket_ne_invalidMac (hformats : h.Formats P packet body msg h')
    (hkey : rl.mac1Key = h.params.sendingMac1Key) (srcAddr : Option IpAddr) (dstLen : Nat)
    (now : Instant)
    : (rl.verifyPacket P srcAddr msg dstLen now).2 ≠ .error (.err .invalidMac) := by
  rw [verifyPacket_of_formats hformats hkey]
  split
  . simp
  . split
    . simp
    . dsimp only
      split
      . split
        . next hformat =>
          unfold formatCookieReply at hformat
          split at hformat
          . cases hformat
            simp
          . cases hformat
        . simp
      . simp

theorem verifyPacket_eq_writeToNetwork (hformats : h.Formats P packet body msg h')
    (hkey : rl.mac1Key = h.params.sendingMac1Key) {addr : IpAddr} {dstLen : Nat} {now : Instant}
    {reply : Bytes}
    (hreply : rl.verifyPacket P (some addr) msg dstLen now = (rl', .error (.writeToNetwork reply)))
    : ∃ nonce, ∃ encryptedCookie : FixedBytes 32,
        encryptedCookie.val
          =
        P.xChacha20Poly1305Encrypt rl.cookieKey nonce (rl.currentCookie P addr now).val
          (h.mac1 P body).val
          ∧
        parseIncomingPacket reply
          = .ok (.packetCookieReply ⟨h'.cookies.index, nonce, encryptedCookie⟩) := by
  rw [verifyPacket_of_formats hformats hkey] at hreply
  split at hreply
  . simp at hreply
  . next hload =>
    obtain ⟨_, _, rfl⟩ := isUnderLoad_counts hload
    dsimp only at hreply
    split at hreply
    . split at hreply
      . simp at hreply
      . next hformat =>
        cases hreply
        obtain ⟨encryptedCookie, hencrypted, hparse⟩ := formatCookieReply_eq_ok hformat
        exact ⟨_, encryptedCookie, hencrypted, hparse⟩
    . simp at hreply

theorem verifyPacket_of_cookie (hformats : h.Formats P packet body msg h')
    (hkey : rl.mac1Key = h.params.sendingMac1Key) {addr : IpAddr} {now : Instant}
    (hcookie : h.cookies.writeCookie = some (rl.currentCookie P addr now)) (dstLen : Nat)
    : (rl.verifyPacket P (some addr) msg dstLen now).2 = .ok packet := by
  rw [verifyPacket_of_formats hformats hkey]
  split
  . rfl
  . next hload =>
    obtain ⟨_, _, rfl⟩ := isUnderLoad_counts hload
    have hmac2 : h.mac2 P body
        = b2sKeyedMac16 P (rl.currentCookie P addr now).val (body ++ (h.mac1 P body).val) := by
      unfold Handshake.mac2
      rw [hcookie]
    dsimp only
    rw [if_neg]
    rw [hmac2]
    exact fun hne => hne rfl

end RateLimiter

end Limiter

/--
The format of the messages: the parser undoes the formatters, in bounds and without ambiguity, and
the MACs stand where the rate limiter looks for them.
-/
structure WireFormat (P : Primitives) : Prop where
  handshakeInit : ∀ (h : Handshake) dstLen now ephemeralPrivate, handshakeInitSz ≤ dstLen →
    ∃ h' msg,
      h.formatHandshakeInitiation P dstLen now ephemeralPrivate = (h', .ok msg)
        ∧
      parseIncomingPacket msg = .ok (.handshakeInit
        (initiation P h.params h.incIndex.2 ephemeralPrivate (h.stamper.stamp now)))
  handshakeResponse : ∀ (h : Handshake) received dstLen ephemeralPrivate, handshakeRespSz ≤ dstLen →
    ∃ h' msg session,
      h.formatHandshakeResponse P received dstLen ephemeralPrivate = (h', .ok (msg, session))
        ∧
      parseIncomingPacket msg = .ok (.handshakeResponse (response P
        (received.keys P h.params ephemeralPrivate) h.incIndex.2 received.peerIndex ephemeralPrivate))
  cookieReply : ∀ (rl : RateLimiter) idx cookie mac1 dstLen, cookieReplySz ≤ dstLen →
    ∃ rl' msg, ∃ encryptedCookie : FixedBytes 32,
      rl.formatCookieReply P idx cookie mac1 dstLen = (rl', .ok msg)
        ∧
      encryptedCookie.val = P.xChacha20Poly1305Encrypt rl.cookieKey (rl.nonce P).2 cookie.val mac1
        ∧
      parseIncomingPacket msg = .ok (.packetCookieReply ⟨idx, (rl.nonce P).2, encryptedCookie⟩)
  packetData : ∀ (s : Session) src dstLen, src.length + dataOverheadSz ≤ dstLen →
    ∃ s' msg,
      s.formatPacketData P src dstLen = some (s', msg)
        ∧
      parseIncomingPacket msg = .ok (.packetData ⟨s.sendingIndex, s.sendingKeyCounter,
        P.chacha20Poly1305Seal s.sender (counterNonce s.sendingKeyCounter) src []⟩)
  mac1 : ∀ staticPrivate staticPublic publicKey index presharedKey stamper hs h c h' msg,
    (Handshake.speaker P).Run
        (.new P staticPrivate staticPublic publicKey index presharedKey stamper) hs h →
    (Handshake.speaker P).step h c = some (h', [msg]) →
    ∀ limit nonceKey secretKey start rs rl,
      (RateLimiter.machine P).Run (.new P publicKey limit nonceKey secretKey start) rs rl →
      ∀ srcAddr dstLen now,
        (rl.verifyPacket P srcAddr msg dstLen now).2 ≠ .error (.err .invalidMac)
  inBounds : ∀ src, parseIncomingPacketIndexed src = some (parseIncomingPacket src)
  oneKind : ∀ src (kind : PacketKind),
    kind.Matches src
      ↔
    ∃ packet, parseIncomingPacket src = .ok packet ∧ packet.kind = kind
  exclusive : ∀ src (kind kind' : PacketKind), kind.Matches src → kind'.Matches src → kind = kind'

theorem wireFormat (P : Primitives) : WireFormat P where
  handshakeInit := by
    intro h dstLen now ephemeralPrivate hlen
    have hformat := formatHandshakeInitiation_eq (P := P) h hlen now ephemeralPrivate
    obtain ⟨_, hformats⟩ := Handshake.formats_formatHandshakeInitiation hformat
    exact ⟨_, _, hformat, hformats.parse⟩
  handshakeResponse := by
    intro h received dstLen ephemeralPrivate hlen
    have hformat := formatHandshakeResponse_eq (P := P) h received hlen ephemeralPrivate
    obtain ⟨_, hformats⟩ := Handshake.formats_formatHandshakeResponse hformat
    exact ⟨_, _, _, hformat, hformats.parse⟩
  cookieReply := by
    intro rl idx cookie mac1 dstLen hlen
    cases hformat : rl.formatCookieReply P idx cookie mac1 dstLen with
    | mk rl' r =>
      cases r with
      | error e =>
        rw [RateLimiter.formatCookieReply, if_neg (Nat.not_lt.mpr hlen)] at hformat
        cases hformat
      | ok msg =>
        obtain ⟨encryptedCookie, hencrypted, hparse⟩ := RateLimiter.formatCookieReply_eq_ok hformat
        exact ⟨rl', msg, encryptedCookie, rfl, hencrypted, hparse⟩
  packetData := by
    intro s src dstLen hlen
    refine ⟨_, s.sealPacket P src, if_neg (Nat.not_lt.mpr hlen), ?_⟩
    apply parseIncomingPacket_packetData ⟨_, _, _⟩
    rw [P.length_seal]
    omega
  mac1 := by
    intro staticPrivate staticPublic publicKey index presharedKey stamper hs h c h' msg hrun hstep
      limit nonceKey secretKey start rs rl hlimiter srcAddr dstLen now
    have haddresses := (Handshake.addresses_new staticPrivate staticPublic publicKey index presharedKey
      stamper).run hrun
    have hguards := (RateLimiter.guards_new publicKey limit nonceKey secretKey start).of_sameKeys
      (RateLimiter.sameKeys_of_run hlimiter)
    have hkey : rl.mac1Key = h.params.sendingMac1Key := by
      rw [hguards.mac1Key, haddresses.mac1Key]
    rcases Handshake.speaker_step hstep with ⟨hos, _⟩ | ⟨_, _, _, hos, hformats⟩
    . simp at hos
    . cases hos
      exact RateLimiter.verifyPacket_ne_invalidMac hformats hkey srcAddr dstLen now
  inBounds := parseIncomingPacketIndexed_eq
  oneKind := by
    intro src kind
    constructor
    . exact PacketKind.Matches.parse
    . rintro ⟨packet, hparse, rfl⟩
      exact matches_of_parseIncomingPacket hparse
  exclusive := by
    intro src kind kind' h h'
    exact h.unique h'

end Noise
