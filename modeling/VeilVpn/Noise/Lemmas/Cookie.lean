import VeilVpn.Noise.Lemmas.Macs

namespace Noise

variable {P : Primitives}

theorem receiveCookieReply_of_encrypt
    (hP : ∀ key nonce plain aad,
      P.xChacha20Poly1305Decrypt key nonce (P.xChacha20Poly1305Encrypt key nonce plain aad) aad
        = some plain)
    {h : Handshake} {publicKey : FixedBytes 32} (haddresses : h.Addresses P publicKey)
    {mac1 cookie : FixedBytes 16} (hmac1 : h.cookies.lastMac1 = some mac1) (packet : PacketCookieReply)
    (hindex : packet.receiverIdx = h.cookies.index)
    (hencrypted : packet.encryptedCookie.val
      = P.xChacha20Poly1305Encrypt (b2sHash P labelCookie publicKey.val) packet.nonce cookie.val mac1.val)
    : h.receiveCookieReply P packet
        =
      ({ h with cookies := { h.cookies with writeCookie := some cookie } }, .ok ()) := by
  unfold Handshake.receiveCookieReply
  rw [hmac1]
  dsimp only
  rw [if_neg (by simp [hindex]), haddresses.peer, hencrypted, hP]
  dsimp only
  rw [dif_pos cookie.length_val]
  rfl

/--
The cookie that a rate limiter under load hands out opens the way for all later messages, until the
next epoch begins.
-/
theorem cookie_round_trip
    (hP : ∀ key nonce plain aad,
      P.xChacha20Poly1305Decrypt key nonce (P.xChacha20Poly1305Encrypt key nonce plain aad) aad
        = some plain)
    {staticPrivate staticPublic publicKey nonceKey : FixedBytes 32} {index : UInt32}
    {presharedKey : Option (FixedBytes 32)} {stamper : TimeStamper} {limit : UInt64}
    {secretKey : FixedBytes 16} {start : Instant}
    {hs₀ hs₁ : List (Transition Handshake HandshakeCall Bytes)} {h₀ h₁ h₂ : Handshake}
    {c : HandshakeCall} {msg : Bytes}
    {rs : List (Transition RateLimiter RateLimiterEvent (Except TunnResult Packet))}
    {rl rl' : RateLimiter} {addr : IpAddr} {dstLen : Nat} {now : Instant} {reply : Bytes}
    (hrun : (Handshake.speaker P).Run
      (.new P staticPrivate staticPublic publicKey index presharedKey stamper) hs₀ h₀)
    (hlimiter : (RateLimiter.machine P).Run (.new P publicKey limit nonceKey secretKey start) rs rl)
    (hstep : (Handshake.speaker P).step h₀ c = some (h₁, [msg]))
    -- The message stays the latest one until the reply arrives
    (hquiet : (Handshake.speaker P).Run h₁ hs₁ h₂ ∧ Machine.outputs hs₁ = [])
    (hreply : rl.verifyPacket P (some addr) msg dstLen now = (rl', .error (.writeToNetwork reply)))
    : ∃ packet cookie h₃,
        parseIncomingPacket reply = .ok (.packetCookieReply packet)
          ∧
        h₂.receiveCookieReply P packet = (h₃, .ok ())
          ∧
        h₃.cookies.writeCookie = some cookie
          ∧
        ∀ hs₂ h₄ c' h₅ msg' rs' rl'' dstLen' now',
          (Handshake.speaker P).Run h₃ hs₂ h₄ → h₄.cookies.writeCookie = some cookie →
          (Handshake.speaker P).step h₄ c' = some (h₅, [msg']) →
          (RateLimiter.machine P).Run rl' rs' rl'' → rl.epoch now' = rl.epoch now →
          ∃ packet', parseIncomingPacket msg' = .ok packet'
            ∧ (rl''.verifyPacket P (some addr) msg' dstLen' now').2 = .ok packet' := by
  have haddresses := (Handshake.addresses_new staticPrivate staticPublic publicKey index presharedKey
    stamper).run hrun
  have hguards := (RateLimiter.guards_new publicKey limit nonceKey secretKey start).of_sameKeys
    (RateLimiter.sameKeys_of_run hlimiter)
  rcases Handshake.speaker_step hstep with ⟨hos, _⟩ | ⟨sent, body, _, hos, hformats⟩
  . simp at hos
  . cases hos
    have haddresses₂ := (haddresses.step hstep).run hquiet.1
    have hsilent := Handshake.silent_of_run hquiet.1 hquiet.2
    have hkey : rl.mac1Key = h₀.params.sendingMac1Key := by
      rw [hguards.mac1Key, haddresses.mac1Key]
    obtain ⟨nonce, encryptedCookie, hencrypted, hparse⟩ :=
      RateLimiter.verifyPacket_eq_writeToNetwork hformats hkey hreply
    rw [hguards.cookieKey] at hencrypted
    have hreceive := receiveCookieReply_of_encrypt hP haddresses₂
      (hsilent.lastMac1.trans hformats.lastMac1) ⟨h₁.cookies.index, nonce, encryptedCookie⟩
      hsilent.index.symm hencrypted
    refine ⟨_, rl.currentCookie P addr now, _, hparse, hreceive, rfl, ?_⟩
    intro hs₂ h₄ c' h₅ msg' rs' rl'' dstLen' now' hrun' hcookie hstep' hlimiter' hepoch
    have haddresses₃ : Handshake.Addresses P { h₂ with
        cookies := { h₂.cookies with writeCookie := some (rl.currentCookie P addr now) } } publicKey :=
      ⟨haddresses₂.peer, haddresses₂.mac1Key⟩
    have haddresses₄ := haddresses₃.run hrun'
    have hsame : rl.SameKeys rl'' :=
      (RateLimiter.verifyPacket_eq hreply).1.sameKeys.trans (RateLimiter.sameKeys_of_run hlimiter')
    have hkey' : rl''.mac1Key = h₄.params.sendingMac1Key := by
      rw [hsame.mac1Key, hguards.mac1Key, haddresses₄.mac1Key]
    rw [← hsame.currentCookie addr hepoch] at hcookie
    rcases Handshake.speaker_step hstep' with ⟨hos', _⟩ | ⟨packet', _, _, hos', hformats'⟩
    . simp at hos'
    . cases hos'
      exact ⟨packet', hformats'.parse,
        RateLimiter.verifyPacket_of_cookie hformats' hkey' hcookie dstLen'⟩

namespace Sample

def cookiePrimitives : Primitives :=
  { primitives with xChacha20Poly1305Decrypt := fun _ _ data _ => some (data.take (data.length - 16)) }

theorem decrypt_encrypt (key : FixedBytes 32) (nonce : FixedBytes 24) (plain aad : Bytes)
    : cookiePrimitives.xChacha20Poly1305Decrypt key nonce
        (cookiePrimitives.xChacha20Poly1305Encrypt key nonce plain aad) aad
        =
      some plain := by
  simp [cookiePrimitives, primitives]

def initiator : Handshake :=
  .new cookiePrimitives (key 1) (key 1) (key 2) 0x100 none ⟨0, 0⟩

def initiates : HandshakeCall :=
  .event (.initiate 148 0 (key 3))

def loaded : RateLimiter :=
  .new cookiePrimitives (key 2) 0 (key 5) (.replicate 16 7) 0

def client : IpAddr := .v4 (.new 10 0 0 1)

def isReply : Except TunnResult Packet → Bool
  | .error (.writeToNetwork _) => true
  | _ => false

theorem exists_step_initiates (h : Handshake)
    : ∃ h' msg, (Handshake.speaker cookiePrimitives).step h initiates = some (h', [msg]) := by
  obtain ⟨h', msg, hformat⟩
      : ∃ h' msg, h.formatHandshakeInitiation cookiePrimitives 148 0 (key 3) = (h', .ok msg) :=
    ⟨_, _, formatHandshakeInitiation_eq h (Nat.le_refl 148) 0 (key 3)⟩
  refine ⟨h', msg, ?_⟩
  unfold Handshake.speaker initiates
  dsimp only
  rw [hformat]
  rfl

theorem exists_reply
    : ∃ h' msg rl' reply,
        (Handshake.speaker cookiePrimitives).step initiator initiates = some (h', [msg])
          ∧
        loaded.verifyPacket cookiePrimitives (some client) msg 64 0
          = (rl', .error (.writeToNetwork reply)) := by
  have htest : ((Handshake.speaker cookiePrimitives).step initiator initiates).all (fun r =>
      r.2.all fun msg => isReply (loaded.verifyPacket cookiePrimitives (some client) msg 64 0).2)
      = true := by
    decide +kernel
  obtain ⟨h', msg, hstep⟩ := exists_step_initiates initiator
  rw [hstep] at htest
  simp only [Option.all_some, List.all_cons, List.all_nil, Bool.and_true] at htest
  cases hverify : loaded.verifyPacket cookiePrimitives (some client) msg 64 0 with
  | mk rl' r =>
    rw [hverify] at htest
    unfold isReply at htest
    split at htest
    . next reply heq =>
      dsimp only at heq
      rw [heq] at hverify
      exact ⟨h', msg, rl', reply, hstep, hverify⟩
    . simp at htest

end Sample

theorem cookie_round_trip_initiations
    : ∃ h₁ msg rl' reply packet h₃ h₅ msg' packet',
        (Handshake.speaker Sample.cookiePrimitives).step Sample.initiator Sample.initiates
          = some (h₁, [msg])
          ∧
        Sample.loaded.verifyPacket Sample.cookiePrimitives (some Sample.client) msg 64 0
          = (rl', .error (.writeToNetwork reply))
          ∧
        h₁.receiveCookieReply Sample.cookiePrimitives packet = (h₃, .ok ())
          ∧
        (Handshake.speaker Sample.cookiePrimitives).step h₃ Sample.initiates = some (h₅, [msg'])
          ∧
        (rl'.verifyPacket Sample.cookiePrimitives (some Sample.client) msg' 64 0).2 = .ok packet' := by
  obtain ⟨h₁, msg, rl', reply, hstep, hreply⟩ := Sample.exists_reply
  obtain ⟨packet, cookie, h₃, _, hreceive, hcookie, haccepts⟩ :=
    cookie_round_trip Sample.decrypt_encrypt .nil .nil hstep ⟨.nil, rfl⟩ hreply
  obtain ⟨h₅, msg', hstep'⟩ := Sample.exists_step_initiates h₃
  obtain ⟨packet', _, haccept⟩ := haccepts [] h₃ _ h₅ msg' [] rl' 64 0 .nil hcookie hstep' .nil rfl
  exact ⟨h₁, msg, rl', reply, packet, h₃, h₅, msg', packet', hstep, hreply, hreceive, hstep', haccept⟩

end Noise
