import VeilVpn.Noise.Lemmas.Confirmation

namespace Noise

variable {P : Primitives}

section Handshake

variable {h h' : Handshake} {e : WireGuardError}

theorem receiveHandshakeInitialization_eq_error {packet : HandshakeInit} {dstLen : Nat}
    {ephemeral : FixedBytes 32} (hlen : handshakeRespSz ≤ dstLen)
    (hreceive : h.receiveHandshakeInitialization P packet dstLen ephemeral = (h', .error e))
    : h' = h := by
  rcases receiveHandshakeInitialization_eq (P := P) h packet dstLen ephemeral with
    ⟨_, heq⟩ | ⟨_, _, _, heq⟩
  . rw [heq] at hreceive
    cases hreceive
    rfl
  . rw [heq, formatHandshakeResponse_eq _ _ hlen] at hreceive
    simp at hreceive

theorem receiveHandshakeResponse_eq_error {packet : HandshakeResponse} {now : Instant}
    (hreceive : h.receiveHandshakeResponse P packet now = (h', .error e))
    : h' = h := by
  cases hawaiting : h.awaitingResponse packet.receiverIdx with
  | none =>
    rw [Handshake.receiveHandshakeResponse, hawaiting] at hreceive
    cases hreceive
    rfl
  | some awaiting =>
    rw [receiveHandshakeResponse_eq hawaiting] at hreceive
    split at hreceive
    . cases hreceive
      rfl
    . simp at hreceive

theorem receiveCookieReply_eq_error {packet : PacketCookieReply}
    (hreceive : h.receiveCookieReply P packet = (h', .error e))
    : h' = h := by
  unfold Handshake.receiveCookieReply at hreceive
  split at hreceive
  . cases hreceive
    rfl
  . split at hreceive
    . cases hreceive
      rfl
    . dsimp only at hreceive
      split at hreceive
      . cases hreceive
        rfl
      . split at hreceive
        . simp at hreceive
        . cases hreceive
          rfl

end Handshake

namespace Tunn

/--
The message is a data packet that the tunnel decrypts.
-/
def Decrypts (P : Primitives) (t : Tunn) (packet : Packet) : Prop :=
  ∃ d s plain s',
    packet = .packetData d
      ∧
    t.sessions (slot d.receiverIdx.toNat) = some s
      ∧
    s.Receives P d plain s'

variable {t t' : Tunn} {dstLen : Nat} {now : Instant} {ephemeral : FixedBytes 32} {e : WireGuardError}

theorem handleHandshakeInit_eq_err {p : HandshakeInit} (hlen : handshakeRespSz ≤ dstLen)
    (h : unwrapResult (t.handleHandshakeInit P p dstLen ephemeral) = (t', .err e))
    : t' = t := by
  unfold handleHandshakeInit at h
  split at h
  . next hreceive =>
    cases h
    rw [receiveHandshakeInitialization_eq_error hlen hreceive]
  . simp [unwrapResult] at h

theorem handleHandshakeResponse_eq_err {p : HandshakeResponse}
    (h : (t.handleHandshakeResponse P p dstLen now).map unwrapResult = some (t', .err e))
    : t' = t := by
  unfold handleHandshakeResponse at h
  split at h
  . next hreceive =>
    cases h
    rw [receiveHandshakeResponse_eq_error hreceive]
  . split at h <;> simp [unwrapResult] at h

theorem handleCookieReply_eq_err {p : PacketCookieReply}
    (h : unwrapResult (t.handleCookieReply P p) = (t', .err e))
    : t' = t := by
  unfold handleCookieReply at h
  split at h
  . next hreceive =>
    cases h
    rw [receiveCookieReply_eq_error hreceive]
  . simp [unwrapResult] at h

theorem validateDecapsulatedPacket_eq_err {plain : Bytes}
    (h : t.validateDecapsulatedPacket plain = (t', .err e))
    : e = .invalidPacket := by
  unfold validateDecapsulatedPacket at h
  split at h
  . simp at h
  . split at h
    . cases h
      rfl
    . split at h
      . cases h
        rfl
      . dsimp only at h
        split at h <;> simp at h

theorem handleData_eq_err {d : PacketData}
    (h : (t.handleData P d dstLen).map unwrapResult = some (t', .err e))
    : t' = t ∨ (e = .invalidPacket ∧ t.Decrypts P (.packetData d)) := by
  unfold handleData at h
  dsimp only at h
  split at h
  . cases h
    exact .inl rfl
  . next s hs =>
    split at h
    . simp at h
    . next hreceive =>
      cases h
      rcases Session.receivePacketData_eq_some hreceive with ⟨rfl, _⟩ | ⟨_, hok, _⟩
      . rw [← hs, Function.update_eq_self]
        exact .inl rfl
      . simp at hok
    . next s' plain hreceive =>
      simp only [Option.map_some, unwrapResult, Option.some.injEq, Prod.mk.injEq] at h
      rcases Session.receivePacketData_eq_some hreceive with ⟨_, _, herror⟩ | ⟨_, hok, hreceives⟩
      . simp at herror
      . exact .inr ⟨validateDecapsulatedPacket_eq_err (Prod.ext rfl h.2), d, s, _, s', rfl, hs,
          hreceives⟩

theorem handleVerifiedPacket_eq_err {packet : Packet} (hlen : handshakeRespSz ≤ dstLen)
    (h : t.handleVerifiedPacket P packet dstLen now ephemeral = some (t', .err e))
    : t' = t ∨ (e = .invalidPacket ∧ t.Decrypts P packet) := by
  cases packet with
  | handshakeInit p =>
    simp only [handleVerifiedPacket, Option.some.injEq] at h
    exact .inl (handleHandshakeInit_eq_err hlen h)
  | handshakeResponse p => exact .inl (handleHandshakeResponse_eq_err h)
  | packetCookieReply p =>
    simp only [handleVerifiedPacket, Option.some.injEq] at h
    exact .inl (handleCookieReply_eq_err h)
  | packetData d => exact handleData_eq_err h

theorem sendQueuedPacket_ne_err (h : t.sendQueuedPacket P dstLen now ephemeral = some (t', .err e))
    : False := by
  unfold sendQueuedPacket at h
  split at h
  . simp at h
  . split at h
    . simp at h
    . simp at h
    . next hnot _ =>
      cases h
      exact hnot _ rfl

end Tunn

namespace RateLimiter

def Counts (rl rl' : RateLimiter) : Prop :=
  ∃ count nonceCtr, rl' = { rl with count, nonceCtr }

variable {rl rl' : RateLimiter}

theorem Counts.refl (rl : RateLimiter) : rl.Counts rl :=
  ⟨rl.count, rl.nonceCtr, rfl⟩

theorem isUnderLoad_counts {load : Bool} (h : rl.isUnderLoad = (rl', load)) : rl.Counts rl' := by
  cases h
  exact ⟨rl.count + 1, rl.nonceCtr, rfl⟩

theorem Counts.formatCookieReply {rl'' : RateLimiter} {idx : UInt32} {cookie : FixedBytes 16}
    {mac1 : Bytes} {dstLen : Nat} {r : Except WireGuardError Bytes} (hrl : rl.Counts rl')
    (h : rl'.formatCookieReply P idx cookie mac1 dstLen = (rl'', r))
    : rl.Counts rl'' := by
  obtain ⟨count, nonceCtr, rfl⟩ := hrl
  unfold RateLimiter.formatCookieReply at h
  split at h
  . cases h
    exact ⟨count, nonceCtr, rfl⟩
  . cases h
    exact ⟨count, nonceCtr + 1, rfl⟩

theorem verifyPacket_eq {srcAddr : Option IpAddr} {src : Bytes} {dstLen : Nat} {now : Instant}
    {r : Except TunnResult Packet} (h : rl.verifyPacket P srcAddr src dstLen now = (rl', r))
    : rl.Counts rl' ∧ ∀ packet, r = .ok packet → parseIncomingPacket src = .ok packet := by
  unfold verifyPacket at h
  split at h
  . cases h
    exact ⟨.refl rl, by simp⟩
  . next hparse =>
    split at h
    . cases h
      exact ⟨.refl rl, by simpa using hparse⟩
    . dsimp only at h
      split at h
      . cases h
        exact ⟨.refl rl, by simp⟩
      . split at h
        . next hload =>
          cases h
          exact ⟨isUnderLoad_counts hload, by simpa using hparse⟩
        . next hload =>
          have hcounts := isUnderLoad_counts hload
          split at h
          . cases h
            exact ⟨hcounts, by simp⟩
          . split at h
            . split at h
              all_goals
                next hformat =>
                cases h
                exact ⟨hcounts.formatCookieReply hformat, by simp⟩
            . cases h
              exact ⟨hcounts, by simpa using hparse⟩

end RateLimiter

namespace Tunn

variable {rl rl' : RateLimiter} {t t' : Tunn} {srcAddr : Option IpAddr} {datagram : Bytes}
  {dstLen : Nat} {now : Instant} {ephemeral : FixedBytes 32} {e : WireGuardError}

/--
A datagram that is rejected leaves the tunnel as it was, except for a data packet that was decrypted
and has no valid IP header.
-/
theorem decapsulate_eq_err (hdst : max 148 datagram.length ≤ dstLen)
    (h : decapsulate P rl t srcAddr datagram dstLen now ephemeral = some (rl', t', .err e))
    (hdecrypts : ¬(e = .invalidPacket
      ∧ ∃ packet, parseIncomingPacket datagram = .ok packet ∧ t.Decrypts P packet))
    : t' = t ∧ rl.Counts rl' := by
  have hlen : handshakeRespSz ≤ dstLen := by
    unfold handshakeRespSz
    omega
  cases decapsulate_cases h with
  | queue _ h => exact (sendQueuedPacket_ne_err h).elim
  | reject _ hverify htunnel => exact ⟨htunnel, (RateLimiter.verifyPacket_eq hverify).1⟩
  | packet packet _ hverify h =>
    obtain ⟨hcounts, hparse⟩ := RateLimiter.verifyPacket_eq hverify
    refine ⟨?_, hcounts⟩
    rcases handleVerifiedPacket_eq_err hlen h with heq | ⟨he, hpacket⟩
    . exact heq
    . exact absurd ⟨he, packet, hparse packet rfl, hpacket⟩ hdecrypts

namespace Sample

open Noise.Sample (primitives key side)

def initiation : Bytes :=
  match (side (key 1) (key 2) 0x100).formatHandshakeInitiation primitives 148 (Duration.fromSecs 1)
      (key 3) with
  | (_, .error _) => []
  | (_, .ok msg) => msg

def limiter : RateLimiter :=
  .new primitives (key 2) 10 (key 5) (.zero 16) 0

def receivesInitiation (rl : RateLimiter) (t : Tunn) : Option (RateLimiter × Tunn × TunnResult) :=
  decapsulate primitives rl t none initiation 148 (Duration.fromSecs 2) (key 4)

end Sample

theorem decapsulate_eq_err_replay
    : ∃ rl t rl',
        (t.sessions 1).isSome = true
          ∧
        Sample.receivesInitiation rl t = some (rl', t, .err .wrongTai64nTimestamp) := by
  have hreplay : (Sample.receivesInitiation Sample.limiter Sample.responder).any (fun (rl, t, _) =>
      (t.sessions 1).isSome && (Sample.receivesInitiation rl t).any fun (_, _, r) =>
        r = .err .wrongTai64nTimestamp) = true := by
    decide +kernel
  simp only [Option.any_eq_true, Bool.and_eq_true, decide_eq_true_eq] at hreplay
  obtain ⟨⟨rl, t, _⟩, _, hsession, ⟨rl', t', r⟩, hreceive, hr⟩ := hreplay
  dsimp only at hr
  subst hr
  have hlen : max 148 Sample.initiation.length ≤ 148 := by decide +kernel
  obtain ⟨rfl, _⟩ := decapsulate_eq_err hlen hreceive (by simp)
  exact ⟨rl, t', rl', hsession, hreceive⟩

end Tunn

end Noise
