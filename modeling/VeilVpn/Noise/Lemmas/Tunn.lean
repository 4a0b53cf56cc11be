import VeilVpn.Noise.Impl.Tunn

namespace Noise

def TunnResult.packet : TunnResult → Option Bytes
  | .writeToTunnelV4 packet _ => some packet
  | .writeToTunnelV6 packet _ => some packet
  | _ => none

theorem RateLimiter.verifyPacket_packet {P : Primitives} {rl rl' : RateLimiter}
    {srcAddr : Option IpAddr} {src : Bytes} {dstLen : Nat} {now : Instant} {r : TunnResult}
    (h : rl.verifyPacket P srcAddr src dstLen now = (rl', .error r))
    : r.packet = none := by
  unfold verifyPacket at h
  split at h
  . cases h
    rfl
  . split at h
    . simp at h
    . dsimp only at h
      split at h
      . cases h
        rfl
      . split at h
        . simp at h
        . split at h
          . cases h
            rfl
          . split at h
            . split at h <;>
              . cases h
                rfl
            . simp at h

namespace Tunn

theorem dstAddress_v4 {first : UInt8} {rest : Bytes} (hversion : first >>> 4 = 4)
    (hlen : ipv4MinHeaderSize ≤ (first :: rest).length)
    : dstAddress (first :: rest) = some (.v4 (.slice (first :: rest) 16 4 hlen)) := by
  exact dif_pos ⟨hversion, hlen⟩

theorem ipHeader_len_lt {packet : Bytes} {len : Nat} {src : IpAddr}
    (h : ipHeader packet = some (len, src))
    : len < 2 ^ 17 := by
  have hslice : ∀ start stop, stop = start + 2 → (packet.slice start stop).beNat < 2 ^ 16 := by
    intro start stop hstop
    have hlt := Bytes.beNat_lt (packet.slice start stop)
    have hlen : (packet.slice start stop).length ≤ 2 := by
      simp only [Bytes.slice, List.length_take]
      omega
    calc (packet.slice start stop).beNat
      _ < 256 ^ (packet.slice start stop).length := hlt
      _ ≤ 256 ^ 2 := Nat.pow_le_pow_right (by omega) hlen
  unfold ipHeader at h
  split at h
  . simp at h
  . split at h
    . simp only [Option.some.injEq, Prod.mk.injEq] at h
      have := hslice 2 4 rfl
      omega
    . split at h
      . simp only [Option.some.injEq, Prod.mk.injEq] at h
        have := hslice 4 6 rfl
        simp only [ipv6MinHeaderSize] at h
        omega
      . simp at h

theorem validateDecapsulatedPacket_packet {t t' : Tunn} {plain packet : Bytes} {r : TunnResult}
    (h : t.validateDecapsulatedPacket plain = (t', r)) (hpacket : r.packet = some packet)
    : packet.length < 2 ^ 17 := by
  unfold validateDecapsulatedPacket at h
  split at h
  . cases h
    simp [TunnResult.packet] at hpacket
  . split at h
    . cases h
      simp [TunnResult.packet] at hpacket
    . next len src hheader =>
      have hlen := ipHeader_len_lt hheader
      split at h
      . cases h
        simp [TunnResult.packet] at hpacket
      . dsimp only at h
        split at h <;>
        . cases h
          simp only [TunnResult.packet, Option.some.injEq] at hpacket
          rw [← hpacket, List.length_take]
          omega

def SameSessions (t t' : Tunn) : Prop :=
  t'.sessions = t.sessions ∧ t'.current = t.current

theorem currentSession_eq {t t' : Tunn} (h : SameSessions t t')
    : t'.currentSession = t.currentSession := by
  unfold currentSession
  rw [h.1, h.2]

theorem sameSessions_timerTick (t : Tunn) (name : TimerName)
    : SameSessions t (t.timerTick name) :=
  ⟨rfl, rfl⟩

theorem sameSessions_validateDecapsulatedPacket (t : Tunn) (plain : Bytes)
    : SameSessions t (t.validateDecapsulatedPacket plain).1 := by
  unfold validateDecapsulatedPacket
  split
  . exact ⟨rfl, rfl⟩
  . split
    . exact ⟨rfl, rfl⟩
    . split
      . exact ⟨rfl, rfl⟩
      . dsimp only
        split <;> exact ⟨rfl, rfl⟩

theorem isSome_currentSession_setCurrentSession {t : Tunn} {idx : Nat}
    (h : (t.sessions (slot idx)).isSome)
    : (t.setCurrentSession idx).currentSession.isSome := by
  unfold setCurrentSession
  split
  . next hcurrent =>
    rw [currentSession, hcurrent]
    exact h
  . split
    . exact h
    . next hkeep =>
      simp only [Bool.or_eq_true, not_or] at hkeep
      simpa [Option.isSome_iff_ne_none] using hkeep.1

variable {P : Primitives}

theorem handleData_packet {t t' : Tunn} {data : PacketData} {dstLen : Nat} {r : TunnResult}
    {packet : Bytes} (h : t.handleData P data dstLen = some (t', .ok r))
    (hpacket : r.packet = some packet)
    : packet.length < 2 ^ 17 ∧ t'.currentSession.isSome := by
  unfold handleData at h
  dsimp only at h
  split at h
  . simp at h
  . next session _ =>
    split at h
    . simp at h
    . simp at h
    . next session' plain _ =>
      simp only [Option.some.injEq, Prod.mk.injEq, Except.ok.injEq] at h
      obtain ⟨rfl, rfl⟩ := h
      constructor
      . exact validateDecapsulatedPacket_packet rfl hpacket
      . rw [currentSession_eq (sameSessions_validateDecapsulatedPacket _ _)]
        rw [currentSession_eq (sameSessions_timerTick _ _)]
        apply isSome_currentSession_setCurrentSession
        simp

theorem handleVerifiedPacket_packet {t t' : Tunn} {p : Packet} {dstLen : Nat} {now : Instant}
    {ephemeral : FixedBytes 32} {r : TunnResult} {packet : Bytes}
    (h : t.handleVerifiedPacket P p dstLen now ephemeral = some (t', r))
    (hpacket : r.packet = some packet)
    : packet.length < 2 ^ 17 ∧ t'.currentSession.isSome := by
  cases p with
  | handshakeInit p =>
    simp only [handleVerifiedPacket, Option.some.injEq, handleHandshakeInit] at h
    split at h <;>
    . cases h
      simp [TunnResult.packet] at hpacket
  | handshakeResponse p =>
    simp only [handleVerifiedPacket, Option.map_eq_some_iff] at h
    obtain ⟨⟨t₁, r₁⟩, hr, h⟩ := h
    unfold handleHandshakeResponse at hr
    split at hr
    . cases hr
      cases h
      simp [TunnResult.packet] at hpacket
    . split at hr
      . simp at hr
      . cases hr
        cases h
        simp [TunnResult.packet] at hpacket
  | packetCookieReply p =>
    simp only [handleVerifiedPacket, Option.some.injEq, handleCookieReply] at h
    split at h <;>
    . cases h
      simp [TunnResult.packet] at hpacket
  | packetData p =>
    simp only [handleVerifiedPacket, Option.map_eq_some_iff] at h
    obtain ⟨⟨t₁, r₁⟩, hr, h⟩ := h
    cases r₁ with
    | error e =>
      cases h
      simp [TunnResult.packet] at hpacket
    | ok r₁ =>
      cases h
      exact handleData_packet hr hpacket

theorem formatHandshakeInitiation_packet (t : Tunn) (dstLen : Nat) (forceResend : Bool)
    (now : Instant) (ephemeral : FixedBytes 32)
    : (t.formatHandshakeInitiation P dstLen forceResend now ephemeral).2.packet = none := by
  unfold formatHandshakeInitiation
  split
  . rfl
  . dsimp only
    split <;> rfl

/--
A packet is sent with the session in use, or it is queued and a handshake begins.
-/
inductive EncapsulateCase (P : Primitives) (t : Tunn) (src : Bytes) (dstLen : Nat) (now : Instant)
    (ephemeral : FixedBytes 32) (t' : Tunn) (r : TunnResult) : Prop where
  | send (s s' : Session) (packet : Bytes)
    (hs : t.currentSession = some s)
    (hformat : s.formatPacketData P src dstLen = some (s', packet))
    (hsessions : t'.sessions = Function.update t.sessions (slot t.current) (some s'))
    (hcurrent : t'.current = t.current)
    (hqueue : t'.packetQueue = t.packetQueue)
    (hhandshake : t'.handshake = t.handshake)
    (hresult : r = .writeToNetwork packet)
  | queue
    (hs : t.currentSession = none)
    (h : (t.queuePacket src).formatHandshakeInitiation P dstLen false now ephemeral = (t', r))

theorem encapsulate_cases {t t' : Tunn} {src : Bytes} {dstLen : Nat} {now : Instant}
    {ephemeral : FixedBytes 32} {r : TunnResult}
    (h : t.encapsulate P src dstLen now ephemeral = some (t', r))
    : EncapsulateCase P t src dstLen now ephemeral t' r := by
  unfold encapsulate at h
  split at h
  . next s hs =>
    split at h
    . simp at h
    . next s' packet hformat =>
      cases h
      refine .send s s' packet hs hformat ?_ ?_ ?_ ?_ rfl
      all_goals split <;> rfl
  . next hs => exact .queue hs (Option.some.inj h)

theorem encapsulate_packet {t t' : Tunn} {src : Bytes} {dstLen : Nat} {now : Instant}
    {ephemeral : FixedBytes 32} {r : TunnResult}
    (h : t.encapsulate P src dstLen now ephemeral = some (t', r))
    : r.packet = none := by
  cases encapsulate_cases h with
  | send _ _ _ _ _ _ _ _ _ hresult =>
    rw [hresult]
    rfl
  | queue _ h =>
    have hr := formatHandshakeInitiation_packet (P := P) (t.queuePacket src) dstLen false now
      ephemeral
    rw [h] at hr
    exact hr

theorem encapsulate_of_session {t : Tunn} {session : Session} {src : Bytes} {dstLen : Nat}
    (hlen : src.length + dataOverheadSz ≤ dstLen) (now : Instant) (ephemeral : FixedBytes 32)
    (hsession : t.currentSession = some session)
    : ∃ t',
        t.encapsulate P src dstLen now ephemeral
          = some (t', .writeToNetwork (session.sealPacket P src))
          ∧
        t'.currentSession.isSome := by
  have hfits : ¬dstLen < src.length + dataOverheadSz := by omega
  simp only [encapsulate, hsession, Session.formatPacketData, hfits, if_false]
  refine ⟨_, rfl, ?_⟩
  simp only [currentSession]
  split <;> simp [timerTick]

theorem encapsulate_of_none {t : Tunn} {packet : Bytes} {dstLen : Nat} {now : Instant}
    {ephemeral : FixedBytes 32} (h : t.currentSession = none)
    : t.encapsulate P packet dstLen now ephemeral
        =
      some ((t.queuePacket packet).formatHandshakeInitiation P dstLen false now ephemeral) := by
  unfold encapsulate
  rw [h]

theorem head?_sealPacket (session : Session) (src : Bytes)
    : (session.sealPacket P src).head? = some 4 := by
  rfl

theorem head?_formatHandshakeInitiation {h h' : Handshake} {dstLen : Nat} {now : Instant}
    {ephemeral : FixedBytes 32} {datagram : Bytes}
    (hformat : h.formatHandshakeInitiation P dstLen now ephemeral = (h', .ok datagram))
    : datagram.head? = some 1 := by
  unfold Handshake.formatHandshakeInitiation at hformat
  split at hformat
  . simp at hformat
  . cases hformat
    rfl

theorem encapsulate_without_session {t t' : Tunn} {src datagram : Bytes} {dstLen : Nat}
    {now : Instant} {ephemeral : FixedBytes 32} (hsession : t.currentSession = none)
    (h : t.encapsulate P src dstLen now ephemeral = some (t', .writeToNetwork datagram))
    (session : Session) (src' : Bytes)
    : datagram ≠ session.sealPacket P src' := by
  have hinit : datagram.head? = some 1 := by
    simp only [encapsulate, hsession, formatHandshakeInitiation] at h
    split at h
    . simp at h
    . split at h
      . simp at h
      . next hformat =>
        cases h
        exact head?_formatHandshakeInitiation hformat
  intro heq
  rw [heq, head?_sealPacket] at hinit
  simp at hinit

theorem sendQueuedPacket_packet {t t' : Tunn} {dstLen : Nat} {now : Instant}
    {ephemeral : FixedBytes 32} {r : TunnResult}
    (h : t.sendQueuedPacket P dstLen now ephemeral = some (t', r))
    : r.packet = none := by
  unfold sendQueuedPacket at h
  split at h
  . cases h
    rfl
  . split at h
    . simp at h
    . cases h
      rfl
    . next hencapsulate =>
      cases h
      exact encapsulate_packet hencapsulate

/--
The empty datagram asks for the next packet of the queue. Any other one is checked first.
-/
inductive DecapsulateCase (P : Primitives) (rl : RateLimiter) (t : Tunn) (srcAddr : Option IpAddr)
    (datagram : Bytes) (dstLen : Nat) (now : Instant) (ephemeral : FixedBytes 32) (rl' : RateLimiter)
    (t' : Tunn) (r : TunnResult) : Prop where
  | queue
    (hempty : datagram.isEmpty = true)
    (h : t.sendQueuedPacket P dstLen now ephemeral = some (t', r))
  | reject
    (hempty : datagram.isEmpty = false)
    (hverify : rl.verifyPacket P srcAddr datagram cookieReplySz now = (rl', .error r))
    (htunnel : t' = t)
  | packet (packet : Packet)
    (hempty : datagram.isEmpty = false)
    (hverify : rl.verifyPacket P srcAddr datagram cookieReplySz now = (rl', .ok packet))
    (h : t.handleVerifiedPacket P packet dstLen now ephemeral = some (t', r))

theorem decapsulate_cases {rl rl' : RateLimiter} {t t' : Tunn} {srcAddr : Option IpAddr}
    {datagram : Bytes} {dstLen : Nat} {now : Instant} {ephemeral : FixedBytes 32} {r : TunnResult}
    (h : decapsulate P rl t srcAddr datagram dstLen now ephemeral = some (rl', t', r))
    : DecapsulateCase P rl t srcAddr datagram dstLen now ephemeral rl' t' r := by
  unfold decapsulate at h
  split at h
  . next hempty =>
    obtain ⟨⟨t₁, r₁⟩, hsend, heq⟩ := Option.map_eq_some_iff.mp h
    cases heq
    exact .queue hempty hsend
  . next hempty =>
    have hempty : datagram.isEmpty = false := Bool.eq_false_iff.mpr hempty
    split at h
    . next hverify =>
      cases h
      exact .reject hempty hverify rfl
    . next packet hverify =>
      obtain ⟨⟨t₁, r₁⟩, hhandle, heq⟩ := Option.map_eq_some_iff.mp h
      cases heq
      exact .packet packet hempty hverify hhandle

theorem decapsulate_packet {rl rl' : RateLimiter} {t t' : Tunn} {srcAddr : Option IpAddr}
    {datagram : Bytes} {dstLen : Nat} {now : Instant} {ephemeral : FixedBytes 32} {r : TunnResult}
    {packet : Bytes}
    (h : decapsulate P rl t srcAddr datagram dstLen now ephemeral = some (rl', t', r))
    (hpacket : r.packet = some packet)
    : packet.length < 2 ^ 17 ∧ t'.currentSession.isSome := by
  cases decapsulate_cases h with
  | queue _ h => simp [sendQueuedPacket_packet h] at hpacket
  | reject _ hverify _ => simp [RateLimiter.verifyPacket_packet hverify] at hpacket
  | packet _ _ _ h => exact handleVerifiedPacket_packet h hpacket

end Tunn

end Noise
