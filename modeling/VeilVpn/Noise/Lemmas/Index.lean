import VeilVpn.Noise.Lemmas.Handshake
import VeilVpn.Noise.Lemmas.Operation

namespace Noise

variable {P : Primitives}

theorem toNat_shiftRight_eight (idx : UInt32) : (idx >>> 8).toNat = idx.toNat / 256 := by
  simp only [UInt32.toNat_shiftRight, UInt32.reduceToNat, Nat.reduceMod, Nat.shiftRight_eq_div_pow,
    Nat.reducePow]

theorem incIndex_shiftRight (h : Handshake) : h.incIndex.2 >>> 8 = h.nextIndex >>> 8 := by
  have hmask : (~~~(0xff : UInt32)) >>> 8 = 0xffffff := by decide
  have hbyte : ∀ b : UInt8, b.toUInt32 >>> 8 = 0 := by
    intro b
    have hlt := b.toNat_lt
    apply UInt32.toNat_inj.mp
    rw [toNat_shiftRight_eight, UInt8.toNat_toUInt32, UInt32.toNat_zero]
    omega
  have hhigh : (h.nextIndex >>> 8) &&& (0xffffff : UInt32) = h.nextIndex >>> 8 := by
    have hlt := h.nextIndex.toNat_lt
    have hones : (0xffffff : UInt32).toNat = 2 ^ 24 - 1 := rfl
    apply UInt32.toNat_inj.mp
    rw [UInt32.toNat_and, toNat_shiftRight_eight, hones, Nat.and_two_pow_sub_one_eq_mod]
    omega
  simp only [Handshake.incIndex, UInt32.shiftRight_or, UInt32.shiftRight_and, hmask, hbyte, hhigh,
    UInt32.or_zero]

namespace Handshake

/--
The indices that a handshake knows: the last one that it has handed out, those of the initiations that
wait for a response, and the one that a cookie reply has to name.
-/
inductive Holds (h : Handshake) : UInt32 → Prop where
  | next : Holds h h.nextIndex
  | state {sent : HandshakeInitSentState} (hstate : h.state = .initSent sent) : Holds h sent.localIndex
  | previous {sent : HandshakeInitSentState} (hprevious : h.previous = .initSent sent)
    : Holds h sent.localIndex
  | cookie (hmac : h.cookies.lastMac1.isSome) : Holds h h.cookies.index

/--
All indices are those of one peer.
-/
def Indexed (index : UInt32) (h : Handshake) : Prop :=
  ∀ idx, h.Holds idx → idx >>> 8 = index

variable {h h' : Handshake} {index idx : UInt32}

theorem Indexed.incIndex (hindexed : h.Indexed index) : h.incIndex.2 >>> 8 = index := by
  rw [incIndex_shiftRight]
  exact hindexed _ .next

theorem Indexed.of_holds (hindexed : h.Indexed index)
    (hholds : ∀ idx, h'.Holds idx → h.Holds idx ∨ idx = h.incIndex.2)
    : h'.Indexed index := by
  intro idx hidx
  rcases hholds idx hidx with hidx | rfl
  . exact hindexed idx hidx
  . exact hindexed.incIndex

theorem holds_formatHandshakeInitiation {dstLen : Nat} {now : Instant}
    {ephemeralPrivate : FixedBytes 32}
    (hidx : (h.formatHandshakeInitiation P dstLen now ephemeralPrivate).1.Holds idx)
    : h.Holds idx ∨ idx = h.incIndex.2 := by
  by_cases hlen : handshakeInitSz ≤ dstLen
  . rw [formatHandshakeInitiation_eq h hlen] at hidx
    cases hidx with
    | next => exact .inr rfl
    | state hstate =>
      cases hstate
      exact .inr rfl
    | previous hprevious => exact .inl (.state hprevious)
    | cookie => exact .inr rfl
  . rw [formatHandshakeInitiation, if_pos (Nat.not_le.mp hlen)] at hidx
    exact .inl hidx

theorem holds_receiveHandshakeInitialization {packet : HandshakeInit} {dstLen : Nat}
    {ephemeralPrivate : FixedBytes 32}
    (hidx : (h.receiveHandshakeInitialization P packet dstLen ephemeralPrivate).1.Holds idx)
    : h.Holds idx ∨ idx = h.incIndex.2 := by
  rcases receiveHandshakeInitialization_eq (P := P) h packet dstLen ephemeralPrivate with
    ⟨_, heq⟩ | ⟨timestamp, _, _, heq⟩
  . rw [heq] at hidx
    exact .inl hidx
  . rw [heq] at hidx
    by_cases hlen : handshakeRespSz ≤ dstLen
    . rw [formatHandshakeResponse_eq _ _ hlen] at hidx
      cases hidx with
      | next => exact .inr rfl
      | state hstate => cases hstate
      | previous hprevious => exact .inl (.state hprevious)
      | cookie => exact .inr rfl
    . rw [formatHandshakeResponse, if_pos (Nat.not_le.mp hlen)] at hidx
      cases hidx with
      | next => exact .inl .next
      | state hstate => cases hstate
      | previous hprevious => exact .inl (.state hprevious)
      | cookie hmac => exact .inl (.cookie hmac)

theorem holds_receiveHandshakeResponse {packet : HandshakeResponse} {now : Instant}
    (hidx : (h.receiveHandshakeResponse P packet now).1.Holds idx)
    : h.Holds idx := by
  cases hawaiting : h.awaitingResponse packet.receiverIdx with
  | none =>
    rw [receiveHandshakeResponse, hawaiting] at hidx
    exact hidx
  | some awaiting =>
    rw [receiveHandshakeResponse_eq hawaiting] at hidx
    split at hidx
    . exact hidx
    . dsimp only at hidx
      split at hidx
      . cases hidx with
        | next => exact .next
        | state hstate => exact .state hstate
        | previous hprevious => cases hprevious
        | cookie hmac => exact .cookie hmac
      . cases hidx with
        | next => exact .next
        | state hstate => cases hstate
        | previous hprevious => exact .previous hprevious
        | cookie hmac => exact .cookie hmac

theorem Holds.of_eq (hidx : h'.Holds idx) (hnext : h'.nextIndex = h.nextIndex)
    (hstate : h'.state = h.state) (hprevious : h'.previous = h.previous)
    (hcookie : h'.cookies.index = h.cookies.index) (hmac : h'.cookies.lastMac1 = h.cookies.lastMac1)
    : h.Holds idx := by
  cases hidx with
  | next =>
    rw [hnext]
    exact .next
  | state h => exact .state (hstate.symm.trans h)
  | previous h => exact .previous (hprevious.symm.trans h)
  | cookie h =>
    rw [hcookie]
    exact .cookie (hmac ▸ h)

theorem holds_receiveCookieReply {packet : PacketCookieReply}
    (hidx : (h.receiveCookieReply P packet).1.Holds idx)
    : h.Holds idx := by
  unfold receiveCookieReply at hidx
  split at hidx
  . exact hidx
  . split at hidx
    . exact hidx
    . dsimp only at hidx
      split at hidx
      . exact hidx
      . split at hidx
        . exact hidx.of_eq rfl rfl rfl rfl rfl
        . exact hidx

theorem holds_setExpired (hidx : h.setExpired.Holds idx) : h.Holds idx := by
  cases hidx with
  | next => exact .next
  | state hstate => cases hstate
  | previous hprevious => cases hprevious
  | cookie hmac => exact .cookie hmac

theorem holds_of_awaitingResponse {sent : HandshakeInitSentState} {isPrevious : Bool}
    (hawaiting : h.awaitingResponse idx = some (sent, isPrevious))
    : h.Holds sent.localIndex := by
  unfold awaitingResponse at hawaiting
  dsimp only at hawaiting
  split at hawaiting
  . next s hs =>
    split at hawaiting
    . cases hawaiting
      exact .state hs
    . split at hawaiting
      . next s' hs' =>
        rw [Option.ite_none_right_eq_some] at hawaiting
        cases hawaiting.2
        exact .previous hs'
      . simp at hawaiting
  . split at hawaiting
    . next s hs =>
      rw [Option.ite_none_right_eq_some] at hawaiting
      cases hawaiting.2
      exact .previous hs
    . simp at hawaiting

variable (P) in
def Reaches (h h' : Handshake) : Prop :=
  ∃ hs, (machine P).Run h hs h'

theorem Reaches.refl (h : Handshake) : h.Reaches P h :=
  ⟨[], Machine.Run.nil⟩

theorem Reaches.trans {h₁ h₂ h₃ : Handshake} (h : h₁.Reaches P h₂) (h' : h₂.Reaches P h₃)
    : h₁.Reaches P h₃ := by
  obtain ⟨hs, hrun⟩ := h
  obtain ⟨hs', hrun'⟩ := h'
  exact ⟨hs ++ hs', hrun.append hrun'⟩

theorem Reaches.of_step {e : HandshakeEvent} (hstep : (machine P).step h e = some (h', []))
    : h.Reaches P h' :=
  ⟨_, Machine.Run.single hstep⟩

theorem Reaches.params {h₁ h₂ : Handshake} (h : h₁.Reaches P h₂) : h₂.params = h₁.params := by
  obtain ⟨hs, hrun⟩ := h
  apply hrun.invariant (·.params = h₁.params) rfl
  intro h e h' os heq hstep
  exact (moves_of_step hstep).2.trans heq

theorem Forgets.reaches (hforgets : h.Forgets h') : h.Reaches P h' := by
  induction hforgets with
  | refl => exact .refl h
  | clearCookie _ ih => exact ih.trans (.of_step (e := .clearCookie) rfl)
  | setExpired _ ih => exact ih.trans (.of_step (e := .setExpired) rfl)

theorem Indexed.step {e : HandshakeEvent} {os : List Empty} (hindexed : h.Indexed index)
    (hstep : (machine P).step h e = some (h', os))
    : h'.Indexed index := by
  apply hindexed.of_holds
  intro idx hidx
  cases e with
  | initiate dstLen now ephemeralPrivate =>
    cases hstep
    exact holds_formatHandshakeInitiation hidx
  | receiveInit packet dstLen ephemeralPrivate =>
    cases hstep
    exact holds_receiveHandshakeInitialization hidx
  | receiveResponse packet now =>
    cases hstep
    exact .inl (holds_receiveHandshakeResponse hidx)
  | receiveCookieReply packet =>
    cases hstep
    exact .inl (holds_receiveCookieReply hidx)
  | clearCookie =>
    cases hstep
    exact .inl (hidx.of_eq rfl rfl rfl rfl rfl)
  | setExpired =>
    cases hstep
    exact .inl (holds_setExpired hidx)

theorem Indexed.reaches (hindexed : h.Indexed index) (hreaches : h.Reaches P h')
    : h'.Indexed index := by
  obtain ⟨hs, hrun⟩ := hreaches
  exact hrun.invariant (Indexed index) hindexed fun _ _ _ _ hi hstep => hi.step hstep

end Handshake

namespace Tunn

variable {t t' : Tunn} {c : Call} {r : TunnResult} {dstLen : Nat} {now : Instant}
  {ephemeral : FixedBytes 32}

theorem reaches_formatHandshakeInitiation (t : Tunn) (dstLen : Nat) (forceResend : Bool)
    (now : Instant) (ephemeral : FixedBytes 32)
    : t.handshake.Reaches P
        (t.formatHandshakeInitiation P dstLen forceResend now ephemeral).1.handshake := by
  have hstep : t.handshake.Reaches P
      (t.handshake.formatHandshakeInitiation P dstLen now ephemeral).1 :=
    .of_step (e := .initiate dstLen now ephemeral) rfl
  unfold formatHandshakeInitiation
  split
  . exact .refl _
  . dsimp only
    have hexpired : (if t.handshake.isExpired = true then { t with timers := t.timers.clear now }
        else t).handshake = t.handshake := by
      split <;> rfl
    rw [hexpired]
    split
    . next heq =>
      rw [heq] at hstep
      exact hstep
    . next heq =>
      rw [heq] at hstep
      split <;> exact hstep

theorem reaches_encapsulate {src : Bytes} (h : t.encapsulate P src dstLen now ephemeral = some (t', r))
    : t.handshake.Reaches P t'.handshake := by
  cases encapsulate_cases h with
  | send _ _ _ _ _ _ _ _ hhandshake _ =>
    rw [hhandshake]
    exact .refl _
  | queue _ h =>
    have hreaches := reaches_formatHandshakeInitiation (P := P) (t.queuePacket src) dstLen false now
      ephemeral
    rw [h, handshake_queuePacket] at hreaches
    exact hreaches

theorem reaches_sendQueuedPacket (h : t.sendQueuedPacket P dstLen now ephemeral = some (t', r))
    : t.handshake.Reaches P t'.handshake := by
  unfold sendQueuedPacket at h
  split at h
  . cases h
    exact .refl _
  . split at h
    . simp at h
    . next t₁ _ hencapsulate =>
      cases h
      have hreaches := reaches_encapsulate hencapsulate
      unfold requeuePacket
      split <;> exact hreaches
    . next hencapsulate =>
      cases h
      have hreaches := reaches_encapsulate hencapsulate
      exact hreaches

theorem handshake_setCurrentSession (t : Tunn) (newIdx : Nat)
    : (t.setCurrentSession newIdx).handshake = t.handshake := by
  unfold setCurrentSession
  split
  . rfl
  . split <;> rfl

theorem handshake_validateDecapsulatedPacket (t : Tunn) (packet : Bytes)
    : (t.validateDecapsulatedPacket packet).1.handshake = t.handshake := by
  unfold validateDecapsulatedPacket
  split
  . rfl
  . split
    . rfl
    . split
      . rfl
      . dsimp only
        split <;> rfl

theorem reaches_handleVerifiedPacket {packet : Packet}
    (h : t.handleVerifiedPacket P packet dstLen now ephemeral = some (t', r))
    : t.handshake.Reaches P t'.handshake := by
  cases packet with
  | handshakeInit p =>
    have hstep : t.handshake.Reaches P
        (t.handshake.receiveHandshakeInitialization P p dstLen ephemeral).1 :=
      .of_step (e := .receiveInit p dstLen ephemeral) rfl
    simp only [handleVerifiedPacket, handleHandshakeInit, Option.some.injEq] at h
    split at h <;>
    . next heq =>
      rw [heq] at hstep
      cases h
      exact hstep
  | handshakeResponse p =>
    have hstep : t.handshake.Reaches P (t.handshake.receiveHandshakeResponse P p now).1 :=
      .of_step (e := .receiveResponse p now) rfl
    simp only [handleVerifiedPacket, handleHandshakeResponse, Option.map_eq_some_iff] at h
    obtain ⟨result, hresult, h⟩ := h
    split at hresult
    . next heq =>
      rw [heq] at hstep
      cases hresult
      cases h
      exact hstep
    . next heq =>
      rw [heq] at hstep
      split at hresult
      . simp at hresult
      . cases hresult
        cases h
        rw [handshake_setCurrentSession]
        exact hstep
  | packetCookieReply p =>
    have hstep : t.handshake.Reaches P (t.handshake.receiveCookieReply P p).1 :=
      .of_step (e := .receiveCookieReply p) rfl
    simp only [handleVerifiedPacket, handleCookieReply, Option.some.injEq] at h
    split at h <;>
    . next heq =>
      rw [heq] at hstep
      cases h
      exact hstep
  | packetData p =>
    simp only [handleVerifiedPacket, handleData, Option.map_eq_some_iff] at h
    obtain ⟨result, hresult, h⟩ := h
    split at hresult
    . cases hresult
      cases h
      exact .refl _
    . split at hresult
      . simp at hresult
      . cases hresult
        cases h
        exact .refl _
      . cases hresult
        cases h
        have hhandshake : ∀ t₁ : Tunn, t₁.handshake = t.handshake →
            t.handshake.Reaches P t₁.handshake := by
          intro t₁ heq
          rw [heq]
          exact .refl _
        apply hhandshake
        exact (handshake_validateDecapsulatedPacket _ _).trans (handshake_setCurrentSession _ _)

theorem TimerAction.reaches (h : TimerAction P dstLen now ephemeral t t' r)
    : t.handshake.Reaches P t'.handshake := by
  cases h with
  | none hsheds _ => exact hsheds.handshake.reaches
  | initiate t₁ hsheds h =>
    have hreaches := reaches_formatHandshakeInitiation (P := P) t₁ dstLen true now ephemeral
    rw [h] at hreaches
    exact hsheds.handshake.reaches.trans hreaches
  | keepalive t₁ hsheds h => exact hsheds.handshake.reaches.trans (reaches_encapsulate h)

theorem handshake_of_call (h : t.call P c = some (t', r))
    : t.handshake.Reaches P t'.handshake
        ∨
      ∃ staticPrivate staticPublic ref params,
        c.operation = .setStaticPrivate staticPrivate staticPublic ref
          ∧
        t'.handshake = { t.handshake with params } := by
  cases callCase_of_call h with
  | encapsulate _ _ _ _ h => exact .inl (reaches_encapsulate h)
  | queue _ _ _ h => exact .inl (reaches_sendQueuedPacket h)
  | reject _ _ _ htunnel _ =>
    rw [htunnel]
    exact .inl (.refl _)
  | packet _ _ _ _ h => exact .inl (reaches_handleVerifiedPacket h)
  | initiate forceResend _ _ _ h =>
    have hreaches := reaches_formatHandshakeInitiation (P := P) t c.dstLen forceResend c.now
      c.ephemeral
    rw [h] at hreaches
    exact .inl hreaches
  | timers _ _ _ _ _ _ _ h => exact .inl (timerAction_updateTimers h).reaches
  | setKey staticPrivate staticPublic ref params hoperation _ _ hhandshake _ _ _ _ _ =>
    exact .inr ⟨staticPrivate, staticPublic, ref, params, hoperation, hhandshake⟩

theorem params_of_call (h : t.call P c = some (t', r))
    (hoperation : ∀ staticPrivate staticPublic ref,
      c.operation ≠ .setStaticPrivate staticPrivate staticPublic ref)
    : t'.handshake.params = t.handshake.params := by
  rcases handshake_of_call h with hreaches | ⟨staticPrivate, staticPublic, ref, _, hset, _⟩
  . exact hreaches.params
  . exact absurd hset (hoperation staticPrivate staticPublic ref)

/--
The indices that a tunnel knows.
-/
inductive Holds (t : Tunn) : UInt32 → Prop where
  | handshake {idx : UInt32} (hholds : t.handshake.Holds idx) : Holds t idx
  | session {i : Fin 8} {s : Session} (hs : t.sessions i = some s) : Holds t s.receivingIndex

/--
All indices are those of one peer, and each session is in the slot that its index tells.
-/
structure Indexed (index : UInt32) (t : Tunn) : Prop where
  holds : ∀ idx, t.Holds idx → idx >>> 8 = index
  slot : ∀ i s, t.sessions i = some s → slot s.receivingIndex.toNat = i

variable {index : UInt32}

theorem Indexed.handshake (hindexed : t.Indexed index) : t.handshake.Indexed index :=
  fun idx hidx => hindexed.holds idx (.handshake hidx)

def SessionsIndexed (index : UInt32) (t : Tunn) : Prop :=
  ∀ i s, t.sessions i = some s →
    s.receivingIndex >>> 8 = index ∧ Tunn.slot s.receivingIndex.toNat = i

theorem Indexed.sessions (hindexed : t.Indexed index) : t.SessionsIndexed index :=
  fun i s hs => ⟨hindexed.holds _ (.session hs), hindexed.slot i s hs⟩

theorem SessionsIndexed.update (h : t.SessionsIndexed index) {s : Session}
    (hpeer : s.receivingIndex >>> 8 = index)
    (hsessions : t'.sessions
      = Function.update t.sessions (Tunn.slot s.receivingIndex.toNat) (some s))
    : t'.SessionsIndexed index := by
  intro i s' hs'
  rw [hsessions] at hs'
  by_cases hi : i = Tunn.slot s.receivingIndex.toNat
  . rw [hi, Function.update_self, Option.some.injEq] at hs'
    rw [← hs']
    exact ⟨hpeer, hi.symm⟩
  . rw [Function.update_of_ne hi] at hs'
    exact h i s' hs'

theorem Indexed.sessions_of_call (hindexed : t.Indexed index) (h : t.call P c = some (t', r))
    : t'.SessionsIndexed index := by
  cases effect_of_call h with
  | drop hdrops _ =>
    intro i s hs
    rcases hdrops.sessions i with heq | hnone
    . exact hindexed.sessions i s (heq ▸ hs)
    . simp [hnone] at hs
  | send s src _ _ hsession hslot hsessions hcurrent _ =>
    intro i s' hs'
    by_cases hi : i = Tunn.slot t.current
    . rw [currentSession, hcurrent, ← hi] at hslot
      rw [hslot, Option.some.injEq] at hs'
      rw [← hs', hi]
      exact hindexed.sessions _ s hsession
    . rcases hsessions i hi with heq | hnone
      . exact hindexed.sessions i s' (heq ▸ hs')
      . simp [hnone] at hs'
  | receive d s s' plain _ hsession hreceives hsessions _ _ =>
    obtain ⟨hpeer, hslot⟩ := hindexed.sessions _ s hsession
    obtain ⟨v, _, hs'⟩ := hreceives.marks
    have hindex : s'.receivingIndex = s.receivingIndex := by rw [hs']
    rw [← hslot, ← hindex] at hsessions
    exact hindexed.sessions.update (by rw [hindex, hpeer]) hsessions
  | respond p h' reply s _ hreceive hsessions _ _ =>
    have hsession := (receiveHandshakeInitialization_eq_ok hreceive).2
    refine hindexed.sessions.update ?_ hsessions
    rw [hsession]
    exact hindexed.handshake.incIndex
  | establish p h' s _ hreceive hsessions _ _ =>
    obtain ⟨sent, isPrevious, hawaiting, hsession⟩ := receiveHandshakeResponse_eq_ok hreceive
    refine hindexed.sessions.update (s := s.bumped) ?_ hsessions
    rw [hsession]
    exact hindexed.handshake _ (Handshake.holds_of_awaitingResponse hawaiting)

theorem Indexed.call (hindexed : t.Indexed index) (h : t.call P c = some (t', r))
    : t'.Indexed index := by
  have hsessions := hindexed.sessions_of_call h
  refine ⟨?_, fun i s hs => (hsessions i s hs).2⟩
  intro idx hidx
  cases hidx with
  | handshake hholds =>
    rcases handshake_of_call h with hreaches | ⟨_, _, _, params, _, heq⟩
    . exact hindexed.handshake.reaches hreaches idx hholds
    . rw [heq] at hholds
      exact hindexed.handshake idx (hholds.of_eq rfl rfl rfl rfl rfl)
  | session hs => exact (hsessions _ _ hs).1

theorem Indexed.step {os : List TunnResult} (hindexed : t.Indexed index)
    (h : (machine P).step t c = some (t', os))
    : t'.Indexed index := by
  obtain ⟨r, rfl, hcall⟩ := call_of_step h
  exact hindexed.call hcall

theorem indexed_new (staticPrivate peerStaticPublic : FixedBytes 32)
    (presharedKey : Option (FixedBytes 32)) (persistentKeepalive : Option UInt16)
    (hindex : index.toNat < 2 ^ 24) (rateLimiter : RateLimiterRef) (ownRateLimiter : Bool)
    (stamper : TimeStamper) (now : Instant)
    : (Tunn.new P staticPrivate peerStaticPublic presharedKey persistentKeepalive index rateLimiter
        ownRateLimiter stamper now).Indexed index := by
  constructor
  . intro idx hidx
    cases hidx with
    | handshake hholds =>
      cases hholds with
      | next =>
        apply UInt32.toNat_inj.mp
        rw [toNat_shiftRight_eight]
        change (index <<< 8).toNat / 256 = index.toNat
        simp only [UInt32.toNat_shiftLeft, UInt32.reduceToNat, Nat.reduceMod, Nat.shiftLeft_eq,
          Nat.reducePow]
        omega
      | state hstate => cases hstate
      | previous hprevious => cases hprevious
      | cookie hmac => cases hmac
    | session hs => cases hs
  . intro i s hs
    cases hs

end Tunn

end Noise
