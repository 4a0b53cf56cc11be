import VeilVpn.Noise.Impl.Operation
import VeilVpn.Noise.Lemmas.Timers

namespace Noise

variable {P : Primitives}

namespace Session

variable {s s' : Session} {d : PacketData} {dstLen : Nat}

def bumped (s : Session) : Session :=
  { s with sendingKeyCounter := s.sendingKeyCounter + 1 }

theorem formatPacketData_eq_some {src packet : Bytes}
    (h : s.formatPacketData P src dstLen = some (s', packet))
    : s' = s.bumped ∧ packet = s.sealPacket P src := by
  unfold formatPacketData at h
  split at h
  . simp at h
  . cases h
    exact ⟨rfl, rfl⟩

theorem markDidReceive_eq_error {v v' : ReceivingKeyCounterValidator} {counter : UInt64}
    {e : WireGuardError} (h : v.markDidReceive counter = (v', .error e))
    : v' = v := by
  unfold ReceivingKeyCounterValidator.markDidReceive at h
  split at h
  . cases h
    rfl
  . split at h
    . simp at h
    . split at h
      . split at h
        . cases h
          rfl
        . simp at h
      . simp at h

structure Receives (P : Primitives) (s : Session) (d : PacketData) (plain : Bytes) (s' : Session)
    : Prop where
  receiverIdx : d.receiverIdx = s.receivingIndex
  opens : P.chacha20Poly1305Open s.receiver (counterNonce d.counter) d.encryptedEncapsulatedPacket []
    = some plain
  marks : ∃ v, s.receivingKeyCounter.markDidReceive d.counter = (v, .ok ())
    ∧ s' = { s with receivingKeyCounter := { v with receiveCnt := v.receiveCnt + 1 } }

theorem receivePacketData_eq_some {r : Except WireGuardError Bytes}
    (h : s.receivePacketData P d dstLen = some (s', r))
    : (s' = s ∧ ∃ e, r = .error e) ∨ ∃ plain, r = .ok plain ∧ s.Receives P d plain s' := by
  unfold receivePacketData at h
  split at h
  . simp at h
  . split at h
    . cases h
      exact .inl ⟨rfl, _, rfl⟩
    . next hidx =>
      split at h
      . cases h
        exact .inl ⟨rfl, _, rfl⟩
      . split at h
        . cases h
          exact .inl ⟨rfl, _, rfl⟩
        . next plain hopen =>
          unfold receivingCounterMark at h
          cases hmark : s.receivingKeyCounter.markDidReceive d.counter with
          | mk v result =>
            rw [hmark] at h
            cases result with
            | error e =>
              cases h
              rw [markDidReceive_eq_error hmark]
              exact .inl ⟨rfl, _, rfl⟩
            | ok _ =>
              cases h
              exact .inr ⟨plain, rfl, Decidable.not_not.mp hidx, hopen, v, hmark, rfl⟩

end Session

namespace Call

def packet (P : Primitives) (c : Call) : Option Packet :=
  match c.operation with
  | .handleVerifiedPacket packet => some packet
  | .decapsulate rl srcAddr datagram =>
    if datagram.isEmpty then
      none
    else
      match (rl.verifyPacket P srcAddr datagram cookieReplySz c.now).2 with
      | .ok packet => some packet
      | .error _ => none
  | _ => none

/--
The packet for the TUN interface of the other side that a call hands to `encapsulate`.
-/
def source (c : Call) (t : Tunn) : Option Bytes :=
  match c.operation with
  | .encapsulate src => some src
  | .decapsulate _ _ datagram => if datagram.isEmpty then t.packetQueue.head? else none
  | _ => none

/--
The packet for the TUN interface of the other side that the owner of the tunnel hands over.
-/
def given (c : Call) : Option Bytes :=
  match c.operation with
  | .encapsulate src => some src
  | _ => none

def sent (c : Call) (t : Tunn) : Option Bytes :=
  if t.currentSession.isSome then c.source t else none

end Call

inductive Handshake.Forgets (h : Handshake) : Handshake → Prop where
  | refl : Forgets h h
  | clearCookie {h' : Handshake} (hforgets : Forgets h h') : Forgets h h'.clearCookie
  | setExpired {h' : Handshake} (hforgets : Forgets h h') : Forgets h h'.setExpired

theorem Handshake.Forgets.trans {h₁ h₂ h₃ : Handshake} (h : h₁.Forgets h₂) (h' : h₂.Forgets h₃)
    : h₁.Forgets h₃ := by
  induction h' with
  | refl => exact h
  | clearCookie _ ih => exact ih.clearCookie
  | setExpired _ ih => exact ih.setExpired

namespace Tunn

structure Drops (t t' : Tunn) : Prop where
  sessions : ∀ i, t'.sessions i = t.sessions i ∨ t'.sessions i = none
  current : t'.current = t.current

inductive Effect (P : Primitives) (c : Call) (t t' : Tunn) (r : TunnResult) : Prop where
  | drop (hdrops : t.Drops t') (hpacket : r.packet = none)
  | send (s : Session) (src : Bytes) (hpacket : c.packet P = none)
    (hsource : c.source t = some src ∨ src = [])
    (hsession : t.currentSession = some s)
    (hslot : t'.currentSession = some s.bumped)
    (hsessions : ∀ i, i ≠ slot t.current → t'.sessions i = t.sessions i ∨ t'.sessions i = none)
    (hcurrent : t'.current = t.current)
    (hresult : r = .writeToNetwork (s.sealPacket P src))
  | receive (d : PacketData) (s s' : Session) (plain : Bytes)
    (hpacket : c.packet P = some (.packetData d))
    (hsession : t.sessions (slot d.receiverIdx.toNat) = some s)
    (hreceives : s.Receives P d plain s')
    (hsessions : t'.sessions = Function.update t.sessions (slot d.receiverIdx.toNat) (some s'))
    (hcurrent : t'.current = t.current ∨ t'.current = d.receiverIdx.toNat)
    (hresult : ∃ t₁, r = (validateDecapsulatedPacket t₁ plain).2)
  | respond (p : HandshakeInit) (h' : Handshake) (reply : Bytes) (s : Session)
    (hpacket : c.packet P = some (.handshakeInit p))
    (hreceive : t.handshake.receiveHandshakeInitialization P p c.dstLen c.ephemeral
      = (h', .ok (reply, s)))
    (hsessions : t'.sessions = Function.update t.sessions (slot s.localIndex) (some s))
    (hcurrent : t'.current = t.current)
    (hresult : r = .writeToNetwork reply)
  | establish (p : HandshakeResponse) (h' : Handshake) (s : Session)
    (hpacket : c.packet P = some (.handshakeResponse p))
    (hreceive : t.handshake.receiveHandshakeResponse P p c.now = (h', .ok s))
    (hsessions : t'.sessions = Function.update t.sessions (slot s.localIndex) (some s.bumped))
    (hcurrent : t'.current = t.current ∨ t'.current = s.localIndex)
    (hresult : r = .writeToNetwork (s.sealPacket P []))

variable {c : Call} {t₀ t t' : Tunn} {r : TunnResult} {dstLen : Nat} {now : Instant}
  {ephemeral : FixedBytes 32}

theorem Drops.refl (t : Tunn) : t.Drops t :=
  ⟨fun _ => .inl rfl, rfl⟩

theorem Drops.trans {t₁ t₂ t₃ : Tunn} (h₁ : t₁.Drops t₂) (h₂ : t₂.Drops t₃) : t₁.Drops t₃ where
  sessions := by
    intro i
    rcases h₂.sessions i with heq | hnone
    . rw [heq]
      exact h₁.sessions i
    . exact .inr hnone
  current := h₂.current.trans h₁.current

theorem drops_formatHandshakeInitiation (t : Tunn) (dstLen : Nat) (forceResend : Bool)
    (now : Instant) (ephemeral : FixedBytes 32)
    : t.Drops (t.formatHandshakeInitiation P dstLen forceResend now ephemeral).1 := by
  unfold formatHandshakeInitiation
  split
  . exact .refl t
  . dsimp only
    split
    . split <;> exact ⟨fun _ => .inl rfl, rfl⟩
    . split <;> split <;> exact ⟨fun _ => .inl rfl, rfl⟩

theorem drops_queuePacket (t : Tunn) (packet : Bytes) : t.Drops (t.queuePacket packet) := by
  unfold queuePacket
  split <;> exact ⟨fun _ => .inl rfl, rfl⟩

theorem Drops.currentSession (h : t₀.Drops t) {s : Session} (hs : t.currentSession = some s)
    : t₀.currentSession = some s := by
  rcases h.sessions (slot t.current) with heq | hnone
  . rw [Tunn.currentSession, ← h.current, ← heq]
    exact hs
  . rw [Tunn.currentSession, hnone] at hs
    simp at hs

theorem encapsulate_eq_some {src : Bytes}
    (h : t.encapsulate P src dstLen now ephemeral = some (t', r))
    : (t.Drops t' ∧ r.packet = none)
        ∨
      ∃ s, t.currentSession = some s
        ∧ t'.sessions = Function.update t.sessions (slot t.current) (some s.bumped)
        ∧ t'.current = t.current
        ∧ r = .writeToNetwork (s.sealPacket P src) := by
  have hpacket := encapsulate_packet h
  cases encapsulate_cases h with
  | send s s' packet hs hformat hsessions hcurrent _ _ hresult =>
    obtain ⟨rfl, rfl⟩ := Session.formatPacketData_eq_some hformat
    exact .inr ⟨s, hs, hsessions, hcurrent, hresult⟩
  | queue _ h =>
    have hdrops := drops_formatHandshakeInitiation (P := P) (t.queuePacket src) dstLen false now
      ephemeral
    rw [h] at hdrops
    exact .inl ⟨(drops_queuePacket t src).trans hdrops, hpacket⟩

theorem effect_encapsulate {src : Bytes} (hdrops : t₀.Drops t) (hpacket : c.packet P = none)
    (hsource : c.source t₀ = some src ∨ src = [])
    (h : t.encapsulate P src dstLen now ephemeral = some (t', r))
    : Effect P c t₀ t' r := by
  rcases encapsulate_eq_some h with ⟨hdrops', hnone⟩ | ⟨s, hs, hsessions, hcurrent, hresult⟩
  . exact .drop (hdrops.trans hdrops') hnone
  . refine .send s src hpacket hsource (hdrops.currentSession hs) ?_ ?_ (hcurrent.trans hdrops.current)
      hresult
    . rw [currentSession, hcurrent, hsessions, Function.update_self]
    . intro i hi
      rw [← hdrops.current] at hi
      rw [hsessions, Function.update_of_ne hi]
      exact hdrops.sessions i

theorem effect_sendQueuedPacket (hpacket : c.packet P = none)
    (hsource : c.source t = t.packetQueue.head?)
    (h : t.sendQueuedPacket P dstLen now ephemeral = some (t', r))
    : Effect P c t t' r := by
  unfold sendQueuedPacket at h
  split at h
  . cases h
    exact .drop (.refl t) rfl
  . next packet rest hqueue =>
    rw [hqueue] at hsource
    have hdrops : t.Drops { t with packetQueue := rest } := ⟨fun _ => .inl rfl, rfl⟩
    split at h
    . simp at h
    . next t₁ e hencapsulate =>
      cases h
      rcases encapsulate_eq_some hencapsulate with ⟨hdrops', _⟩ | ⟨_, _, _, _, hresult⟩
      . refine .drop ((hdrops.trans hdrops').trans ?_) rfl
        unfold requeuePacket
        split <;> exact ⟨fun _ => .inl rfl, rfl⟩
      . simp at hresult
    . next hencapsulate =>
      cases h
      exact effect_encapsulate hdrops hpacket (.inl hsource) hencapsulate

variable {result : Tunn × Except WireGuardError TunnResult}

theorem effect_handleHandshakeInit {p : HandshakeInit}
    (hpacket : c.packet P = some (.handshakeInit p))
    (h : t.handleHandshakeInit P p c.dstLen c.ephemeral = result)
    : Effect P c t (unwrapResult result).1 (unwrapResult result).2 := by
  unfold handleHandshakeInit at h
  split at h
  . subst h
    exact .drop ⟨fun _ => .inl rfl, rfl⟩ rfl
  . next hreceive =>
    subst h
    exact .respond p _ _ _ hpacket hreceive rfl rfl rfl

theorem current_setCurrentSession (t : Tunn) (newIdx : Nat)
    : (t.setCurrentSession newIdx).current = t.current
        ∨
      (t.setCurrentSession newIdx).current = newIdx := by
  unfold setCurrentSession
  split
  . exact .inl rfl
  . split
    . exact .inr rfl
    . exact .inl rfl

theorem sessions_setCurrentSession (t : Tunn) (newIdx : Nat)
    : (t.setCurrentSession newIdx).sessions = t.sessions := by
  unfold setCurrentSession
  split
  . rfl
  . split <;> rfl

theorem effect_handleHandshakeResponse {p : HandshakeResponse}
    (hpacket : c.packet P = some (.handshakeResponse p))
    (h : t.handleHandshakeResponse P p c.dstLen c.now = some result)
    : Effect P c t (unwrapResult result).1 (unwrapResult result).2 := by
  unfold handleHandshakeResponse at h
  split at h
  . cases h
    exact .drop ⟨fun _ => .inl rfl, rfl⟩ rfl
  . next s hreceive =>
    split at h
    . simp at h
    . next hformat =>
      obtain ⟨rfl, rfl⟩ := Session.formatPacketData_eq_some hformat
      cases h
      refine .establish p _ s hpacket hreceive ?_ ?_ rfl
      . exact sessions_setCurrentSession _ _
      . exact current_setCurrentSession _ _

theorem effect_handleCookieReply {p : PacketCookieReply} (h : t.handleCookieReply P p = result)
    : Effect P c t (unwrapResult result).1 (unwrapResult result).2 := by
  unfold handleCookieReply at h
  split at h
  . subst h
    exact .drop ⟨fun _ => .inl rfl, rfl⟩ rfl
  . subst h
    exact .drop ⟨fun _ => .inl rfl, rfl⟩ rfl

theorem effect_handleData {d : PacketData} (hpacket : c.packet P = some (.packetData d))
    (h : t.handleData P d c.dstLen = some result)
    : Effect P c t (unwrapResult result).1 (unwrapResult result).2 := by
  unfold handleData at h
  dsimp only at h
  split at h
  . cases h
    exact .drop (.refl t) rfl
  . next s hs =>
    split at h
    . simp at h
    . next hreceive =>
      cases h
      rcases Session.receivePacketData_eq_some hreceive with ⟨rfl, _⟩ | ⟨_, hok, _⟩
      . refine .drop ⟨?_, rfl⟩ rfl
        intro i
        rw [← hs, Function.update_eq_self]
        exact .inl rfl
      . simp at hok
    . next s' plain hreceive =>
      cases h
      rcases Session.receivePacketData_eq_some hreceive with ⟨_, _, herror⟩ | ⟨_, hok, hreceives⟩
      . simp at herror
      . cases hok
        refine .receive d s s' plain hpacket hs hreceives ?_ ?_ ⟨_, rfl⟩
        . exact (sameSessions_validateDecapsulatedPacket _ _).1.trans
            (sessions_setCurrentSession _ _)
        . simp only [unwrapResult, (sameSessions_validateDecapsulatedPacket _ _).2]
          exact current_setCurrentSession _ _

theorem effect_handleVerifiedPacket {packet : Packet} (hpacket : c.packet P = some packet)
    (h : t.handleVerifiedPacket P packet c.dstLen c.now c.ephemeral = some (t', r))
    : Effect P c t t' r := by
  cases packet with
  | handshakeInit p =>
    simp only [handleVerifiedPacket, Option.some.injEq] at h
    have heffect := effect_handleHandshakeInit (t := t) hpacket rfl
    rw [h] at heffect
    exact heffect
  | handshakeResponse p =>
    simp only [handleVerifiedPacket, Option.map_eq_some_iff] at h
    obtain ⟨result, hresult, h⟩ := h
    have heffect := effect_handleHandshakeResponse hpacket hresult
    rw [h] at heffect
    exact heffect
  | packetCookieReply p =>
    simp only [handleVerifiedPacket, Option.some.injEq] at h
    have heffect := effect_handleCookieReply (P := P) (c := c) (t := t) (p := p) rfl
    rw [h] at heffect
    exact heffect
  | packetData d =>
    simp only [handleVerifiedPacket, Option.map_eq_some_iff] at h
    obtain ⟨result, hresult, h⟩ := h
    have heffect := effect_handleData hpacket hresult
    rw [h] at heffect
    exact heffect

/--
Sessions, queued packets and the state of the handshake are only dropped.
-/
structure Sheds (t t' : Tunn) : Prop extends t.Drops t' where
  packetQueue : t'.packetQueue = t.packetQueue ∨ t'.packetQueue = []
  handshake : t.handshake.Forgets t'.handshake

theorem Sheds.of_eq (hsessions : t'.sessions = t.sessions) (hcurrent : t'.current = t.current)
    (hqueue : t'.packetQueue = t.packetQueue) (hhandshake : t.handshake.Forgets t'.handshake)
    : t.Sheds t' where
  sessions := fun i => .inl (congrFun hsessions i)
  current := hcurrent
  packetQueue := .inl hqueue
  handshake := hhandshake

theorem Sheds.trans {t₁ t₂ t₃ : Tunn} (h₁ : t₁.Sheds t₂) (h₂ : t₂.Sheds t₃) : t₁.Sheds t₃ where
  toDrops := h₁.toDrops.trans h₂.toDrops
  packetQueue := by
    rcases h₂.packetQueue with heq | hempty
    . rw [heq]
      exact h₁.packetQueue
    . exact .inr hempty
  handshake := h₁.handshake.trans h₂.handshake

theorem Ages.sheds (h : Ages now t t') : t.Sheds t' := by
  refine ⟨⟨?_, h.current⟩, .inl h.packetQueue, ?_⟩
  . intro i
    rw [h.sessions]
    split
    . exact .inr rfl
    . exact .inl rfl
  . rw [h.handshake]
    exact .refl

theorem Prepares.sheds (h : t.Prepares t') : t.Sheds t' := by
  refine .of_eq h.sessions h.current h.packetQueue ?_
  rcases h.handshake with heq | heq
  . rw [heq]
    exact .refl
  . rw [heq]
    exact .clearCookie .refl

theorem sheds_expire (t : Tunn) (now : Instant) : t.Sheds (t.expire now).1 :=
  ⟨⟨fun _ => .inr rfl, rfl⟩, .inr rfl, .setExpired .refl⟩

inductive TimerAction (P : Primitives) (dstLen : Nat) (now : Instant) (ephemeral : FixedBytes 32)
    (t : Tunn) (t' : Tunn) (r : TunnResult) : Prop where
  | none (hsheds : t.Sheds t') (hpacket : r.packet = none)
  | initiate (t₁ : Tunn) (hsheds : t.Sheds t₁)
    (h : t₁.formatHandshakeInitiation P dstLen true now ephemeral = (t', r))
  | keepalive (t₁ : Tunn) (hsheds : t.Sheds t₁)
    (h : t₁.encapsulate P [] dstLen now ephemeral = some (t', r))

theorem timerAction_updateTimers {rl rl' : RateLimiter} {later : Instant}
    (h : t.updateTimers P rl dstLen now later ephemeral = some (rl', t', r))
    : TimerAction P dstLen later ephemeral t t' r := by
  obtain ⟨t₁, hages, hcase⟩ := updateTimers_cases h
  cases hcase with
  | expired _ htunnel hresult =>
    rw [htunnel, hresult]
    exact .none hages.sheds rfl
  | expire t₂ _ hprepares h =>
    cases h
    exact .none ((hages.sheds.trans hprepares.sheds).trans (sheds_expire t₂ later)) rfl
  | initiate t₂ _ hprepares h => exact .initiate t₂ (hages.sheds.trans hprepares.sheds) h
  | keepalive t₂ _ hprepares h => exact .keepalive t₂ (hages.sheds.trans hprepares.sheds) h
  | done _ hprepares hresult =>
    rw [hresult]
    exact .none (hages.sheds.trans hprepares.sheds) rfl

theorem effect_of_timerAction (hpacket : c.packet P = none)
    (h : TimerAction P dstLen now ephemeral t t' r)
    : Effect P c t t' r := by
  cases h with
  | none hsheds hnone => exact .drop hsheds.toDrops hnone
  | initiate t₁ hsheds h =>
    have hdrops := drops_formatHandshakeInitiation (P := P) t₁ dstLen true now ephemeral
    have hnone := formatHandshakeInitiation_packet (P := P) t₁ dstLen true now ephemeral
    rw [h] at hdrops hnone
    exact .drop (hsheds.toDrops.trans hdrops) hnone
  | keepalive t₁ hsheds h => exact effect_encapsulate hsheds.toDrops hpacket (.inr rfl) h

/--
All that a call can do.
-/
inductive CallCase (P : Primitives) (t : Tunn) (c : Call) (t' : Tunn) (r : TunnResult) : Prop where
  | encapsulate (src : Bytes)
    (hpacket : c.packet P = none)
    (hsource : c.source t = some src)
    (hgiven : c.given = some src)
    (h : t.encapsulate P src c.dstLen c.now c.ephemeral = some (t', r))
  | queue
    (hpacket : c.packet P = none)
    (hsource : c.source t = t.packetQueue.head?)
    (hgiven : c.given = none)
    (h : t.sendQueuedPacket P c.dstLen c.now c.ephemeral = some (t', r))
  | reject
    (hpacket : c.packet P = none)
    (hsource : c.source t = none)
    (hgiven : c.given = none)
    (htunnel : t' = t)
    (hresult : r.packet = none)
  | packet (packet : Packet)
    (hpacket : c.packet P = some packet)
    (hsource : c.source t = none)
    (hgiven : c.given = none)
    (h : t.handleVerifiedPacket P packet c.dstLen c.now c.ephemeral = some (t', r))
  | initiate (forceResend : Bool)
    (hpacket : c.packet P = none)
    (hsource : c.source t = none)
    (hgiven : c.given = none)
    (h : t.formatHandshakeInitiation P c.dstLen forceResend c.now c.ephemeral = (t', r))
  | timers (rl rl' : RateLimiter) (later : Instant)
    (hpacket : c.packet P = none)
    (hsource : c.source t = none)
    (hgiven : c.given = none)
    (hoperation : c.operation = .updateTimers rl later)
    (h : t.updateTimers P rl c.dstLen c.now later c.ephemeral = some (rl', t', r))
  | setKey (staticPrivate staticPublic : FixedBytes 32) (ref : RateLimiterRef) (params : NoiseParams)
    (hoperation : c.operation = .setStaticPrivate staticPrivate staticPublic ref)
    (hsource : c.source t = none)
    (hgiven : c.given = none)
    (hhandshake : t'.handshake = { t.handshake with params })
    (hsessions : ∀ i, t'.sessions i = none)
    (hcurrent : t'.current = t.current)
    (hqueue : t'.packetQueue = t.packetQueue)
    (htimers : t'.timers = { t.timers with shouldResetRr := false })
    (hresult : r = .done)

theorem call_of_step {os : List TunnResult} (h : (machine P).step t c = some (t', os))
    : ∃ r, os = [r] ∧ t.call P c = some (t', r) := by
  simp only [machine, Option.map_eq_some_iff] at h
  obtain ⟨⟨t₁, r⟩, hcall, heq⟩ := h
  cases heq
  exact ⟨r, rfl, hcall⟩

theorem callCase_of_call (h : t.call P c = some (t', r)) : CallCase P t c t' r := by
  cases hop : c.operation with
  | encapsulate src =>
    simp only [call, hop] at h
    exact .encapsulate src (by simp only [Call.packet, hop]) (by simp only [Call.source, hop])
      (by simp only [Call.given, hop]) h
  | decapsulate rl srcAddr datagram =>
    simp only [call, hop, Option.map_eq_some_iff] at h
    obtain ⟨⟨rl', result⟩, h, rfl⟩ := h
    have hgiven : c.given = none := by simp only [Call.given, hop]
    cases decapsulate_cases h with
    | queue hempty h =>
      exact .queue (by simp only [Call.packet, hop, hempty, if_true])
        (by simp only [Call.source, hop, hempty, if_true]) hgiven h
    | reject hempty hverify htunnel =>
      exact .reject (by simp [Call.packet, hop, hempty, hverify])
        (by simp [Call.source, hop, hempty]) hgiven htunnel
        (RateLimiter.verifyPacket_packet hverify)
    | packet packet hempty hverify h =>
      exact .packet packet (by simp [Call.packet, hop, hempty, hverify])
        (by simp [Call.source, hop, hempty]) hgiven h
  | handleVerifiedPacket packet =>
    simp only [call, hop] at h
    exact .packet packet (by simp only [Call.packet, hop]) (by simp only [Call.source, hop])
      (by simp only [Call.given, hop]) h
  | formatHandshakeInitiation forceResend =>
    simp only [call, hop, Option.some.injEq] at h
    exact .initiate forceResend (by simp only [Call.packet, hop]) (by simp only [Call.source, hop])
      (by simp only [Call.given, hop]) h
  | updateTimers rl later =>
    simp only [call, hop, Option.map_eq_some_iff] at h
    obtain ⟨⟨rl', result⟩, h, rfl⟩ := h
    exact .timers rl rl' later (by simp only [Call.packet, hop]) (by simp only [Call.source, hop])
      (by simp only [Call.given, hop]) hop h
  | setStaticPrivate staticPrivate staticPublic ref =>
    simp only [call, hop, Option.map_eq_some_iff] at h
    obtain ⟨t₁, h, heq⟩ := h
    cases heq
    unfold setStaticPrivate Handshake.setStaticPrivate at h
    split at h
    . simp at h
    . next hset =>
      split at hset
      . simp at hset
      . next params _ =>
        cases hset
        cases h
        exact .setKey staticPrivate staticPublic ref params hop (by simp only [Call.source, hop])
          (by simp only [Call.given, hop]) rfl (fun _ => rfl) rfl rfl rfl rfl

theorem effect_of_call (h : t.call P c = some (t', r)) : Effect P c t t' r := by
  cases callCase_of_call h with
  | encapsulate src hpacket hsource _ h =>
    exact effect_encapsulate (.refl t) hpacket (.inl hsource) h
  | queue hpacket hsource _ h => exact effect_sendQueuedPacket hpacket hsource h
  | reject _ _ _ htunnel hresult =>
    rw [htunnel]
    exact .drop (.refl t) hresult
  | packet packet hpacket _ _ h => exact effect_handleVerifiedPacket hpacket h
  | initiate forceResend _ _ _ h =>
    have hdrops := drops_formatHandshakeInitiation (P := P) t c.dstLen forceResend c.now c.ephemeral
    have hresult := formatHandshakeInitiation_packet (P := P) t c.dstLen forceResend c.now c.ephemeral
    rw [h] at hdrops hresult
    exact .drop hdrops hresult
  | timers _ _ _ hpacket _ _ _ h => exact effect_of_timerAction hpacket (timerAction_updateTimers h)
  | setKey _ _ _ _ _ _ _ _ hsessions hcurrent _ _ hresult =>
    rw [hresult]
    exact .drop ⟨fun i => .inr (hsessions i), hcurrent⟩ rfl

section Queue

variable {src packet : Bytes}

theorem packetQueue_formatHandshakeInitiation (t : Tunn) (dstLen : Nat) (forceResend : Bool)
    (now : Instant) (ephemeral : FixedBytes 32)
    : (t.formatHandshakeInitiation P dstLen forceResend now ephemeral).1.packetQueue
        =
      t.packetQueue := by
  unfold formatHandshakeInitiation
  split
  . rfl
  . dsimp only
    split
    . split <;> rfl
    . split <;> split <;> rfl

theorem formatHandshakeInitiation_ne_err {forceResend : Bool} {e : WireGuardError}
    (hdst : handshakeInitSz ≤ dstLen)
    : (t.formatHandshakeInitiation P dstLen forceResend now ephemeral).2 ≠ .err e := by
  unfold formatHandshakeInitiation
  split
  . simp
  . dsimp only
    split
    . next hformat =>
      unfold Handshake.formatHandshakeInitiation at hformat
      rw [if_neg (by omega)] at hformat
      simp at hformat
    . split <;> split <;> simp

theorem count_queuePacket (t : Tunn) (src packet : Bytes)
    : (t.queuePacket packet).packetQueue.count src ≤ t.packetQueue.count src + [packet].count src := by
  unfold queuePacket
  split
  . exact Nat.le_of_eq List.count_append
  . omega

theorem count_encapsulate (src : Bytes)
    (h : t.encapsulate P packet dstLen now ephemeral = some (t', r))
    : t'.packetQueue.count src
        ≤
      t.packetQueue.count src + if t.currentSession.isSome then 0 else [packet].count src := by
  cases encapsulate_cases h with
  | send _ _ _ hs _ _ _ hqueue _ _ =>
    rw [hqueue, hs]
    simp
  | queue hs h =>
    have hqueue := packetQueue_formatHandshakeInitiation (P := P) (t.queuePacket packet) dstLen false
      now ephemeral
    rw [h] at hqueue
    rw [hqueue, hs]
    exact count_queuePacket t src packet

theorem encapsulate_ne_err {e : WireGuardError}
    (hdst : t.currentSession = none → handshakeInitSz ≤ dstLen)
    : t.encapsulate P packet dstLen now ephemeral ≠ some (t', .err e) := by
  intro h
  cases encapsulate_cases h with
  | send _ _ _ _ _ _ _ _ _ hresult => cases hresult
  | queue hs h => exact formatHandshakeInitiation_ne_err (hdst hs) (congrArg Prod.snd h)

theorem count_sendQueuedPacket (src : Bytes)
    (hdst : t.currentSession = none → handshakeInitSz ≤ dstLen)
    (h : t.sendQueuedPacket P dstLen now ephemeral = some (t', r))
    : (if t.currentSession.isSome then t.packetQueue.head? else none).toList.count src
        + t'.packetQueue.count src
        ≤
      t.packetQueue.count src := by
  unfold sendQueuedPacket at h
  split at h
  . next hqueue =>
    cases h
    simp [hqueue]
  . next packet rest hqueue =>
    have hrest : t.packetQueue.count src = [packet].count src + rest.count src := by
      rw [hqueue, ← List.singleton_append, List.count_append]
    split at h
    . simp at h
    . next hencapsulate => exact absurd hencapsulate (encapsulate_ne_err hdst)
    . next hencapsulate =>
      cases h
      have hcount := count_encapsulate src hencapsulate
      have hcount : t'.packetQueue.count src
          ≤ rest.count src + if t.currentSession.isSome then 0 else [packet].count src := hcount
      rw [hrest, hqueue, List.head?_cons]
      split
      . next hsome =>
        rw [if_pos hsome] at hcount
        rw [Option.toList_some]
        omega
      . next hnone =>
        rw [if_neg hnone] at hcount
        rw [Option.toList_none, List.count_nil]
        omega

theorem packetQueue_setCurrentSession (t : Tunn) (newIdx : Nat)
    : (t.setCurrentSession newIdx).packetQueue = t.packetQueue := by
  unfold setCurrentSession
  split
  . rfl
  . split <;> rfl

theorem packetQueue_validateDecapsulatedPacket (t : Tunn) (plain : Bytes)
    : (t.validateDecapsulatedPacket plain).1.packetQueue = t.packetQueue := by
  unfold validateDecapsulatedPacket
  split
  . rfl
  . split
    . rfl
    . split
      . rfl
      . dsimp only
        split <;> rfl

theorem packetQueue_handleVerifiedPacket {packet : Packet}
    (h : t.handleVerifiedPacket P packet dstLen now ephemeral = some (t', r))
    : t'.packetQueue = t.packetQueue := by
  cases packet with
  | handshakeInit p =>
    simp only [handleVerifiedPacket, Option.some.injEq, handleHandshakeInit] at h
    split at h <;>
    . cases h
      rfl
  | handshakeResponse p =>
    simp only [handleVerifiedPacket, Option.map_eq_some_iff, handleHandshakeResponse] at h
    obtain ⟨result, hresult, h⟩ := h
    split at hresult
    . cases hresult
      cases h
      rfl
    . split at hresult
      . simp at hresult
      . cases hresult
        cases h
        exact packetQueue_setCurrentSession _ _
  | packetCookieReply p =>
    simp only [handleVerifiedPacket, Option.some.injEq, handleCookieReply] at h
    split at h <;>
    . cases h
      rfl
  | packetData d =>
    simp only [handleVerifiedPacket, Option.map_eq_some_iff, handleData] at h
    obtain ⟨result, hresult, h⟩ := h
    split at hresult
    . cases hresult
      cases h
      rfl
    . split at hresult
      . simp at hresult
      . cases hresult
        cases h
        rfl
      . cases hresult
        cases h
        exact (packetQueue_validateDecapsulatedPacket _ _).trans (packetQueue_setCurrentSession _ _)

theorem count_of_timerAction (hsrc : src ≠ []) (h : TimerAction P dstLen now ephemeral t t' r)
    : t'.packetQueue.count src ≤ t.packetQueue.count src := by
  have hsheds : ∀ t₁, t.Sheds t₁ → t₁.packetQueue.count src ≤ t.packetQueue.count src := by
    intro t₁ hsheds
    rcases hsheds.packetQueue with heq | hempty
    . exact Nat.le_of_eq (by rw [heq])
    . simp [hempty]
  cases h with
  | none h => exact hsheds t' h
  | initiate t₁ h hformat =>
    have hqueue := packetQueue_formatHandshakeInitiation (P := P) t₁ dstLen true now ephemeral
    rw [hformat] at hqueue
    rw [hqueue]
    exact hsheds t₁ h
  | keepalive t₁ h hencapsulate =>
    -- a keepalive for which there is no session is queued, but it is empty
    have hcount := count_encapsulate src hencapsulate
    rw [List.count_singleton, beq_eq_false_iff_ne.mpr hsrc.symm, if_neg Bool.false_ne_true, ite_self]
      at hcount
    exact Nat.le_trans hcount (hsheds t₁ h)

theorem count_of_source_none (hsource : c.source t = none) (hsrc : src ≠ [])
    (h : t.call P c = some (t', r))
    : t'.packetQueue.count src ≤ t.packetQueue.count src := by
  have hkeep : ∀ {t' : Tunn}, t'.packetQueue = t.packetQueue →
      t'.packetQueue.count src ≤ t.packetQueue.count src :=
    fun hqueue => Nat.le_of_eq (congrArg (List.count src) hqueue)
  cases callCase_of_call h with
  | encapsulate _ _ hsome _ _ => simp [hsource] at hsome
  | queue _ hhead _ h =>
    rw [hsource, eq_comm, List.head?_eq_none_iff] at hhead
    simp only [sendQueuedPacket, hhead, Option.some.injEq, Prod.mk.injEq] at h
    exact hkeep (by rw [h.1])
  | reject _ _ _ htunnel _ => exact hkeep (by rw [htunnel])
  | packet _ _ _ _ h => exact hkeep (packetQueue_handleVerifiedPacket h)
  | initiate forceResend _ _ _ h =>
    have hqueue := packetQueue_formatHandshakeInitiation (P := P) t c.dstLen forceResend c.now
      c.ephemeral
    rw [h] at hqueue
    exact hkeep hqueue
  | timers _ _ _ _ _ _ _ h => exact count_of_timerAction hsrc (timerAction_updateTimers h)
  | setKey _ _ _ _ _ _ _ _ _ _ hqueue _ _ => exact hkeep hqueue

theorem call_cases (h : t.call P c = some (t', r))
    : (∃ packet, c.source t = some packet ∧ c.given = some packet
        ∧ t.encapsulate P packet c.dstLen c.now c.ephemeral = some (t', r))
        ∨
      (c.source t = t.packetQueue.head? ∧ c.given = none
        ∧ t.sendQueuedPacket P c.dstLen c.now c.ephemeral = some (t', r))
        ∨
      (c.source t = none ∧ c.given = none) := by
  cases callCase_of_call h with
  | encapsulate src _ hsource hgiven h => exact .inl ⟨src, hsource, hgiven, h⟩
  | queue _ hsource hgiven h => exact .inr (.inl ⟨hsource, hgiven, h⟩)
  | reject _ hsource hgiven _ _ => exact .inr (.inr ⟨hsource, hgiven⟩)
  | packet _ _ hsource hgiven _ => exact .inr (.inr ⟨hsource, hgiven⟩)
  | initiate _ _ hsource hgiven _ => exact .inr (.inr ⟨hsource, hgiven⟩)
  | timers _ _ _ _ hsource hgiven _ _ => exact .inr (.inr ⟨hsource, hgiven⟩)
  | setKey _ _ _ _ _ hsource hgiven _ _ _ _ _ _ => exact .inr (.inr ⟨hsource, hgiven⟩)

/--
Every packet that is sent or left in the queue was in the queue before or was handed over, unless the
buffer is too small for the initiation of a handshake.
-/
theorem count_of_call (hsrc : src ≠ [])
    (hdst : t.currentSession = none → handshakeInitSz ≤ c.dstLen)
    (h : t.call P c = some (t', r))
    : (c.sent t).toList.count src + t'.packetQueue.count src
        ≤
      c.given.toList.count src + t.packetQueue.count src := by
  unfold Call.sent
  rcases call_cases h with ⟨packet, hsource, hgiven, hcall⟩ | ⟨hsource, hgiven, hcall⟩
    | ⟨hsource, hgiven⟩
  . have hcount := count_encapsulate src hcall
    rw [hsource, hgiven, Option.toList_some]
    split at hcount
    . next hsome =>
      rw [if_pos hsome, Option.toList_some]
      omega
    . next hnone =>
      rw [if_neg hnone, Option.toList_none, List.count_nil]
      omega
  . have hcount := count_sendQueuedPacket src hdst hcall
    rw [hsource]
    omega
  . have hcount := count_of_source_none hsource hsrc h
    rw [hsource, ite_self, Option.toList_none, List.count_nil]
    omega

theorem mem_encapsulate (h : t.encapsulate P packet dstLen now ephemeral = some (t', r))
    (hmem : src ∈ t'.packetQueue)
    : src ∈ t.packetQueue ∨ src = packet := by
  have hcount := count_encapsulate src h
  have hpos := List.count_pos_iff.mpr hmem
  by_cases heq : src = packet
  . exact .inr heq
  . left
    rw [List.count_singleton, beq_eq_false_iff_ne.mpr (Ne.symm heq), if_neg Bool.false_ne_true,
      ite_self] at hcount
    exact List.count_pos_iff.mp (Nat.lt_of_lt_of_le hpos hcount)

theorem mem_sendQueuedPacket (h : t.sendQueuedPacket P dstLen now ephemeral = some (t', r))
    (hmem : src ∈ t'.packetQueue)
    : src ∈ t.packetQueue := by
  unfold sendQueuedPacket at h
  split at h
  . cases h
    exact hmem
  . next packet rest hqueue =>
    have hold : ∀ t₁ r₁, ({ t with packetQueue := rest }).encapsulate P packet dstLen now ephemeral
        = some (t₁, r₁) → src ∈ t₁.packetQueue → src ∈ packet :: rest := by
      intro t₁ r₁ h hmem
      rcases mem_encapsulate h hmem with hmem | rfl
      . exact List.mem_cons_of_mem packet hmem
      . exact List.mem_cons_self
    rw [hqueue]
    split at h
    . simp at h
    . next hencapsulate =>
      cases h
      unfold requeuePacket at hmem
      split at hmem
      . rcases List.mem_cons.mp hmem with rfl | hmem
        . exact List.mem_cons_self
        . exact hold _ _ hencapsulate hmem
      . exact hold _ _ hencapsulate hmem
    . next hencapsulate =>
      cases h
      exact hold _ _ hencapsulate hmem

theorem mem_of_call (hsrc : src ≠ []) (h : t.call P c = some (t', r)) (hmem : src ∈ t'.packetQueue)
    : src ∈ t.packetQueue ∨ c.given = some src := by
  rcases call_cases h with ⟨packet, _, hgiven, hcall⟩ | ⟨_, _, hcall⟩ | ⟨hsource, _⟩
  . rcases mem_encapsulate hcall hmem with hmem | rfl
    . exact .inl hmem
    . exact .inr hgiven
  . exact .inl (mem_sendQueuedPacket hcall hmem)
  . have hcount := count_of_source_none hsource hsrc h
    exact .inl (List.count_pos_iff.mp (Nat.lt_of_lt_of_le (List.count_pos_iff.mpr hmem) hcount))

end Queue

end Tunn

end Noise
