import VeilVpn.Loop
import VeilVpn.Noise.Lemmas.Tunn

namespace Noise

namespace Timers

/--
The time since the tunnel was created. All timers are counted from there.
-/
def elapsed (T : Timers) (now : Instant) : Duration :=
  now.durationSince T.timeStarted

structure Within (T : Timers) (d : Duration) : Prop where
  timers : ∀ name, T.timers name ≤ d
  sessionTimers : ∀ i, T.sessionTimers i ≤ d

theorem Within.mono {T : Timers} {d d' : Duration} (h : T.Within d) (hle : d ≤ d') : T.Within d' :=
  ⟨fun name => Nat.le_trans (h.timers name) hle, fun i => Nat.le_trans (h.sessionTimers i) hle⟩

structure Ticks (now : Instant) (T T' : Timers) : Prop where
  timeStarted : T'.timeStarted = T.timeStarted
  within : ∀ d, T.elapsed now ≤ d → T.Within d → T'.Within d

theorem Ticks.refl (now : Instant) (T : Timers) : T.Ticks now T :=
  ⟨rfl, fun _ _ => id⟩

theorem Ticks.elapsed {now : Instant} {T T' : Timers} (h : T.Ticks now T') (now' : Instant)
    : T'.elapsed now' = T.elapsed now' := by
  unfold Timers.elapsed
  rw [h.timeStarted]

theorem Ticks.trans {now : Instant} {T₁ T₂ T₃ : Timers} (h₁ : T₁.Ticks now T₂) (h₂ : T₂.Ticks now T₃)
    : T₁.Ticks now T₃ where
  timeStarted := h₂.timeStarted.trans h₁.timeStarted
  within := by
    intro d hd hwithin
    exact h₂.within d (h₁.elapsed now ▸ hd) (h₁.within d hd hwithin)

theorem ticks_clear (T : Timers) (now : Instant) : T.Ticks now (T.clear now) :=
  ⟨rfl, fun _ hd h => ⟨fun _ => hd, h.sessionTimers⟩⟩

theorem elapsed_mono (T : Timers) {now now' : Instant} (h : now ≤ now')
    : T.elapsed now ≤ T.elapsed now' :=
  Nat.sub_le_sub_right h _

theorem Ticks.mono {now later : Instant} {T T' : Timers} (h : T.Ticks now T') (hle : now ≤ later)
    : T.Ticks later T' :=
  ⟨h.timeStarted, fun d hd => h.within d (Nat.le_trans (T.elapsed_mono hle) hd)⟩

end Timers

namespace Tunn

variable {P : Primitives} {t t' t₁ t₂ : Tunn} {r : TunnResult} {dstLen : Nat}
  {now later : Instant} {ephemeral : FixedBytes 32}

section Cases

/--
What the timers change before they know what has to be sent: an old cookie is forgotten, a wish is
taken back and the persistent keepalive begins again.
-/
structure Prepares (t t' : Tunn) : Prop where
  handshake : t'.handshake = t.handshake ∨ t'.handshake = t.handshake.clearCookie
  sessions : t'.sessions = t.sessions
  current : t'.current = t.current
  packetQueue : t'.packetQueue = t.packetQueue
  timeStarted : t'.timers.timeStarted = t.timers.timeStarted
  sessionTimers : t'.timers.sessionTimers = t.timers.sessionTimers
  timers : ∀ name, t'.timers.timers name = t.timers.timers name
    ∨ t'.timers.timers name = t.timers.timers .timeCurrent

theorem Prepares.refl (t : Tunn) : t.Prepares t :=
  ⟨.inl rfl, rfl, rfl, rfl, rfl, rfl, fun _ => .inl rfl⟩

theorem Prepares.trans (h₁ : t.Prepares t₁) (h₂ : t₁.Prepares t₂) : t.Prepares t₂ where
  handshake := by
    rcases h₂.handshake with heq | heq
    . rw [heq]
      exact h₁.handshake
    . rcases h₁.handshake with heq' | heq'
      all_goals
        rw [heq, heq']
        exact .inr rfl
  sessions := h₂.sessions.trans h₁.sessions
  current := h₂.current.trans h₁.current
  packetQueue := h₂.packetQueue.trans h₁.packetQueue
  timeStarted := h₂.timeStarted.trans h₁.timeStarted
  sessionTimers := h₂.sessionTimers.trans h₁.sessionTimers
  timers := by
    intro name
    have hcurrent : t₁.timers.timers .timeCurrent = t.timers.timers .timeCurrent :=
      (h₁.timers .timeCurrent).elim id id
    rcases h₂.timers name with heq | heq
    . rw [heq]
      exact h₁.timers name
    . exact .inr (heq.trans hcurrent)

theorem prepares_clearCookie (t : Tunn)
    : t.Prepares { t with handshake := t.handshake.clearCookie } :=
  { Prepares.refl t with handshake := .inr rfl }

theorem prepares_tick (t : Tunn) : t.Prepares (t.timerTick .timePersistentKeepalive) where
  handshake := .inl rfl
  sessions := rfl
  current := rfl
  packetQueue := rfl
  timeStarted := rfl
  sessionTimers := rfl
  timers := by
    intro name
    simp only [timerTick, Function.update_apply]
    split
    . exact .inr rfl
    . exact .inl rfl

theorem prepares_wish (t : Tunn) (wantHandshake wantKeepalive : Bool)
    : t.Prepares { t with timers := { t.timers with wantHandshake, wantKeepalive } } :=
  ⟨.inl rfl, rfl, rfl, rfl, rfl, rfl, fun _ => .inl rfl⟩

theorem Prepares.ite (b : Bool) (h₁ : t.Prepares t₁) (h₂ : t.Prepares t₂)
    : t.Prepares (if b then t₁ else t₂) := by
  split
  . exact h₁
  . exact h₂

theorem isSome_sub {a b : Duration} (h : b ≤ a) : (Duration.sub a b).isSome := by
  unfold Duration.sub
  rw [if_pos h]
  rfl

theorem isSome_idleFor {packet since timeNow : Duration} (limit : Duration) (h : since ≤ timeNow)
    : (idleFor packet since timeNow limit).isSome := by
  unfold idleFor
  split
  . rw [Option.isSome_map]
    exact isSome_sub h
  . rfl

/--
All that `dueActions` can do: it fails if a timer is ahead of the clock, and prepares the tunnel
otherwise.
-/
inductive DueCase (t : Tunn) (timeNow : Duration) : Option (Tunn × Bool × Bool) → Prop where
  | ahead (name : TimerName) (hahead : ¬t.timers.timers name ≤ timeNow) : DueCase t timeNow none
  | due (t₁ : Tunn) (initiates keeps : Bool) (hprepares : t.Prepares t₁)
    : DueCase t timeNow (some (t₁, initiates, keeps))

section DueCase

variable {timeNow : Duration}

theorem DueCase.bind {α : Type} {x : Option α} {f : α → Option (Tunn × Bool × Bool)}
    {name : TimerName} (hx : t.timers.timers name ≤ timeNow → x.isSome)
    (h : ∀ a, DueCase t timeNow (f a))
    : DueCase t timeNow (x >>= f) := by
  cases x with
  | some a => exact h a
  | none =>
    apply DueCase.ahead name
    intro hle
    cases hx hle

theorem DueCase.idleFor {limit : Duration} {name name' : TimerName}
    {f : Bool → Option (Tunn × Bool × Bool)} (h : ∀ b, DueCase t timeNow (f b))
    : DueCase t timeNow
        (idleFor (t.timers.timers name) (t.timers.timers name') timeNow limit >>= f) :=
  .bind (isSome_idleFor limit) h

theorem DueCase.sub (hprepares : t.Prepares t₁) (name : TimerName)
    {f : Duration → Option (Tunn × Bool × Bool)} (h : ∀ d, DueCase t timeNow (f d))
    : DueCase t timeNow (Duration.sub timeNow (t₁.timers.timers name) >>= f) := by
  rcases hprepares.timers name with heq | heq
  all_goals
    rw [heq]
    exact .bind isSome_sub h

theorem dueActions_cases (t : Tunn) (timeNow : Duration)
    : DueCase t timeNow (t.dueActions timeNow) := by
  unfold dueActions
  extract_lets get sessionEstablished autPacketReceived autPacketSent dataPacketReceived
    dataPacketSent timers onSend
  have honSend : ∀ b, DueCase t timeNow (onSend b) := by
    intro rekeyOnSend
    dsimp -zeta only [onSend]
    extract_lets onReceive
    have honReceive : ∀ b, DueCase t timeNow (onReceive b) := by
      intro rekeyOnReceive
      dsimp -zeta only [onReceive]
      refine .idleFor fun noAnswer => ?_
      extract_lets wantHandshake t₁
      have ht₁ : t.Prepares t₁ := .ite noAnswer (prepares_wish t _ _) (.refl t)
      clear_value t₁
      split
      . exact .due _ _ _ ht₁
      . refine .idleFor fun noReply => ?_
        extract_lets wantKeepalive t₂ rest
        have ht₂ : t.Prepares t₂ := ht₁.trans (.ite noReply (prepares_wish t₁ _ _) (.refl t₁))
        have hrest : DueCase t timeNow (rest ()) := .due _ _ _ ht₂
        split
        . refine .sub ht₂ _ fun d => ?_
          split
          . exact .due _ _ _ (ht₂.trans (prepares_tick t₂))
          . exact hrest
        . exact hrest
    split
    . exact .idleFor honReceive
    . exact honReceive false
  split
  . exact .idleFor honSend
  . exact honSend false

end DueCase

theorem prepares_dueActions (t : Tunn) (timeNow : Duration)
    : ∀ due ∈ t.dueActions timeNow, t.Prepares due.1 := by
  have hcase := dueActions_cases t timeNow
  generalize t.dueActions timeNow = r at hcase ⊢
  cases hcase with
  | ahead => simp
  | due t₁ initiates keeps hprepares =>
    intro due hdue
    cases hdue
    exact hprepares

inductive RunTimersCase (P : Primitives) (dstLen : Nat) (later : Instant) (ephemeral : FixedBytes 32)
    (t t' : Tunn) (r : TunnResult) : Prop where
  | expired
    (hexpired : t.handshake.isExpired = true)
    (htunnel : t' = t)
    (hresult : r = .err .connectionExpired)
  | expire (t₁ : Tunn)
    (hlive : t.handshake.isExpired = false)
    (hprepares : t.Prepares t₁)
    (h : t₁.expire later = (t', r))
  | initiate (t₁ : Tunn)
    (hlive : t.handshake.isExpired = false)
    (hprepares : t.Prepares t₁)
    (h : t₁.formatHandshakeInitiation P dstLen true later ephemeral = (t', r))
  | keepalive (t₁ : Tunn)
    (hlive : t.handshake.isExpired = false)
    (hprepares : t.Prepares t₁)
    (h : t₁.encapsulate P [] dstLen later ephemeral = some (t', r))
  | done
    (hlive : t.handshake.isExpired = false)
    (hprepares : t.Prepares t')
    (hresult : r = .done)

theorem runTimersCase_due (due : Tunn × Bool × Bool) (hlive : t.handshake.isExpired = false)
    (hprepares : t.Prepares due.1)
    : ∀ result ∈ (if due.2.1 then
          pure (due.1.formatHandshakeInitiation P dstLen true later ephemeral)
        else if due.2.2 then
          due.1.encapsulate P [] dstLen later ephemeral
        else
          pure (due.1, .done)),
        RunTimersCase P dstLen later ephemeral t result.1 result.2 := by
  split
  . exact forall_mem_pure (.initiate due.1 hlive hprepares rfl)
  . split
    . intro result hresult
      exact .keepalive due.1 hlive hprepares hresult
    . exact forall_mem_pure (.done hlive hprepares rfl)

theorem runTimers_cases (t : Tunn) (dstLen : Nat) (now later : Instant) (ephemeral : FixedBytes 32)
    : ∀ result ∈ t.runTimers P dstLen now later ephemeral,
        RunTimersCase P dstLen later ephemeral t result.1 result.2 := by
  unfold runTimers
  extract_lets since send tick
  split
  . next hexpired => exact forall_mem_pure (.expired hexpired rfl rfl)
  . next hlive =>
    have hlive : t.handshake.isExpired = false := Bool.eq_false_iff.mpr hlive
    have hsend : ∀ due, t.Prepares due.1 → ∀ result ∈ send due,
        RunTimersCase P dstLen later ephemeral t result.1 result.2 := by
      rintro ⟨t₁, initiates, keeps⟩ hprepares
      exact runTimersCase_due (t₁, initiates, keeps) hlive hprepares
    clear_value send
    have htick : ∀ cookieAge, ∀ result ∈ tick cookieAge,
        RunTimersCase P dstLen later ephemeral t result.1 result.2 := by
      intro cookieAge
      dsimp only [tick]
      generalize hcookie : (if (t.handshake.hasCookie && decide (cookieExpirationTime ≤ cookieAge))
        = true then { t with handshake := t.handshake.clearCookie } else t) = t₁
      have hprepares : t.Prepares t₁ := by
        rw [← hcookie]
        split
        . exact prepares_clearCookie t
        . exact .refl t
      refine forall_mem_bind fun sessionAge _ => ?_
      split
      . exact forall_mem_pure (.expire t₁ hlive hprepares rfl)
      . split
        . refine forall_mem_bind fun attemptAge _ => ?_
          split
          . exact forall_mem_pure (.expire t₁ hlive hprepares rfl)
          . refine forall_mem_bind fun due hdue => ?_
            cases hdue
            exact hsend _ hprepares
        . refine forall_mem_bind fun due hdue => ?_
          exact hsend due (hprepares.trans (prepares_dueActions _ _ due hdue))
    split
    . exact forall_mem_bind fun cookieAge _ => htick cookieAge
    . exact forall_mem_bind fun cookieAge _ => htick cookieAge

structure Ages (now : Instant) (t t' : Tunn) : Prop where
  started : ∀ i, t.timers.sessionTimers i ≤ t.timers.elapsed now
  sessions : ∀ i, t'.sessions i =
    if rejectAfterTime < t.timers.elapsed now - t.timers.sessionTimers i then
      none
    else
      t.sessions i
  sessionTimers : ∀ i, t'.timers.sessionTimers i =
    if rejectAfterTime < t.timers.elapsed now - t.timers.sessionTimers i then
      t.timers.elapsed now
    else
      t.timers.sessionTimers i
  timers : t'.timers.timers = Function.update t.timers.timers .timeCurrent (t.timers.elapsed now)
  timeStarted : t'.timers.timeStarted = t.timers.timeStarted
  current : t'.current = t.current
  packetQueue : t'.packetQueue = t.packetQueue
  handshake : t'.handshake = t.handshake

theorem ages_updateSessionTimers
    (h : updateSessionTimers
      { t with timers := { t.timers with
        timers := Function.update t.timers.timers .timeCurrent (t.timers.elapsed now) } }
      (t.timers.elapsed now) = some t')
    : Ages now t t' := by
  unfold updateSessionTimers at h
  split at h
  . next hstarted =>
    cases h
    exact ⟨hstarted, fun _ => rfl, fun _ => rfl, rfl, rfl, rfl, rfl, rfl⟩
  . simp at h

theorem updateTimers_cases {rl rl' : RateLimiter}
    (h : t.updateTimers P rl dstLen now later ephemeral = some (rl', t', r))
    : ∃ t₁, Ages now t t₁ ∧ RunTimersCase P dstLen later ephemeral t₁ t' r := by
  unfold updateTimers at h
  simp only [Option.bind_eq_bind, Option.bind_eq_some_iff] at h
  obtain ⟨t₁, hsessions, result, hrun, h⟩ := h
  cases h
  exact ⟨t₁, ages_updateSessionTimers hsessions, runTimers_cases t₁ dstLen now later ephemeral _ hrun⟩

end Cases

section Clock

theorem ticks_timerTick (t : Tunn) (name : TimerName) (now : Instant)
    : t.timers.Ticks now (t.timerTick name).timers := by
  refine ⟨?_, ?_⟩
  . cases name <;> rfl
  . intro d _ h
    refine ⟨?_, ?_⟩
    . intro name'
      have htimers : (t.timerTick name).timers.timers
          = Function.update t.timers.timers name (t.timers.timers .timeCurrent) := by
        cases name <;> rfl
      rw [htimers, Function.update_apply]
      split
      . exact h.timers .timeCurrent
      . exact h.timers name'
    . have hsessionTimers : (t.timerTick name).timers.sessionTimers = t.timers.sessionTimers := by
        cases name <;> rfl
      rw [hsessionTimers]
      exact h.sessionTimers

theorem ticks_timerTickSessionEstablished (t : Tunn) (isInitiator : Bool) (sessionIdx : Nat)
    (now : Instant)
    : t.timers.Ticks now (t.timerTickSessionEstablished isInitiator sessionIdx).timers := by
  have htick := ticks_timerTick t .timeSessionEstablished now
  refine ⟨htick.timeStarted, ?_⟩
  intro d hd h
  have hwithin := htick.within d hd h
  refine ⟨hwithin.timers, ?_⟩
  intro i
  simp only [timerTickSessionEstablished, Function.update_apply]
  split
  . exact hwithin.timers .timeCurrent
  . exact hwithin.sessionTimers i

theorem ticks_formatHandshakeInitiation (t : Tunn) (dstLen : Nat) (forceResend : Bool)
    (now : Instant) (ephemeral : FixedBytes 32)
    : t.timers.Ticks now
        (t.formatHandshakeInitiation P dstLen forceResend now ephemeral).1.timers := by
  unfold formatHandshakeInitiation
  split
  . exact .refl now t.timers
  . dsimp only
    generalize ht₁ : (if t.handshake.isExpired = true then { t with timers := t.timers.clear now }
      else t) = t₁
    have hclear : t.timers.Ticks now t₁.timers := by
      rw [← ht₁]
      split
      . exact Timers.ticks_clear t.timers now
      . exact .refl now t.timers
    split
    . exact hclear
    . refine (hclear.trans ?_).trans (ticks_timerTick _ .timeLastPacketSent now)
      split
      . exact ticks_timerTick _ .timeLastHandshakeStarted now
      . exact .refl now _

theorem handshake_queuePacket (t : Tunn) (packet : Bytes)
    : (t.queuePacket packet).handshake = t.handshake := by
  unfold queuePacket
  split <;> rfl

theorem timers_queuePacket (t : Tunn) (packet : Bytes) : (t.queuePacket packet).timers = t.timers := by
  unfold queuePacket
  split <;> rfl

theorem timers_requeuePacket (t : Tunn) (packet : Bytes)
    : (t.requeuePacket packet).timers = t.timers := by
  unfold requeuePacket
  split <;> rfl

theorem timers_setCurrentSession (t : Tunn) (newIdx : Nat)
    : (t.setCurrentSession newIdx).timers = t.timers := by
  unfold setCurrentSession
  split
  . rfl
  . split <;> rfl

theorem ticks_encapsulate {src : Bytes} (h : t.encapsulate P src dstLen now ephemeral = some (t', r))
    : t.timers.Ticks now t'.timers := by
  unfold encapsulate at h
  split at h
  . split at h
    . simp at h
    . cases h
      refine (ticks_timerTick _ .timeLastPacketSent now).trans ?_
      split
      . exact .refl now _
      . exact ticks_timerTick _ .timeLastDataPacketSent now
  . have hticks := ticks_formatHandshakeInitiation (P := P) (t.queuePacket src) dstLen false now
      ephemeral
    rw [Option.some.inj h, timers_queuePacket] at hticks
    exact hticks

theorem ticks_sendQueuedPacket (h : t.sendQueuedPacket P dstLen now ephemeral = some (t', r))
    : t.timers.Ticks now t'.timers := by
  unfold sendQueuedPacket at h
  split at h
  . cases h
    exact .refl now t.timers
  . split at h
    . simp at h
    . next hencapsulate =>
      cases h
      have hticks := ticks_encapsulate hencapsulate
      rw [timers_requeuePacket]
      exact hticks
    . next hencapsulate =>
      cases h
      have hticks := ticks_encapsulate hencapsulate
      exact hticks

theorem ticks_validateDecapsulatedPacket (t : Tunn) (plain : Bytes) (now : Instant)
    : t.timers.Ticks now (t.validateDecapsulatedPacket plain).1.timers := by
  unfold validateDecapsulatedPacket
  split
  . exact .refl now t.timers
  . split
    . exact .refl now t.timers
    . split
      . exact .refl now t.timers
      . dsimp only
        split <;> exact ticks_timerTick t .timeLastDataPacketReceived now

theorem ticks_handleData {data : PacketData} {result : Tunn × Except WireGuardError TunnResult}
    (h : t.handleData P data dstLen = some result) (now : Instant)
    : t.timers.Ticks now result.1.timers := by
  unfold handleData at h
  dsimp only at h
  split at h
  . cases h
    exact .refl now t.timers
  . split at h
    . simp at h
    . cases h
      exact .refl now t.timers
    . cases h
      refine .trans ?_ (ticks_validateDecapsulatedPacket _ _ now)
      refine .trans ?_ (ticks_timerTick _ .timeLastPacketReceived now)
      rw [timers_setCurrentSession]
      exact .refl now t.timers

theorem ticks_handleHandshakeResponse {p : HandshakeResponse}
    {result : Tunn × Except WireGuardError TunnResult}
    (h : t.handleHandshakeResponse P p dstLen now = some result)
    : t.timers.Ticks now result.1.timers := by
  unfold handleHandshakeResponse at h
  split at h
  . cases h
    exact .refl now t.timers
  . split at h
    . simp at h
    . cases h
      rw [timers_setCurrentSession]
      exact (ticks_timerTick _ .timeLastPacketReceived now).trans
        (ticks_timerTickSessionEstablished _ true _ now)

theorem ticks_handleHandshakeInit (t : Tunn) (p : HandshakeInit) (dstLen : Nat)
    (ephemeral : FixedBytes 32) (now : Instant)
    : t.timers.Ticks now (t.handleHandshakeInit P p dstLen ephemeral).1.timers := by
  unfold handleHandshakeInit
  split
  . exact .refl now t.timers
  . refine .trans ?_ (ticks_timerTickSessionEstablished _ false _ now)
    exact (ticks_timerTick _ .timeLastPacketReceived now).trans
      (ticks_timerTick _ .timeLastPacketSent now)

theorem ticks_handleCookieReply (t : Tunn) (p : PacketCookieReply) (now : Instant)
    : t.timers.Ticks now (t.handleCookieReply P p).1.timers := by
  unfold handleCookieReply
  split
  . exact .refl now t.timers
  . exact (ticks_timerTick _ .timeLastPacketReceived now).trans
      (ticks_timerTick _ .timeCookieReceived now)

theorem fst_eq_of_unwrapResult {result : Tunn × Except WireGuardError TunnResult}
    (h : unwrapResult result = (t', r))
    : result.1 = t' := by
  unfold unwrapResult at h
  split at h <;>
  . cases h
    rfl

theorem ticks_handleVerifiedPacket {packet : Packet}
    (h : t.handleVerifiedPacket P packet dstLen now ephemeral = some (t', r))
    : t.timers.Ticks now t'.timers := by
  cases packet with
  | handshakeInit p =>
    rw [← fst_eq_of_unwrapResult (Option.some.inj h)]
    exact ticks_handleHandshakeInit t p dstLen ephemeral now
  | handshakeResponse p =>
    obtain ⟨result, hresult, h⟩ := Option.map_eq_some_iff.mp h
    rw [← fst_eq_of_unwrapResult h]
    exact ticks_handleHandshakeResponse hresult
  | packetCookieReply p =>
    rw [← fst_eq_of_unwrapResult (Option.some.inj h)]
    exact ticks_handleCookieReply t p now
  | packetData d =>
    obtain ⟨result, hresult, h⟩ := Option.map_eq_some_iff.mp h
    rw [← fst_eq_of_unwrapResult h]
    exact ticks_handleData hresult now

theorem Prepares.ticks (h : t.Prepares t') (now : Instant) : t.timers.Ticks now t'.timers where
  timeStarted := h.timeStarted
  within := by
    intro d _ hwithin
    refine ⟨?_, ?_⟩
    . intro name
      rcases h.timers name with heq | heq
      . rw [heq]
        exact hwithin.timers name
      . rw [heq]
        exact hwithin.timers .timeCurrent
    . rw [h.sessionTimers]
      exact hwithin.sessionTimers

theorem Ages.ticks (h : Ages now t t') : t.timers.Ticks now t'.timers where
  timeStarted := h.timeStarted
  within := by
    intro d hd hwithin
    refine ⟨?_, ?_⟩
    . intro name
      rw [h.timers, Function.update_apply]
      split
      . exact hd
      . exact hwithin.timers name
    . intro i
      rw [h.sessionTimers]
      split
      . exact hd
      . exact hwithin.sessionTimers i

theorem RunTimersCase.ticks (h : RunTimersCase P dstLen later ephemeral t t' r)
    : t.timers.Ticks later t'.timers := by
  cases h with
  | expired _ htunnel _ =>
    rw [htunnel]
    exact .refl later t.timers
  | expire t₁ _ hprepares h =>
    cases h
    exact (hprepares.ticks later).trans (Timers.ticks_clear t₁.timers later)
  | initiate t₁ _ hprepares h =>
    have hticks := ticks_formatHandshakeInitiation (P := P) t₁ dstLen true later ephemeral
    rw [h] at hticks
    exact (hprepares.ticks later).trans hticks
  | keepalive _ _ hprepares h => exact (hprepares.ticks later).trans (ticks_encapsulate h)
  | done _ hprepares _ => exact hprepares.ticks later

theorem ticks_updateTimers {rl rl' : RateLimiter}
    (h : t.updateTimers P rl dstLen now later ephemeral = some (rl', t', r))
    : t.timers.Ticks (max now later) t'.timers := by
  obtain ⟨t₁, hages, hcase⟩ := updateTimers_cases h
  exact (hages.ticks.mono (Nat.le_max_left ..)).trans (hcase.ticks.mono (Nat.le_max_right ..))

end Clock

section Subtraction

theorem isSome_dueActions {timeNow : Duration} (h : ∀ name, t.timers.timers name ≤ timeNow)
    : (t.dueActions timeNow).isSome := by
  have hcase := dueActions_cases t timeNow
  generalize t.dueActions timeNow = r at hcase ⊢
  cases hcase with
  | ahead name hahead => exact absurd (h name) hahead
  | due => rfl

theorem isSome_encapsulate {src : Bytes} (hdst : src.length + dataOverheadSz ≤ dstLen) (t : Tunn)
    (now : Instant) (ephemeral : FixedBytes 32)
    : (t.encapsulate P src dstLen now ephemeral).isSome := by
  cases hsession : t.currentSession with
  | some session =>
    obtain ⟨t', h, _⟩ := encapsulate_of_session (P := P) hdst now ephemeral hsession
    rw [h]
    rfl
  | none =>
    rw [encapsulate_of_none hsession]
    rfl

theorem isSome_runTimers (h : t.timers.Within (t.timers.elapsed now)) (hdst : dataOverheadSz ≤ dstLen)
    : (t.runTimers P dstLen now later ephemeral).isSome := by
  unfold runTimers
  extract_lets since send tick
  have hsend : ∀ due, (send due).isSome := by
    rintro ⟨t₁, initiates, keeps⟩
    dsimp only [send]
    split
    . rfl
    . split
      . exact isSome_encapsulate (by simpa using hdst) t₁ later ephemeral
      . rfl
  clear_value send
  have htick : ∀ cookieAge, (tick cookieAge).isSome := by
    intro cookieAge
    dsimp only [tick]
    generalize hcookie : (if (t.handshake.hasCookie && decide (cookieExpirationTime ≤ cookieAge))
      = true then { t with handshake := t.handshake.clearCookie } else t) = t₁
    have htimers : ∀ name, t₁.timers.timers name ≤ t.timers.elapsed now := by
      rw [← hcookie]
      split <;> exact h.timers
    refine isSome_bind_of_forall (isSome_sub (htimers _)) fun sessionAge _ => ?_
    split
    . rfl
    . split
      . refine isSome_bind_of_forall (isSome_sub (htimers _)) fun attemptAge _ => ?_
        split
        . rfl
        . exact hsend _
      . exact isSome_bind_of_forall (isSome_dueActions htimers) fun due _ => hsend due
  split
  . rfl
  . split
    . exact isSome_bind_of_forall (isSome_sub (h.timers _)) fun cookieAge _ => htick cookieAge
    . exact htick 0

theorem isSome_updateSessionTimers {timeNow : Duration} (h : ∀ i, t.timers.sessionTimers i ≤ timeNow)
    : (t.updateSessionTimers timeNow).isSome := by
  unfold updateSessionTimers
  rw [if_pos h]
  rfl

theorem isSome_updateTimers (h : t.timers.Within (t.timers.elapsed now))
    (hdst : dataOverheadSz ≤ dstLen) (rl : RateLimiter) (later : Instant) (ephemeral : FixedBytes 32)
    : (t.updateTimers P rl dstLen now later ephemeral).isSome := by
  unfold updateTimers
  refine isSome_bind_of_forall (isSome_updateSessionTimers h.sessionTimers) fun t₁ ht₁ => ?_
  have hticks := (ages_updateSessionTimers ht₁).ticks
  have hwithin := hticks.within _ (Nat.le_refl _) h
  rw [← hticks.elapsed] at hwithin
  refine isSome_bind_of_forall (isSome_runTimers hwithin hdst) fun result _ => ?_
  rfl

theorem isSome_timeSinceLastHandshake (h : t.timers.Within (t.timers.elapsed now))
    : (t.timeSinceLastHandshake now).isSome := by
  unfold timeSinceLastHandshake
  split
  . rw [Option.isSome_map]
    exact isSome_sub (h.timers .timeSessionEstablished)
  . rfl

end Subtraction

end Tunn

end Noise
