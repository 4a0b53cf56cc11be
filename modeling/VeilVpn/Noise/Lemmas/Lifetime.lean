import VeilVpn.Noise.Lemmas.Confirmation
import VeilVpn.Noise.Lemmas.Timers

namespace Noise

def Call.stores (P : Primitives) (c : Call) (t : Tunn) : Option (Fin 8) :=
  match c.packet P with
  | some (.handshakeInit p) =>
    match t.handshake.receiveHandshakeInitialization P p c.dstLen c.ephemeral with
    | (_, .ok (_, s)) => some (Tunn.slot s.localIndex)
    | (_, .error _) => none
  | some (.handshakeResponse p) =>
    match t.handshake.receiveHandshakeResponse P p c.now with
    | (_, .ok s) => some (Tunn.slot s.localIndex)
    | (_, .error _) => none
  | _ => none

def Call.later (c : Call) : Instant :=
  match c.operation with
  | .updateTimers _ later => later
  | _ => c.now

namespace Tunn

variable {P : Primitives} {t t' t₁ t₂ : Tunn} {c : Call} {r : TunnResult} {ts : List Step}
  {dstLen : Nat} {now later start : Instant} {ephemeral : FixedBytes 32}

section Clock

theorem ticks_of_call (h : t.call P c = some (t', r))
    : t.timers.Ticks (max c.now c.later) t'.timers := by
  have hnow : c.now ≤ max c.now c.later := Nat.le_max_left ..
  cases callCase_of_call h with
  | encapsulate _ _ _ _ h => exact (ticks_encapsulate h).mono hnow
  | queue _ _ _ h => exact (ticks_sendQueuedPacket h).mono hnow
  | reject _ _ _ htunnel _ =>
    rw [htunnel]
    exact .refl _ t.timers
  | packet _ _ _ _ h => exact (ticks_handleVerifiedPacket h).mono hnow
  | initiate forceResend _ _ _ h =>
    have hticks := ticks_formatHandshakeInitiation (P := P) t c.dstLen forceResend c.now c.ephemeral
    rw [h] at hticks
    exact hticks.mono hnow
  | timers _ _ later _ _ _ hoperation h =>
    have hlater : c.later = later := by simp only [Call.later, hoperation]
    rw [hlater]
    exact ticks_updateTimers h
  | setKey _ _ _ _ _ _ _ _ _ _ _ htimers _ =>
    rw [htimers]
    exact ⟨rfl, fun _ _ hwithin => ⟨hwithin.timers, hwithin.sessionTimers⟩⟩

theorem timeStarted_of_run {t₀ : Tunn} (hrun : (machine P).Run t₀ ts t)
    : t.timers.timeStarted = t₀.timers.timeStarted := by
  refine hrun.invariant (fun t => t.timers.timeStarted = t₀.timers.timeStarted) rfl ?_
  intro t c t' os ht hstep
  obtain ⟨r, rfl, hcall⟩ := call_of_step hstep
  exact (ticks_of_call hcall).timeStarted.trans ht

/--
The clock has not gone back, from the creation of the tunnel over all calls up to `now`.
-/
def ClockRuns (start : Instant) (ts : List Step) (now : Instant) : Prop :=
  (start :: ts.flatMap (fun u => [u.event.now, u.event.later]) ++ [now]).Pairwise (· ≤ ·)

theorem ClockRuns.of_snoc {u : Step} (h : ClockRuns start (ts ++ [u]) now)
    : ClockRuns start ts u.event.now ∧ max u.event.now u.event.later ≤ now := by
  unfold ClockRuns at h ⊢
  rw [List.flatMap_append, List.flatMap_singleton, ← List.cons_append, List.pairwise_append] at h
  obtain ⟨hreadings, _, hlast⟩ := h
  refine ⟨?_, Nat.max_le.mpr ⟨?_, ?_⟩⟩
  . refine hreadings.sublist (List.Sublist.append_left ?_ _)
    exact List.singleton_sublist.mpr List.mem_cons_self
  . exact hlast _ (List.mem_append_right _ (by simp)) now List.mem_cons_self
  . exact hlast _ (List.mem_append_right _ (by simp)) now List.mem_cons_self

theorem within_of_run {t₀ : Tunn} (hstart : t₀.timers.Within 0) (hrun : (machine P).Run t₀ ts t)
    (hclock : ClockRuns start ts now)
    : t.timers.Within (t.timers.elapsed now) := by
  induction hrun generalizing now with
  | nil => exact hstart.mono (Nat.zero_le _)
  | snoc _ hstep ih =>
    obtain ⟨r, rfl, hcall⟩ := call_of_step hstep
    obtain ⟨hclock, hle⟩ := hclock.of_snoc
    have hticks := ticks_of_call hcall
    rw [hticks.elapsed]
    refine hticks.within _ (Timers.elapsed_mono _ hle) ((ih hclock).mono ?_)
    exact Timers.elapsed_mono _ (Nat.le_trans (Nat.le_max_left ..) hle)

/--
A tunnel is asked for its age or its timers are run at any time that is not before the last call. Then
no timer is ahead of the clock, and the calls return, unless a keepalive does not fit into the buffer.
-/
theorem timers_never_underflow {staticPrivate peerStaticPublic : FixedBytes 32}
    {presharedKey : Option (FixedBytes 32)} {persistentKeepalive : Option UInt16} {index : UInt32}
    {rateLimiter : RateLimiterRef} {ownRateLimiter : Bool} {stamper : TimeStamper}
    (hrun : (machine P).Run (.new P staticPrivate peerStaticPublic presharedKey persistentKeepalive
      index rateLimiter ownRateLimiter stamper start) ts t)
    (hclock : ClockRuns start ts now)
    : t.timers.Within (now.durationSince start)
        ∧
      keepaliveTimeout + rekeyTimeout ≤ rejectAfterTime
        ∧
      (t.timeSinceLastHandshake now).isSome
        ∧
      ∀ rl dstLen later ephemeral,
        t.updateTimers P rl dstLen now later ephemeral = none → dstLen < dataOverheadSz := by
  have hwithin := within_of_run ⟨fun _ => Nat.le_refl 0, fun _ => Nat.le_refl 0⟩ hrun hclock
  refine ⟨?_, by decide, isSome_timeSinceLastHandshake hwithin, ?_⟩
  . rw [Timers.elapsed, timeStarted_of_run hrun] at hwithin
    exact hwithin
  . intro rl dstLen later ephemeral hnone
    apply Nat.lt_of_not_le
    intro hdst
    have hsome := isSome_updateTimers (P := P) hwithin hdst rl later ephemeral
    simp [hnone] at hsome

namespace Sample

open Noise.Sample (primitives key)

/--
The session is confirmed, and no other one follows until the timers expire the connection.
-/
def expiredCalls : List Call :=
  confirmedCalls ++ [⟨.updateTimers (.new primitives (key 2) 100 (key 6) (.zero 16) 0)
    (Duration.fromSecs 541), 148, Duration.fromSecs 540, key 5⟩]

end Sample

open Noise.Sample (primitives) in
theorem timers_never_underflow_of_expired
    : ∃ ts t,
        (machine primitives).Run Sample.responder ts t
          ∧
        ts.length = 3
          ∧
        t.timers.timers .timeSessionEstablished = Duration.fromSecs 541
          ∧
        ClockRuns 0 ts (Duration.fromSecs 600)
          ∧
        ∀ rl dstLen later ephemeral,
          t.updateTimers primitives rl dstLen (Duration.fromSecs 600) later ephemeral = none
            → dstLen < dataOverheadSz := by
  obtain ⟨ts, t, hrun, h⟩ := Machine.Run.exists_of_exec (machine primitives) Sample.responder
    Sample.expiredCalls
    (fun ts t => decide (ts.length = 3)
      && decide (t.timers.timers .timeSessionEstablished = Duration.fromSecs 541)
      && decide ((0 :: ts.flatMap (fun u => [u.event.now, u.event.later])
        ++ [Duration.fromSecs 600]).Pairwise (· ≤ ·)))
    (by decide +kernel)
  simp only [Bool.and_eq_true, decide_eq_true_eq] at h
  obtain ⟨⟨hlen, hestablished⟩, hclock⟩ := h
  exact ⟨ts, t, hrun, hlen, hestablished, hclock, (timers_never_underflow hrun hclock).2.2.2⟩

end Clock

section Age

def Retains (t t' : Tunn) : Prop :=
  ∀ i, (t'.sessions i).isSome →
    (t.sessions i).isSome ∧ t'.timers.sessionTimers i = t.timers.sessionTimers i

theorem Retains.refl (t : Tunn) : t.Retains t :=
  fun _ hi => ⟨hi, rfl⟩

theorem Retains.trans (h₁ : t.Retains t₁) (h₂ : t₁.Retains t₂) : t.Retains t₂ := by
  intro i hi
  obtain ⟨hi, heq₂⟩ := h₂ i hi
  obtain ⟨hi, heq₁⟩ := h₁ i hi
  exact ⟨hi, heq₂.trans heq₁⟩

theorem retains_of_eq (hsessions : t'.sessions = t.sessions)
    (hsessionTimers : t'.timers.sessionTimers = t.timers.sessionTimers)
    : t.Retains t' := by
  intro i hi
  rw [hsessions] at hi
  rw [hsessionTimers]
  exact ⟨hi, rfl⟩

theorem retains_of_update {i : Fin 8} {s : Option Session} (hi : (t.sessions i).isSome)
    (hsessions : t'.sessions = Function.update t.sessions i s)
    (hsessionTimers : t'.timers.sessionTimers = t.timers.sessionTimers)
    : t.Retains t' := by
  intro j hj
  rw [hsessionTimers]
  refine ⟨?_, rfl⟩
  by_cases hij : j = i
  . rw [hij]
    exact hi
  . rw [hsessions, Function.update_of_ne hij] at hj
    exact hj

theorem sessionTimers_timerTick (t : Tunn) (name : TimerName)
    : (t.timerTick name).timers.sessionTimers = t.timers.sessionTimers := by
  cases name <;> rfl

theorem slots_formatHandshakeInitiation (t : Tunn) (dstLen : Nat) (forceResend : Bool)
    (now : Instant) (ephemeral : FixedBytes 32)
    : (t.formatHandshakeInitiation P dstLen forceResend now ephemeral).1.sessions = t.sessions
        ∧
      (t.formatHandshakeInitiation P dstLen forceResend now ephemeral).1.timers.sessionTimers
        =
      t.timers.sessionTimers := by
  unfold formatHandshakeInitiation
  split
  . exact ⟨rfl, rfl⟩
  . dsimp only
    split
    . split <;> exact ⟨rfl, rfl⟩
    . split <;> split <;> exact ⟨rfl, rfl⟩

theorem retains_formatHandshakeInitiation (t : Tunn) (dstLen : Nat) (forceResend : Bool)
    (now : Instant) (ephemeral : FixedBytes 32)
    : t.Retains (t.formatHandshakeInitiation P dstLen forceResend now ephemeral).1 :=
  retains_of_eq (slots_formatHandshakeInitiation t dstLen forceResend now ephemeral).1
    (slots_formatHandshakeInitiation t dstLen forceResend now ephemeral).2

theorem retains_queuePacket (t : Tunn) (packet : Bytes) : t.Retains (t.queuePacket packet) := by
  unfold queuePacket
  split <;> exact .refl t

theorem retains_requeuePacket (t : Tunn) (packet : Bytes) : t.Retains (t.requeuePacket packet) := by
  unfold requeuePacket
  split <;> exact .refl t

theorem retains_encapsulate {src : Bytes}
    (h : t.encapsulate P src dstLen now ephemeral = some (t', r))
    : t.Retains t' := by
  unfold encapsulate at h
  split at h
  . next s hs =>
    split at h
    . simp at h
    . next s' packet hformat =>
      cases h
      refine retains_of_update (i := slot t.current) (s := some s')
        (Option.isSome_iff_exists.mpr ⟨s, hs⟩) ?_ ?_
      . split <;> rfl
      . split <;> rfl
  . have hretains := retains_formatHandshakeInitiation (P := P) (t.queuePacket src) dstLen false now
      ephemeral
    rw [Option.some.inj h] at hretains
    exact (retains_queuePacket t src).trans hretains

theorem retains_sendQueuedPacket (h : t.sendQueuedPacket P dstLen now ephemeral = some (t', r))
    : t.Retains t' := by
  unfold sendQueuedPacket at h
  split at h
  . cases h
    exact .refl t
  . split at h
    . simp at h
    . next hencapsulate =>
      cases h
      have hretains := retains_encapsulate hencapsulate
      exact hretains.trans (retains_requeuePacket _ _)
    . next hencapsulate =>
      cases h
      have hretains := retains_encapsulate hencapsulate
      exact hretains

theorem Prepares.retains (h : t.Prepares t') : t.Retains t' :=
  retains_of_eq h.sessions h.sessionTimers

theorem Ages.retains (h : Ages now t t') : t.Retains t' := by
  intro i hi
  rw [h.sessions] at hi
  rw [h.sessionTimers]
  split at hi
  . simp at hi
  . next hyoung =>
    rw [if_neg hyoung]
    exact ⟨hi, rfl⟩

theorem RunTimersCase.retains (h : RunTimersCase P dstLen later ephemeral t t' r) : t.Retains t' := by
  cases h with
  | expired _ htunnel _ =>
    rw [htunnel]
    exact .refl t
  | expire t₁ _ hprepares h =>
    cases h
    intro i hi
    simp [clearAll] at hi
  | initiate t₁ _ hprepares h =>
    have hretains := retains_formatHandshakeInitiation (P := P) t₁ dstLen true later ephemeral
    rw [h] at hretains
    exact hprepares.retains.trans hretains
  | keepalive _ _ hprepares h => exact hprepares.retains.trans (retains_encapsulate h)
  | done _ hprepares _ => exact hprepares.retains

theorem retains_timerTick (t : Tunn) (name : TimerName) : t.Retains (t.timerTick name) :=
  retains_of_eq rfl (sessionTimers_timerTick t name)

theorem retains_setCurrentSession (t : Tunn) (newIdx : Nat) : t.Retains (t.setCurrentSession newIdx) :=
  retains_of_eq (sessions_setCurrentSession t newIdx) (by rw [timers_setCurrentSession])

theorem retains_validateDecapsulatedPacket (t : Tunn) (plain : Bytes)
    : t.Retains (t.validateDecapsulatedPacket plain).1 := by
  refine retains_of_eq (sameSessions_validateDecapsulatedPacket t plain).1 ?_
  unfold validateDecapsulatedPacket
  split
  . rfl
  . split
    . rfl
    . split
      . rfl
      . dsimp only
        split <;> rfl

theorem retains_handleData {data : PacketData} {result : Tunn × Except WireGuardError TunnResult}
    (h : t.handleData P data dstLen = some result)
    : t.Retains result.1 := by
  unfold handleData at h
  dsimp only at h
  split at h
  . cases h
    exact .refl t
  . next s hs =>
    have hupdate : ∀ s', t.Retains
        { t with sessions := Function.update t.sessions (slot data.receiverIdx.toNat) (some s') } :=
      fun _ => retains_of_update (Option.isSome_iff_exists.mpr ⟨s, hs⟩) rfl rfl
    split at h
    . simp at h
    . cases h
      exact hupdate _
    . cases h
      exact (((hupdate _).trans (retains_setCurrentSession _ _)).trans (retains_timerTick _ _)).trans
        (retains_validateDecapsulatedPacket _ _)

theorem retains_handleCookieReply (t : Tunn) (p : PacketCookieReply)
    : t.Retains (t.handleCookieReply P p).1 := by
  unfold handleCookieReply
  split
  . exact .refl t
  . exact (retains_timerTick _ .timeLastPacketReceived).trans (retains_timerTick _ .timeCookieReceived)

/--
Every session that is there after a call was put there by it, or it is as old as before.
-/
def Dates (P : Primitives) (c : Call) (t t' : Tunn) : Prop :=
  ∀ i, (t'.sessions i).isSome →
    if c.stores P t = some i then
      t'.timers.sessionTimers i = t.timers.timers .timeCurrent
    else
      (t.sessions i).isSome ∧ t'.timers.sessionTimers i = t.timers.sessionTimers i

theorem Retains.dates (h : t.Retains t') (hstores : c.stores P t = none) : Dates P c t t' := by
  intro i hi
  rw [hstores, if_neg (by simp)]
  exact h i hi

theorem dates_of_stores {i : Fin 8} {s : Session} (hstores : c.stores P t = some i)
    (hsessions : t'.sessions = Function.update t.sessions i (some s))
    (hsessionTimers : t'.timers.sessionTimers
      = Function.update t.timers.sessionTimers i (t.timers.timers .timeCurrent))
    : Dates P c t t' := by
  intro j hj
  rw [hstores, hsessionTimers]
  split
  . next heq =>
    cases heq
    rw [Function.update_self]
  . next hne =>
    have hne : j ≠ i := fun heq => hne (by rw [heq])
    rw [hsessions, Function.update_of_ne hne] at hj
    rw [Function.update_of_ne hne]
    exact ⟨hj, rfl⟩

theorem stores_of_packet_none (h : c.packet P = none) : c.stores P t = none := by
  unfold Call.stores
  rw [h]

theorem dates_handleHandshakeInit {p : HandshakeInit} (hpacket : c.packet P = some (.handshakeInit p))
    : Dates P c t (t.handleHandshakeInit P p c.dstLen c.ephemeral).1 := by
  unfold handleHandshakeInit
  split
  . next hreceive =>
    refine Retains.dates (.refl t) ?_
    simp only [Call.stores, hpacket, hreceive]
  . next reply s hreceive =>
    have hstores : c.stores P t = some (slot s.localIndex) := by
      simp only [Call.stores, hpacket, hreceive]
    exact dates_of_stores hstores rfl rfl

theorem dates_handleHandshakeResponse {p : HandshakeResponse}
    {result : Tunn × Except WireGuardError TunnResult}
    (hpacket : c.packet P = some (.handshakeResponse p))
    (h : t.handleHandshakeResponse P p c.dstLen c.now = some result)
    : Dates P c t result.1 := by
  unfold handleHandshakeResponse at h
  split at h
  . next hreceive =>
    cases h
    refine Retains.dates (.refl t) ?_
    simp only [Call.stores, hpacket, hreceive]
  . next s hreceive =>
    have hstores : c.stores P t = some (slot s.localIndex) := by
      simp only [Call.stores, hpacket, hreceive]
    split at h
    . simp at h
    . next hformat =>
      obtain ⟨rfl, _⟩ := Session.formatPacketData_eq_some hformat
      cases h
      refine dates_of_stores hstores (sessions_setCurrentSession _ _) ?_
      rw [timers_setCurrentSession]
      rfl

theorem dates_handleVerifiedPacket {packet : Packet} (hpacket : c.packet P = some packet)
    (h : t.handleVerifiedPacket P packet c.dstLen c.now c.ephemeral = some (t', r))
    : Dates P c t t' := by
  cases packet with
  | handshakeInit p =>
    rw [← fst_eq_of_unwrapResult (Option.some.inj h)]
    exact dates_handleHandshakeInit hpacket
  | handshakeResponse p =>
    obtain ⟨result, hresult, h⟩ := Option.map_eq_some_iff.mp h
    rw [← fst_eq_of_unwrapResult h]
    exact dates_handleHandshakeResponse hpacket hresult
  | packetCookieReply p =>
    rw [← fst_eq_of_unwrapResult (Option.some.inj h)]
    refine (retains_handleCookieReply t p).dates ?_
    simp only [Call.stores, hpacket]
  | packetData d =>
    obtain ⟨result, hresult, h⟩ := Option.map_eq_some_iff.mp h
    rw [← fst_eq_of_unwrapResult h]
    refine (retains_handleData hresult).dates ?_
    simp only [Call.stores, hpacket]

theorem dates_of_call (h : t.call P c = some (t', r)) : Dates P c t t' := by
  cases callCase_of_call h with
  | encapsulate _ hpacket _ _ h => exact (retains_encapsulate h).dates (stores_of_packet_none hpacket)
  | queue hpacket _ _ h => exact (retains_sendQueuedPacket h).dates (stores_of_packet_none hpacket)
  | reject hpacket _ _ htunnel _ =>
    rw [htunnel]
    exact Retains.dates (.refl t) (stores_of_packet_none hpacket)
  | packet _ hpacket _ _ h => exact dates_handleVerifiedPacket hpacket h
  | initiate forceResend hpacket _ _ h =>
    have hretains := retains_formatHandshakeInitiation (P := P) t c.dstLen forceResend c.now
      c.ephemeral
    rw [h] at hretains
    exact hretains.dates (stores_of_packet_none hpacket)
  | timers _ _ _ hpacket _ _ _ h =>
    obtain ⟨t₁, hages, hcase⟩ := updateTimers_cases h
    exact (hages.retains.trans hcase.retains).dates (stores_of_packet_none hpacket)
  | setKey _ _ _ _ _ _ _ _ hsessions _ _ _ _ =>
    intro i hi
    simp [hsessions] at hi

/--
The time, by the clock of the tunnel, at which the last session was put into slot `i`.
-/
def establishedAt (P : Primitives) (ts : List Step) (i : Fin 8) : Option Duration :=
  ((ts.filter fun u => u.event.stores P u.before = some i).getLast?).map
    fun u => u.before.timers.timers .timeCurrent

theorem establishedAt_snoc (ts : List Step) (u : Step) (i : Fin 8)
    : establishedAt P (ts ++ [u]) i =
        if u.event.stores P u.before = some i then
          some (u.before.timers.timers .timeCurrent)
        else
          establishedAt P ts i := by
  unfold establishedAt
  rw [List.filter_append, List.filter_singleton]
  by_cases hstores : u.event.stores P u.before = some i
  . simp [hstores]
  . simp [hstores]

theorem establishedAt_of_run {t₀ : Tunn} (hstart : ∀ i, t₀.sessions i = none)
    (hrun : (machine P).Run t₀ ts t) {i : Fin 8} (hi : (t.sessions i).isSome)
    : establishedAt P ts i = some (t.timers.sessionTimers i) := by
  induction hrun with
  | nil => simp [hstart] at hi
  | snoc _ hstep ih =>
    obtain ⟨r, rfl, hcall⟩ := call_of_step hstep
    have hdates := dates_of_call hcall i hi
    rw [establishedAt_snoc]
    split at hdates
    . next hstores => rw [if_pos hstores, hdates]
    . next hstores => rw [if_neg hstores, hdates.2, ih hdates.1]

def Uses (s s' : Option Session) : Prop :=
  s' = s ∨ s' = s.map Session.bumped

theorem uses_encapsulate {src : Bytes} (h : t.encapsulate P src dstLen now ephemeral = some (t', r))
    (i : Fin 8)
    : Uses (t.sessions i) (t'.sessions i) := by
  cases encapsulate_cases h with
  | send s s' packet hs hformat hsessions _ _ _ _ =>
    rw [hsessions, Function.update_apply]
    split
    . next hi =>
      rw [hi, (Session.formatPacketData_eq_some hformat).1]
      exact .inr (by rw [← currentSession, hs, Option.map_some])
    . exact .inl rfl
  | queue _ h =>
    have hsessions := (slots_formatHandshakeInitiation (P := P) (t.queuePacket src) dstLen false now
      ephemeral).1
    have hqueue : (t.queuePacket src).sessions = t.sessions := by
      unfold queuePacket
      split <;> rfl
    rw [h, hqueue] at hsessions
    exact .inl (congrFun hsessions i)

theorem RunTimersCase.uses (h : RunTimersCase P dstLen later ephemeral t t' r)
    (hlive : t'.handshake.isExpired = true → t.handshake.isExpired = true) (i : Fin 8)
    : Uses (t.sessions i) (t'.sessions i) := by
  cases h with
  | expired _ htunnel _ =>
    rw [htunnel]
    exact .inl rfl
  | expire t₁ hnot hprepares h =>
    cases h
    have hexpired := hlive rfl
    simp [hnot] at hexpired
  | initiate t₁ _ hprepares h =>
    have hsessions := (slots_formatHandshakeInitiation (P := P) t₁ dstLen true later ephemeral).1
    rw [h, hprepares.sessions] at hsessions
    exact .inl (congrFun hsessions i)
  | keepalive t₁ _ hprepares h =>
    rw [← hprepares.sessions]
    exact uses_encapsulate h i
  | done _ hprepares _ =>
    rw [hprepares.sessions]
    exact .inl rfl

/--
After the timers were run without expiring the connection, the sessions left are those that are not
older than `rejectAfterTime`.
-/
theorem sessions_of_updateTimers {staticPrivate peerStaticPublic : FixedBytes 32}
    {presharedKey : Option (FixedBytes 32)} {persistentKeepalive : Option UInt16} {index : UInt32}
    {rateLimiter : RateLimiterRef} {ownRateLimiter : Bool} {stamper : TimeStamper}
    {rl rl' : RateLimiter}
    (hrun : (machine P).Run (.new P staticPrivate peerStaticPublic presharedKey persistentKeepalive
      index rateLimiter ownRateLimiter stamper start) ts t)
    (h : t.updateTimers P rl dstLen now later ephemeral = some (rl', t', r))
    (hlive : t'.handshake.isExpired = true → t.handshake.isExpired = true) (i : Fin 8)
    : match t.sessions i with
      | none => t'.sessions i = none
      | some s =>
        ∃ established, establishedAt P ts i = some established
          ∧
        established ≤ now.durationSince start
          ∧
        if now.durationSince start - established ≤ rejectAfterTime then
          t'.sessions i = some s ∨ t'.sessions i = some s.bumped
        else
          t'.sessions i = none := by
  obtain ⟨t₁, hages, hcase⟩ := updateTimers_cases h
  have huses := hcase.uses (fun hexpired => by rw [hages.handshake]; exact hlive hexpired) i
  have hstarted := hages.started i
  have hsessions := hages.sessions i
  rw [Timers.elapsed, timeStarted_of_run hrun] at hstarted hsessions
  change _ ≤ now.durationSince start at hstarted
  change _ = if rejectAfterTime < now.durationSince start - _ then _ else _ at hsessions
  split
  . next hnone =>
    rw [hnone, ite_self] at hsessions
    rw [hsessions] at huses
    exact huses.elim id id
  . next s hs =>
    refine ⟨_, establishedAt_of_run (fun _ => rfl) hrun (Option.isSome_iff_exists.mpr ⟨s, hs⟩),
      hstarted, ?_⟩
    split
    . next hyoung =>
      rw [if_neg (Nat.not_lt_of_le hyoung), hs] at hsessions
      rw [hsessions] at huses
      exact huses
    . next hold =>
      rw [if_pos (Nat.lt_of_not_le hold)] at hsessions
      rw [hsessions] at huses
      exact huses.elim id id

namespace Sample

open Noise.Sample (primitives key)

def runTimersAt (secs : Nat) (t : Tunn) : Option (RateLimiter × Tunn × TunnResult) :=
  t.updateTimers primitives (.new primitives (key 2) 100 (key 6) (.zero 16) 0) 148
    (Duration.fromSecs secs) (Duration.fromSecs secs) (key 5)

def staysLive (secs : Nat) (t : Tunn) : Bool :=
  (runTimersAt secs t).any fun result => !result.2.1.handshake.isExpired

end Sample

open Noise.Sample (primitives) in
theorem sessions_of_updateTimers_of_confirmed
    : ∃ ts t s,
        (machine primitives).Run Sample.responder ts t
          ∧
        t.sessions (slot 1) = some s
          ∧
        (∃ rl t' r, Sample.runTimersAt 180 t = some (rl, t', r)
          ∧ (t'.sessions (slot 1) = some s ∨ t'.sessions (slot 1) = some s.bumped))
          ∧
        ∃ rl t' r, Sample.runTimersAt 181 t = some (rl, t', r) ∧ t'.sessions (slot 1) = none := by
  obtain ⟨ts, t, hrun, h⟩ := Machine.Run.exists_of_exec (machine primitives) Sample.responder
    Sample.confirmedCalls
    (fun ts t => (t.sessions (slot 1)).isSome && decide (establishedAt primitives ts (slot 1) = some 0)
      && (Sample.staysLive 180 t && Sample.staysLive 181 t))
    (by decide +kernel)
  simp only [Bool.and_eq_true, decide_eq_true_eq, Option.isSome_iff_exists, Sample.staysLive,
    Option.any_eq_true, Bool.not_eq_true'] at h
  obtain ⟨⟨⟨s, hs⟩, hestablished⟩, ⟨⟨rl, t₁, r⟩, h₁, hlive₁⟩, ⟨rl', t₂, r'⟩, h₂, hlive₂⟩ := h
  refine ⟨ts, t, s, hrun, hs, ⟨rl, t₁, r, h₁, ?_⟩, rl', t₂, r', h₂, ?_⟩
  . have hsession := sessions_of_updateTimers hrun h₁ (by simp [hlive₁]) (slot 1)
    rw [hs] at hsession
    obtain ⟨established, heq, _, hsession⟩ := hsession
    rw [hestablished, Option.some.injEq] at heq
    rwa [← heq, if_pos (by decide)] at hsession
  . have hsession := sessions_of_updateTimers hrun h₂ (by simp [hlive₂]) (slot 1)
    rw [hs] at hsession
    obtain ⟨established, heq, _, hsession⟩ := hsession
    rw [hestablished, Option.some.injEq] at heq
    rwa [← heq, if_neg (by decide)] at hsession

end Age

end Tunn

end Noise
