import Mathlib.Data.Prod.Lex
import VeilVpn.Noise.Lemmas.Confirmation
import VeilVpn.Noise.Lemmas.Index

namespace Noise

namespace Tai64N

def key (t : Tai64N) : Nat ×ₗ Nat :=
  toLex (t.secs.toNat, t.nano.toNat)

theorem key_injective : Function.Injective key := by
  intro t u h
  simp only [key, toLex_inj, Prod.mk.injEq, UInt64.toNat_inj, UInt32.toNat_inj] at h
  cases t
  cases u
  simpa using h

instance : LinearOrder Tai64N :=
  LinearOrder.lift' key key_injective

theorem after_iff {t u : Tai64N} : t.after u = true ↔ u < t := by
  have hlt : u < t ↔ u.key < t.key := Iff.rfl
  rw [hlt, key, key, Prod.Lex.toLex_lt_toLex]
  simp only [after, Bool.or_eq_true, Bool.and_eq_true, decide_eq_true_eq, UInt64.lt_iff_toNat_lt,
    UInt32.lt_iff_toNat_lt, UInt64.toNat_inj]
  rw [eq_comm]

end Tai64N

variable {P : Primitives}

section Handshake

variable {h h' : Handshake} {e : HandshakeEvent} {os : List Empty} {packet : HandshakeInit}
  {dstLen : Nat} {ephemeral : FixedBytes 32}

theorem lastHandshakeTimestamp_formatHandshakeResponse (h : Handshake)
    (received : HandshakeInitReceivedState) (dstLen : Nat) (ephemeral : FixedBytes 32)
    : (h.formatHandshakeResponse P received dstLen ephemeral).1.lastHandshakeTimestamp
        =
      h.lastHandshakeTimestamp := by
  by_cases hlen : handshakeRespSz ≤ dstLen
  . rw [formatHandshakeResponse_eq h received hlen]
    rfl
  . rw [Handshake.formatHandshakeResponse, if_pos (Nat.not_le.mp hlen)]

theorem lastHandshakeTimestamp_receiveHandshakeInitialization (h : Handshake)
    (packet : HandshakeInit) (dstLen : Nat) (ephemeral : FixedBytes 32)
    : (∃ e, h.receiveHandshakeInitialization P packet dstLen ephemeral = (h, .error e))
        ∨
      ∃ timestamp,
        packet.openTimestamp P h.params = some timestamp
          ∧
        h.lastHandshakeTimestamp < timestamp
          ∧
        (h.receiveHandshakeInitialization P packet dstLen ephemeral).1.lastHandshakeTimestamp
          = timestamp := by
  rcases receiveHandshakeInitialization_eq (P := P) h packet dstLen ephemeral with
    herror | ⟨timestamp, hopen, hafter, heq⟩
  . exact .inl herror
  . refine .inr ⟨timestamp, hopen, Tai64N.after_iff.mp hafter, ?_⟩
    rw [heq, lastHandshakeTimestamp_formatHandshakeResponse]

theorem receiveHandshakeInitialization_of_le
    (hle : ∀ timestamp, packet.openTimestamp P h.params = some timestamp →
      timestamp ≤ h.lastHandshakeTimestamp)
    : ∃ e, h.receiveHandshakeInitialization P packet dstLen ephemeral = (h, .error e) := by
  rcases lastHandshakeTimestamp_receiveHandshakeInitialization (P := P) h packet dstLen
    ephemeral with herror | ⟨timestamp, hopen, hlt, _⟩
  . exact herror
  . exact absurd hlt (not_lt.mpr (hle timestamp hopen))

theorem lastHandshakeTimestamp_receiveCookieReply (h : Handshake) (packet : PacketCookieReply)
    : (h.receiveCookieReply P packet).1.lastHandshakeTimestamp = h.lastHandshakeTimestamp := by
  unfold Handshake.receiveCookieReply
  split
  . rfl
  . split
    . rfl
    . dsimp only
      split
      . rfl
      . split <;> rfl

theorem lastHandshakeTimestamp_receiveHandshakeResponse (h : Handshake)
    (packet : HandshakeResponse) (now : Instant)
    : (h.receiveHandshakeResponse P packet now).1.lastHandshakeTimestamp
        =
      h.lastHandshakeTimestamp := by
  cases hawaiting : h.awaitingResponse packet.receiverIdx with
  | none => rw [Handshake.receiveHandshakeResponse, hawaiting]
  | some awaiting =>
    rw [receiveHandshakeResponse_eq hawaiting]
    split
    . rfl
    . dsimp only
      split <;> rfl

theorem lastHandshakeTimestamp_of_step (hstep : (Handshake.machine P).step h e = some (h', os))
    : h.lastHandshakeTimestamp ≤ h'.lastHandshakeTimestamp := by
  cases e with
  | initiate dstLen now ephemeralPrivate =>
    cases hstep
    by_cases hlen : handshakeInitSz ≤ dstLen
    . rw [formatHandshakeInitiation_eq h hlen]
      exact le_rfl
    . rw [Handshake.formatHandshakeInitiation, if_pos (Nat.not_le.mp hlen)]
  | receiveInit packet dstLen ephemeralPrivate =>
    cases hstep
    rcases lastHandshakeTimestamp_receiveHandshakeInitialization (P := P) h packet dstLen
      ephemeralPrivate with ⟨_, heq⟩ | ⟨timestamp, _, hlt, heq⟩
    . rw [heq]
    . rw [heq]
      exact hlt.le
  | receiveResponse packet now =>
    cases hstep
    rw [lastHandshakeTimestamp_receiveHandshakeResponse]
  | receiveCookieReply packet =>
    cases hstep
    rw [lastHandshakeTimestamp_receiveCookieReply]
  | clearCookie =>
    cases hstep
    exact le_rfl
  | setExpired =>
    cases hstep
    exact le_rfl

end Handshake

namespace Tunn

variable {start t t' : Tunn} {c : Call} {r : TunnResult} {ts : List Step} {u : Step}
  {p : HandshakeInit} {timestamp : Tai64N}

theorem lastHandshakeTimestamp_of_call (h : t.call P c = some (t', r))
    : t.handshake.lastHandshakeTimestamp ≤ t'.handshake.lastHandshakeTimestamp := by
  rcases handshake_of_call h with ⟨ts, hrun⟩ | ⟨_, _, _, params, _, heq⟩
  . exact hrun.monotone Handshake.lastHandshakeTimestamp fun _ _ _ _ =>
      lastHandshakeTimestamp_of_step
  . rw [heq]

theorem lastHandshakeTimestamp_of_machine (t : Tunn) (c : Call) (t' : Tunn) (os : List TunnResult)
    (h : (machine P).step t c = some (t', os))
    : t.handshake.lastHandshakeTimestamp ≤ t'.handshake.lastHandshakeTimestamp := by
  obtain ⟨r, rfl, hcall⟩ := call_of_step h
  exact lastHandshakeTimestamp_of_call hcall

/--
The tunnel answers the initiation `p`, in which it reads the timestamp.
-/
def Accepts (P : Primitives) (u : Step) (p : HandshakeInit) (timestamp : Tai64N) : Prop :=
  u.event.packet P = some (.handshakeInit p)
    ∧
  (u.before.handshake.receiveHandshakeInitialization P p u.event.dstLen u.event.ephemeral).2.isOk
    ∧
  p.openTimestamp P u.before.handshake.params = some timestamp

theorem exists_accepts (hpacket : u.event.packet P = some (.handshakeInit p))
    (hok : (u.before.handshake.receiveHandshakeInitialization P p u.event.dstLen
      u.event.ephemeral).2.isOk)
    : ∃ timestamp, Accepts P u p timestamp := by
  rcases lastHandshakeTimestamp_receiveHandshakeInitialization (P := P) u.before.handshake p
    u.event.dstLen u.event.ephemeral with ⟨e, heq⟩ | ⟨timestamp, hopen, _⟩
  . simp [heq, Except.isOk, Except.toBool] at hok
  . exact ⟨timestamp, hpacket, hok, hopen⟩

theorem handshake_handleHandshakeInit (t : Tunn) (p : HandshakeInit) (dstLen : Nat)
    (ephemeral : FixedBytes 32)
    : (t.handleHandshakeInit P p dstLen ephemeral).1.handshake
        =
      (t.handshake.receiveHandshakeInitialization P p dstLen ephemeral).1 := by
  unfold handleHandshakeInit
  split
  . next heq => rw [heq]
  . next heq =>
    rw [heq]
    rfl

theorem unwrapResult_fst (r : Tunn × Except WireGuardError TunnResult)
    : (unwrapResult r).1 = r.1 := by
  unfold unwrapResult
  split <;> rfl

theorem Accepts.lastHandshakeTimestamp (haccepts : Accepts P u p timestamp)
    (hstep : (machine P).step u.before u.event = some (u.after, u.outputs))
    : u.before.handshake.lastHandshakeTimestamp < timestamp
        ∧
      u.after.handshake.lastHandshakeTimestamp = timestamp := by
  obtain ⟨hpacket, hok, hopen⟩ := haccepts
  have hafter : u.after.handshake = (u.before.handshake.receiveHandshakeInitialization P p
      u.event.dstLen u.event.ephemeral).1 := by
    simp only [machine, call_of_packet hpacket, handleVerifiedPacket, Option.map_some,
      Option.some.injEq, Prod.mk.injEq] at hstep
    rw [← hstep.1, unwrapResult_fst, handshake_handleHandshakeInit]
  rcases lastHandshakeTimestamp_receiveHandshakeInitialization (P := P) u.before.handshake p
    u.event.dstLen u.event.ephemeral with ⟨e, heq⟩ | ⟨timestamp', hopen', hlt, hlast⟩
  . simp [heq, Except.isOk, Except.toBool] at hok
  . rw [hopen, Option.some.injEq] at hopen'
    rw [hafter, hopen']
    exact ⟨hlt, hlast⟩

/--
In every run the timestamps of the initiations that a tunnel accepts grow strictly. What is not newer
than one of them is rejected from then on, whichever key the tunnel reads it with.
-/
theorem accepts_increasing (hrun : (machine P).Run start ts t)
    : (∀ u ∈ ts, ∀ p, u.event.packet P = some (.handshakeInit p) →
        (u.before.handshake.receiveHandshakeInitialization P p u.event.dstLen
          u.event.ephemeral).2.isOk →
          ∃ timestamp, Accepts P u p timestamp)
        ∧
      (ts.Pairwise fun u v => ∀ p q timestamp timestamp',
        Accepts P u p timestamp → Accepts P v q timestamp' → timestamp < timestamp')
        ∧
      (∀ u ∈ ts, ∀ p timestamp, Accepts P u p timestamp →
        ∀ q,
          (∀ timestamp', q.openTimestamp P t.handshake.params = some timestamp' →
            timestamp' ≤ timestamp) →
          ∀ dstLen ephemeral, ∃ e,
            t.handshake.receiveHandshakeInitialization P q dstLen ephemeral
              = (t.handshake, .error e))
        ∧
      (∀ u ∈ ts,
        u.before.handshake.lastHandshakeTimestamp ≤ u.after.handshake.lastHandshakeTimestamp)
        ∧
      start.handshake.lastHandshakeTimestamp ≤ t.handshake.lastHandshakeTimestamp := by
  have hmonotone := hrun.pairwise_monotone (fun t => t.handshake.lastHandshakeTimestamp)
    lastHandshakeTimestamp_of_machine
  refine ⟨?_, ?_, ?_, ?_, ?_⟩
  . intro u _ p hpacket hok
    exact exists_accepts hpacket hok
  . refine hmonotone.1.imp_of_mem ?_
    intro u v hu hv hle p q timestamp timestamp' hp hq
    rw [(hp.lastHandshakeTimestamp (hrun.step_of_mem hu)).2] at hle
    exact lt_of_le_of_lt hle (hq.lastHandshakeTimestamp (hrun.step_of_mem hv)).1
  . intro u hu p timestamp haccepts q hq dstLen ephemeral
    apply receiveHandshakeInitialization_of_le
    intro timestamp' hopen
    obtain ⟨_, hlast⟩ := haccepts.lastHandshakeTimestamp (hrun.step_of_mem hu)
    have hle := hmonotone.2 u hu
    rw [hlast] at hle
    exact (hq timestamp' hopen).trans hle
  . intro u hu
    exact lastHandshakeTimestamp_of_machine _ _ _ _ (hrun.step_of_mem hu)
  . exact hrun.monotone (fun t => t.handshake.lastHandshakeTimestamp)
      lastHandshakeTimestamp_of_machine

namespace Sample

open Noise.Sample (primitives)

/--
The step answers an initiation, and in state `t` the timestamp of this initiation is read as before.
-/
def acceptsAs (t : Tunn) (u : Step) : Bool :=
  match u.event.packet primitives with
  | some (.handshakeInit p) =>
    (u.before.handshake.receiveHandshakeInitialization primitives p u.event.dstLen
      u.event.ephemeral).2.isOk
      && p.openTimestamp primitives t.handshake.params
        = p.openTimestamp primitives u.before.handshake.params
  | _ => false

theorem exists_accepts_of_acceptsAs (h : acceptsAs t u = true)
    : ∃ p timestamp,
        Accepts primitives u p timestamp
          ∧
        p.openTimestamp primitives t.handshake.params = some timestamp := by
  unfold acceptsAs at h
  split at h
  . next p hpacket =>
    simp only [Bool.and_eq_true, decide_eq_true_eq] at h
    obtain ⟨timestamp, haccepts⟩ := exists_accepts hpacket h.1
    exact ⟨p, timestamp, haccepts, h.2.trans haccepts.2.2⟩
  . simp at h

end Sample

open Noise.Sample (primitives key) in
theorem accepts_increasing_replayed
    : ∃ u v p q timestamp timestamp' t e,
        (machine primitives).Run Sample.responder [u, v] t
          ∧
        Accepts primitives u p timestamp
          ∧
        Accepts primitives v q timestamp'
          ∧
        timestamp < timestamp'
          ∧
        t.handshake.receiveHandshakeInitialization primitives p 148 (key 4)
          = (t.handshake, .error e) := by
  obtain ⟨ts, t, hrun, h⟩ := Machine.Run.exists_of_exec (machine primitives) Sample.responder
    (Sample.calls 2) (fun ts t => ts.length = 2 && ts.all (Sample.acceptsAs t)) (by decide +kernel)
  simp only [Bool.and_eq_true, List.all_eq_true, decide_eq_true_eq] at h
  obtain ⟨u, v, rfl⟩ := List.length_eq_two.mp h.1
  obtain ⟨p, timestamp, hp, hopen⟩ := Sample.exists_accepts_of_acceptsAs (h.2 u (by simp))
  obtain ⟨q, timestamp', hq, _⟩ := Sample.exists_accepts_of_acceptsAs (h.2 v (by simp))
  obtain ⟨_, hpairwise, hrejected, _⟩ := accepts_increasing hrun
  have hlt := List.rel_of_pairwise_cons hpairwise List.mem_cons_self p q timestamp timestamp' hp hq
  obtain ⟨e, herror⟩ := hrejected u (by simp) p timestamp hp p (by simp [hopen]) 148 (key 4)
  exact ⟨u, v, p, q, timestamp, timestamp', t, e, hrun, hp, hq, hlt, herror⟩

end Tunn

end Noise
