import VeilVpn.Noise.Lemmas.Handshake
import VeilVpn.Noise.Lemmas.Operation

namespace Noise

namespace Tunn

abbrev Step := Transition Tunn Call TunnResult

section Confirmed

variable (P : Primitives)

def Confirms (t : Step) (i : Fin 8) : Prop :=
  (∃ p h s, t.event.packet P = some (.handshakeResponse p)
      ∧ t.before.handshake.receiveHandshakeResponse P p t.event.now = (h, .ok s)
      ∧ slot s.localIndex = i)
    ∨
  ∃ d s s' plain, t.event.packet P = some (.packetData d)
    ∧ slot d.receiverIdx.toNat = i
    ∧ t.before.sessions i = some s
    ∧ s.Receives P d plain s'
    ∧ t.after.sessions i = some s'

def Responds (t : Step) (i : Fin 8) : Prop :=
  (∃ p, t.event.packet P = some (.handshakeInit p)
      ∧ (t.before.handshake.receiveHandshakeInitialization P p t.event.dstLen
          t.event.ephemeral).2.isOk)
    ∧
  slot t.before.handshake.incIndex.2.toNat = i

/--
The session in slot `i` was created from a handshake response, or it has received a data packet.
-/
def Confirmed (ts : List Step) (i : Fin 8) : Prop :=
  ∃ us t vs, ts = us ++ t :: vs ∧ Confirms P t i ∧ ∀ v ∈ vs, ¬Responds P v i

/--
After `ts`, packets are encrypted only with a confirmed session.
-/
def EncryptsConfirmed (ts : List Step) (t : Tunn) : Prop :=
  ∀ src dstLen now ephemeral t' r s,
    t.encapsulate P src dstLen now ephemeral = some (t', r) →
    t.currentSession = some s →
      r = .writeToNetwork (s.sealPacket P src) ∧ Confirmed P ts (slot t.current)

/--
No answer to an initiation overwrites the session in use, or takes the place of one that is gone.
-/
def SparesCurrent (t : Step) : Prop :=
  ¬Responds P t (slot t.before.current)

end Confirmed

variable {P : Primitives} {start t t' : Tunn} {ts us : List Step} {u : Step} {i : Fin 8} {c : Call}
  {r : TunnResult}

theorem confirmed_of_confirms (h : Confirms P u i) : Confirmed P (us ++ [u]) i :=
  ⟨us, u, [], rfl, h, by simp⟩

theorem Confirmed.snoc (h : Confirmed P us i) (hspares : ¬Responds P u i)
    : Confirmed P (us ++ [u]) i := by
  obtain ⟨vs, v, ws, rfl, hconfirms, hws⟩ := h
  refine ⟨vs, v, ws ++ [u], by simp, hconfirms, ?_⟩
  intro w hw
  rcases List.mem_append.mp hw with hw | hw
  . exact hws w hw
  . rw [List.mem_singleton.mp hw]
    exact hspares

theorem Responds.not_confirms {j : Fin 8} (h : Responds P u i) : ¬Confirms P u j := by
  obtain ⟨⟨p, hpacket, _⟩, _⟩ := h
  rintro (⟨p', _, _, hpacket', _⟩ | ⟨d, _, _, _, hpacket', _⟩)
  . simp [hpacket] at hpacket'
  . simp [hpacket] at hpacket'

theorem Responds.not_confirmed (h : Responds P u i) : ¬Confirmed P (us ++ [u]) i := by
  rintro ⟨vs, v, ws, hsplit, hconfirms, hws⟩
  induction ws using List.reverseRecOn with
  | nil =>
    obtain ⟨_, hlast⟩ := List.append_inj' hsplit rfl
    cases hlast
    exact h.not_confirms hconfirms
  | append_singleton ws w _ =>
    rw [← List.cons_append, ← List.append_assoc] at hsplit
    obtain ⟨_, hlast⟩ := List.append_inj' hsplit rfl
    cases hlast
    exact hws u (List.mem_append_right _ List.mem_cons_self) h

theorem confirmed_of_call (h : t.call P c = some (t', r))
    (hspares : SparesCurrent P ⟨t, c, [r], t'⟩)
    (hconfirmed : ∀ s, t.currentSession = some s → Confirmed P us (slot t.current))
    {s : Session} (hs : t'.currentSession = some s)
    : Confirmed P (us ++ [⟨t, c, [r], t'⟩]) (slot t'.current) := by
  -- the slot in use stays the same, and nothing is put into it
  have hkeep : t'.current = t.current → (∃ s₀, t.currentSession = some s₀) →
      Confirmed P (us ++ [⟨t, c, [r], t'⟩]) (slot t'.current) := by
    rintro hcurrent ⟨s₀, hs₀⟩
    rw [hcurrent]
    exact (hconfirmed s₀ hs₀).snoc hspares
  have hold : t'.current = t.current →
      (t'.sessions (slot t.current) = t.sessions (slot t.current)) →
      Confirmed P (us ++ [⟨t, c, [r], t'⟩]) (slot t'.current) := by
    intro hcurrent heq
    refine hkeep hcurrent ⟨s, ?_⟩
    rw [currentSession, hcurrent, heq] at hs
    exact hs
  cases effect_of_call h with
  | drop hdrops =>
    exact hkeep hdrops.current ⟨s, hdrops.currentSession hs⟩
  | send s₀ src hpacket hsource hsession hslot hsessions hcurrent =>
    exact hkeep hcurrent ⟨s₀, hsession⟩
  | receive d s₀ s' plain hpacket hsession hreceives hsessions hcurrent =>
    by_cases hslot : slot d.receiverIdx.toNat = slot t'.current
    . rw [← hslot]
      refine confirmed_of_confirms (.inr ⟨d, s₀, s', plain, hpacket, rfl, hsession, hreceives, ?_⟩)
      rw [hsessions, Function.update_self]
    . have hcurrent : t'.current = t.current :=
        hcurrent.resolve_right fun heq => hslot (by rw [heq])
      refine hold hcurrent ?_
      rw [hcurrent] at hslot
      rw [hsessions, Function.update_of_ne (Ne.symm hslot)]
  | respond p h' reply s₀ hpacket hreceive hsessions hcurrent =>
    refine hold hcurrent ?_
    rw [hsessions, Function.update_of_ne]
    intro hslot
    refine hspares ⟨⟨p, hpacket, ?_⟩, ?_⟩
    . rw [hreceive]
      rfl
    . rw [hslot, (receiveHandshakeInitialization_eq_ok hreceive).2]
      rfl
  | establish p h' s₀ hpacket hreceive hsessions hcurrent =>
    by_cases hslot : slot s₀.localIndex = slot t'.current
    . exact confirmed_of_confirms (.inl ⟨p, h', s₀, hpacket, hreceive, hslot⟩)
    . have hcurrent : t'.current = t.current :=
        hcurrent.resolve_right fun heq => hslot (by rw [heq])
      refine hold hcurrent ?_
      rw [hcurrent] at hslot
      rw [hsessions, Function.update_of_ne (Ne.symm hslot)]

theorem confirmed_of_run (hstart : ∀ i, start.sessions i = none)
    (hrun : (machine P).Run start ts t) (hspares : ∀ u ∈ ts, SparesCurrent P u)
    : ∀ s, t.currentSession = some s → Confirmed P ts (slot t.current) := by
  induction hrun with
  | nil => simp [currentSession, hstart]
  | @snoc us t t' c os hrun hstep ih =>
    obtain ⟨r, rfl, hcall⟩ := call_of_step hstep
    intro s hs
    refine confirmed_of_call hcall ?_ (ih fun u hu => hspares u (List.mem_append_left _ hu)) hs
    exact hspares _ (List.mem_append_right _ List.mem_cons_self)

theorem encapsulate_of_some {src : Bytes} {dstLen : Nat} {now : Instant} {ephemeral : FixedBytes 32}
    {s : Session} (hs : t.currentSession = some s)
    (h : t.encapsulate P src dstLen now ephemeral = some (t', r))
    : r = .writeToNetwork (s.sealPacket P src) := by
  cases encapsulate_cases h with
  | send s' _ _ hs' hformat _ _ _ _ hresult =>
    rw [hs, Option.some.injEq] at hs'
    rw [hresult, (Session.formatPacketData_eq_some hformat).2, hs']
  | queue hnone _ => simp [hs] at hnone

theorem exists_encapsulate {s : Session} (hs : t.currentSession = some s)
    : ∃ t' r, t.encapsulate P [] dataOverheadSz 0 (.zero 32) = some (t', r) := by
  unfold encapsulate
  rw [hs]
  exact ⟨_, _, rfl⟩

theorem call_of_packet {packet : Packet} (h : c.packet P = some packet)
    : t.call P c = t.handleVerifiedPacket P packet c.dstLen c.now c.ephemeral := by
  unfold Call.packet at h
  unfold call
  split at h
  . next hop =>
    cases h
    rw [hop]
  . next rl srcAddr datagram hop =>
    rw [hop]
    dsimp only
    split at h
    . simp at h
    . next hempty =>
      unfold decapsulate
      rw [if_neg hempty]
      cases hverify : rl.verifyPacket P srcAddr datagram cookieReplySz c.now with
      | mk rl' result =>
        rw [hverify] at h
        cases result with
        | error e => simp at h
        | ok packet' =>
          cases h
          dsimp only
          rw [Option.map_map]
          exact congrFun Option.map_id _
  . simp at h

theorem isSome_of_responds (h : t.call P c = some (t', r)) (hresponds : Responds P ⟨t, c, [r], t'⟩ i)
    : (t'.sessions i).isSome ∧ t'.current = t.current := by
  obtain ⟨⟨p, hpacket, hok⟩, hslot⟩ := hresponds
  rw [call_of_packet hpacket] at h
  simp only [handleVerifiedPacket, Option.some.injEq, handleHandshakeInit] at h
  split at h
  . next hreceive => simp [hreceive, Except.isOk, Except.toBool] at hok
  . next h' reply s hreceive =>
    cases h
    refine ⟨?_, rfl⟩
    have hindex : slot s.localIndex = i := by
      rw [(receiveHandshakeInitialization_eq_ok hreceive).2]
      exact hslot
    simp only [timerTickSessionEstablished, timerTick, hindex, Function.update_self,
      Option.isSome_some]

/--
Packets are encrypted only with confirmed sessions exactly as long as no answer to an initiation goes
into the slot in use.
-/
theorem encryptsConfirmed_iff (hstart : ∀ i, start.sessions i = none)
    (hrun : (machine P).Run start ts t)
    : (∀ u ∈ ts, SparesCurrent P u)
        ↔
      ∀ us u vs, ts = us ++ u :: vs → EncryptsConfirmed P (us ++ [u]) u.after := by
  constructor
  . rintro hspares us u vs rfl src dstLen now ephemeral t' r s h hs
    obtain ⟨hus, hstep, _⟩ := hrun.of_append_cons
    refine ⟨encapsulate_of_some hs h, confirmed_of_run hstart (hus.snoc hstep) ?_ s hs⟩
    intro v hv
    refine hspares v ?_
    rcases List.mem_append.mp hv with hv | hv
    . exact List.mem_append_left _ hv
    . rw [List.mem_singleton.mp hv]
      exact List.mem_append_right _ List.mem_cons_self
  . intro h u hu hresponds
    obtain ⟨us, vs, rfl⟩ := List.append_of_mem hu
    obtain ⟨_, hstep, _⟩ := hrun.of_append_cons
    have hencrypts := h us u vs rfl
    obtain ⟨t₀, c, os, t₁⟩ := u
    obtain ⟨r, rfl, hcall⟩ := call_of_step hstep
    obtain ⟨hsome, hcurrent⟩ := isSome_of_responds hcall hresponds
    obtain ⟨s, hs⟩ := Option.isSome_iff_exists.mp hsome
    rw [← hcurrent] at hs
    obtain ⟨t', r', hencapsulate⟩ := exists_encapsulate (P := P) hs
    have hconfirmed := (hencrypts [] dataOverheadSz 0 (.zero 32) t' r' s hencapsulate hs).2
    rw [hcurrent] at hconfirmed
    exact hresponds.not_confirmed hconfirmed

namespace Sample

open Noise.Sample (primitives key side)

def initiations : Nat → Nat → Handshake → List HandshakeInit
  | 0, _, _ => []
  | n + 1, time, h =>
    match h.formatHandshakeInitiation primitives 148 (Duration.fromSecs time) (key 3) with
    | (_, .error _) => []
    | (h, .ok msg) =>
      match parseIncomingPacket msg with
      | .ok (.handshakeInit p) => p :: initiations n (time + 1) h
      | _ => []

def responder : Tunn :=
  .new primitives (key 2) (key 1) none none 2 0 false ⟨0, 0⟩ 0

def responds (p : HandshakeInit) : Call :=
  ⟨.handleVerifiedPacket (.handshakeInit p), 148, 0, key 4⟩

def calls (n : Nat) : List Call :=
  (initiations n 1 (side (key 1) (key 2) 0x100)).map responds

def confirms (t : Tunn) : Option Call :=
  (t.sessions (slot 1)).map fun s =>
    ⟨.handleVerifiedPacket (.packetData
      ⟨s.receivingIndex, 0, primitives.chacha20Poly1305Seal s.receiver (counterNonce 0) [] []⟩),
      148, 0, key 4⟩

def confirmedCalls : List Call :=
  match (machine primitives).exec responder (calls 1) with
  | some (_, t) => calls 1 ++ (confirms t).toList
  | none => []

def isInitiation (u : Step) : Bool :=
  match u.event.packet primitives with
  | some (.handshakeInit _) => true
  | _ => false

theorem not_confirms_of_isInitiation (h : isInitiation u = true) : ¬Confirms primitives u i := by
  unfold isInitiation at h
  split at h
  . next hpacket =>
    rintro (⟨_, _, _, hpacket', _⟩ | ⟨_, _, _, _, hpacket', _⟩)
    . simp [hpacket] at hpacket'
    . simp [hpacket] at hpacket'
  . simp at h

end Sample

open Noise.Sample (primitives) in
theorem encryptsConfirmed_iff_of_keepalive
    : ∃ us u t s,
        (machine primitives).Run Sample.responder (us ++ [u]) t
          ∧
        t.currentSession = some s
          ∧
        EncryptsConfirmed primitives (us ++ [u]) t := by
  obtain ⟨ts, t, hrun, h⟩ := Machine.Run.exists_of_exec (machine primitives) Sample.responder
    Sample.confirmedCalls
    (fun ts t => !ts.isEmpty && t.currentSession.isSome
      && ts.all fun u => slot u.before.handshake.incIndex.2.toNat ≠ slot u.before.current)
    (by decide +kernel)
  simp only [Bool.and_eq_true, List.all_eq_true, Option.isSome_iff_exists, decide_eq_true_eq] at h
  obtain ⟨⟨hne, s, hs⟩, hslots⟩ := h
  have hspares : ∀ u ∈ ts, SparesCurrent primitives u := fun u hu hresponds =>
    hslots u hu hresponds.2
  rcases List.eq_nil_or_concat ts with rfl | ⟨us, u, rfl⟩
  . simp at hne
  . rw [List.concat_eq_append] at hrun hspares
    obtain ⟨_, _, rfl⟩ := hrun.of_snoc
    exact ⟨us, u, u.after, s, hrun, hs,
      (encryptsConfirmed_iff (fun _ => rfl) hrun).mp hspares us u [] rfl⟩

open Noise.Sample (primitives key) in
/--
A tunnel answers eight initiations of which none is confirmed, then it encrypts a packet with the
last one of the sessions.
-/
theorem exists_encrypts_unconfirmed
    : ∃ ts t s t',
        (machine primitives).Run Sample.responder ts t
          ∧
        (∀ u ∈ ts, Sample.isInitiation u = true)
          ∧
        t.currentSession = some s
          ∧
        t.encapsulate primitives [0x45] 148 0 (key 5)
          = some (t', .writeToNetwork (s.sealPacket primitives [0x45]))
          ∧
        ¬Confirmed primitives ts (slot t.current) := by
  obtain ⟨ts, t, hrun, h⟩ := Machine.Run.exists_of_exec (machine primitives) Sample.responder
    (Sample.calls 8)
    (fun ts t => ts.all Sample.isInitiation
      && (t.currentSession.isSome && (t.encapsulate primitives [0x45] 148 0 (key 5)).isSome))
    (by decide +kernel)
  simp only [Bool.and_eq_true, List.all_eq_true, Option.isSome_iff_exists] at h
  obtain ⟨hinitiations, ⟨s, hs⟩, ⟨t', r⟩, hencapsulate⟩ := h
  rw [encapsulate_of_some hs hencapsulate] at hencapsulate
  refine ⟨ts, t, s, t', hrun, hinitiations, hs, hencapsulate, ?_⟩
  rintro ⟨us, u, vs, rfl, hconfirms, _⟩
  exact Sample.not_confirms_of_isInitiation
    (hinitiations u (List.mem_append_right _ List.mem_cons_self)) hconfirms

end Tunn

end Noise
