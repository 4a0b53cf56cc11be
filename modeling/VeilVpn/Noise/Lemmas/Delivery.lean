import VeilVpn.Matching
import VeilVpn.Noise.Lemmas.Handshake
import VeilVpn.Noise.Lemmas.Operation
import VeilVpn.Noise.Lemmas.Window

namespace Noise

theorem Session.Receives.window {P : Primitives} {s s' : Session} {d : PacketData} {plain : Bytes}
    {seen : Set Nat} (h : s.Receives P d plain s') (hseen : s.receivingKeyCounter.Represents seen)
    (hcounter : d.counter.toNat + 1024 < 2 ^ 64)
    : d.counter.toNat ∉ seen
        ∧
      s'.receiver = s.receiver
        ∧
      s'.receivingKeyCounter.Represents (insert d.counter.toNat seen) := by
  obtain ⟨v, hmark, rfl⟩ := h.marks
  rcases hseen.markDidReceive hcounter with ⟨hfresh, v', hmark', hrepresents⟩ | ⟨_, e, herror⟩
  . rw [hmark] at hmark'
    cases hmark'
    exact ⟨hfresh.2, rfl, hrepresents.of_receiveCnt _⟩
  . rw [hmark] at herror
    cases herror

namespace Channel

abbrev Step := Transition Channel Event TunnResult

def delivered (t : Step) : Option Bytes :=
  match t.event with
  | .sender _ => none
  | .receiver _ => t.outputs.findSome? TunnResult.packet

def given (t : Step) : Option Bytes :=
  match t.event with
  | .sender c => c.given
  | .receiver _ => none

def sent (t : Step) : Option Bytes :=
  match t.event with
  | .sender c => (c.sent t.before.sender).filter (· ≠ [])
  | .receiver _ => none

section Network

variable (P : Primitives)

/--
The sender encrypts `plain` with the session in use, or it confirms a session that it has just
established.
-/
def Seals (t : Step) (s : Session) (plain : Bytes) : Prop :=
  ∃ c, t.event = .sender c
    ∧ t.outputs = [.writeToNetwork (s.sealPacket P plain)]
    ∧ ((c.packet P = none
          ∧ t.before.sender.currentSession = some s
          ∧ (c.source t.before.sender = some plain ∨ plain = []))
        ∨
      (plain = []
        ∧ ∃ p h, c.packet P = some (.handshakeResponse p)
          ∧ t.before.sender.handshake.receiveHandshakeResponse P p c.now = (h, .ok s)))

def Gets (t : Step) (d : PacketData) (s : Session) : Prop :=
  ∃ c, t.event = .receiver c
    ∧ c.packet P = some (.packetData d)
    ∧ t.before.receiver.sessions (Tunn.slot d.receiverIdx.toNat) = some s

def Establishes (t : Step) (s : Session) : Prop :=
  ∃ c, t.event = .receiver c
    ∧ ((∃ p h reply, c.packet P = some (.handshakeInit p)
          ∧ t.before.receiver.handshake.receiveHandshakeInitialization P p c.dstLen c.ephemeral
            = (h, .ok (reply, s)))
        ∨
      ∃ p h, c.packet P = some (.handshakeResponse p)
        ∧ t.before.receiver.handshake.receiveHandshakeResponse P p c.now = (h, .ok s))

def Known (start : Channel) (ts : List Step) (key : FixedBytes 32) : Prop :=
  (∃ i s, start.receiver.sessions i = some s ∧ s.receiver = key)
    ∨
  ∃ t ∈ ts, ∃ s, Establishes P t s ∧ s.receiver = key

/--
What is assumed of the cryptography: a key opens only what was sealed under the same nonce, and no
two sessions share a key.
-/
structure Ideal (start : Channel) (ts : List Step) : Prop where
  opens : ∀ us t vs d s plain, ts = us ++ t :: vs → Gets P t d s →
    P.chacha20Poly1305Open s.receiver (counterNonce d.counter) d.encryptedEncapsulatedPacket []
      = some plain →
    ∃ u ∈ us, ∃ s', Seals P u s' plain ∧ s'.sender = s.receiver ∧ s'.sendingKeyCounter = d.counter
  fresh : ∀ us t vs s, ts = us ++ t :: vs → Establishes P t s → ¬Known P start us s.receiver

/--
How the owner of the sender has to use it: no session encrypts too many packets, and buffers have the
documented size.
-/
structure Proper (ts : List Step) : Prop where
  counter : ∀ t ∈ ts, ∀ s plain, Seals P t s plain → s.sendingKeyCounter.toNat < 2 ^ 63
  dstLen : ∀ t ∈ ts, ∀ c, t.event = .sender c → t.before.sender.currentSession = none →
    handshakeInitSz ≤ c.dstLen

end Network

/--
The receiver has not received anything with its sessions, and the sender does not hold packets back.
-/
structure Start (ch : Channel) : Prop where
  window : ∀ i s, ch.receiver.sessions i = some s → s.receivingKeyCounter = .default
  key : ∀ i j s s', ch.receiver.sessions i = some s → ch.receiver.sessions j = some s' →
    s.receiver = s'.receiver → i = j
  packetQueue : ch.sender.packetQueue = []

variable {P : Primitives} {start ch ch' : Channel} {us ts : List Step} {t : Step} {e : Event}
  {os : List TunnResult}

theorem Known.mono {key : FixedBytes 32} (h : Known P start us key) : Known P start (us ++ [t]) key := by
  rcases h with h | ⟨u, hu, h⟩
  . exact .inl h
  . exact .inr ⟨u, List.mem_append_left _ hu, h⟩

theorem Ideal.of_append {vs : List Step} (h : Ideal P start (us ++ vs)) : Ideal P start us where
  opens := by
    intro us' t' vs' d s plain hus
    exact h.opens us' t' (vs' ++ vs) d s plain (by simp [hus])
  fresh := by
    intro us' t' vs' s hus
    exact h.fresh us' t' (vs' ++ vs) s (by simp [hus])

theorem Proper.of_append {vs : List Step} (h : Proper P (us ++ vs)) : Proper P us where
  counter := fun u hu => h.counter u (List.mem_append_left _ hu)
  dstLen := fun u hu => h.dstLen u (List.mem_append_left _ hu)

theorem Gets.unique {d d' : PacketData} {s s' : Session} (h : Gets P t d s) (h' : Gets P t d' s')
    : d = d' ∧ s = s' := by
  obtain ⟨c, hevent, hpacket, hs⟩ := h
  obtain ⟨c', hevent', hpacket', hs'⟩ := h'
  rw [hevent] at hevent'
  cases hevent'
  rw [hpacket] at hpacket'
  cases hpacket'
  rw [hs] at hs'
  cases hs'
  exact ⟨rfl, rfl⟩

theorem Seals.unique {s s' : Session} {plain plain' : Bytes} (h : Seals P t s plain)
    (h' : Seals P t s' plain')
    : s = s' := by
  obtain ⟨c, hevent, _, h⟩ := h
  obtain ⟨c', hevent', _, h'⟩ := h'
  rw [hevent] at hevent'
  cases hevent'
  rcases h with ⟨hnone, hs, _⟩ | ⟨_, p, _, hpacket, hs⟩ <;>
  rcases h' with ⟨hnone', hs', _⟩ | ⟨_, p', _, hpacket', hs'⟩
  . rw [hs] at hs'
    cases hs'
    rfl
  . simp [hnone] at hpacket'
  . simp [hnone'] at hpacket
  . rw [hpacket] at hpacket'
    cases hpacket'
    rw [hs] at hs'
    cases hs'
    rfl

theorem Seals.sent {s : Session} {plain : Bytes} (h : Seals P t s plain) (hplain : plain ≠ [])
    : sent t = some plain := by
  obtain ⟨c, hevent, _, ⟨_, hs, hsource | hempty⟩ | ⟨hempty, _⟩⟩ := h
  . simp [Channel.sent, hevent, Call.sent, hs, hsource, Option.filter, hplain]
  . exact absurd hempty hplain
  . exact absurd hempty hplain

theorem validateDecapsulatedPacket_eq {t : Tunn} {plain packet : Bytes}
    (h : (t.validateDecapsulatedPacket plain).2.packet = some packet)
    : ∃ len addr, Tunn.ipHeader plain = some (len, addr) ∧ len ≤ plain.length
        ∧ packet = plain.take len := by
  unfold Tunn.validateDecapsulatedPacket at h
  split at h
  . simp [TunnResult.packet] at h
  . split at h
    . simp [TunnResult.packet] at h
    . next len addr hheader =>
      split at h
      . simp [TunnResult.packet] at h
      . next hlen =>
        refine ⟨len, addr, hheader, Nat.not_lt.mp hlen, ?_⟩
        dsimp only at h
        split at h <;>
        . cases h
          rfl

theorem ne_nil_of_ipHeader {plain : Bytes} {header : Nat × IpAddr}
    (h : Tunn.ipHeader plain = some header)
    : plain ≠ [] := by
  rintro rfl
  simp [Tunn.ipHeader] at h

inductive Change (P : Primitives) (t : Step) : Prop where
  | keep (hdelivered : delivered t = none)
    (hsessions : ∀ i s, t.after.receiver.sessions i = some s →
      ∃ s₀, t.before.receiver.sessions i = some s₀
        ∧ s₀.receiver = s.receiver
        ∧ s₀.receivingKeyCounter = s.receivingKeyCounter)
  | receive (d : PacketData) (s s' : Session) (plain : Bytes) (hgets : Gets P t d s)
    (hreceives : s.Receives P d plain s')
    (hsessions : t.after.receiver.sessions
      = Function.update t.before.receiver.sessions (Tunn.slot d.receiverIdx.toNat) (some s'))
    (hdelivered : ∀ packet, delivered t = some packet →
      ∃ len addr, Tunn.ipHeader plain = some (len, addr) ∧ len ≤ plain.length
        ∧ packet = plain.take len)
  | establish (i : Fin 8) (s s' : Session) (hestablishes : Establishes P t s)
    (hdelivered : delivered t = none)
    (hkey : s'.receiver = s.receiver)
    (hwindow : s'.receivingKeyCounter = .default)
    (hsessions : t.after.receiver.sessions
      = Function.update t.before.receiver.sessions i (some s'))

theorem change_of_step (hstep : step P ch e = some (ch', os)) : Change P ⟨ch, e, os, ch'⟩ := by
  cases e with
  | sender c =>
    simp only [step, Option.map_eq_some_iff] at hstep
    obtain ⟨_, _, h⟩ := hstep
    cases h
    exact .keep rfl fun i s hs => ⟨s, hs, rfl, rfl⟩
  | receiver c =>
    simp only [step, Option.map_eq_some_iff] at hstep
    obtain ⟨⟨b, r⟩, hcall, h⟩ := hstep
    cases h
    have hdelivered : delivered ⟨ch, .receiver c, [r], { ch with receiver := b }⟩ = r.packet := by
      simp only [delivered, List.findSome?_cons, List.findSome?_nil]
      split
      . next h => exact h.symm
      . next h => exact h.symm
    cases Tunn.effect_of_call hcall with
    | drop hdrops hpacket =>
      refine .keep (hdelivered.trans hpacket) ?_
      intro i s hs
      rcases hdrops.sessions i with heq | hnone
      . exact ⟨s, heq ▸ hs, rfl, rfl⟩
      . simp [hnone] at hs
    | send s src hpacket hsource hsession hslot hsessions hcurrent hresult =>
      refine .keep (hdelivered.trans (by rw [hresult]; rfl)) ?_
      intro i s' hs'
      by_cases hi : i = Tunn.slot ch.receiver.current
      . rw [Tunn.currentSession, hcurrent, ← hi] at hslot
        rw [hslot] at hs'
        cases hs'
        exact ⟨s, hi ▸ hsession, rfl, rfl⟩
      . rcases hsessions i hi with heq | hnone
        . exact ⟨s', heq ▸ hs', rfl, rfl⟩
        . simp [hnone] at hs'
    | receive d s s' plain hpacket hsession hreceives hsessions hcurrent hresult =>
      refine .receive d s s' plain ⟨c, rfl, hpacket, hsession⟩ hreceives hsessions ?_
      intro packet hsome
      obtain ⟨t₁, hresult⟩ := hresult
      rw [hdelivered, hresult] at hsome
      exact validateDecapsulatedPacket_eq hsome
    | respond p h' reply s hpacket hreceive hsessions hcurrent hresult =>
      refine .establish _ s s ⟨c, rfl, .inl ⟨p, h', reply, hpacket, hreceive⟩⟩
        (hdelivered.trans (by rw [hresult]; rfl)) rfl ?_ hsessions
      rw [(receiveHandshakeInitialization_eq_ok hreceive).2]
      rfl
    | establish p h' s hpacket hreceive hsessions hcurrent hresult =>
      refine .establish _ s s.bumped ⟨c, rfl, .inr ⟨p, h', hpacket, hreceive⟩⟩
        (hdelivered.trans (by rw [hresult]; rfl)) rfl ?_ hsessions
      obtain ⟨_, _, _, hs⟩ := receiveHandshakeResponse_eq_ok hreceive
      rw [hs]
      rfl

def Delivers (P : Primitives) (t : Step) (key : FixedBytes 32) (n : Nat) : Prop :=
  ∃ d s packet, Gets P t d s ∧ delivered t = some packet ∧ s.receiver = key ∧ d.counter.toNat = n

theorem not_delivers {key : FixedBytes 32} {n : Nat} (h : delivered t = none)
    : ¬Delivers P t key n := by
  rintro ⟨_, _, _, _, hdelivered, _⟩
  simp [h] at hdelivered

def Seen (P : Primitives) (ts : List Step) (key : FixedBytes 32) (n : Nat) : Prop :=
  ∃ t ∈ ts, Delivers P t key n

theorem Seen.of_snoc {key : FixedBytes 32} {n : Nat} (h : Seen P (us ++ [t]) key n)
    : Seen P us key n ∨ Delivers P t key n := by
  obtain ⟨u, hu, hdelivers⟩ := h
  rcases List.mem_append.mp hu with hu | hu
  . exact .inl ⟨u, hu, hdelivers⟩
  . rw [List.mem_singleton.mp hu] at hdelivers
    exact .inr hdelivers

theorem Seen.of_snoc_none {key : FixedBytes 32} {n : Nat} (hdelivered : delivered t = none)
    (h : Seen P (us ++ [t]) key n)
    : Seen P us key n :=
  h.of_snoc.resolve_right (not_delivers hdelivered)

/--
The windows of the receiver contain all that was delivered.
-/
structure Tracks (P : Primitives) (start : Channel) (ts : List Step) (b : Tunn) : Prop where
  window : ∀ i s, b.sessions i = some s → ∃ seen, s.receivingKeyCounter.Represents seen
    ∧ ∀ n, Seen P ts s.receiver n → n ∈ seen
  key : ∀ i j s s', b.sessions i = some s → b.sessions j = some s' → s.receiver = s'.receiver → i = j
  known : ∀ i s, b.sessions i = some s → Known P start ts s.receiver
  seen : ∀ key n, Seen P ts key n → Known P start ts key

theorem Start.tracks (h : Start start) : Tracks P start [] start.receiver where
  window := by
    intro i s hs
    rw [h.window i s hs]
    exact ⟨∅, ReceivingKeyCounterValidator.represents_default, by simp [Seen]⟩
  key := h.key
  known := fun i s hs => .inl ⟨i, s, hs, rfl⟩
  seen := by simp [Seen]

variable {b b' : Tunn}

theorem Tracks.keep (h : Tracks P start us b) (hdelivered : delivered t = none)
    (hsessions : ∀ i s, b'.sessions i = some s → ∃ s₀, b.sessions i = some s₀
      ∧ s₀.receiver = s.receiver ∧ s₀.receivingKeyCounter = s.receivingKeyCounter)
    : Tracks P start (us ++ [t]) b' where
  window := by
    intro i s hs
    obtain ⟨s₀, hs₀, hkey, hwindow⟩ := hsessions i s hs
    obtain ⟨seen, hrepresents, hseen⟩ := h.window i s₀ hs₀
    rw [hkey] at hseen
    rw [hwindow] at hrepresents
    exact ⟨seen, hrepresents, fun n hn => hseen n (hn.of_snoc_none hdelivered)⟩
  key := by
    intro i j s s' hs hs' heq
    obtain ⟨s₀, hs₀, hkey, _⟩ := hsessions i s hs
    obtain ⟨s₀', hs₀', hkey', _⟩ := hsessions j s' hs'
    exact h.key i j s₀ s₀' hs₀ hs₀' (by rw [hkey, hkey', heq])
  known := by
    intro i s hs
    obtain ⟨s₀, hs₀, hkey, _⟩ := hsessions i s hs
    rw [← hkey]
    exact (h.known i s₀ hs₀).mono
  seen := fun key n hn => (h.seen key n (hn.of_snoc_none hdelivered)).mono

theorem Tracks.establish (h : Tracks P start us b) (hdelivered : delivered t = none) {i : Fin 8}
    {s s' : Session} (hestablishes : Establishes P t s) (hfresh : ¬Known P start us s.receiver)
    (hkey : s'.receiver = s.receiver) (hwindow : s'.receivingKeyCounter = .default)
    (hsessions : b'.sessions = Function.update b.sessions i (some s'))
    : Tracks P start (us ++ [t]) b' := by
  have hold : ∀ j u, j ≠ i → b'.sessions j = some u → b.sessions j = some u := by
    intro j u hj hu
    rwa [hsessions, Function.update_of_ne hj] at hu
  have hnew : ∀ u, b'.sessions i = some u → u = s' := by
    intro u hu
    rw [hsessions, Function.update_self, Option.some.injEq] at hu
    exact hu.symm
  have hne : ∀ j u, j ≠ i → b'.sessions j = some u → u.receiver ≠ s'.receiver := by
    intro j u hj hu heq
    rw [hkey] at heq
    exact hfresh (heq ▸ h.known j u (hold j u hj hu))
  constructor
  . intro j u hu
    by_cases hj : j = i
    . subst hj
      rw [hnew u hu, hwindow, hkey]
      refine ⟨∅, ReceivingKeyCounterValidator.represents_default, ?_⟩
      intro n hn
      exact absurd (h.seen _ n (hn.of_snoc_none hdelivered)) hfresh
    . obtain ⟨seen, hrepresents, hseen⟩ := h.window j u (hold j u hj hu)
      exact ⟨seen, hrepresents, fun n hn => hseen n (hn.of_snoc_none hdelivered)⟩
  . intro j k u u' hu hu' heq
    by_cases hj : j = i <;> by_cases hk : k = i
    . rw [hj, hk]
    . subst hj
      rw [hnew u hu] at heq
      exact absurd heq.symm (hne k u' hk hu')
    . subst hk
      rw [hnew u' hu'] at heq
      exact absurd heq (hne j u hj hu)
    . exact h.key j k u u' (hold j u hj hu) (hold k u' hk hu') heq
  . intro j u hu
    by_cases hj : j = i
    . subst hj
      rw [hnew u hu, hkey]
      exact .inr ⟨t, List.mem_append_right _ List.mem_cons_self, s, hestablishes, rfl⟩
    . exact (h.known j u (hold j u hj hu)).mono
  . exact fun key n hn => (h.seen key n (hn.of_snoc_none hdelivered)).mono

theorem Tracks.not_seen (h : Tracks P start us b) {i : Fin 8} {s s' : Session} {d : PacketData}
    {plain : Bytes} (hs : b.sessions i = some s) (hreceives : s.Receives P d plain s')
    (hcounter : d.counter.toNat + 1024 < 2 ^ 64)
    : ¬Seen P us s.receiver d.counter.toNat := by
  obtain ⟨seen, hrepresents, hseen⟩ := h.window i s hs
  intro hn
  exact (hreceives.window hrepresents hcounter).1 (hseen _ hn)

theorem Tracks.receive (h : Tracks P start us t.before.receiver) {s s' : Session} {d : PacketData}
    {plain : Bytes} (hgets : Gets P t d s) (hreceives : s.Receives P d plain s')
    (hcounter : d.counter.toNat + 1024 < 2 ^ 64)
    (hsessions : b'.sessions
      = Function.update t.before.receiver.sessions (Tunn.slot d.receiverIdx.toNat) (some s'))
    : Tracks P start (us ++ [t]) b' := by
  obtain ⟨_, _, _, hs⟩ := id hgets
  obtain ⟨seen, hrepresents, hseen⟩ := h.window _ s hs
  obtain ⟨_, hkey, hrepresents'⟩ := hreceives.window hrepresents hcounter
  have hdelivers : ∀ key n, Delivers P t key n → key = s.receiver ∧ n = d.counter.toNat := by
    rintro key n ⟨d', s₁, _, hgets', _, rfl, rfl⟩
    obtain ⟨rfl, rfl⟩ := hgets.unique hgets'
    exact ⟨rfl, rfl⟩
  -- every session was in the same slot before, with the same key
  have hold : ∀ j u, b'.sessions j = some u →
      ∃ u₀, t.before.receiver.sessions j = some u₀ ∧ u₀.receiver = u.receiver := by
    intro j u hu
    by_cases hj : j = Tunn.slot d.receiverIdx.toNat
    . subst hj
      rw [hsessions, Function.update_self, Option.some.injEq] at hu
      subst hu
      exact ⟨s, hs, hkey.symm⟩
    . rw [hsessions, Function.update_of_ne hj] at hu
      exact ⟨u, hu, rfl⟩
  constructor
  . intro j u hu
    by_cases hj : j = Tunn.slot d.receiverIdx.toNat
    . subst hj
      rw [hsessions, Function.update_self, Option.some.injEq] at hu
      subst hu
      rw [hkey]
      refine ⟨_, hrepresents', ?_⟩
      intro n hn
      rcases hn.of_snoc with hn | hn
      . exact Set.mem_insert_of_mem _ (hseen n hn)
      . rw [(hdelivers _ n hn).2]
        exact Set.mem_insert _ _
    . rw [hsessions, Function.update_of_ne hj] at hu
      obtain ⟨seen, hrepresents, hseen⟩ := h.window j u hu
      refine ⟨seen, hrepresents, ?_⟩
      intro n hn
      rcases hn.of_snoc with hn | hn
      . exact hseen n hn
      . exact absurd (h.key j _ u s hu hs (hdelivers _ n hn).1) hj
  . intro j k u u' hu hu' heq
    obtain ⟨u₀, hu₀, hkey₀⟩ := hold j u hu
    obtain ⟨u₁, hu₁, hkey₁⟩ := hold k u' hu'
    exact h.key j k u₀ u₁ hu₀ hu₁ (by rw [hkey₀, hkey₁, heq])
  . intro j u hu
    obtain ⟨u₀, hu₀, hkey₀⟩ := hold j u hu
    rw [← hkey₀]
    exact (h.known j u₀ hu₀).mono
  . intro key n hn
    rcases hn.of_snoc with hn | hn
    . exact (h.seen key n hn).mono
    . rw [(hdelivers key n hn).1]
      exact (h.known _ s hs).mono

theorem Ideal.counter_lt {vs : List Step} (h : Ideal P start ts) (hproper : Proper P ts)
    (hts : ts = us ++ t :: vs) {s s' : Session} {d : PacketData} {plain : Bytes}
    (hgets : Gets P t d s) (hreceives : s.Receives P d plain s')
    : d.counter.toNat + 1024 < 2 ^ 64 := by
  obtain ⟨u, hu, s₁, hseals, _, hcounter⟩ := h.opens us t vs d s plain hts hgets hreceives.opens
  have hlt := hproper.counter u (by rw [hts]; exact List.mem_append_left _ hu) s₁ plain hseals
  rw [hcounter] at hlt
  omega

theorem tracks_of_run (hstart : Start start) (hrun : (machine P).Run start ts ch)
    (hideal : Ideal P start ts) (hproper : Proper P ts)
    : Tracks P start ts ch.receiver := by
  induction hrun with
  | nil => exact hstart.tracks
  | @snoc us ch ch' e os hrun hstep ih =>
    have htracks := ih hideal.of_append hproper.of_append
    cases change_of_step hstep with
    | keep hdelivered hsessions => exact htracks.keep hdelivered hsessions
    | receive d s s' plain hgets hreceives hsessions =>
      exact htracks.receive hgets hreceives (hideal.counter_lt hproper rfl hgets hreceives) hsessions
    | establish i s s' hestablishes hdelivered hkey hwindow hsessions =>
      exact htracks.establish hdelivered hestablishes (hideal.fresh us _ [] s rfl hestablishes) hkey
        hwindow hsessions

theorem exists_receives_of_delivered (hstep : step P t.before t.event = some (t.after, t.outputs))
    {packet : Bytes} (hdelivered : delivered t = some packet)
    : ∃ d s s' plain,
        Gets P t d s ∧ s.Receives P d plain s'
          ∧
        ∃ len addr, Tunn.ipHeader plain = some (len, addr) ∧ len ≤ plain.length
          ∧ packet = plain.take len := by
  cases change_of_step hstep with
  | keep hnone => simp [hnone] at hdelivered
  | receive d s s' plain hgets hreceives hsessions hpacket =>
    exact ⟨d, s, s', plain, hgets, hreceives, hpacket packet hdelivered⟩
  | establish _ _ _ _ hnone => simp [hnone] at hdelivered

theorem exists_seals_of_delivered {vs : List Step} {packet : Bytes} (hstart : Start start)
    (hrun : (machine P).Run start (us ++ t :: vs) ch) (hideal : Ideal P start (us ++ t :: vs))
    (hproper : Proper P (us ++ t :: vs)) (hdelivered : delivered t = some packet)
    : ∃ u ∈ us, ∃ s plain,
        Seals P u s plain
          ∧
        Delivers P t s.sender s.sendingKeyCounter.toNat
          ∧
        ¬Seen P us s.sender s.sendingKeyCounter.toNat
          ∧
        ∃ len addr, Tunn.ipHeader plain = some (len, addr) ∧ len ≤ plain.length
          ∧ packet = plain.take len := by
  obtain ⟨hus, hstep, _⟩ := hrun.of_append_cons
  have htracks := tracks_of_run hstart hus hideal.of_append hproper.of_append
  obtain ⟨d, s, s', plain, hgets, hreceives, hpacket⟩ := exists_receives_of_delivered hstep hdelivered
  obtain ⟨u, hu, s₁, hseals, hkey, hcounter⟩ :=
    hideal.opens us t vs d s plain rfl hgets hreceives.opens
  obtain ⟨_, _, _, hs⟩ := id hgets
  refine ⟨u, hu, s₁, plain, hseals, ?_, ?_, hpacket⟩
  . rw [hkey, hcounter]
    exact ⟨d, s, packet, hgets, hdelivered, rfl, rfl⟩
  . rw [hkey, hcounter]
    exact htracks.not_seen hs hreceives (hideal.counter_lt hproper rfl hgets hreceives)

theorem count_sent_nil (ts : List Step) : (ts.filterMap sent).count [] = 0 := by
  rw [List.count_eq_zero, List.mem_filterMap]
  rintro ⟨t, _, hsent⟩
  unfold sent at hsent
  split at hsent
  . simp at hsent
  . simp at hsent

theorem count_of_step (hstep : step P ch e = some (ch', os)) {src : Bytes} (hsrc : src ≠ [])
    (hdst : ∀ c, e = .sender c → ch.sender.currentSession = none → handshakeInitSz ≤ c.dstLen)
    : (sent ⟨ch, e, os, ch'⟩).toList.count src + ch'.sender.packetQueue.count src
        ≤
      (given ⟨ch, e, os, ch'⟩).toList.count src + ch.sender.packetQueue.count src := by
  cases e with
  | sender c =>
    simp only [step, Option.map_eq_some_iff] at hstep
    obtain ⟨⟨a, r⟩, hcall, h⟩ := hstep
    cases h
    have hcount := Tunn.count_of_call hsrc (hdst c rfl) hcall
    have hsent : ((c.sent ch.sender).filter (· ≠ [])).toList.count src
        ≤ (c.sent ch.sender).toList.count src := by
      cases c.sent ch.sender with
      | none => simp
      | some packet =>
        rw [Option.filter_some]
        split <;> simp
    exact Nat.le_trans (Nat.add_le_add_right hsent _) hcount
  | receiver c =>
    simp only [step, Option.map_eq_some_iff] at hstep
    obtain ⟨_, _, h⟩ := hstep
    cases h
    exact Nat.le_refl _

theorem count_of_run (hstart : Start start) (hrun : (machine P).Run start ts ch)
    (hproper : Proper P ts) {src : Bytes} (hsrc : src ≠ [])
    : (ts.filterMap sent).count src + ch.sender.packetQueue.count src
        ≤
      (ts.filterMap given).count src := by
  have hsnoc : ∀ (f : Step → Option Bytes) us t,
      ((us ++ [t]).filterMap f).count src = (us.filterMap f).count src + (f t).toList.count src := by
    intro f us t
    rw [List.filterMap_append, List.count_append]
    cases hf : f t <;> simp [hf]
  induction hrun with
  | nil => simp [hstart.packetQueue]
  | @snoc us ch ch' e os hrun hstep ih =>
    have hcount := ih hproper.of_append
    have hstep := count_of_step hstep hsrc fun c hc =>
      hproper.dstLen _ (List.mem_append_right _ List.mem_cons_self) c hc
    rw [hsnoc, hsnoc]
    omega

theorem exists_matching (hstart : Start start) (hrun : (machine P).Run start ts ch)
    (hproper : Proper P ts)
    : ∃ origin, Matching sent given ts origin := by
  apply Matching.exists_of_count_le
  rintro us ⟨vs, rfl⟩ src
  obtain ⟨_, hus, _⟩ := hrun.of_append
  by_cases hsrc : src = []
  . rw [hsrc, count_sent_nil]
    exact Nat.zero_le _
  . have hcount := count_of_run hstart hus hproper.of_append hsrc
    omega

theorem mem_given_of_sent (hstep : step P t.before t.event = some (t.after, t.outputs)) {src : Bytes}
    (hsent : sent t = some src)
    : src ∈ t.before.sender.packetQueue ∨ given t = some src := by
  unfold sent at hsent
  split at hsent
  . next c hevent =>
    simp only [hevent, step, Option.map_eq_some_iff] at hstep
    obtain ⟨_, hcall, _⟩ := hstep
    obtain ⟨hsource, _⟩ := Option.filter_eq_some_iff.mp hsent
    unfold Call.sent at hsource
    split at hsource
    . rcases Tunn.call_cases hcall with ⟨_, heq, hgiven, _⟩ | ⟨heq, _, _⟩ | ⟨heq, _⟩
      . rw [heq] at hsource
        simp only [given, hevent, hgiven, hsource, or_true]
      . rw [heq] at hsource
        exact .inl (List.mem_of_head? hsource)
      . simp [heq] at hsource
    . simp at hsource
  . simp at hsent

theorem mem_given_of_queued (hqueue : start.sender.packetQueue = [])
    (hrun : (machine P).Run start ts ch) {src : Bytes} (hsrc : src ≠ [])
    (hmem : src ∈ ch.sender.packetQueue)
    : ∃ u ∈ ts, given u = some src := by
  induction hrun with
  | nil => simp [hqueue] at hmem
  | @snoc us ch ch' e os hrun hstep ih =>
    have hold : src ∈ ch.sender.packetQueue → ∃ u ∈ us ++ [⟨ch, e, os, ch'⟩], given u = some src := by
      intro hmem
      obtain ⟨u, hu, hgiven⟩ := ih hmem
      exact ⟨u, List.mem_append_left _ hu, hgiven⟩
    simp only [machine, step] at hstep
    split at hstep <;> simp only [Option.map_eq_some_iff] at hstep <;>
      obtain ⟨_, hcall, h⟩ := hstep <;> cases h
    . rcases Tunn.mem_of_call hsrc hcall hmem with hmem | hgiven
      . exact hold hmem
      . exact ⟨_, List.mem_append_right _ List.mem_cons_self, hgiven⟩
    . exact hold hmem

theorem exists_given_of_delivered (hqueue : start.sender.packetQueue = [])
    (hrun : (machine P).Run start ts ch) (hideal : Ideal P start ts) (ht : t ∈ ts) {packet : Bytes}
    (hdelivered : delivered t = some packet)
    : ∃ u ∈ ts, ∃ src len addr,
        given u = some src
          ∧
        Tunn.ipHeader src = some (len, addr) ∧ len ≤ src.length ∧ packet = src.take len := by
  obtain ⟨us, vs, rfl⟩ := List.append_of_mem ht
  obtain ⟨hus, hstep, _⟩ := hrun.of_append_cons
  obtain ⟨d, s, s', plain, hgets, hreceives, len, addr, hheader, hlen, hpacket⟩ :=
    exists_receives_of_delivered hstep hdelivered
  obtain ⟨u, hu, s₁, hseals, _⟩ := hideal.opens us t vs d s plain rfl hgets hreceives.opens
  have hplain := ne_nil_of_ipHeader hheader
  obtain ⟨⟨ws, hws, hbefore⟩, hstep⟩ := hus.exists_run_before u hu
  rcases mem_given_of_sent hstep (hseals.sent hplain) with hmem | hgiven
  . obtain ⟨w, hw, hgiven⟩ := mem_given_of_queued hqueue hbefore hplain hmem
    exact ⟨w, List.mem_append_left _ (hws.subset hw), plain, len, addr, hgiven, hheader, hlen, hpacket⟩
  . exact ⟨u, List.mem_append_left _ hu, plain, len, addr, hgiven, hheader, hlen, hpacket⟩

/--
What is delivered at position `i` was sealed at position `k`, and nothing was delivered before under
the same key and counter.
-/
structure SealedAt (P : Primitives) (ts : List Step) (i k : Nat) (s : Session) (plain : Bytes)
    : Prop where
  lt : k < i
  seals : ∃ u, ts[k]? = some u ∧ Seals P u s plain
  delivers : ∃ t, ts[i]? = some t ∧ Delivers P t s.sender s.sendingKeyCounter.toNat
  not_seen : ¬Seen P (ts.take i) s.sender s.sendingKeyCounter.toNat

theorem exists_sealedAt (hstart : Start start) (hrun : (machine P).Run start ts ch)
    (hideal : Ideal P start ts) (hproper : Proper P ts) {i : Nat} {packet : Bytes}
    (hdelivered : ts[i]?.bind delivered = some packet)
    : ∃ k s plain len addr,
        SealedAt P ts i k s plain
          ∧
        Tunn.ipHeader plain = some (len, addr) ∧ len ≤ plain.length ∧ packet = plain.take len := by
  obtain ⟨t, ht, hdelivered⟩ := Option.bind_eq_some_iff.mp hdelivered
  obtain ⟨hlt, rfl⟩ := List.getElem?_eq_some_iff.mp ht
  have hts : ts = ts.take i ++ ts[i] :: ts.drop (i + 1) := by simp
  rw [hts] at hrun hideal hproper
  obtain ⟨u, hu, s, plain, hseals, hdelivers, hnot, len, addr, hheader⟩ :=
    exists_seals_of_delivered hstart hrun hideal hproper hdelivered
  obtain ⟨k, hk⟩ := List.mem_iff_getElem?.mp hu
  rw [List.getElem?_take] at hk
  split at hk
  . next hlt =>
    exact ⟨k, s, plain, len, addr, ⟨hlt, ⟨u, hk, hseals⟩, ⟨ts[i], ht, hdelivers⟩, hnot⟩, hheader⟩
  . simp at hk

theorem SealedAt.sent {i k : Nat} {s : Session} {plain : Bytes} (h : SealedAt P ts i k s plain)
    (hplain : plain ≠ [])
    : ts[k]?.bind sent = some plain := by
  obtain ⟨u, hu, hseals⟩ := h.seals
  rw [hu]
  exact hseals.sent hplain

theorem SealedAt.not_lt {i j k : Nat} {s s' : Session} {plain plain' : Bytes}
    (h : SealedAt P ts i k s plain) (h' : SealedAt P ts j k s' plain')
    : ¬i < j := by
  intro hlt
  obtain ⟨u, hu, hseals⟩ := h.seals
  obtain ⟨u', hu', hseals'⟩ := h'.seals
  rw [hu] at hu'
  cases hu'
  have hs := hseals.unique hseals'
  obtain ⟨t, ht, hdelivers⟩ := h.delivers
  refine h'.not_seen ⟨t, ?_, hs ▸ hdelivers⟩
  rw [List.mem_iff_getElem?]
  exact ⟨i, by rw [List.getElem?_take, if_pos hlt, ht]⟩

/--
Whatever the network does, every packet that the receiver delivers was handed to the sender before
and is cut to its own length field, and no packet that the sender was handed is delivered twice.
-/
theorem delivered_at_most_once (hstart : Start start) (hrun : (machine P).Run start ts ch)
    (hideal : Ideal P start ts) (hproper : Proper P ts)
    : ∃ origin : Nat → Nat,
        (∀ i packet, ts[i]?.bind delivered = some packet →
          ∃ src len addr, origin i < i
            ∧ ts[origin i]?.bind given = some src
            ∧ Tunn.ipHeader src = some (len, addr)
            ∧ len ≤ src.length
            ∧ packet = src.take len)
          ∧
        ∀ i j packet packet', ts[i]?.bind delivered = some packet →
          ts[j]?.bind delivered = some packet' → origin i = origin j → i = j := by
  obtain ⟨origin, hmatching⟩ := exists_matching hstart hrun hproper
  have hsealed : ∀ i, ∃ k, ∀ packet, ts[i]?.bind delivered = some packet →
      ∃ s plain len addr, SealedAt P ts i k s plain ∧ Tunn.ipHeader plain = some (len, addr)
        ∧ len ≤ plain.length ∧ packet = plain.take len := by
    intro i
    cases hdelivered : ts[i]?.bind delivered with
    | none => exact ⟨0, by simp⟩
    | some packet =>
      obtain ⟨k, h⟩ := exists_sealedAt hstart hrun hideal hproper hdelivered
      exact ⟨k, by rintro _ ⟨⟩; exact h⟩
  choose position hposition using hsealed
  refine ⟨fun i => origin (position i), ?_, ?_⟩
  . intro i packet hdelivered
    obtain ⟨s, plain, len, addr, hsealed, hheader, hlen, hpacket⟩ := hposition i packet hdelivered
    obtain ⟨hle, hgiven⟩ := hmatching.cause _ plain (hsealed.sent (ne_nil_of_ipHeader hheader))
    exact ⟨plain, len, addr, Nat.lt_of_le_of_lt hle hsealed.lt, hgiven, hheader, hlen, hpacket⟩
  . intro i j packet packet' hi hj heq
    obtain ⟨s, plain, _, _, hsealed, hheader, _⟩ := hposition i packet hi
    obtain ⟨s', plain', _, _, hsealed', hheader', _⟩ := hposition j packet' hj
    have hsame : position i = position j :=
      hmatching.injective _ _ plain plain' (hsealed.sent (ne_nil_of_ipHeader hheader))
        (hsealed'.sent (ne_nil_of_ipHeader hheader')) heq
    rw [hsame] at hsealed
    rcases Nat.lt_trichotomy i j with hlt | heq | hlt
    . exact absurd hlt (hsealed.not_lt hsealed')
    . exact heq
    . exact absurd hlt (hsealed'.not_lt hsealed)

namespace Sample

def tunn (s : Session) : Tunn :=
  { Tunn.new Noise.Sample.primitives (Noise.Sample.key 1) (Noise.Sample.key 2) none none 1 0 false
      ⟨0, 0⟩ 0 with
    sessions := fun i => if i = Tunn.slot 0 then some s else none }

def sendingSession : Session :=
  .new 0x100 0x200 (Noise.Sample.key 8) (Noise.Sample.key 9)

def receivingSession : Session :=
  .new 0x200 0x100 (Noise.Sample.key 9) (Noise.Sample.key 8)

def established : Channel :=
  ⟨tunn sendingSession, tunn receivingSession⟩

def src : Bytes :=
  [0x45, 0, 0, 20] ++ List.replicate 17 0

def data : PacketData where
  receiverIdx := 0x200
  counter := 0
  encryptedEncapsulatedPacket :=
    Noise.Sample.primitives.chacha20Poly1305Seal (Noise.Sample.key 9) (counterNonce 0) src []

def sends : Call :=
  ⟨.encapsulate src, 148, 0, Noise.Sample.key 3⟩

def receives : Call :=
  ⟨.handleVerifiedPacket (.packetData data), 148, 0, Noise.Sample.key 3⟩

theorem start_established : Start established where
  window := by
    intro i s hs
    simp only [established, tunn, Option.ite_none_right_eq_some, Option.some.injEq] at hs
    rw [← hs.2]
    rfl
  key := by
    intro i j s s' hs hs' _
    simp only [established, tunn, Option.ite_none_right_eq_some] at hs hs'
    rw [hs.1, hs'.1]
  packetQueue := rfl

theorem exists_run
    : ∃ a b r,
        let ch : Channel := { established with sender := a }
        let packet := .writeToNetwork (sendingSession.sealPacket Noise.Sample.primitives src)
        (machine Noise.Sample.primitives).Run established
          [⟨established, .sender sends, [packet], ch⟩,
            ⟨ch, .receiver receives, [r], { ch with receiver := b }⟩]
          { ch with receiver := b }
          ∧
        r.packet = some (src.take 20) := by
  have hsend : ∃ a, established.sender.call Noise.Sample.primitives sends
      = some (a, .writeToNetwork (sendingSession.sealPacket Noise.Sample.primitives src)) :=
    ⟨_, rfl⟩
  have hreceive : (established.receiver.call Noise.Sample.primitives receives).any
      (fun result => result.2.packet = some (src.take 20)) = true := by
    decide +kernel
  obtain ⟨a, hsend⟩ := hsend
  cases hcall : established.receiver.call Noise.Sample.primitives receives with
  | none => simp [hcall] at hreceive
  | some result =>
    simp only [hcall, Option.any_some, decide_eq_true_eq] at hreceive
    refine ⟨a, result.1, result.2, ?_, hreceive⟩
    refine .append (.single ?_) (.single ?_)
    . simp only [machine, step, hsend, Option.map_some]
    . simp only [machine, step, hcall, Option.map_some]

variable {a b : Tunn} {r : TunnResult}

def sendStep (a : Tunn) : Step :=
  ⟨established, .sender sends,
    [.writeToNetwork (sendingSession.sealPacket Noise.Sample.primitives src)],
    { established with sender := a }⟩

def receiveStep (a b : Tunn) (r : TunnResult) : Step :=
  ⟨{ established with sender := a }, .receiver receives, [r], ⟨a, b⟩⟩

theorem seals_sendStep : Seals Noise.Sample.primitives (sendStep a) sendingSession src :=
  ⟨sends, rfl, rfl, .inl ⟨rfl, rfl, .inl rfl⟩⟩

theorem eq_of_split {t₀ t₁ : Step} {us vs : List Step} {t : Step} (h : [t₀, t₁] = us ++ t :: vs)
    : (us = [] ∧ t = t₀) ∨ (us = [t₀] ∧ t = t₁) := by
  match us with
  | [] =>
    simp only [List.nil_append, List.cons.injEq] at h
    exact .inl ⟨rfl, h.1.symm⟩
  | [u] =>
    simp only [List.cons_append, List.nil_append, List.cons.injEq] at h
    exact .inr ⟨by rw [h.1], h.2.1.symm⟩
  | _ :: _ :: us => simp at h

theorem ideal : Ideal Noise.Sample.primitives established [sendStep a, receiveStep a b r] where
  opens := by
    rintro us t vs d s plain hsplit ⟨c, hevent, hpacket, hs⟩ hopen
    rcases eq_of_split hsplit with ⟨_, rfl⟩ | ⟨rfl, rfl⟩
    . cases hevent
    . cases hevent
      cases hpacket
      have hs : some receivingSession = some s := hs
      cases hs
      have hplain : Noise.Sample.primitives.chacha20Poly1305Open (Noise.Sample.key 9)
          (counterNonce 0) (Noise.Sample.primitives.chacha20Poly1305Seal (Noise.Sample.key 9)
            (counterNonce 0) src []) [] = some plain := hopen
      rw [Noise.Sample.lawful.open_seal] at hplain
      cases hplain
      exact ⟨sendStep a, List.mem_cons_self, sendingSession, seals_sendStep, rfl, rfl⟩
  fresh := by
    rintro us t vs s hsplit ⟨c, hevent, hpacket⟩
    rcases eq_of_split hsplit with ⟨_, rfl⟩ | ⟨rfl, rfl⟩
    . cases hevent
    . cases hevent
      rcases hpacket with ⟨_, _, _, hpacket, _⟩ | ⟨_, _, hpacket, _⟩ <;> cases hpacket

theorem proper : Proper Noise.Sample.primitives [sendStep a, receiveStep a b r] where
  counter := by
    intro t ht s plain hseals
    rcases List.mem_cons.mp ht with rfl | ht
    . rw [← seals_sendStep.unique hseals]
      decide
    . rw [List.mem_singleton] at ht
      subst ht
      obtain ⟨c, hevent, _⟩ := hseals
      cases hevent
  dstLen := by
    intro t ht c hevent hnone
    rcases List.mem_cons.mp ht with rfl | ht
    . cases hnone
    . rw [List.mem_singleton] at ht
      subst ht
      cases hevent

end Sample

theorem delivered_at_most_once_cut
    : ∃ ts ch,
        (machine Noise.Sample.primitives).Run Sample.established ts ch
          ∧
        ts[1]?.bind delivered = some (Sample.src.take 20)
          ∧
        ∃ origin : Nat → Nat, ∃ src len addr, origin 1 < 1
          ∧ ts[origin 1]?.bind given = some src
          ∧ Tunn.ipHeader src = some (len, addr)
          ∧ len ≤ src.length
          ∧ Sample.src.take 20 = src.take len := by
  obtain ⟨a, b, r, hrun, hpacket⟩ := Sample.exists_run
  have hdelivered : [Sample.sendStep a, Sample.receiveStep a b r][1]?.bind delivered
      = some (Sample.src.take 20) := by
    simp [delivered, Sample.receiveStep, hpacket]
  obtain ⟨origin, horigin, _⟩ :=
    delivered_at_most_once Sample.start_established hrun Sample.ideal Sample.proper
  exact ⟨_, _, hrun, hdelivered, origin, horigin 1 _ hdelivered⟩

end Channel

end Noise
