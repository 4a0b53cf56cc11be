import VeilVpn.Service.Lemmas.Agreement
import VeilVpn.Service.Lemmas.Stale

namespace Service

open Registration (RegistrationState Response WellFormed stalePeerSecs staleNeverConnectedSecs)

variable {C : Primitives} {B : Registration.Base64} {s s' : Service} {e : Event}
  {responses : List Response} {pubkeyHex : String}
  {uapiPeers : HashMap String (Option Nat)}

/--
The device does not hold the peer, or the peer was registered long ago and there was no handshake with
it, or the last handshake was long ago.
-/
def Removable (s : Service) (pubkeyHex : String) : Prop :=
  ∃ key : FixedBytes 32, Hex.encode key.val = pubkeyHex ∧
    ∀ id, s.device.peers.lookup key = some id →
      (s.handshakes id = none ∧
        ∃ registeredAt, s.threads.state.inner.peerRegisteredAt.lookup pubkeyHex = some registeredAt
          ∧ registeredAt + Duration.fromSecs staleNeverConnectedSecs < s.now)
        ∨
      ∃ handshakeAt, s.handshakes id = some handshakeAt
        ∧ handshakeAt + Duration.fromSecs stalePeerSecs < s.now

/--
The snapshot does not rule out that the peer is stale when the reaper has got hold of the lock.
-/
def MayBeStale (uapiPeers : HashMap String (Option Nat)) (pubkeyHex : String) : Prop :=
  ∀ secs, uapiPeers.lookup pubkeyHex = some (some secs) → 0 < secs → stalePeerSecs < secs

/--
The peers that the reaper may remove before it sleeps again.
-/
def InQuestion (s : Service) (pubkeyHex : String) : Prop :=
  match s.threads.reaper with
  | .sleeping => False
  | .queried uapiPeers =>
    pubkeyHex ∈ s.threads.state.inner.registeredPeers ∧ MayBeStale uapiPeers pubkeyHex
  | .removing entry rest => pubkeyHex ∈ (entry :: rest).map Prod.fst

/--
What the tunnels of registered peers know about their last handshake is right: there was none, or it
was long ago and its age is right up to a second. How long ago the other ones were does not matter as
long as it is not in this second.
-/
def Accurate (s : Service) : Prop :=
  ∀ key id p time, Hex.encode key.val ∈ s.threads.state.inner.registeredPeers →
    s.device.peers.lookup key = some id → s.device.peerArena.get id = some p →
    p.tunnel.timeSinceLastHandshake s.now = some time →
    match time with
    | none => s.handshakes id = none
    | some age =>
      0 < age.asSecs ∧
        (stalePeerSecs < age.asSecs →
          ∃ handshakeAt, s.handshakes id = some handshakeAt
            ∧ handshakeAt + age < s.now + Duration.fromSecs 1)

/--
Nothing happens between the snapshot of the reaper and its removals that matters to it: no new peer is
registered before it gets hold of the lock, no handshake is completed with a peer that it may remove,
and the snapshot is accurate.
-/
structure Undisturbed (C : Primitives) (B : Registration.Base64) (s : Service) (e : Event) : Prop where
  register : ∀ pubkeyBase64 r uapiPeers, e = .register pubkeyBase64 r →
    s.threads.reaper = .queried uapiPeers → (setRequest B s pubkeyBase64 r).isSome →
    r.fate ≠ .answered
  handshake : ∀ event key id, e = .device event → completedHandshake C s.device event = some id →
    s.device.peers.lookup key = some id → ¬InQuestion s (Hex.encode key.val)
  query : ∀ order, e = .query order none → Accurate s

/--
The snapshot says about each peer that may be removed when it had its last handshake.
-/
def Reported (s : Service) (uapiPeers : HashMap String (Option Nat)) : Prop :=
  ∀ key id, Hex.encode key.val ∈ s.threads.state.inner.registeredPeers →
    MayBeStale uapiPeers (Hex.encode key.val) → s.device.peers.lookup key = some id →
    (uapiPeers.lookup (Hex.encode key.val) = some none ∧ s.handshakes id = none)
      ∨
    ∃ secs handshakeAt, uapiPeers.lookup (Hex.encode key.val) = some (some secs) ∧ 0 < secs
      ∧ s.handshakes id = some handshakeAt
      ∧ handshakeAt + Duration.fromSecs secs < s.now + Duration.fromSecs 1

structure Tracked (s : Service) : Prop where
  keys : ∀ pubkeyHex octet, s.threads.state.inner.peerToOctet.lookup pubkeyHex = some octet →
    ∃ key : FixedBytes 32, Hex.encode key.val = pubkeyHex
  registeredAt : ∀ pubkeyHex registeredAt,
    s.threads.state.inner.peerRegisteredAt.lookup pubkeyHex = some registeredAt →
      registeredAt ≤ s.now
  beforeQuery : s.threads.reaper ≠ .sleeping → ∀ pubkeyHex registeredAt,
    s.threads.state.inner.peerRegisteredAt.lookup pubkeyHex = some registeredAt →
      registeredAt ≤ s.queriedAt
  reported : ∀ uapiPeers, s.threads.reaper = .queried uapiPeers → Reported s uapiPeers
  removable : ∀ entry ∈ s.threads.reaper.entries, Removable s entry.1

section Mono

theorem Removable.mono (hs : Removable s pubkeyHex)
    (hpeers : ∀ key id, Hex.encode key.val = pubkeyHex → s'.device.peers.lookup key = some id →
      s.device.peers.lookup key = some id ∧ s'.handshakes id = s.handshakes id)
    (hnow : s.now ≤ s'.now)
    (hat : s'.threads.state.inner.peerRegisteredAt.lookup pubkeyHex
      = s.threads.state.inner.peerRegisteredAt.lookup pubkeyHex)
    : Removable s' pubkeyHex := by
  obtain ⟨key, hkey, hs⟩ := hs
  refine ⟨key, hkey, ?_⟩
  intro id hid
  obtain ⟨hid, hhandshake⟩ := hpeers key id hkey hid
  rw [hhandshake, hat]
  rcases hs id hid with ⟨hnone, t, ht, hold⟩ | ⟨t, ht, hold⟩
  . exact .inl ⟨hnone, t, ht, Nat.lt_of_lt_of_le hold hnow⟩
  . exact .inr ⟨t, ht, Nat.lt_of_lt_of_le hold hnow⟩

theorem Reported.mono (hs : Reported s uapiPeers)
    (hpeers : ∀ key id, Hex.encode key.val ∈ s.threads.state.inner.registeredPeers →
      MayBeStale uapiPeers (Hex.encode key.val) → s'.device.peers.lookup key = some id →
      s.device.peers.lookup key = some id ∧ s'.handshakes id = s.handshakes id)
    (hnow : s.now ≤ s'.now)
    (hregistered : s'.threads.state.inner.registeredPeers
      = s.threads.state.inner.registeredPeers)
    : Reported s' uapiPeers := by
  intro key id hmem hstale hid
  rw [hregistered] at hmem
  obtain ⟨hid, hhandshake⟩ := hpeers key id hmem hstale hid
  rw [hhandshake]
  rcases hs key id hmem hstale hid with hnone | ⟨secs, t, hlookup, hpos, ht, hage⟩
  . exact .inl hnone
  . have hage' := Nat.lt_of_lt_of_le hage (Nat.add_le_add_right hnow _)
    exact .inr ⟨secs, t, hlookup, hpos, ht, hage'⟩

theorem inQuestion_of_mem_entries {entry : String × UInt8} (h : entry ∈ s.threads.reaper.entries)
    : InQuestion s entry.1 := by
  unfold InQuestion
  cases hreaper : s.threads.reaper with
  | sleeping => simp [hreaper, Registration.Reaper.entries] at h
  | queried uapiPeers => simp [hreaper, Registration.Reaper.entries] at h
  | removing first rest =>
    rw [hreaper] at h
    exact List.mem_map_of_mem h

theorem Tracked.mono (hs : Tracked s)
    (hpeers : ∀ key id, InQuestion s (Hex.encode key.val) → s'.device.peers.lookup key = some id →
      s.device.peers.lookup key = some id ∧ s'.handshakes id = s.handshakes id)
    (hnow : s.now ≤ s'.now) (hreaper : s'.threads.reaper = s.threads.reaper)
    (htables : s'.threads.state.inner.tables = s.threads.state.inner.tables)
    (hqueried : s'.queriedAt = s.queriedAt)
    : Tracked s' := by
  simp only [Registration.RegistrationInner.tables, Prod.mk.injEq] at htables
  obtain ⟨hregistered, _, hoctet, hat⟩ := htables
  constructor
  . rw [hoctet]
    exact hs.keys
  . rw [hat]
    intro pubkeyHex registeredAt h
    exact Nat.le_trans (hs.registeredAt pubkeyHex registeredAt h) hnow
  . rw [hat, hreaper, hqueried]
    exact hs.beforeQuery
  . rw [hreaper]
    intro uapiPeers hqueried
    refine (hs.reported uapiPeers hqueried).mono ?_ hnow hregistered
    intro key id hmem hstale
    apply hpeers
    rw [InQuestion, hqueried]
    exact ⟨hmem, hstale⟩
  . rw [hreaper]
    intro entry hentry
    refine (hs.removable entry hentry).mono ?_ hnow (by rw [hat])
    rintro key id heq
    apply hpeers
    rw [heq]
    exact inQuestion_of_mem_entries hentry

end Mono

section Step

theorem reported_of_accurate {order : HashMap.Iteration s.device.peers} {answer : Device.ApiGet}
    (hs : Accurate s) (hget : s.device.apiGet order s.now = some answer)
    : Reported s (readPeers B answer).peers := by
  intro key id hmem hstale hid
  obtain ⟨p, time, hp, htime, hlookup⟩ := lookup_readPeers (B := B) hget hid
  have haccurate := hs key id p time hmem hid hp htime
  cases time with
  | none => exact .inl ⟨hlookup, haccurate⟩
  | some age =>
    obtain ⟨hpos, hlong⟩ := haccurate
    obtain ⟨handshakeAt, hhandshake, hage⟩ := hlong (hstale _ hlookup hpos)
    refine .inr ⟨age.asSecs, handshakeAt, hlookup, hpos, hhandshake, ?_⟩
    exact Nat.lt_of_le_of_lt (Nat.add_le_add_left age.fromSecs_asSecs_le _) hage

theorem mayBeStale_of_isStale {inner : Registration.RegistrationInner} {nowInstant : Instant}
    (h : Registration.isStale inner uapiPeers nowInstant pubkeyHex)
    : MayBeStale uapiPeers pubkeyHex := by
  intro secs hlookup hpos
  simpa only [Registration.isStale, hlookup, hpos, if_true, decide_eq_true_eq] using h

theorem lt_of_neverConnected {inner : Registration.RegistrationInner} {nowInstant : Instant}
    (h : Registration.neverConnected inner nowInstant pubkeyHex)
    : ∃ registeredAt, inner.peerRegisteredAt.lookup pubkeyHex = some registeredAt
        ∧ registeredAt + Duration.fromSecs staleNeverConnectedSecs < nowInstant := by
  unfold Registration.neverConnected at h
  split at h
  . next registeredAt hat =>
    exact ⟨registeredAt, hat, Duration.add_fromSecs_lt_of_lt_asSecs (of_decide_eq_true h)⟩
  . simp at h

theorem Reported.removable (hs : Reported s uapiPeers) {nowInstant : Instant}
    (hnow : nowInstant ≤ s.now) (hkey : ∃ key : FixedBytes 32, Hex.encode key.val = pubkeyHex)
    (hmem : pubkeyHex ∈ s.threads.state.inner.registeredPeers)
    (hstale : Registration.isStale s.threads.state.inner uapiPeers nowInstant pubkeyHex)
    : Removable s pubkeyHex := by
  obtain ⟨key, rfl⟩ := hkey
  refine ⟨key, rfl, ?_⟩
  intro id hid
  rcases hs key id hmem (mayBeStale_of_isStale hstale) hid with
    ⟨hlookup, hnone⟩ | ⟨secs, handshakeAt, hlookup, hpos, hhandshake, hage⟩
  . simp only [Registration.isStale, hlookup] at hstale
    obtain ⟨registeredAt, hat, hold⟩ := lt_of_neverConnected hstale
    exact .inl ⟨hnone, registeredAt, hat, Nat.lt_of_lt_of_le hold hnow⟩
  . simp only [Registration.isStale, hlookup, hpos, if_true, decide_eq_true_eq] at hstale
    exact .inr ⟨handshakeAt, hhandshake, Duration.add_fromSecs_lt_of_lt hage hstale⟩

theorem notMem_registeredPeers_of_allocates (hthreads : WellFormed s.threads)
    {state : RegistrationState} {pubkeyBase64 : String} {pubkey : FixedBytes 32} {octet : UInt8}
    (h : Registration.Allocates B s.threads.state state pubkeyBase64 pubkey octet)
    : Hex.encode pubkey.val ∉ s.threads.state.inner.registeredPeers := by
  obtain ⟨pool, hpool⟩ := hthreads.pool
  have hunassigned := h.unassigned
  rw [hpool.assignedOctet] at hunassigned
  rw [hpool.mem_registeredPeers, hunassigned]
  simp

theorem Tracked.commit (hs : Tracked s) (hreaper : s.threads.reaper = .sleeping)
    {state : RegistrationState} (htables : state.inner.tables = s.threads.state.inner.tables)
    (device : Device) (pubkey : FixedBytes 32) (octet : UInt8) (answer : Except String Unit)
    : Tracked { s with
        device
        threads := { s.threads with
          state := (Registration.commitRegistration state pubkey octet answer s.now).1 } } := by
  simp only [Registration.RegistrationInner.tables, Prod.mk.injEq] at htables
  obtain ⟨_, _, hoctet, hat⟩ := htables
  refine ⟨?_, ?_, ?_, ?_, ?_⟩
  . intro pubkeyHex octet' h
    cases answer with
    | error =>
      simp only [Registration.commitRegistration, hoctet] at h
      exact hs.keys pubkeyHex octet' h
    | ok =>
      simp only [Registration.commitRegistration, HashMap.lookup_insert, hoctet] at h
      split at h
      . next heq => exact ⟨pubkey, heq.symm⟩
      . exact hs.keys pubkeyHex octet' h
  . intro pubkeyHex registeredAt h
    cases answer with
    | error =>
      simp only [Registration.commitRegistration, hat] at h
      exact hs.registeredAt pubkeyHex registeredAt h
    | ok =>
      simp only [Registration.commitRegistration, HashMap.lookup_insert, hat] at h
      split at h
      . cases h
        exact Nat.le_refl _
      . exact hs.registeredAt pubkeyHex registeredAt h
  . intro hawake
    exact absurd hreaper hawake
  . intro uapiPeers hqueried
    simp [hreaper] at hqueried
  . intro entry hentry
    simp [hreaper, Registration.Reaper.entries] at hentry

theorem Tracked.lock (hs : Tracked s) (hthreads : WellFormed s.threads)
    (hreaper : s.threads.reaper = .queried uapiPeers) {nowInstant : Instant}
    (hnow : nowInstant ≤ s.now) (order : HashMap.Iteration s.threads.state.inner.peerToOctet)
    : Tracked { s with threads := { s.threads with
        reaper :=
          .ofList (Registration.toRemove s.threads.state.inner uapiPeers nowInstant order) } } := by
  refine ⟨hs.keys, hs.registeredAt, ?_, ?_, ?_⟩
  . intro _
    exact hs.beforeQuery (by simp [hreaper])
  . intro uapiPeers' hqueried
    exact absurd hqueried (Registration.Reaper.ofList_ne_queried _ _)
  . intro entry hentry
    dsimp only at hentry
    rw [Registration.Reaper.entries_ofList, Registration.toRemove, List.mem_filter] at hentry
    obtain ⟨hmem, hstale⟩ := hentry
    have hoctet := (order.mem_entries_iff entry.1 entry.2).mp hmem
    have hregistered : entry.1 ∈ s.threads.state.inner.registeredPeers := by
      obtain ⟨pool, hpool⟩ := hthreads.pool
      rw [hpool.mem_registeredPeers, ← hpool.peerToOctet, hoctet]
      rfl
    exact (hs.reported uapiPeers hreaper).removable hnow (hs.keys _ _ hoctet) hregistered hstale

/--
A request to add a peer only changes which peer has its key.
-/
theorem lookup_of_executeSet {fate : Fate String} {env : Device.Env} {device : Device}
    {pubkey key : FixedBytes 32} {ip : Ipv4Addr} {id : Device.PeerId}
    (h : (if fate.executed then s.device.apiSetPeer C (Hex.encode pubkey.val) ip env
      else some s.device) = some device)
    (hid : device.peers.lookup key = some id) (hne : key ≠ pubkey)
    : s.device.peers.lookup key = some id := by
  split at h
  . rw [(apiSetPeer_adds h).peers, HashMap.lookup_insert, if_neg hne] at hid
    exact hid
  . cases h
    exact hid

theorem lookup_of_executeRemove {fate : Fate (Option String)} {env : Device.Env} {device : Device}
    (h : (if fate.executed then s.device.apiRemovePeer C pubkeyHex env else some s.device)
      = some device)
    : ∀ key id, device.peers.lookup key = some id → s.device.peers.lookup key = some id := by
  intro key id hid
  split at h
  . unfold Device.apiRemovePeer at h
    split at h
    . cases h
      exact hid
    . simp only [Device.updatePeer, if_true, Option.some.injEq] at h
      subst h
      exact Device.lookup_of_lookup_removePeer hid
  . cases h
    exact hid

theorem Tracked.removeStale (hs : Tracked s) (hthreads : WellFormed s.threads)
    {entry : String × UInt8} {rest : List (String × UInt8)}
    (hreaper : s.threads.reaper = .removing entry rest) {device : Device}
    (hdevice : ∀ key id, device.peers.lookup key = some id → s.device.peers.lookup key = some id)
    (answer : Except String Bool)
    : Tracked { s with
        device
        threads := ⟨Registration.removeStale s.threads.state entry answer, .ofList rest⟩ } := by
  have hoctet : ∀ pubkeyHex octet,
      (Registration.removeStale s.threads.state entry answer).inner.peerToOctet.lookup pubkeyHex
        = some octet →
      s.threads.state.inner.peerToOctet.lookup pubkeyHex = some octet := by
    intro pubkeyHex octet h
    unfold Registration.removeStale at h
    split at h
    . simp only [HashMap.lookup_erase] at h
      exact (Option.ite_none_left_eq_some.mp h).2
    . exact h
    . exact h
  have hat : ∀ pubkeyHex registeredAt,
      (Registration.removeStale s.threads.state entry answer).inner.peerRegisteredAt.lookup pubkeyHex
        = some registeredAt →
      s.threads.state.inner.peerRegisteredAt.lookup pubkeyHex = some registeredAt := by
    intro pubkeyHex registeredAt h
    unfold Registration.removeStale at h
    split at h
    . simp only [HashMap.lookup_erase] at h
      exact (Option.ite_none_left_eq_some.mp h).2
    . exact h
    . exact h
  refine ⟨?_, ?_, ?_, ?_, ?_⟩
  . intro pubkeyHex octet h
    exact hs.keys pubkeyHex octet (hoctet _ _ h)
  . intro pubkeyHex registeredAt h
    exact hs.registeredAt pubkeyHex registeredAt (hat _ _ h)
  . intro _ pubkeyHex registeredAt h
    exact hs.beforeQuery (by simp [hreaper]) pubkeyHex registeredAt (hat _ _ h)
  . intro uapiPeers hqueried
    exact absurd hqueried (Registration.Reaper.ofList_ne_queried _ _)
  . intro entry' hentry'
    simp only [Registration.Reaper.entries_ofList] at hentry'
    have hnodup := hthreads.nodup
    simp only [hreaper, Registration.Reaper.entries, List.map_cons, List.nodup_cons] at hnodup
    have hne : entry'.1 ≠ entry.1 := by
      intro heq
      exact hnodup.1 (heq ▸ List.mem_map_of_mem hentry')
    have hremovable : Removable s entry'.1 := by
      apply hs.removable
      rw [hreaper, Registration.Reaper.entries]
      exact List.mem_cons_of_mem _ hentry'
    refine hremovable.mono (fun key id _ h => ⟨hdevice key id h, rfl⟩) (Nat.le_refl _) ?_
    unfold Registration.removeStale
    split
    . simp only [HashMap.lookup_erase]
      rw [if_neg hne]
    . rfl
    . rfl

theorem recordHandshake_of_ne {e : Device.Event} {id : Device.PeerId}
    (h : completedHandshake C s.device e ≠ some id)
    : recordHandshake C s e id = s.handshakes id := by
  unfold recordHandshake
  cases hcompleted : completedHandshake C s.device e with
  | none => rfl
  | some id' =>
    apply Function.update_of_ne
    rintro rfl
    exact h hcompleted

theorem Tracked.step (hs : Tracked s) (hthreads : WellFormed s.threads)
    (h : (machine C B).step s e = some (s', responses)) (hundisturbed : Undisturbed C B s e)
    : Tracked s' := by
  cases stepCase_of_step h with
  | tick duration hafter =>
    subst hafter
    exact hs.mono (fun _ _ _ h => ⟨h, rfl⟩) (Nat.le_add_right _ _) rfl rfl rfl
  | device e device outputs hconfig hstep hafter =>
    subst hafter
    have hpeers : device.peers = s.device.peers := by
      change device.static.peers = s.device.static.peers
      rw [Device.static_of_step hstep hconfig]
    refine hs.mono ?_ (Nat.le_refl _) rfl rfl rfl
    intro key id hquestion hid
    simp only [hpeers] at hid
    refine ⟨hid, recordHandshake_of_ne ?_⟩
    intro hcompleted
    exact hundisturbed.handshake e key id rfl hcompleted hid hquestion
  | respond pubkeyBase64 r state _ htables _ _ hafter =>
    subst hafter
    exact hs.mono (fun _ _ _ h => ⟨h, rfl⟩) (Nat.le_refl _) rfl htables rfl
  | set pubkeyBase64 r state pubkey octet device hrequest hallocates hentries hdevice hafter =>
    subst hafter
    cases hreaper : s.threads.reaper with
    | sleeping => exact hs.commit hreaper hallocates.tables device pubkey octet r.fate.setAnswer
    | queried uapiPeers =>
      have hfate := hundisturbed.register pubkeyBase64 r uapiPeers rfl hreaper
        (by rw [hrequest]; rfl)
      have hnew := notMem_registeredPeers_of_allocates hthreads hallocates
      refine hs.mono ?_ (Nat.le_refl _) rfl ?_ rfl
      . intro key id hquestion hid
        rw [InQuestion, hreaper] at hquestion
        refine ⟨lookup_of_executeSet hdevice hid ?_, rfl⟩
        rintro rfl
        exact hnew hquestion.1
      . cases hcase : r.fate with
        | answered => exact absurd hcase hfate
        | failed _ _ =>
          simp only [Fate.setAnswer, Registration.commitRegistration]
          exact hallocates.tables
    | removing entry rest => simp [hreaper, Registration.Reaper.entries] at hentries
  | query order answer hget hreaper hafter =>
    subst hafter
    refine ⟨hs.keys, hs.registeredAt, fun _ => hs.registeredAt, ?_, ?_⟩
    . intro uapiPeers hqueried
      cases hqueried
      exact reported_of_accurate (hundisturbed.query order rfl) hget
    . intro entry hentry
      simp [Registration.Reaper.entries] at hentry
  | queryFailed order error hafter hreaper =>
    subst hafter
    refine ⟨hs.keys, hs.registeredAt, fun hawake => absurd hreaper hawake, ?_, hs.removable⟩
    intro uapiPeers hqueried
    simp [hreaper] at hqueried
  | lock nowInstant order uapiPeers hnow hreaper hafter =>
    subst hafter
    exact hs.lock hthreads hreaper hnow.2 (order s.threads.state.inner.peerToOctet)
  | remove fate env entry rest device hreaper hdevice hafter =>
    subst hafter
    exact hs.removeStale hthreads hreaper (lookup_of_executeRemove hdevice) fate.removeAnswer

end Step

variable {subnetPrefix : FixedBytes 3} {paymentConfig : Registration.PaymentConfigSnapshot}
  {publicIp : String} {d : Device} {now : Instant}
  {ts : List (Transition Service Event Response)}

theorem tracked_new : Tracked (.new (.new subnetPrefix paymentConfig publicIp) d now) := by
  refine ⟨?_, ?_, ?_, ?_, ?_⟩
  . intro pubkeyHex octet h
    simp [new, RegistrationState.new] at h
  . intro pubkeyHex registeredAt h
    simp [new, RegistrationState.new] at h
  . intro hawake
    exact absurd rfl hawake
  . intro uapiPeers hqueried
    simp [new] at hqueried
  . intro entry hentry
    simp [new, Registration.Reaper.entries] at hentry

/--
As long as nothing disturbs the reaper, it only removes peers that may be removed, and none that
registered after the snapshot.
-/
theorem removable_of_run
    (hrun : (machine C B).Run (.new (.new subnetPrefix paymentConfig publicIp) d now) ts s)
    (hundisturbed : ∀ t ∈ ts, Undisturbed C B t.before t.event)
    : ∀ t ∈ ts, ∀ fate env, t.event = .remove fate env →
        ∃ entry rest,
          t.before.threads.reaper = .removing entry rest
            ∧
          Removable t.before entry.1
            ∧
          ∀ registeredAt,
            t.before.threads.state.inner.peerRegisteredAt.lookup entry.1 = some registeredAt →
              registeredAt ≤ t.before.queriedAt := by
  intro t ht fate env hevent
  obtain ⟨⟨us, hus, hbefore⟩, hstep⟩ := hrun.exists_run_before t ht
  have htracked : Tracked t.before ∧ WellFormed t.before.threads := by
    apply hbefore.invariant_of_mem (fun s => Tracked s ∧ WellFormed s.threads)
    . exact ⟨tracked_new, Registration.wellFormed_new subnetPrefix paymentConfig publicIp⟩
    . intro u hu hs h
      exact ⟨hs.1.step hs.2 h (hundisturbed u (hus.subset hu)), wellFormed_of_step hs.2 h⟩
  rw [hevent] at hstep
  cases stepCase_of_step hstep with
  | remove _ _ entry rest _ hreaper _ _ =>
    refine ⟨entry, rest, hreaper, ?_, ?_⟩
    . apply htracked.1.removable
      rw [hreaper]
      exact List.mem_cons_self
    . intro registeredAt hat
      exact htracked.1.beforeQuery (by simp [hreaper]) entry.1 registeredAt hat

theorem undisturbed_of_sleeping (hreaper : s.threads.reaper = .sleeping)
    (hquery : ∀ order, e = .query order none → Accurate s)
    : Undisturbed C B s e := by
  refine ⟨?_, ?_, hquery⟩
  . intro _ _ uapiPeers _ hqueried
    simp [hreaper] at hqueried
  . intro _ _ _ _ _ _ hquestion
    simp [InQuestion, hreaper] at hquestion

namespace Sample

open Registration.Sample (base64 pubkey pubkeyText decode_pubkeyText)
open Device.Sample (primitives env)

structure Registered (d : Device) (s : Service) : Prop where
  device : s.device = d
  peerToOctet : s.threads.state.inner.peerToOctet
    = Finmap.insert (Hex.encode pubkey.val) 2 (∅ : HashMap String UInt8)
  registeredAt : s.threads.state.inner.peerRegisteredAt.lookup (Hex.encode pubkey.val) = some 0
  handshakes : ∀ id, s.handshakes id = none

theorem Fresh.query {s : Service} (hs : Fresh s) (hreaper : s.threads.reaper = .sleeping)
    (hdevice : s.device = device) (order : DeviceOrder)
    : ∃ s', (machine primitives base64).step s (.query order none) = some (s', [])
        ∧ Fresh s' ∧ s'.threads.reaper = .queried ∅ ∧ s'.device = device
        ∧ s'.handshakes = s.handshakes ∧ s'.queriedAt = 0 := by
  have hpeers : s.device.peers = ∅ := by
    rw [hdevice, peers_device]
  have hget := Device.apiGet_of_peers_eq_empty hpeers (order s.device.peers) s.now
  refine ⟨_, step_query_eq hreaper hget, ?_, rfl, hdevice, rfl, hs.now⟩
  exact ⟨hs.now, rfl, hs.registeredPeers, hs.peerToOctet, hs.pick, hs.ip⟩

theorem Fresh.answer {s : Service} (hs : Fresh s) (hdevice : s.device = device)
    (hhandshakes : ∀ id, s.handshakes id = none) (order : DeviceOrder) {d : Device}
    (hset : device.apiSetPeer primitives (Hex.encode pubkey.val) (.new 10 0 0 2) env = some d)
    : ∃ s' response,
        (machine primitives base64).step s (.register pubkeyText (request order .answered))
          = some (s', [response])
          ∧ Registered d s' ∧ s'.threads.reaper = s.threads.reaper ∧ s'.now = 0
          ∧ s'.queriedAt = s.queriedAt := by
  obtain ⟨state, hallocates, _, hstep⟩ :=
    hs.register order .answered (informed_of_device_eq hdevice rfl) decode_pubkeyText
  rw [hdevice] at hstep
  obtain ⟨response, hstep⟩ := hstep d hset
  have htables := hallocates.tables
  simp only [Registration.RegistrationInner.tables, Prod.mk.injEq] at htables
  refine ⟨_, response, hstep, ⟨rfl, ?_, ?_, hhandshakes⟩, rfl, hs.now, rfl⟩
  . simp only [Fate.setAnswer, Registration.commitRegistration, htables, hs.peerToOctet]
  . simp only [Fate.setAnswer, Registration.commitRegistration, HashMap.lookup_insert, if_true,
      hs.now]

structure Added (d : Device) : Prop where
  peers : ∀ key id, d.peers.lookup key = some id → key = pubkey
  get : ∃ id p, d.peers.lookup pubkey = some id ∧ d.peerArena.get id = some p
    ∧ ∀ now, p.tunnel.timeSinceLastHandshake now = some none

theorem added_of_apiSetPeer {d : Device}
    (h : device.apiSetPeer primitives (Hex.encode pubkey.val) (.new 10 0 0 2) env = some d)
    : Added d := by
  have hpeers := (apiSetPeer_adds h).peers
  rw [peers_device] at hpeers
  simp only [Device.apiSetPeer, parseKey_encode] at h
  obtain ⟨p, hget, hnone⟩ := Device.timeSinceLastHandshake_of_updatePeer h
  refine ⟨?_, device.peerArena.size, p, ?_, hget, hnone⟩
  . intro key id hid
    rw [hpeers, HashMap.lookup_insert] at hid
    split at hid
    . next heq => exact heq
    . simp at hid
  . rw [hpeers, HashMap.lookup_insert, if_pos rfl]

theorem Added.timeSinceLastHandshake {d : Device} (hd : Added d) {key : FixedBytes 32}
    {id : Device.PeerId} (hid : d.peers.lookup key = some id)
    : ∃ p, d.peerArena.get id = some p ∧ ∀ now, p.tunnel.timeSinceLastHandshake now = some none := by
  obtain ⟨id', p, hid', hget, hnone⟩ := hd.get
  rw [hd.peers key id hid, hid'] at hid
  cases hid
  exact ⟨p, hget, hnone⟩

theorem Registered.accurate {d : Device} {s : Service} (hs : Registered d s) (hd : Added d)
    : Accurate s := by
  intro key id p time _ hid hget htime
  rw [hs.device] at hid hget
  obtain ⟨p', hget', hnone⟩ := hd.timeSinceLastHandshake hid
  rw [hget'] at hget
  cases hget
  rw [hnone] at htime
  cases htime
  exact hs.handshakes id

theorem Registered.query {d : Device} {s : Service} (hs : Registered d s) (hd : Added d)
    (hreaper : s.threads.reaper = .sleeping) (order : DeviceOrder)
    : ∃ s' uapiPeers, (machine primitives base64).step s (.query order none) = some (s', [])
        ∧ Registered d s' ∧ s'.threads.reaper = .queried uapiPeers
        ∧ uapiPeers.lookup (Hex.encode pubkey.val) = some none ∧ s'.now = s.now
        ∧ s'.queriedAt = s.now := by
  obtain ⟨rfl, hoctet, hat, hhandshakes⟩ := hs
  have htime : ∀ key id, s.device.peers.lookup key = some id →
      ∃ p time, s.device.peerArena.get id = some p
        ∧ p.tunnel.timeSinceLastHandshake s.now = some time := by
    intro key id hid
    obtain ⟨p, hget, hnone⟩ := hd.timeSinceLastHandshake hid
    exact ⟨p, none, hget, hnone s.now⟩
  obtain ⟨answer, hget⟩ := Device.exists_apiGet htime (order s.device.peers)
  refine ⟨_, _, step_query_eq hreaper hget, ⟨rfl, hoctet, hat, hhandshakes⟩, rfl, ?_, rfl, rfl⟩
  obtain ⟨id, _, hid, hp, hnone⟩ := hd.get
  obtain ⟨_, _, hp', htime, hlookup⟩ := lookup_readPeers (B := base64) hget hid
  rw [hp] at hp'
  cases hp'
  rw [hnone] at htime
  cases htime
  exact hlookup

theorem Registered.lock {d : Device} {s : Service} (hs : Registered d s)
    {uapiPeers : HashMap String (Option Nat)} (hreaper : s.threads.reaper = .queried uapiPeers)
    (hnow : s.queriedAt ≤ s.now)
    (hstale : Registration.isStale s.threads.state.inner uapiPeers s.now (Hex.encode pubkey.val))
    (order : (m : HashMap String UInt8) → HashMap.Iteration m)
    : ∃ s' entry rest,
        (machine primitives base64).step s (.lock s.now order) = some (s', [])
          ∧ Registered d s' ∧ s'.threads.reaper = .removing entry rest
          ∧ entry.1 = Hex.encode pubkey.val ∧ s'.now = s.now := by
  have hstep := step_lock_eq (C := primitives) (B := base64) hreaper hnow order
  have hmem : (Hex.encode pubkey.val, 2) ∈ Registration.toRemove s.threads.state.inner uapiPeers
      s.now (order s.threads.state.inner.peerToOctet) := by
    rw [Registration.toRemove, List.mem_filter, HashMap.Iteration.mem_entries_iff, hs.peerToOctet,
      HashMap.lookup_insert, if_pos rfl]
    exact ⟨rfl, hstale⟩
  cases hlist : Registration.toRemove s.threads.state.inner uapiPeers s.now
      (order s.threads.state.inner.peerToOctet) with
  | nil => simp [hlist] at hmem
  | cons entry rest =>
    rw [hlist] at hstep
    refine ⟨_, entry, rest, hstep, ⟨hs.device, hs.peerToOctet, hs.registeredAt, hs.handshakes⟩, rfl,
      ?_, rfl⟩
    have hentry : entry ∈ Registration.toRemove s.threads.state.inner uapiPeers s.now
        (order s.threads.state.inner.peerToOctet) := by
      rw [hlist]
      exact List.mem_cons_self
    rw [Registration.toRemove, List.mem_filter, HashMap.Iteration.mem_entries_iff, hs.peerToOctet,
      HashMap.lookup_insert] at hentry
    obtain ⟨hlookup, _⟩ := hentry
    split at hlookup
    . next heq => exact heq
    . simp at hlookup

theorem Registered.tick {d : Device} {s : Service} (hs : Registered d s) (duration : Duration)
    : Registered d { s with now := s.now + duration } :=
  ⟨hs.device, hs.peerToOctet, hs.registeredAt, hs.handshakes⟩

theorem Registered.isStale {d : Device} {s : Service} (hs : Registered d s)
    {uapiPeers : HashMap String (Option Nat)}
    (hlookup : uapiPeers.lookup (Hex.encode pubkey.val) = some none)
    (hnow : s.now = Duration.fromSecs 700)
    : Registration.isStale s.threads.state.inner uapiPeers s.now (Hex.encode pubkey.val) := by
  simp only [Registration.isStale, hlookup, Registration.neverConnected, hs.registeredAt, hnow]
  decide

theorem Registered.not_removable {d : Device} {s : Service} (hs : Registered d s)
    {id : Device.PeerId} (hheld : d.peers.lookup pubkey = some id) (hnow : s.now = 0)
    : ¬Removable s (Hex.encode pubkey.val) := by
  rintro ⟨key, hkey, hremovable⟩
  obtain rfl : key = pubkey := Subtype.ext (Hex.encode_injective hkey)
  rcases hremovable id (by rw [hs.device]; exact hheld) with ⟨_, t, _, hold⟩ | ⟨t, ht, _⟩
  . rw [hnow] at hold
    exact Nat.not_lt_zero _ hold
  . simp [hs.handshakes] at ht

theorem exists_neverConnected
    : ∃ ts s t env, (machine primitives base64).Run initial ts s
        ∧ (∀ t ∈ ts, Undisturbed primitives base64 t.before t.event)
        ∧ t ∈ ts ∧ t.event = .remove .answered env := by
  obtain ⟨order⟩ : Nonempty DeviceOrder := HashMap.nonempty_order
  obtain ⟨order'⟩ : Nonempty ((m : HashMap String UInt8) → HashMap.Iteration m) :=
    HashMap.nonempty_order
  obtain ⟨d, _, hset, _⟩ := exists_devices
  have hadded := added_of_apiSetPeer hset
  obtain ⟨s₁, _, hregister, hregistered₁, hreaper₁, hnow₁, _⟩ :=
    fresh_initial.answer rfl (fun _ => rfl) order hset
  have htick : (machine primitives base64).step s₁ (.tick (Duration.fromSecs 700))
      = some ({ s₁ with now := s₁.now + Duration.fromSecs 700 }, []) := by
    rfl
  have hregistered₂ := hregistered₁.tick (Duration.fromSecs 700)
  obtain ⟨s₃, uapiPeers, hquery, hregistered₃, hreaper₃, hlookup, hnow₃, hqueried₃⟩ :=
    hregistered₂.query hadded hreaper₁ order
  have hnow : s₃.now = Duration.fromSecs 700 := by
    rw [hnow₃, hnow₁, Nat.zero_add]
  obtain ⟨s₄, entry, rest, hlock, _, hreaper₄, _, _⟩ := hregistered₃.lock hreaper₃
    (by rw [hqueried₃, hnow₃]) (hregistered₃.isStale hlookup hnow) order'
  obtain ⟨s₅, hremove⟩ := exists_remove (C := primitives) (B := base64) hreaper₄ env
  refine ⟨_, s₅, _, env,
    ((((Machine.Run.single hregister).snoc htick).snoc hquery).snoc hlock).snoc hremove, ?_,
    List.mem_append_right _ List.mem_cons_self, rfl⟩
  intro t ht
  simp only [List.mem_append, List.mem_singleton] at ht
  rcases ht with (((rfl | rfl) | rfl) | rfl) | rfl
  . exact undisturbed_of_sleeping rfl (by simp)
  . exact undisturbed_of_sleeping hreaper₁ (by simp)
  . exact undisturbed_of_sleeping hreaper₁ (fun _ _ => hregistered₂.accurate hadded)
  . exact ⟨by simp, by simp, by simp⟩
  . exact ⟨by simp, by simp, by simp⟩

end Sample

/--
A peer registers after the snapshot, and it is removed at once.
-/
theorem exists_removed_early
    : ∃ ts s order r nowInstant order' env,
        (machine Device.Sample.primitives Registration.Sample.base64).Run Sample.initial ts s
          ∧
        ts.map Transition.event = [
          .query order none,
          .register Registration.Sample.pubkeyText r,
          .lock nowInstant order',
          .remove .answered env
        ]
          ∧
        ∃ t ∈ ts, ∃ fate env entry rest,
          t.event = .remove fate env
            ∧ t.before.threads.reaper = .removing entry rest ∧ ¬Removable t.before entry.1 := by
  obtain ⟨order⟩ : Nonempty DeviceOrder := HashMap.nonempty_order
  obtain ⟨order'⟩ : Nonempty ((m : HashMap String UInt8) → HashMap.Iteration m) :=
    HashMap.nonempty_order
  obtain ⟨d, _, hset, _⟩ := Sample.exists_devices
  have hheld : d.peers.lookup Registration.Sample.pubkey = some Sample.device.peerArena.size := by
    rw [(apiSetPeer_adds hset).peers, HashMap.lookup_insert, if_pos rfl]
  obtain ⟨s₁, hquery, hfresh, hreaper₁, hdevice, hhandshakes, hqueried₁⟩ :=
    Sample.fresh_initial.query rfl rfl order
  obtain ⟨s₂, _, hregister, hregistered, hreaper₂, hnow₂, hqueried₂⟩ :=
    hfresh.answer hdevice (by rw [hhandshakes]; exact fun _ => rfl) order hset
  have hstale : Registration.isStale s₂.threads.state.inner ∅ s₂.now
      (Hex.encode Registration.Sample.pubkey.val) := by
    simp [Registration.isStale]
  obtain ⟨s₃, entry, rest, hlock, hregistered₃, hreaper₃, hentry, hnow₃⟩ :=
    hregistered.lock (hreaper₂.trans hreaper₁) (by rw [hqueried₂, hqueried₁, hnow₂]) hstale order'
  obtain ⟨s₄, hremove⟩ := exists_remove (C := Device.Sample.primitives)
    (B := Registration.Sample.base64) hreaper₃ Device.Sample.env
  refine ⟨_, s₄, order, Sample.request order .answered, s₂.now, order', Device.Sample.env,
    (((Machine.Run.single hquery).snoc hregister).snoc hlock).snoc hremove, rfl, ?_⟩
  refine ⟨_, List.mem_append_right _ List.mem_cons_self, .answered, Device.Sample.env, entry, rest,
    rfl, hreaper₃, ?_⟩
  dsimp only
  rw [hentry]
  exact hregistered₃.not_removable hheld (hnow₃.trans hnow₂)

theorem removable_of_run_neverConnected
    : ∃ ts s,
        (machine Device.Sample.primitives Registration.Sample.base64).Run Sample.initial ts s
          ∧
        ∃ t ∈ ts, ∃ fate env entry rest,
          t.event = .remove fate env ∧ t.before.threads.reaper = .removing entry rest
            ∧ Removable t.before entry.1 := by
  obtain ⟨ts, s, t, env, hrun, hundisturbed, ht, hevent⟩ := Sample.exists_neverConnected
  obtain ⟨entry, rest, hreaper, hremovable, _⟩ :=
    removable_of_run hrun hundisturbed t ht .answered env hevent
  exact ⟨ts, s, hrun, t, ht, .answered, env, entry, rest, hevent, hreaper, hremovable⟩

end Service
