import VeilVpn.Device.Lemmas.Roles
import VeilVpn.Service.Lemmas.Step

namespace Service

open Registration (RegistrationInner stalePeerSecs staleNeverConnectedSecs)

section Classification

variable {B : Registration.Base64} {d : Device} {order : HashMap.Iteration d.peers} {now : Instant}
  {answer : Device.ApiGet} {key : FixedBytes 32} {id : Device.PeerId} {p : Device.Peer}

theorem lookup_readPeers (hget : d.apiGet order now = some answer)
    (hid : d.peers.lookup key = some id)
    : ∃ p time, d.peerArena.get id = some p
        ∧ p.tunnel.timeSinceLastHandshake now = some time
        ∧ (readPeers B answer).peers.lookup (Hex.encode key.val)
          = some (time.map Duration.asSecs) := by
  obtain ⟨p, time, hp, htime, hmem⟩ := Device.apiGet_reports hget hid
  refine ⟨p, time, hp, htime, ?_⟩
  exact HashMap.lookup_foldl_insert Device.ApiPeer.publicKey Device.ApiPeer.lastHandshakeTimeSec
    (Device.nodup_publicKey_of_apiGet hget) hmem ∅

/--
The age of the last session, by the clock of the tunnel. This clock only moves with the timers.
-/
def sessionAge (t : Noise.Tunn) (now : Instant) : Duration :=
  now.durationSince t.timers.timeStarted - t.timers.timers .timeSessionEstablished

/--
A tunnel with a current session that is at least one second old decides by the age of the session,
every other one by the time since the registration.
-/
def Kept (t : Noise.Tunn) (now : Instant) (registered : Duration) : Prop :=
  if t.currentSession.isSome ∧ 0 < (sessionAge t now).asSecs then
    (sessionAge t now).asSecs ≤ stalePeerSecs
  else
    registered.asSecs ≤ staleNeverConnectedSecs

theorem timeSinceLastHandshake_eq_some {t : Noise.Tunn} {time : Option Duration}
    (h : t.timeSinceLastHandshake now = some time)
    : time = if t.currentSession.isSome then some (sessionAge t now) else none := by
  unfold Noise.Tunn.timeSinceLastHandshake at h
  split at h
  . next hsession =>
    rw [Option.map_eq_some_iff] at h
    obtain ⟨age, hage, rfl⟩ := h
    unfold Duration.sub at hage
    split at hage
    . cases hage
      rw [if_pos hsession, sessionAge]
    . simp at hage
  . next hsession =>
    cases h
    rw [if_neg hsession]

theorem isStale_eq_false_iff {inner : RegistrationInner} {uapiPeers : HashMap String (Option Nat)}
    {pubkeyHex : String} {registeredAt nowInstant : Instant} {t : Noise.Tunn}
    (hat : inner.peerRegisteredAt.lookup pubkeyHex = some registeredAt)
    (hlookup : uapiPeers.lookup pubkeyHex
      = some (if t.currentSession.isSome then some (sessionAge t now).asSecs else none))
    : Registration.isStale inner uapiPeers nowInstant pubkeyHex = false
        ↔
      Kept t now (nowInstant.durationSince registeredAt) := by
  have hnever : Registration.neverConnected inner nowInstant pubkeyHex = false
      ↔ (nowInstant.durationSince registeredAt).asSecs ≤ staleNeverConnectedSecs := by
    simp only [Registration.neverConnected, hat, decide_eq_false_iff_not, Nat.not_lt]
  unfold Registration.isStale Kept
  rw [hlookup]
  by_cases hsession : t.currentSession.isSome
  . simp only [hsession, if_true, true_and]
    split
    . simp only [decide_eq_false_iff_not, Nat.not_lt]
    . exact hnever
  . simp only [hsession, Bool.false_eq_true, if_false, false_and]
    exact hnever

variable {inner : RegistrationInner} {octet : UInt8} {registeredAt : Instant}

theorem mem_toRemove_iff_not_kept (hget : d.apiGet order now = some answer)
    (hid : d.peers.lookup key = some id) (hp : d.peerArena.get id = some p)
    (hoctet : inner.peerToOctet.lookup (Hex.encode key.val) = some octet)
    (hat : inner.peerRegisteredAt.lookup (Hex.encode key.val) = some registeredAt)
    (nowInstant : Instant) (entries : HashMap.Iteration inner.peerToOctet)
    : (Hex.encode key.val, octet)
          ∈ Registration.toRemove inner (readPeers B answer).peers nowInstant entries
        ↔
      ¬Kept p.tunnel now (nowInstant.durationSince registeredAt) := by
  obtain ⟨p', time, hp', htime, hlookup⟩ := lookup_readPeers (B := B) hget hid
  rw [hp] at hp'
  cases hp'
  rw [timeSinceLastHandshake_eq_some htime, apply_ite (Option.map Duration.asSecs),
    Option.map_some, Option.map_none] at hlookup
  have hmem := (entries.mem_entries_iff (Hex.encode key.val) octet).mpr hoctet
  rw [← isStale_eq_false_iff hat hlookup, Bool.not_eq_false, Registration.toRemove, List.mem_filter]
  exact and_iff_right hmem

/--
The reaper keeps a registered peer of the device if and only if its tunnel and its registration say
so.
-/
theorem notMem_toRemove_iff_kept (hget : d.apiGet order now = some answer)
    (hid : d.peers.lookup key = some id) (hp : d.peerArena.get id = some p)
    (hoctet : inner.peerToOctet.lookup (Hex.encode key.val) = some octet)
    (hat : inner.peerRegisteredAt.lookup (Hex.encode key.val) = some registeredAt)
    (nowInstant : Instant) (entries : HashMap.Iteration inner.peerToOctet)
    : (Hex.encode key.val, octet)
          ∉ Registration.toRemove inner (readPeers B answer).peers nowInstant entries
        ↔
      Kept p.tunnel now (nowInstant.durationSince registeredAt) := by
  rw [mem_toRemove_iff_not_kept hget hid hp hoctet hat, not_not]

end Classification

namespace Sample

open Device.Sample

def envAt (secs : Nat) : Device.Env :=
  { env with now := Duration.fromSecs secs }

/--
The client connects 500 seconds after it was added, and is then silent until its session is dropped.
-/
def silence : List Device.Event := [
  .setKey (key 1) env,
  .openListenSocket 7000 (some 7000),
  .updatePeer (key 2) false none [⟨.v4 clientIp, 32, IpAddr.le_width_v4 clientIp⟩] none none env,
  .udp clientAddr (handshakeInit (key 2)) (envAt 500),
  .udp clientAddr (dataDatagram 0x101 0 [] length_nil_le) (envAt 500),
  .timer 0 (envAt 690)
]

def isSilent (ts : List (Transition Device Device.Event Device.Output)) (d : Device) : Bool :=
  (∃ t ∈ ts, completedHandshake primitives t.before t.event = some 0
      ∧ (t.event.env.map Device.Env.now) = some (Duration.fromSecs 500))
    ∧ d.peers = Finmap.insert (key 2) 0 ∅
    ∧ ∃ p ∈ d.peerArena.get 0, p.tunnel.currentSession.isNone

theorem exists_silent
    : ∃ ts d p order answer,
        (Device.machine primitives).Run server ts d
          ∧
        (∃ t ∈ ts, ∃ env : Device.Env, t.event.env = some env
          ∧ completedHandshake primitives t.before t.event = some 0
          ∧ env.now = Duration.fromSecs 500)
          ∧
        d.peers.lookup (key 2) = some 0 ∧ d.peerArena.get 0 = some p
          ∧ p.tunnel.currentSession = none
          ∧
        d.apiGet order (Duration.fromSecs 690) = some answer := by
  obtain ⟨ts, d, hrun, hsilent⟩ := Machine.Run.exists_of_exec (Device.machine primitives) server
    silence isSilent (by decide +kernel)
  simp only [isSilent, decide_eq_true_eq, Option.isNone_iff_eq_none, Option.mem_def] at hsilent
  obtain ⟨⟨t, ht, hcompleted, hnow⟩, hpeers, p, hp, hsession⟩ := hsilent
  obtain ⟨env, henv, hnow⟩ := Option.map_eq_some_iff.mp hnow
  have htime : ∀ key id, d.peers.lookup key = some id →
      ∃ p time, d.peerArena.get id = some p
        ∧ p.tunnel.timeSinceLastHandshake (Duration.fromSecs 690) = some time := by
    intro key id hid
    rw [hpeers, HashMap.lookup_insert] at hid
    split at hid
    . cases hid
      refine ⟨p, none, hp, ?_⟩
      rw [Noise.Tunn.timeSinceLastHandshake, if_neg (by simp [hsession])]
    . simp at hid
  obtain ⟨order⟩ := HashMap.nonempty_iteration d.peers
  obtain ⟨answer, hget⟩ := Device.exists_apiGet htime order
  refine ⟨ts, d, p, order, answer, hrun, ⟨t, ht, env, henv, hcompleted, hnow⟩, ?_, hp, hsession,
    hget⟩
  rw [hpeers, HashMap.lookup_insert, if_pos rfl]

def registered (registeredAt : Instant) : RegistrationInner where
  registeredPeers := {Hex.encode (key 2).val}
  availableIps := ∅
  peerToOctet := Finmap.insert (Hex.encode (key 2).val) 2 ∅
  peerRegisteredAt := Finmap.insert (Hex.encode (key 2).val) registeredAt ∅
  serverPubkeyCache := none
  listenPortCache := none

end Sample

/--
A client has completed a handshake 190 seconds ago, but its session was dropped and it was registered
more than ten minutes ago. It is removed.
-/
theorem exists_active_removed
    : ∃ ts d order answer,
        (Device.machine Device.Sample.primitives).Run Device.Sample.server ts d
          ∧
        (∃ t ∈ ts, ∃ env : Device.Env, t.event.env = some env
          ∧ completedHandshake Device.Sample.primitives t.before t.event = some 0
          ∧ Duration.fromSecs 690 ≤ env.now + Duration.fromSecs stalePeerSecs)
          ∧
        d.peers.lookup (Device.Sample.key 2) = some 0
          ∧
        d.apiGet order (Duration.fromSecs 690) = some answer
          ∧
        ∀ inner octet entries,
          inner.peerToOctet.lookup (Hex.encode (Device.Sample.key 2).val) = some octet →
          inner.peerRegisteredAt.lookup (Hex.encode (Device.Sample.key 2).val) = some 0 →
          (Hex.encode (Device.Sample.key 2).val, octet)
            ∈ Registration.toRemove inner (readPeers Registration.Sample.base64 answer).peers
              (Duration.fromSecs 690) entries := by
  obtain ⟨ts, d, p, order, answer, hrun, ⟨t, ht, env, henv, hcompleted, hnow⟩, hid, hp, hsession,
    hget⟩ := Sample.exists_silent
  refine ⟨ts, d, order, answer, hrun, ⟨t, ht, env, henv, hcompleted, ?_⟩, hid, hget, ?_⟩
  . rw [hnow]
    decide
  . intro inner octet entries hoctet hat
    rw [mem_toRemove_iff_not_kept hget hid hp hoctet hat, Kept, if_neg (by simp [hsession])]
    decide

theorem notMem_toRemove_iff_kept_silent
    : ∃ ts d order answer,
        (Device.machine Device.Sample.primitives).Run Device.Sample.server ts d
          ∧
        d.apiGet order (Duration.fromSecs 690) = some answer
          ∧
        ∀ entries,
          (Hex.encode (Device.Sample.key 2).val, 2)
            ∉ Registration.toRemove (Sample.registered (Duration.fromSecs 200))
              (readPeers Registration.Sample.base64 answer).peers (Duration.fromSecs 690) entries := by
  obtain ⟨ts, d, p, order, answer, hrun, _, hid, hp, hsession, hget⟩ := Sample.exists_silent
  refine ⟨ts, d, order, answer, hrun, hget, ?_⟩
  intro entries
  apply (notMem_toRemove_iff_kept hget hid hp (Finmap.lookup_insert _) (Finmap.lookup_insert _)
    (Duration.fromSecs 690) entries).mpr
  rw [Kept, if_neg (by simp [hsession])]
  decide

end Service
