import VeilVpn.Device.Lemmas.Peers
import VeilVpn.Registration.Lemmas.Pool
import VeilVpn.Service.Basic

namespace Service

open Registration (Threads RegistrationState Response Allocates WellFormed)

variable {C : Primitives} {B : Registration.Base64} {s s' : Service} {e : Event}
  {responses : List Response}

theorem parseKey_encode (key : FixedBytes 32) : Device.parseKey (Hex.encode key.val) = some key := by
  simp only [Device.parseKey, Hex.decode_encode]
  exact dif_pos key.property

/--
The cases of a step. A request to register is answered at once, or the device is asked to add a peer.
-/
inductive StepCase (C : Primitives) (B : Registration.Base64) (s s' : Service) : Event → Prop where
  | tick (duration : Duration) (hafter : s' = { s with now := s.now + duration })
    : StepCase C B s s' (.tick duration)
  | device (e : Device.Event) (device : Device) (outputs : List Device.Output)
    (hconfig : e.isConfig = false)
    (hstep : (Device.machine C).step s.device e = some (device, outputs))
    (hafter : s' = { s with device, handshakes := recordHandshake C s e })
    : StepCase C B s s' (.device e)
  | respond (pubkeyBase64 : String) (r : Request) (state : RegistrationState)
    (hrequest : setRequest B s pubkeyBase64 r = none)
    (htables : state.inner.tables = s.threads.state.inner.tables)
    (hsubnet : state.subnetPrefix = s.threads.state.subnetPrefix)
    (hreaper : s.threads.reaper.entries = [])
    (hafter : s' = { s with threads := { s.threads with state } })
    : StepCase C B s s' (.register pubkeyBase64 r)
  | set (pubkeyBase64 : String) (r : Request) (state : RegistrationState)
    (pubkey : FixedBytes 32) (octet : UInt8) (device : Device)
    (hrequest : setRequest B s pubkeyBase64 r = some (pubkey, s.threads.state.ip octet))
    (hallocates : Allocates B s.threads.state state pubkeyBase64 pubkey octet)
    (hreaper : s.threads.reaper.entries = [])
    (hdevice : (if r.fate.executed then
        s.device.apiSetPeer C (Hex.encode pubkey.val) (s.threads.state.ip octet) r.env
      else
        some s.device) = some device)
    (hafter : s' = { s with
      device
      threads := { s.threads with
        state := (Registration.commitRegistration state pubkey octet r.fate.setAnswer s.now).1 } })
    : StepCase C B s s' (.register pubkeyBase64 r)
  | query (order : DeviceOrder) (answer : Device.ApiGet)
    (hget : s.device.apiGet (order s.device.peers) s.now = some answer)
    (hreaper : s.threads.reaper = .sleeping)
    (hafter : s' = { s with
      queriedAt := s.now
      threads := { s.threads with reaper := .queried (readPeers B answer).peers } })
    : StepCase C B s s' (.query order none)
  | queryFailed (order : DeviceOrder) (error : String) (hafter : s' = { s with queriedAt := s.now })
    (hreaper : s.threads.reaper = .sleeping)
    : StepCase C B s s' (.query order (some error))
  | lock (nowInstant : Instant) (order : (m : HashMap String UInt8) → HashMap.Iteration m)
    (uapiPeers : HashMap String (Option Nat)) (hnow : s.queriedAt ≤ nowInstant ∧ nowInstant ≤ s.now)
    (hreaper : s.threads.reaper = .queried uapiPeers)
    (hafter : s' = { s with threads := { s.threads with
      reaper := .ofList (Registration.toRemove s.threads.state.inner uapiPeers nowInstant
        (order s.threads.state.inner.peerToOctet)) } })
    : StepCase C B s s' (.lock nowInstant order)
  | remove (fate : Fate (Option String)) (env : Device.Env) (entry : String × UInt8)
    (rest : List (String × UInt8)) (device : Device)
    (hreaper : s.threads.reaper = .removing entry rest)
    (hdevice : (if fate.executed then s.device.apiRemovePeer C entry.1 env else some s.device)
      = some device)
    (hafter : s' = { s with
      device
      threads :=
        ⟨Registration.removeStale s.threads.state entry fate.removeAnswer, .ofList rest⟩ })
    : StepCase C B s s' (.remove fate env)

theorem stepThreads_eq_some {event : Registration.Event} {device : Option Device}
    (h : stepThreads B s event device = some (s', responses))
    : ∃ threads d, Registration.step B s.threads event = some (threads, responses)
        ∧ device = some d ∧ s' = { s with threads, device := d } := by
  unfold stepThreads at h
  split at h
  . next hstep =>
    cases h
    exact ⟨_, _, hstep, rfl, rfl⟩
  . simp at h

theorem step_register_eq_some {threads threads' : Threads} {pubkeyBase64 : String}
    {call : Registration.Call}
    (h : Registration.step B threads (.register pubkeyBase64 call) = some (threads', responses))
    : threads.reaper.entries = [] ∧
        threads' = { threads with
          state := (Registration.handleRegistration B threads.state pubkeyBase64 call).1 } := by
  simp only [Registration.step] at h
  split at h
  . simp at h
  . next hreaper =>
    cases h
    refine ⟨?_, rfl⟩
    cases hr : threads.reaper with
    | removing entry rest => exact absurd hr (hreaper entry rest)
    | _ => rfl

theorem ip_of_subnetPrefix_eq {state state' : RegistrationState}
    (h : state'.subnetPrefix = state.subnetPrefix) (octet : UInt8)
    : state'.ip octet = state.ip octet := by
  apply FixedBytes.ext
  simp only [RegistrationState.ip, h]

theorem stepCase_register {pubkeyBase64 : String} {r : Request}
    (h : (machine C B).step s (.register pubkeyBase64 r) = some (s', responses))
    : StepCase C B s s' (.register pubkeyBase64 r) := by
  simp only [machine, step] at h
  split at h
  . simp at h
  . split at h
    . simp at h
    . next info hinfo =>
      obtain ⟨threads, device, hthreads, hdevice, rfl⟩ := stepThreads_eq_some h
      obtain ⟨hreaper, rfl⟩ := step_register_eq_some hthreads
      cases hprepare :
          Registration.prepareRegistration B s.threads.state pubkeyBase64 info r.pick with
      | mk state prepared =>
        have hprepares := Registration.prepareRegistration_prepares hprepare
        simp only [executeSet, setRequest, hinfo, hprepare] at hdevice
        simp only [Registration.handleRegistration, hprepare]
        cases hprepares with
        | respond response htables hsubnet _ =>
          cases hdevice
          refine .respond pubkeyBase64 r state ?_ htables hsubnet hreaper rfl
          simp only [setRequest, hinfo, hprepare]
        | setPeer pubkey octet hallocates =>
          have hip := ip_of_subnetPrefix_eq hallocates.subnetPrefix octet
          dsimp only at hdevice
          rw [hip] at hdevice
          refine .set pubkeyBase64 r state pubkey octet device ?_ hallocates hreaper hdevice rfl
          simp only [setRequest, hinfo, hprepare, hip]

theorem stepCase_query {order : DeviceOrder} {error : Option String}
    (h : (machine C B).step s (.query order error) = some (s', responses))
    : StepCase C B s s' (.query order error) := by
  simp only [machine, step] at h
  split at h
  . simp at h
  . next answer hget =>
    obtain ⟨threads, device, hthreads, hdevice, rfl⟩ := stepThreads_eq_some h
    cases hdevice
    simp only [Registration.step] at hthreads
    cases error with
    | none =>
      rw [uapiGetPeers, Option.map_eq_some_iff] at hget
      obtain ⟨answer', hget, rfl⟩ := hget
      split at hthreads
      . next result hreaper hresult =>
        cases hresult
        cases hthreads
        exact .query order answer' hget hreaper rfl
      . next hresult => simp at hresult
      . simp at hthreads
    | some error =>
      cases hget
      split at hthreads
      . next hresult => simp at hresult
      . next hreaper hresult =>
        cases hthreads
        exact .queryFailed order error rfl hreaper
      . simp at hthreads

theorem stepCase_of_step (h : (machine C B).step s e = some (s', responses))
    : StepCase C B s s' e := by
  cases e with
  | tick duration =>
    cases h
    exact .tick duration rfl
  | device e =>
    simp only [machine, step] at h
    split at h
    . simp at h
    . next hallowed =>
      split at h
      . simp at h
      . next hstep =>
        cases h
        have hconfig : e.isConfig = false := by
          simp only [Bool.or_eq_true, not_or, Bool.not_eq_true] at hallowed
          exact hallowed.1
        exact .device e _ _ hconfig hstep rfl
  | register pubkeyBase64 r => exact stepCase_register h
  | query order error => exact stepCase_query h
  | lock nowInstant order =>
    simp only [machine, step] at h
    split at h
    . next hnow =>
      obtain ⟨threads, device, hthreads, hdevice, rfl⟩ := stepThreads_eq_some h
      cases hdevice
      simp only [Registration.step] at hthreads
      split at hthreads
      . next uapiPeers hreaper =>
        cases hthreads
        exact .lock nowInstant order uapiPeers hnow hreaper rfl
      . simp at hthreads
    . simp at h
  | remove fate env =>
    simp only [machine, step] at h
    obtain ⟨threads, device, hthreads, hdevice, rfl⟩ := stepThreads_eq_some h
    simp only [Registration.step] at hthreads
    split at hthreads
    . next entry rest hreaper =>
      cases hthreads
      simp only [executeRemove, hreaper] at hdevice
      exact .remove fate env entry rest device hreaper hdevice rfl
    . simp at hthreads

theorem threads_of_step (h : (machine C B).step s e = some (s', responses))
    : s'.threads = s.threads
        ∨
      ∃ event, Registration.step B s.threads event = some (s'.threads, responses) := by
  cases e with
  | tick duration =>
    cases h
    exact .inl rfl
  | device e =>
    cases stepCase_of_step h with
    | device _ _ _ _ _ h => exact .inl (by rw [h])
  | register pubkeyBase64 r =>
    simp only [machine, step] at h
    split at h
    . simp at h
    . split at h
      . simp at h
      . obtain ⟨threads, device, hthreads, _, rfl⟩ := stepThreads_eq_some h
        exact .inr ⟨_, hthreads⟩
  | query order error =>
    simp only [machine, step] at h
    split at h
    . simp at h
    . obtain ⟨threads, device, hthreads, _, rfl⟩ := stepThreads_eq_some h
      exact .inr ⟨_, hthreads⟩
  | lock nowInstant order =>
    simp only [machine, step] at h
    split at h
    . obtain ⟨threads, device, hthreads, _, rfl⟩ := stepThreads_eq_some h
      exact .inr ⟨_, hthreads⟩
    . simp at h
  | remove fate env =>
    simp only [machine, step] at h
    obtain ⟨threads, device, hthreads, _, rfl⟩ := stepThreads_eq_some h
    exact .inr ⟨_, hthreads⟩

theorem wellFormed_of_step (hs : WellFormed s.threads)
    (h : (machine C B).step s e = some (s', responses))
    : WellFormed s'.threads := by
  rcases threads_of_step h with hsame | ⟨event, hstep⟩
  . rw [hsame]
    exact hs
  . exact WellFormed.step (B := B) hs hstep

section Register

variable {pubkeyBase64 : String} {r : Request} {pubkey : FixedBytes 32} {octet : UInt8}

def Informed (B : Registration.Base64) (s : Service) (r : Request) : Prop :=
  ∃ info state, serverInfo B s r = some info ∧ s.threads.state.populate info = .ok state

theorem informed_of_isSome (hcache : s.threads.state.inner.serverPubkeyCache.isSome)
    : Informed B s r := by
  refine ⟨.error "", s.threads.state, ?_, ?_⟩
  . simp only [serverInfo, hcache, if_true]
  . obtain ⟨pk, hpk⟩ := Option.isSome_iff_exists.mp hcache
    simp only [RegistrationState.populate, hpk]

theorem informed_of_apiGet {answer : Device.ApiGet} {key : FixedBytes 32}
    (herror : r.getError = none)
    (hget : s.device.apiGet (r.order s.device.peers) s.now = some answer)
    (hkey : answer.ownPublicKey = some key)
    : Informed B s r := by
  cases hcache : s.threads.state.inner.serverPubkeyCache with
  | some pk =>
    apply informed_of_isSome
    simp [hcache]
  | none =>
    have hpopulate : ∃ state, s.threads.state.populate (.ok (readPeers B answer)) = .ok state := by
      simp only [RegistrationState.populate, hcache, readPeers, hkey, Option.map_some]
      exact ⟨_, rfl⟩
    obtain ⟨state, hpopulate⟩ := hpopulate
    refine ⟨_, state, ?_, hpopulate⟩
    simp only [serverInfo, hcache, Option.isSome_none, Bool.false_eq_true, if_false, uapiGetPeers,
      herror, hget, Option.map_some]

theorem informed_of_peers_eq_empty (herror : r.getError = none) (hpeers : s.device.peers = ∅)
    (hkey : s.device.keyPair.isSome)
    : Informed B s r := by
  obtain ⟨keyPair, hkey⟩ := Option.isSome_iff_exists.mp hkey
  apply informed_of_apiGet herror
  . exact Device.apiGet_of_peers_eq_empty hpeers (r.order s.device.peers) s.now
  . rw [hkey, Option.map_some]

theorem exists_register (hinformed : Informed B s r) (hnow : r.env.now = s.now)
    (hreaper : s.threads.reaper.entries = [])
    (hdecode : B.decode (Text.trim pubkeyBase64) = some pubkey.val)
    (hassigned : s.threads.state.inner.assignedOctet (Hex.encode pubkey.val) = none)
    (hpick : (r.pick s.threads.state.inner.availableIps).get = some octet)
    : ∃ state,
        Allocates B s.threads.state state pubkeyBase64 pubkey octet
          ∧
        setRequest B s pubkeyBase64 r = some (pubkey, s.threads.state.ip octet)
          ∧
        ∀ device, (if r.fate.executed then
            s.device.apiSetPeer C (Hex.encode pubkey.val) (s.threads.state.ip octet) r.env
          else
            some s.device) = some device
          →
        ∃ response,
          (machine C B).step s (.register pubkeyBase64 r)
            = some (
                { s with
                  device
                  threads := { s.threads with
                    state := (Registration.commitRegistration state pubkey octet r.fate.setAnswer
                      s.now).1 } },
                [response]) := by
  obtain ⟨info, state, hinfo, hpopulate⟩ := hinformed
  obtain ⟨htables, _, _, hsubnet⟩ := Registration.populate_eq_ok hpopulate
  have hip := ip_of_subnetPrefix_eq hsubnet octet
  simp only [Registration.RegistrationInner.tables, Prod.mk.injEq] at htables
  have hprepare : Registration.prepareRegistration B s.threads.state pubkeyBase64 info r.pick
      = (state, .setPeer pubkey octet) := by
    rw [← htables.2.1] at hpick
    simp only [Registration.RegistrationInner.assignedOctet, ← htables.1, ← htables.2.2.1]
      at hassigned
    simp only [Registration.prepareRegistration, hdecode, hpopulate, dif_pos pubkey.property,
      Registration.RegistrationInner.assignedOctet, hassigned, Registration.allocateIp, hpick]
    rfl
  have hrequest : setRequest B s pubkeyBase64 r = some (pubkey, s.threads.state.ip octet) := by
    simp only [setRequest, hinfo, hprepare, hip]
  refine ⟨state, ?_, hrequest, ?_⟩
  . cases Registration.prepareRegistration_prepares hprepare with
    | setPeer _ _ hallocates => exact hallocates
  . intro device hdevice
    have hexecute : executeSet C B s pubkeyBase64 r = some device := by
      simp only [executeSet, hrequest]
      exact hdevice
    simp only [machine, step, hinfo, hexecute, hnow, ne_eq, not_true_eq_false, if_false, stepThreads,
      Registration.step, Registration.handleRegistration, hprepare]
    cases hr : s.threads.reaper with
    | removing entry rest => simp [hr, Registration.Reaper.entries] at hreaper
    | _ => exact ⟨_, rfl⟩

end Register

section Reaper

theorem step_query_eq {order : DeviceOrder} {answer : Device.ApiGet}
    (hreaper : s.threads.reaper = .sleeping)
    (hget : s.device.apiGet (order s.device.peers) s.now = some answer)
    : (machine C B).step s (.query order none)
        = some (
            { s with
              queriedAt := s.now
              threads := { s.threads with reaper := .queried (readPeers B answer).peers } },
            []) := by
  simp only [machine, step, uapiGetPeers, hget, Option.map_some, stepThreads, Registration.step,
    hreaper]

theorem step_lock_eq {uapiPeers : HashMap String (Option Nat)}
    (hreaper : s.threads.reaper = .queried uapiPeers) (hnow : s.queriedAt ≤ s.now)
    (order : (m : HashMap String UInt8) → HashMap.Iteration m)
    : (machine C B).step s (.lock s.now order)
        = some (
            { s with threads := { s.threads with
              reaper := .ofList (Registration.toRemove s.threads.state.inner uapiPeers s.now
                (order s.threads.state.inner.peerToOctet)) } },
            []) := by
  simp only [machine, step, hnow, Nat.le_refl, and_self, if_true, stepThreads, Registration.step,
    hreaper]

theorem exists_remove {entry : String × UInt8} {rest : List (String × UInt8)}
    (hreaper : s.threads.reaper = .removing entry rest) (env : Device.Env)
    : ∃ s', (machine C B).step s (.remove .answered env) = some (s', []) := by
  have hdevice : (s.device.apiRemovePeer C entry.1 env).isSome := by
    unfold Device.apiRemovePeer
    split <;> rfl
  obtain ⟨device, hdevice⟩ := Option.isSome_iff_exists.mp hdevice
  simp only [machine, step, executeRemove, hreaper, Fate.executed, if_true, hdevice, stepThreads,
    Registration.step]
  exact ⟨_, rfl⟩

end Reaper

end Service
