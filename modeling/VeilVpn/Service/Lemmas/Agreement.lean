import VeilVpn.Device.Lemmas.Peers
import VeilVpn.Device.Lemmas.Roles
import VeilVpn.Service.Lemmas.Step

namespace Service

open Registration (RegistrationState Response WellFormed)

variable {C : Primitives} {B : Registration.Base64} {s s' : Service} {e : Event}
  {responses : List Response}

def network (state : RegistrationState) (octet : UInt8) : Device.AllowedIP where
  addr := .v4 (state.ip octet)
  cidr := 32
  cidr_le := IpAddr.le_width_v4 _

/--
Every peer of the device is registered, and may use the address that it is registered with.
-/
def Agree (s : Service) : Prop :=
  ∀ key id, s.device.peers.lookup key = some id →
    ∃ octet,
      s.threads.state.inner.peerToOctet.lookup (Hex.encode key.val) = some octet
        ∧
      s.device.allowedIpsOf id = some (.ofList [network s.threads.state octet] ())

theorem network_of_subnetPrefix_eq {state state' : RegistrationState}
    (h : state'.subnetPrefix = state.subnetPrefix) (octet : UInt8)
    : network state' octet = network state octet := by
  simp only [network, ip_of_subnetPrefix_eq h]

theorem Agree.mono (hs : Agree s)
    (hsubnet : s'.threads.state.subnetPrefix = s.threads.state.subnetPrefix)
    (hdevice : ∀ key id, s'.device.peers.lookup key = some id →
      s.device.peers.lookup key = some id)
    (hips : ∀ id ips, s.device.allowedIpsOf id = some ips → s'.device.allowedIpsOf id = some ips)
    (htable : ∀ key id octet, s'.device.peers.lookup key = some id →
      s.threads.state.inner.peerToOctet.lookup (Hex.encode key.val) = some octet →
      s'.threads.state.inner.peerToOctet.lookup (Hex.encode key.val) = some octet)
    : Agree s' := by
  intro key id hkey
  obtain ⟨octet, hoctet, hallowed⟩ := hs key id (hdevice key id hkey)
  refine ⟨octet, htable key id octet hkey hoctet, ?_⟩
  rw [network_of_subnetPrefix_eq hsubnet]
  exact hips id _ hallowed

theorem apiSetPeer_adds {d d' : Device} {key : FixedBytes 32} {ip : Ipv4Addr} {env : Device.Env}
    (h : d.apiSetPeer C (Hex.encode key.val) ip env = some d')
    : Device.Adds d d' key [⟨.v4 ip, 32, Nat.le_refl 32⟩] := by
  simp only [Device.apiSetPeer, parseKey_encode] at h
  exact Device.updatePeer_adds h

theorem apiSetPeer_eq_none {d : Device} {key : FixedBytes 32} {id : Device.PeerId}
    (h : d.peers.lookup key = some id) (ip : Ipv4Addr) (env : Device.Env)
    : d.apiSetPeer C (Hex.encode key.val) ip env = none := by
  simp [Device.apiSetPeer, parseKey_encode, Device.updatePeer, h]

theorem peerToOctet_of_tables_eq {inner inner' : Registration.RegistrationInner}
    (h : inner'.tables = inner.tables)
    : inner'.peerToOctet = inner.peerToOctet := by
  simp only [Registration.RegistrationInner.tables, Prod.mk.injEq] at h
  exact h.2.2.1

/--
A request to add a peer does not fail after the device has executed it.
-/
def SetAnswered (e : Event) : Prop :=
  ∀ pubkeyBase64 r error, e = .register pubkeyBase64 r → r.fate ≠ .failed true error

theorem Agree.add (hs : Agree s) {device : Device} {state : RegistrationState}
    {key : FixedBytes 32} {octet : UInt8} {now : Instant}
    (htables : state.inner.tables = s.threads.state.inner.tables)
    (hsubnet : state.subnetPrefix = s.threads.state.subnetPrefix)
    (hadds : Device.Adds s.device device key [network s.threads.state octet])
    : Agree { s with
        device
        threads := { s.threads with
          state := (Registration.commitRegistration state key octet (.ok ()) now).1 } } := by
  intro key' id hkey'
  simp only [hadds.peers, HashMap.lookup_insert] at hkey'
  simp only [Registration.commitRegistration, HashMap.lookup_insert,
    peerToOctet_of_tables_eq htables]
  split at hkey'
  . next hsame =>
    subst hsame
    cases hkey'
    refine ⟨octet, by rw [if_pos rfl], ?_⟩
    rw [hadds.allowedIps, network_of_subnetPrefix_eq]
    exact hsubnet.symm
  . next hne =>
    obtain ⟨octet', hoctet', hallowed⟩ := hs key' id hkey'
    have hhex : Hex.encode key'.val ≠ Hex.encode key.val := by
      intro heq
      exact hne (Subtype.ext (Hex.encode_injective heq))
    have hid : id ≠ s.device.peerArena.size := by
      rintro rfl
      simp [Device.allowedIpsOf, Device.accountOf, Arena.get_size] at hallowed
    refine ⟨octet', by rw [if_neg hhex, hoctet'], ?_⟩
    rw [hadds.allowedIps_of_ne id hid, hallowed, network_of_subnetPrefix_eq]
    exact hsubnet.symm

theorem Agree.remove (hs : Agree s) {entry : String × UInt8} {rest : List (String × UInt8)}
    {device : Device} {fate : Fate (Option String)} {env : Device.Env}
    (hdevice : (if fate.executed then s.device.apiRemovePeer C entry.1 env else some s.device)
      = some device)
    : Agree { s with
        device
        threads :=
          ⟨Registration.removeStale s.threads.state entry fate.removeAnswer, .ofList rest⟩ } := by
  -- The peer whose entry goes is no longer held by the device
  have hremoved : fate.removeAnswer = .ok true → ∀ key id, device.peers.lookup key = some id →
      Hex.encode key.val ≠ entry.1 := by
    intro hanswer key id hkey hhex
    cases fate with
    | failed executed error => cases error <;> simp [Fate.removeAnswer] at hanswer
    | answered =>
      simp only [Fate.executed, if_true, Device.apiRemovePeer, ← hhex, parseKey_encode,
        Device.updatePeer, Option.some.injEq] at hdevice
      subst hdevice
      rw [Device.lookup_removePeer, if_pos rfl] at hkey
      . simp at hkey
      . intro id hid
        obtain ⟨octet, _, hallowed⟩ := hs key id hid
        simp [hallowed]
  have hkeeps : (∀ key id, device.peers.lookup key = some id →
        s.device.peers.lookup key = some id)
      ∧ (∀ id, device.allowedIpsOf id = s.device.allowedIpsOf id) := by
    split at hdevice
    . unfold Device.apiRemovePeer at hdevice
      split at hdevice
      . cases hdevice
        exact ⟨fun _ _ h => h, fun _ => rfl⟩
      . next key _ =>
        simp only [Device.updatePeer, if_true, Option.some.injEq] at hdevice
        subst hdevice
        refine ⟨?_, Device.allowedIpsOf_removePeer s.device key⟩
        intro key' id hkey'
        exact Device.lookup_of_lookup_removePeer hkey'
    . cases hdevice
      exact ⟨fun _ _ h => h, fun _ => rfl⟩
  refine hs.mono ?_ hkeeps.1 ?_ ?_
  . unfold Registration.removeStale
    split <;> rfl
  . intro id ips hips
    rw [← hips]
    exact hkeeps.2 id
  . intro key id octet hkey hoctet
    unfold Registration.removeStale
    split
    . next hanswer =>
      simp only [HashMap.lookup_erase]
      rw [if_neg (hremoved hanswer key id hkey)]
      exact hoctet
    . exact hoctet
    . exact hoctet

theorem Agree.step (hs : Agree s) (h : (machine C B).step s e = some (s', responses))
    (hanswered : SetAnswered e)
    : Agree s' := by
  cases stepCase_of_step h with
  | tick duration hafter =>
    subst hafter
    exact hs
  | device e device outputs hconfig hstep hafter =>
    subst hafter
    have hstatic := Device.static_of_step hstep hconfig
    have hpeers : device.peers = s.device.peers := by
      change device.static.peers = s.device.static.peers
      rw [hstatic]
    refine hs.mono ?_ ?_ ?_ ?_
    . rfl
    . simp only [hpeers]
      exact fun _ _ h => h
    . intro id ips hips
      exact Device.allowedIpsOf_of_step hstep hips
    . exact fun _ _ _ _ h => h
  | respond pubkeyBase64 r state _ htables hsubnet _ hafter =>
    subst hafter
    refine hs.mono ?_ (fun _ _ h => h) (fun _ _ h => h) ?_
    . exact hsubnet
    intro key id octet _ hoctet
    simp only [peerToOctet_of_tables_eq htables]
    exact hoctet
  | set pubkeyBase64 r state pubkey octet device hrequest hallocates _ hdevice hafter =>
    subst hafter
    cases hfate : r.fate with
    | answered =>
      simp only [hfate, Fate.executed, if_true] at hdevice
      exact hs.add hallocates.tables hallocates.subnetPrefix (apiSetPeer_adds hdevice)
    | failed executed error =>
      cases executed with
      | true => exact absurd hfate (hanswered pubkeyBase64 r error rfl)
      | false =>
        simp only [hfate, Fate.executed, Bool.false_eq_true, if_false, Option.some.injEq] at hdevice
        subst hdevice
        refine hs.mono ?_ (fun _ _ h => h) (fun _ _ h => h) ?_
        . exact hallocates.subnetPrefix
        intro key id octet _ hoctet
        simp only [Fate.setAnswer, Registration.commitRegistration,
          peerToOctet_of_tables_eq hallocates.tables]
        exact hoctet
  | query _ _ _ _ hafter =>
    subst hafter
    exact hs
  | queryFailed _ _ hafter =>
    subst hafter
    exact hs
  | lock _ _ _ _ _ hafter =>
    subst hafter
    exact hs
  | remove fate env entry rest device _ hdevice hafter =>
    subst hafter
    exact hs.remove hdevice

theorem Agree.absent_of_setRequest (hs : Agree s) (hthreads : WellFormed s.threads)
    {pubkeyBase64 : String} {r : Request} {key : FixedBytes 32} {ip : Ipv4Addr}
    (h : setRequest B s pubkeyBase64 r = some (key, ip))
    : s.device.peers.lookup key = none := by
  unfold setRequest at h
  split at h
  . simp at h
  . split at h
    . next hprepare =>
      cases h
      cases Registration.prepareRegistration_prepares hprepare with
      | setPeer _ _ hallocates =>
        obtain ⟨pool, hpool⟩ := hthreads.pool
        have hunassigned := hallocates.unassigned
        rw [hpool.assignedOctet, ← hpool.peerToOctet] at hunassigned
        cases hlookup : s.device.peers.lookup key with
        | none => rfl
        | some id =>
          obtain ⟨octet, hoctet, _⟩ := hs key id hlookup
          simp [hunassigned] at hoctet
    . simp at h

theorem truncate_v4 (ip : Ipv4Addr) : (IpAddr.v4 ip).truncate 32 = .v4 ip := by
  have hbytes := Bytes.beBytes_beNat ip.val
  rw [ip.property] at hbytes
  simp only [IpAddr.truncate, IpAddr.toNat, IpAddr.width, IpAddr.family, Family.width, Nat.sub_self,
    Nat.pow_zero, Nat.div_one, Nat.mul_one, IpAddr.v4.injEq]
  apply FixedBytes.ext
  exact hbytes

theorem iter_ofList_v4 (ip : Ipv4Addr)
    : (Device.AllowedIps.ofList [⟨.v4 ip, 32, Nat.le_refl 32⟩] ()).iter = [((), .v4 ip, 32)] := by
  have hiter : (Device.AllowedIps.ofList [⟨.v4 ip, 32, Nat.le_refl 32⟩] ()).iter
      = [((), (IpAddr.v4 ip).truncate 32, 32)] := by
    rfl
  rw [hiter, truncate_v4]

theorem exists_mem_iter {d : Device} {id : Device.PeerId} {ip : Ipv4Addr}
    (h : d.allowedIpsOf id = some (.ofList [⟨.v4 ip, 32, Nat.le_refl 32⟩] ()))
    : ∃ p, d.peerArena.get id = some p ∧ ((), .v4 ip, 32) ∈ p.allowedIps.iter := by
  obtain ⟨p, hget, hallowed⟩ := Device.exists_of_allowedIpsOf h
  refine ⟨p, hget, ?_⟩
  rw [hallowed, iter_ofList_v4]
  exact List.mem_singleton_self _

theorem ip_injective {state : RegistrationState} {octet octet' : UInt8}
    (h : state.ip octet = state.ip octet')
    : octet = octet' := by
  have hval := congrArg Subtype.val h
  simpa [RegistrationState.ip] using hval

theorem Agree.disjoint (hs : Agree s) (hthreads : WellFormed s.threads) {key key' : FixedBytes 32}
    {id id' : Device.PeerId} {p p' : Device.Peer} (hkey : s.device.peers.lookup key = some id)
    (hkey' : s.device.peers.lookup key' = some id') (hget : s.device.peerArena.get id = some p)
    (hget' : s.device.peerArena.get id' = some p') {ip : IpAddr}
    (hip : ((), ip, 32) ∈ p.allowedIps.iter) (hip' : ((), ip, 32) ∈ p'.allowedIps.iter)
    : key = key' := by
  obtain ⟨octet, hoctet, hallowed⟩ := hs key id hkey
  obtain ⟨octet', hoctet', hallowed'⟩ := hs key' id' hkey'
  rw [Device.allowedIpsOf_eq_some hget, Option.some.injEq] at hallowed
  rw [Device.allowedIpsOf_eq_some hget', Option.some.injEq] at hallowed'
  rw [hallowed, network, iter_ofList_v4, List.mem_singleton] at hip
  rw [hallowed', network, iter_ofList_v4, List.mem_singleton] at hip'
  have heq : s.threads.state.ip octet = s.threads.state.ip octet' := by
    simpa using hip.symm.trans hip'
  obtain rfl := ip_injective heq
  obtain ⟨pool, hpool⟩ := hthreads.pool
  rw [hpool.peerToOctet] at hoctet hoctet'
  exact Subtype.ext (Hex.encode_injective (pool.injective _ _ _ hoctet hoctet'))

variable {subnetPrefix : FixedBytes 3} {paymentConfig : Registration.PaymentConfigSnapshot}
  {publicIp : String} {d : Device} {now : Instant}
  {ts : List (Transition Service Event Response)}

theorem wellFormed_of_run
    (hrun : (machine C B).Run (.new (.new subnetPrefix paymentConfig publicIp) d now) ts s)
    : WellFormed s.threads := by
  apply hrun.invariant (fun s => WellFormed s.threads)
  . exact Registration.wellFormed_new subnetPrefix paymentConfig publicIp
  . intro s e s' responses hs h
    exact wellFormed_of_step hs h

/--
As long as no request to add a peer fails after the device has executed it, the device is never asked
to add a peer that it holds, and no two of its peers share an address.
-/
theorem agreement_of_run (hpeers : d.peers = ∅)
    (hrun : (machine C B).Run (.new (.new subnetPrefix paymentConfig publicIp) d now) ts s)
    (hanswered : ∀ t ∈ ts, SetAnswered t.event)
    : (∀ pubkeyBase64 r key ip, setRequest B s pubkeyBase64 r = some (key, ip) →
        s.device.peers.lookup key = none)
        ∧
      (∀ key key' id id' p p',
        s.device.peers.lookup key = some id → s.device.peers.lookup key' = some id' → key ≠ key' →
        s.device.peerArena.get id = some p → s.device.peerArena.get id' = some p' →
        ∀ ip, ((), ip, 32) ∈ p.allowedIps.iter → ((), ip, 32) ∉ p'.allowedIps.iter) := by
  have hthreads := wellFormed_of_run hrun
  have hagree : Agree s := by
    apply hrun.invariant_of_mem Agree
    . intro key id hkey
      simp [new, hpeers] at hkey
    . intro t ht hs h
      exact hs.step h (hanswered t ht)
  constructor
  . intro pubkeyBase64 r key ip hrequest
    exact hagree.absent_of_setRequest hthreads hrequest
  . intro key key' id id' p p' hkey hkey' hne hget hget' ip hip hip'
    exact hne (hagree.disjoint hthreads hkey hkey' hget hget' hip hip')

namespace Sample

open Registration.Sample (base64 pick pubkey otherPubkey pubkeyText decode_pubkeyText)
open Device.Sample (primitives env)

def device : Device :=
  Device.Sample.server.setKey primitives (Device.Sample.key 1) env

def initial : Service :=
  .new Registration.Sample.initial.state device 0

def request (order : DeviceOrder) (fate : Fate String) : Request where
  order
  getError := none
  pick
  fate
  env

theorem exists_devices
    : ∃ d₁ d₂,
        device.apiSetPeer primitives (Hex.encode pubkey.val) (.new 10 0 0 2) env = some d₁
          ∧
        d₁.apiSetPeer primitives (Hex.encode otherPubkey.val) (.new 10 0 0 2) env = some d₂ := by
  have hsome : ((device.apiSetPeer primitives (Hex.encode pubkey.val) (.new 10 0 0 2) env).bind
      fun d₁ => d₁.apiSetPeer primitives (Hex.encode otherPubkey.val) (.new 10 0 0 2) env).isSome := by
    decide +kernel
  obtain ⟨d₂, h⟩ := Option.isSome_iff_exists.mp hsome
  obtain ⟨d₁, h₁, h₂⟩ := Option.bind_eq_some_iff.mp h
  exact ⟨d₁, d₂, h₁, h₂⟩

structure Fresh (s : Service) : Prop where
  now : s.now = 0
  reaper : s.threads.reaper.entries = []
  registeredPeers : s.threads.state.inner.registeredPeers = ∅
  peerToOctet : s.threads.state.inner.peerToOctet = ∅
  pick : (pick s.threads.state.inner.availableIps).get = some 2
  ip : s.threads.state.ip 2 = .new 10 0 0 2

theorem Fresh.register {s : Service} (hs : Fresh s) (order : DeviceOrder) (fate : Fate String)
    (hinformed : Informed base64 s (request order fate)) {text : String} {key : FixedBytes 32}
    (hdecode : base64.decode (Text.trim text) = some key.val)
    : ∃ state,
        Registration.Allocates base64 s.threads.state state text key 2
          ∧
        setRequest base64 s text (request order fate) = some (key, .new 10 0 0 2)
          ∧
        ∀ d, (if fate.executed then
            s.device.apiSetPeer primitives (Hex.encode key.val) (.new 10 0 0 2) env
          else
            some s.device) = some d
          →
        ∃ response,
          (machine primitives base64).step s (.register text (request order fate))
            = some (
                { s with
                  device := d
                  threads := { s.threads with
                    state := (Registration.commitRegistration state key 2 fate.setAnswer
                      s.now).1 } },
                [response]) := by
  have hassigned : s.threads.state.inner.assignedOctet (Hex.encode key.val) = none := by
    simp [Registration.RegistrationInner.assignedOctet, hs.registeredPeers]
  rw [← hs.ip]
  exact exists_register hinformed hs.now.symm hs.reaper hdecode hassigned hs.pick

theorem Fresh.lose {s : Service} (hs : Fresh s) (order : DeviceOrder) (error : String)
    (hinformed : Informed base64 s (request order (.failed true error))) {d : Device}
    (hset : s.device.apiSetPeer primitives (Hex.encode pubkey.val) (.new 10 0 0 2) env = some d)
    : ∃ s' ts, (machine primitives base64).Run s ts s' ∧ Fresh s' ∧ s'.device = d
        ∧ s'.threads.state.inner.serverPubkeyCache.isSome := by
  obtain ⟨state, hallocates, _, hstep⟩ := hs.register order (.failed true error) hinformed decode_pubkeyText
  obtain ⟨response, hstep⟩ := hstep d hset
  have htables := hallocates.tables
  simp only [Registration.RegistrationInner.tables, Prod.mk.injEq] at htables
  refine ⟨_, _, .single hstep, ?_, rfl, hallocates.cache⟩
  constructor
  . exact hs.now
  . exact hs.reaper
  . simp only [Fate.setAnswer, Registration.commitRegistration, htables, hs.registeredPeers]
  . simp only [Fate.setAnswer, Registration.commitRegistration, htables, hs.peerToOctet]
  . simp only [Fate.setAnswer, Registration.commitRegistration]
    rw [htables.2.1]
    exact hs.pick
  . rw [← hs.ip]
    exact ip_of_subnetPrefix_eq hallocates.subnetPrefix 2

theorem fresh_initial : Fresh initial where
  now := rfl
  reaper := rfl
  registeredPeers := rfl
  peerToOctet := rfl
  pick := Registration.Sample.get_pick_initial
  ip := rfl

theorem peers_device : device.peers = ∅ := by
  decide +kernel

theorem informed_of_device_eq {s : Service} (hdevice : s.device = device) {r : Request}
    (herror : r.getError = none)
    : Informed base64 s r := by
  apply informed_of_peers_eq_empty herror
  . rw [hdevice, peers_device]
  . rw [hdevice]
    decide +kernel

end Sample

/--
The device adds a peer, but its answer is lost. If the peer registers again then the device panics, and
if another peer registers then the two share an address.
-/
theorem exists_disagreement
    : ∃ ts s, (machine Device.Sample.primitives Registration.Sample.base64).Run Sample.initial ts s
        ∧
      (∃ pubkeyBase64 r key ip id,
        setRequest Registration.Sample.base64 s pubkeyBase64 r = some (key, ip)
          ∧ s.device.peers.lookup key = some id
          ∧ s.device.apiSetPeer Device.Sample.primitives (Hex.encode key.val) ip r.env = none)
        ∧
      ∃ pubkeyBase64 r s' responses key key' id id' p p' ip,
        (machine Device.Sample.primitives Registration.Sample.base64).step s
            (.register pubkeyBase64 r) = some (s', responses)
          ∧ s'.device.peers.lookup key = some id ∧ s'.device.peers.lookup key' = some id'
          ∧ key ≠ key'
          ∧ s'.device.peerArena.get id = some p ∧ s'.device.peerArena.get id' = some p'
          ∧ ((), ip, 32) ∈ p.allowedIps.iter ∧ ((), ip, 32) ∈ p'.allowedIps.iter := by
  obtain ⟨order⟩ : Nonempty DeviceOrder := HashMap.nonempty_order
  obtain ⟨d₁, d₂, hset₁, hset₂⟩ := Sample.exists_devices
  obtain ⟨s, ts, hrun, hfresh, rfl, hcache⟩ := Sample.fresh_initial.lose order "timed out"
    (Sample.informed_of_device_eq rfl rfl) hset₁
  have hadds₁ := apiSetPeer_adds hset₁
  have hadds₂ := apiSetPeer_adds hset₂
  have hinformed : Informed Registration.Sample.base64 s (Sample.request order .answered) :=
    informed_of_isSome hcache
  refine ⟨ts, s, hrun, ?_, ?_⟩
  . obtain ⟨_, _, hrequest, _⟩ :=
      hfresh.register order .answered hinformed Registration.Sample.decode_pubkeyText
    have hheld : s.device.peers.lookup Registration.Sample.pubkey
        = some Sample.device.peerArena.size := by
      rw [hadds₁.peers, HashMap.lookup_insert, if_pos rfl]
    exact ⟨_, _, _, _, _, hrequest, hheld, apiSetPeer_eq_none hheld _ _⟩
  . obtain ⟨_, _, _, hstep⟩ := hfresh.register order .answered hinformed
      Registration.Sample.decode_otherPubkeyText
    obtain ⟨response, hstep⟩ := hstep d₂ hset₂
    have hne : Registration.Sample.pubkey ≠ Registration.Sample.otherPubkey := by
      decide
    -- The first peer keeps its place in the arena
    have hid : Sample.device.peerArena.size ≠ s.device.peerArena.size := by
      intro heq
      have hips := hadds₁.allowedIps
      rw [heq] at hips
      simp [Device.allowedIpsOf, Device.accountOf, Arena.get_size] at hips
    have hips := hadds₁.allowedIps
    rw [← hadds₂.allowedIps_of_ne _ hid] at hips
    obtain ⟨p, hget, hmem⟩ := exists_mem_iter hips
    obtain ⟨p', hget', hmem'⟩ := exists_mem_iter hadds₂.allowedIps
    refine ⟨_, _, _, _, Registration.Sample.pubkey, Registration.Sample.otherPubkey, _, _, p, p', _,
      hstep, ?_, ?_,
      hne, hget, hget', hmem, hmem'⟩
    . dsimp only
      rw [hadds₂.peers, HashMap.lookup_insert, if_neg hne, hadds₁.peers, HashMap.lookup_insert,
        if_pos rfl]
    . dsimp only
      rw [hadds₂.peers, HashMap.lookup_insert, if_pos rfl]

theorem agreement_of_run_registered
    : ∃ ts s id,
        (machine Device.Sample.primitives Registration.Sample.base64).Run Sample.initial ts s
          ∧
        s.device.peers.lookup Registration.Sample.pubkey = some id
          ∧
        ∀ pubkeyBase64 r ip, setRequest Registration.Sample.base64 s pubkeyBase64 r
          ≠ some (Registration.Sample.pubkey, ip) := by
  obtain ⟨order⟩ : Nonempty DeviceOrder := HashMap.nonempty_order
  obtain ⟨d, _, hset, _⟩ := Sample.exists_devices
  obtain ⟨_, _, _, hstep⟩ := Sample.fresh_initial.register order .answered
    (Sample.informed_of_device_eq rfl rfl) Registration.Sample.decode_pubkeyText
  obtain ⟨response, hstep⟩ := hstep d hset
  have hheld : d.peers.lookup Registration.Sample.pubkey = some Sample.device.peerArena.size := by
    rw [(apiSetPeer_adds hset).peers, HashMap.lookup_insert, if_pos rfl]
  have hrun := Machine.Run.single hstep
  refine ⟨_, _, _, hrun, hheld, ?_⟩
  intro pubkeyBase64 r ip hrequest
  have habsent := (agreement_of_run Sample.peers_device hrun (by
    intro t ht
    rw [List.mem_singleton.mp ht]
    intro _ _ error hevent hfate
    cases hevent
    cases hfate)).1 pubkeyBase64 r _ ip hrequest
  dsimp only at habsent
  rw [hheld] at habsent
  simp at habsent

end Service
