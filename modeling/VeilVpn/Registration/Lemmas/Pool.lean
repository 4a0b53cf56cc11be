import VeilVpn.Pool
import VeilVpn.Registration.Impl.Reaper

namespace Registration

/--
The tables hold the leases of a pool, and agree with each other.
-/
structure Represents (inner : RegistrationInner) (pool : Pool String UInt8 octets) : Prop where
  availableIps : inner.availableIps = pool.free
  peerToOctet : inner.peerToOctet = pool.leases
  mem_registeredPeers : ∀ k, k ∈ inner.registeredPeers ↔ (pool.leases.lookup k).isSome
  isSome_registeredAt : ∀ k,
    (inner.peerRegisteredAt.lookup k).isSome ↔ (pool.leases.lookup k).isSome

def RegistrationInner.tables (inner : RegistrationInner)
    : HashSet String × HashSet UInt8 × HashMap String UInt8 × HashMap String Instant :=
  (inner.registeredPeers, inner.availableIps, inner.peerToOctet, inner.peerRegisteredAt)

theorem Represents.of_tables_eq {inner inner' : RegistrationInner}
    {pool : Pool String UInt8 octets} (h : Represents inner pool)
    (htables : inner'.tables = inner.tables)
    : Represents inner' pool := by
  simp only [RegistrationInner.tables, Prod.mk.injEq] at htables
  obtain ⟨hregistered, havailable, hoctet, hat⟩ := htables
  refine ⟨by rw [havailable, h.availableIps], by rw [hoctet, h.peerToOctet], ?_, ?_⟩
  . rw [hregistered]
    exact h.mem_registeredPeers
  . rw [hat]
    exact h.isSome_registeredAt

section Handler

variable {B : Base64} {state state' : RegistrationState} {pubkeyBase64 : String}
  {uapiGet : Except String UapiPeers} {pick : (ips : HashSet UInt8) → HashSet.First ips}
  {pubkey : FixedBytes 32} {octet : UInt8}

theorem populate_eq_ok (h : state.populate uapiGet = .ok state')
    : state'.inner.tables = state.inner.tables
        ∧
      state'.inner.serverPubkeyCache.isSome
        ∧
      (state.inner.serverPubkeyCache.isSome → state' = state)
        ∧
      state'.subnetPrefix = state.subnetPrefix := by
  unfold RegistrationState.populate at h
  split at h
  . next hcache =>
    cases h
    simp [hcache]
  . next hcache =>
    split at h
    . cases h
      simp [RegistrationInner.tables, hcache]
    . simp at h
    . simp at h

/--
How the handler gets to the point where it asks the device to add a peer.
-/
structure Allocates (B : Base64) (state state' : RegistrationState) (pubkeyBase64 : String)
    (pubkey : FixedBytes 32) (octet : UInt8) : Prop where
  decode : B.decode (Text.trim pubkeyBase64) = some pubkey.val
  tables : state'.inner.tables = state.inner.tables
  cache : state'.inner.serverPubkeyCache.isSome
  subnetPrefix : state'.subnetPrefix = state.subnetPrefix
  available : octet ∈ state.inner.availableIps
  unassigned : state.inner.assignedOctet (Hex.encode pubkey.val) = none

inductive Prepares (B : Base64) (state state' : RegistrationState) (pubkeyBase64 : String)
    : Prepared → Prop where
  | respond (response : Response) (htables : state'.inner.tables = state.inner.tables)
    (hsubnet : state'.subnetPrefix = state.subnetPrefix)
    (hcache : state.inner.serverPubkeyCache.isSome → state' = state)
    : Prepares B state state' pubkeyBase64 (.respond response)
  | setPeer (pubkey : FixedBytes 32) (octet : UInt8)
    (hallocates : Allocates B state state' pubkeyBase64 pubkey octet)
    : Prepares B state state' pubkeyBase64 (.setPeer pubkey octet)

theorem prepareRegistration_prepares {prepared : Prepared}
    (h : prepareRegistration B state pubkeyBase64 uapiGet pick = (state', prepared))
    : Prepares B state state' pubkeyBase64 prepared := by
  unfold prepareRegistration at h
  split at h
  . cases h
    exact .respond _ rfl rfl (fun _ => rfl)
  . next pubkeyBytes hdecode =>
    split at h
    . next hlen =>
      split at h
      . cases h
        exact .respond _ rfl rfl (fun _ => rfl)
      . next hpopulate =>
        obtain ⟨htables, hcache, hsame, hsubnet⟩ := populate_eq_ok hpopulate
        split at h
        . cases h
          exact .respond _ htables hsubnet hsame
        . next hassigned =>
          cases h
          unfold allocateIp
          split
          . exact .respond _ htables hsubnet hsame
          . next octet hpick =>
            have hmem := HashSet.First.mem_of_get _ octet hpick
            simp only [RegistrationInner.tables, Prod.mk.injEq] at htables
            rw [htables.2.1] at hmem
            refine .setPeer _ _ ⟨hdecode, ?_, hcache, hsubnet, hmem, ?_⟩
            . simp [RegistrationInner.tables, htables]
            . rw [← hassigned]
              simp only [RegistrationInner.assignedOctet, htables]
    . cases h
      exact .respond _ rfl rfl (fun _ => rfl)

end Handler

section Tables

variable {inner : RegistrationInner} {pool : Pool String UInt8 octets} {pubkeyHex : String}
  {octet : UInt8}

theorem Represents.assignedOctet (h : Represents inner pool) (pubkeyHex : String)
    : inner.assignedOctet pubkeyHex = pool.leases.lookup pubkeyHex := by
  unfold RegistrationInner.assignedOctet
  split
  . rw [h.peerToOctet]
  . next hmem =>
    rw [h.mem_registeredPeers, Option.not_isSome_iff_eq_none] at hmem
    rw [hmem]

theorem Represents.commit {state : RegistrationState} (h : Represents state.inner pool)
    {pubkey : FixedBytes 32} (hk : pool.leases.lookup (Hex.encode pubkey.val) = none)
    (ha : octet ∈ pool.free) (now : Instant)
    : Represents (commitRegistration state pubkey octet (.ok ()) now).1.inner
        (pool.lease (Hex.encode pubkey.val) octet hk ha) := by
  refine ⟨?_, ?_, ?_, ?_⟩
  . simp [commitRegistration, Pool.lease, h.availableIps]
  . simp [commitRegistration, Pool.lease, h.peerToOctet]
  . intro k
    simp only [commitRegistration, Pool.lease, Finset.mem_insert, h.mem_registeredPeers,
      HashMap.lookup_insert]
    split <;> simp [*]
  . intro k
    simp only [commitRegistration, Pool.lease, HashMap.lookup_insert]
    split
    . simp
    . exact h.isSome_registeredAt k

theorem Represents.removeStale {state : RegistrationState} (h : Represents state.inner pool)
    {entry : String × UInt8} (hentry : pool.leases.lookup entry.1 = some entry.2)
    : Represents (removeStale state entry (.ok true)).inner
        (pool.release entry.1 entry.2 hentry) := by
  refine ⟨?_, ?_, ?_, ?_⟩
  . simp [Registration.removeStale, Pool.release, h.availableIps]
  . simp [Registration.removeStale, Pool.release, h.peerToOctet]
  . intro k
    simp only [Registration.removeStale, Pool.release, Finset.mem_erase, h.mem_registeredPeers,
      HashMap.lookup_erase]
    split <;> simp [*]
  . intro k
    simp only [Registration.removeStale, Pool.release, HashMap.lookup_erase]
    split
    . simp
    . exact h.isSome_registeredAt k

end Tables

def Reaper.entries : Reaper → List (String × UInt8)
  | .sleeping => []
  | .queried _ => []
  | .removing entry rest => entry :: rest

@[simp]
theorem Reaper.entries_ofList (entries : List (String × UInt8))
    : (Reaper.ofList entries).entries = entries := by
  cases entries <;> rfl

theorem Reaper.ofList_ne_queried (entries : List (String × UInt8))
    (uapiPeers : HashMap String (Option Nat))
    : Reaper.ofList entries ≠ .queried uapiPeers := by
  cases entries <;> simp [Reaper.ofList]

structure WellFormed (s : Threads) : Prop where
  pool : ∃ pool, Represents s.state.inner pool
  cache : ∀ k ∈ s.state.inner.registeredPeers, s.state.inner.serverPubkeyCache.isSome
  entries : ∀ entry ∈ s.reaper.entries,
    s.state.inner.peerToOctet.lookup entry.1 = some entry.2
  nodup : (s.reaper.entries.map Prod.fst).Nodup

section Run

variable {B : Base64} {s s' : Threads} {e : Event} {responses : List Response}

theorem wellFormed_new (subnetPrefix : FixedBytes 3) (paymentConfig : PaymentConfigSnapshot)
    (publicIp : String)
    : WellFormed ⟨.new subnetPrefix paymentConfig publicIp, .sleeping⟩ where
  pool := ⟨.new, rfl, rfl, by simp [RegistrationState.new, Pool.new],
    by simp [RegistrationState.new, Pool.new]⟩
  cache := by simp [RegistrationState.new]
  entries := by simp [Reaper.entries]
  nodup := by simp [Reaper.entries]

theorem WellFormed.register (hs : WellFormed s) (hentries : s.reaper.entries = [])
    {pubkeyBase64 : String} {call : Call} {state : RegistrationState} {response : Response}
    (h : handleRegistration B s.state pubkeyBase64 call = (state, response))
    : WellFormed { s with state } := by
  obtain ⟨pool, hpool⟩ := hs.pool
  have hempty : ∀ state, (∃ pool, Represents state.inner pool) →
      (∀ k ∈ state.inner.registeredPeers, state.inner.serverPubkeyCache.isSome) →
      WellFormed { s with state } := by
    intro state hpool hcache
    exact ⟨hpool, hcache, by simp [hentries], by simp [hentries]⟩
  unfold handleRegistration at h
  split at h
  . next state₁ response₁ hprepare =>
    cases h
    cases prepareRegistration_prepares hprepare with
    | respond response htables _ hcache =>
      refine hempty state ⟨pool, hpool.of_tables_eq htables⟩ ?_
      intro k hmem
      simp only [RegistrationInner.tables, Prod.mk.injEq] at htables
      rw [htables.1] at hmem
      have hsome := hs.cache k hmem
      rw [hcache hsome]
      exact hsome
  . next state₁ pubkey octet hprepare =>
    cases prepareRegistration_prepares hprepare with
    | setPeer _ _ hallocates =>
      have hpool₁ := hpool.of_tables_eq hallocates.tables
      have hk : pool.leases.lookup (Hex.encode pubkey.val) = none := by
        rw [← hpool.assignedOctet, hallocates.unassigned]
      have ha : octet ∈ pool.free := by
        rw [← hpool.availableIps]
        exact hallocates.available
      cases hanswer : call.uapiSet pubkey (state₁.ip octet) with
      | error message =>
        rw [hanswer] at h
        cases h
        exact hempty state ⟨pool, hpool₁⟩ (fun _ _ => hallocates.cache)
      | ok answer =>
        rw [hanswer] at h
        obtain rfl : (commitRegistration state₁ pubkey octet (.ok answer) call.now).1 = state := by
          rw [h]
        exact hempty _ ⟨_, hpool₁.commit hk ha call.now⟩ (fun _ _ => hallocates.cache)

theorem step_register (h : s.reaper = .sleeping) (pubkeyBase64 : String) (call : Call)
    : (machine B).step s (.register pubkeyBase64 call)
        =
      some ({ s with state := (handleRegistration B s.state pubkeyBase64 call).1 },
        [(handleRegistration B s.state pubkeyBase64 call).2]) := by
  simp only [machine, Registration.step, h]

theorem WellFormed.lock (hs : WellFormed s) (uapiPeers : HashMap String (Option Nat))
    (nowInstant : Instant) (order : HashMap.Iteration s.state.inner.peerToOctet)
    : WellFormed { s with
        reaper := .ofList (toRemove s.state.inner uapiPeers nowInstant order) } := by
  refine ⟨hs.pool, hs.cache, ?_, ?_⟩
  . simp only [Reaper.entries_ofList]
    intro entry hentry
    apply (order.mem_entries_iff _ _).mp
    exact (List.mem_filter.mp hentry).1
  . rw [Reaper.entries_ofList]
    exact order.nodup_keys.sublist (List.filter_sublist.map _)

theorem WellFormed.removeStale {entry : String × UInt8} {rest : List (String × UInt8)}
    (hs : WellFormed s) (hreaper : s.reaper = .removing entry rest) (answer : Except String Bool)
    : WellFormed ⟨removeStale s.state entry answer, .ofList rest⟩ := by
  have hentries := hs.entries
  have hnodup := hs.nodup
  simp only [hreaper, Reaper.entries, List.mem_cons, forall_eq_or_imp, List.map_cons,
    List.nodup_cons] at hentries hnodup
  have hkeep : WellFormed ⟨s.state, .ofList rest⟩ := by
    refine ⟨hs.pool, hs.cache, ?_, ?_⟩
    . simpa using hentries.2
    . simpa using hnodup.2
  obtain ⟨pool, hpool⟩ := hs.pool
  unfold Registration.removeStale
  split
  . have hentry : pool.leases.lookup entry.1 = some entry.2 := by
      rw [← hpool.peerToOctet, hentries.1]
    refine ⟨⟨_, hpool.removeStale hentry⟩, ?_, ?_, ?_⟩
    . intro k hmem
      exact hs.cache k (Finset.mem_of_mem_erase hmem)
    . simp only [Reaper.entries_ofList]
      intro entry' hmem
      rw [HashMap.lookup_erase, if_neg, hentries.2 entry' hmem]
      intro heq
      exact hnodup.1 (heq ▸ List.mem_map_of_mem hmem)
    . simpa using hnodup.2
  . exact hkeep
  . exact hkeep

theorem WellFormed.step (hs : WellFormed s) (h : (machine B).step s e = some (s', responses))
    : WellFormed s' := by
  cases e with
  | register pubkeyBase64 call =>
    simp only [machine, Registration.step] at h
    split at h
    . simp at h
    . next hreaper =>
      have hentries : s.reaper.entries = [] := by
        cases hr : s.reaper with
        | removing entry rest => exact absurd hr (hreaper entry rest)
        | _ => rfl
      cases h
      exact hs.register hentries rfl
  | query answer =>
    simp only [machine, Registration.step] at h
    split at h
    . cases h
      exact ⟨hs.pool, hs.cache, by simp [Reaper.entries], by simp [Reaper.entries]⟩
    . cases h
      exact hs
    . simp at h
  | lock nowInstant order =>
    simp only [machine, Registration.step] at h
    split at h
    . cases h
      exact hs.lock _ nowInstant _
    . simp at h
  | remove answer =>
    simp only [machine, Registration.step] at h
    split at h
    . next hreaper =>
      cases h
      exact hs.removeStale hreaper answer
    . simp at h

theorem wellFormed_of_run {subnetPrefix : FixedBytes 3} {paymentConfig : PaymentConfigSnapshot}
    {publicIp : String} {ts : List (Transition Threads Event Response)}
    (hrun : (machine B).Run ⟨.new subnetPrefix paymentConfig publicIp, .sleeping⟩ ts s)
    : WellFormed s :=
  hrun.invariant WellFormed (wellFormed_new subnetPrefix paymentConfig publicIp)
    (fun _ _ _ _ hs h => hs.step h)

theorem mem_foldl_insert (l : List Nat) (ips : HashSet UInt8) (octet : UInt8)
    : octet ∈ l.foldl (fun ips octet => insert (UInt8.ofNat octet) ips) ips
        ↔
      octet ∈ ips ∨ ∃ n ∈ l, UInt8.ofNat n = octet := by
  induction l generalizing ips with
  | nil => simp
  | cons n rest ih =>
    rw [List.foldl_cons, ih, Finset.mem_insert, List.exists_mem_cons_iff]
    rw [or_assoc, or_left_comm, eq_comm]

theorem mem_octets (octet : UInt8) : octet ∈ octets ↔ 2 ≤ octet ∧ octet ≤ 254 := by
  have htwo : (2 : UInt8).toNat = 2 := rfl
  have hlast : (254 : UInt8).toNat = 254 := rfl
  rw [octets, mem_foldl_insert, UInt8.le_iff_toNat_le, UInt8.le_iff_toNat_le, htwo, hlast]
  constructor
  . rintro (hmem | ⟨n, hn, rfl⟩)
    . simp at hmem
    . rw [List.mem_range'_1] at hn
      rw [UInt8.toNat_ofNat_of_lt' (by simp [UInt8.size]; omega)]
      omega
  . intro h
    refine .inr ⟨octet.toNat, ?_, UInt8.ofNat_toNat⟩
    rw [List.mem_range'_1]
    omega

theorem WellFormed.handleRegistration_of_registered (hs : WellFormed s) {pubkeyBase64 : String}
    {pubkey : FixedBytes 32} (hdecode : B.decode (Text.trim pubkeyBase64) = some pubkey.val)
    (hmem : Hex.encode pubkey.val ∈ s.state.inner.registeredPeers) (call : Call)
    : ∃ octet, s.state.inner.peerToOctet.lookup (Hex.encode pubkey.val) = some octet ∧
        handleRegistration B s.state pubkeyBase64 call = (s.state, s.state.success octet) := by
  obtain ⟨pool, hpool⟩ := hs.pool
  obtain ⟨octet, hoctet⟩ := Option.isSome_iff_exists.mp ((hpool.mem_registeredPeers _).mp hmem)
  obtain ⟨key, hcache⟩ := Option.isSome_iff_exists.mp (hs.cache _ hmem)
  refine ⟨octet, by rw [hpool.peerToOctet, hoctet], ?_⟩
  have hassigned := (hpool.assignedOctet (Hex.encode pubkey.val)).trans hoctet
  simp [handleRegistration, prepareRegistration, hdecode, pubkey.property,
    RegistrationState.populate, hcache, hassigned]

/--
The addresses are a pool at every moment: the tables agree, no two peers hold the same address, and
every address is either free or held. Registering again gives the same address.
-/
theorem addressPool_of_run {subnetPrefix : FixedBytes 3} {paymentConfig : PaymentConfigSnapshot}
    {publicIp : String} {ts : List (Transition Threads Event Response)}
    (hrun : (machine B).Run ⟨.new subnetPrefix paymentConfig publicIp, .sleeping⟩ ts s)
    : s.state.inner.peerToOctet.keys = s.state.inner.registeredPeers
        ∧
      s.state.inner.peerRegisteredAt.keys = s.state.inner.registeredPeers
        ∧
      (∀ k k' octet, s.state.inner.peerToOctet.lookup k = some octet →
        s.state.inner.peerToOctet.lookup k' = some octet → k = k')
        ∧
      (∀ octet, 2 ≤ octet ∧ octet ≤ 254 ↔
        octet ∈ s.state.inner.availableIps ∨
          ∃ k, s.state.inner.peerToOctet.lookup k = some octet)
        ∧
      (∀ k octet, s.state.inner.peerToOctet.lookup k = some octet →
        octet ∉ s.state.inner.availableIps)
        ∧
      (∀ pubkeyBase64 (pubkey : FixedBytes 32) call,
        B.decode (Text.trim pubkeyBase64) = some pubkey.val →
        Hex.encode pubkey.val ∈ s.state.inner.registeredPeers →
        ∃ octet, s.state.inner.peerToOctet.lookup (Hex.encode pubkey.val) = some octet ∧
          handleRegistration B s.state pubkeyBase64 call = (s.state, s.state.success octet)) := by
  have hs := wellFormed_of_run hrun
  obtain ⟨pool, hpool⟩ := hs.pool
  refine ⟨?_, ?_, ?_, ?_, ?_, ?_⟩
  . ext k
    rw [Finmap.mem_keys, ← Finmap.lookup_isSome, hpool.peerToOctet, hpool.mem_registeredPeers]
  . ext k
    rw [Finmap.mem_keys, ← Finmap.lookup_isSome, hpool.isSome_registeredAt,
      hpool.mem_registeredPeers]
  . rw [hpool.peerToOctet]
    exact pool.injective
  . intro octet
    rw [hpool.peerToOctet, hpool.availableIps, ← pool.mem_all_iff, mem_octets]
  . rw [hpool.peerToOctet, hpool.availableIps]
    exact pool.not_free_of_leased
  . intro pubkeyBase64 pubkey call hdecode hmem
    exact hs.handleRegistration_of_registered hdecode hmem call

end Run

namespace Sample

def base64 : Base64 where
  encode := Radix64.encode
  decode := Radix64.decode

def paymentConfig : PaymentConfigSnapshot where
  chainId := 5042002
  gatewayWallet := .zero 20
  usdcContract := .zero 20
  amountPerQuota := 10000
  quotaBytes := 10 * 1024 * 1024

def initial : Threads where
  state := .new ⟨[10, 0, 0], rfl⟩ paymentConfig "198.51.100.1"
  reaper := .sleeping

def pick (ips : HashSet UInt8) : HashSet.First ips where
  get := ((List.range 256).map UInt8.ofNat).find? (· ∈ ips)
  mem_of_get := by
    intro octet h
    simpa using List.find?_some h
  get_eq_none := by
    intro h
    rw [Finset.eq_empty_iff_forall_notMem]
    intro octet
    have hmem : octet ∈ (List.range 256).map UInt8.ofNat := by
      rw [List.mem_map]
      exact ⟨octet.toNat, List.mem_range.mpr octet.toNat_lt, UInt8.ofNat_toNat⟩
    simpa using List.find?_eq_none.mp h octet hmem

def call : Call where
  uapiGet := .ok { ownPubkey := some "server", listenPort := some 51820, peers := ∅ }
  uapiSet := fun _ _ => .ok ()
  pick := pick
  now := 0

def pubkeyText : String := "QUFBQUFBQUFBQUFBQUFBQUFBQUFBQUFBQUFBQUFBQUE="

def pubkey : FixedBytes 32 :=
  .replicate 32 65

theorem decode_pubkeyText : base64.decode (Text.trim pubkeyText) = some pubkey.val := by
  decide +kernel

def otherPubkeyText : String := "QkJCQkJCQkJCQkJCQkJCQkJCQkJCQkJCQkJCQkJCQkI="

def otherPubkey : FixedBytes 32 :=
  .replicate 32 66

theorem decode_otherPubkeyText
    : base64.decode (Text.trim otherPubkeyText) = some otherPubkey.val := by
  decide +kernel

theorem get_pick {ips : HashSet UInt8} (h : ∀ octet, octet ∈ ips ↔ 2 ≤ octet ∧ octet ≤ 254)
    : (pick ips).get = some 2 := by
  simp only [pick, h]
  decide +kernel

theorem handleRegistration_of_free (state : RegistrationState) {text : String}
    {key : FixedBytes 32} (hdecode : base64.decode (Text.trim text) = some key.val)
    (hnew : Hex.encode key.val ∉ state.inner.registeredPeers)
    (hfree : state.inner.availableIps.Nonempty)
    : (handleRegistration base64 state text call).1.inner.registeredPeers
        = insert (Hex.encode key.val) state.inner.registeredPeers
        ∧
      ∃ octet, (handleRegistration base64 state text call).1.inner.availableIps
        = state.inner.availableIps.erase octet := by
  obtain ⟨octet, hget⟩ : ∃ octet, (pick state.inner.availableIps).get = some octet := by
    rw [← Option.ne_none_iff_exists']
    intro hnone
    exact hfree.ne_empty ((pick state.inner.availableIps).get_eq_none hnone)
  cases hcache : state.inner.serverPubkeyCache with
  | none =>
    simp [handleRegistration, prepareRegistration, hdecode, key.property,
      RegistrationState.populate, hcache, call, RegistrationInner.assignedOctet, hnew, allocateIp,
      hget, commitRegistration]
  | some serverPubkey =>
    simp [handleRegistration, prepareRegistration, hdecode, key.property,
      RegistrationState.populate, hcache, call, RegistrationInner.assignedOctet, hnew, allocateIp,
      hget, commitRegistration]

theorem exists_registered {s₀ : Threads} (hreaper : s₀.reaper = .sleeping)
    (hregistered : s₀.state.inner.registeredPeers = ∅)
    (hfree : s₀.state.inner.availableIps.Nonempty)
    : ∃ s ts, (machine base64).Run s₀ ts s ∧
        Hex.encode pubkey.val ∈ s.state.inner.registeredPeers := by
  refine ⟨_, _, .single (step_register hreaper pubkeyText call), ?_⟩
  obtain ⟨hinsert, _⟩ := handleRegistration_of_free s₀.state decode_pubkeyText
    (by simp [hregistered]) hfree
  rw [hinsert]
  exact Finset.mem_insert_self _ _

theorem nonempty_octets_erase (octet : UInt8) : (octets.erase octet).Nonempty := by
  by_cases h : octet = 2
  . exact ⟨3, by rw [Finset.mem_erase, mem_octets, h]; decide⟩
  . exact ⟨2, by rw [Finset.mem_erase, mem_octets]; exact ⟨fun heq => h heq.symm, by decide⟩⟩

theorem nonempty_initial : initial.state.inner.availableIps.Nonempty := by
  simp only [initial, RegistrationState.new]
  exact (nonempty_octets_erase 2).mono (Finset.erase_subset _ _)

theorem get_pick_initial : (pick initial.state.inner.availableIps).get = some 2 := by
  apply get_pick
  simp only [initial, RegistrationState.new]
  exact mem_octets

end Sample

theorem addressPool_of_run_registered
    : ∃ s ts, (machine Sample.base64).Run Sample.initial ts s ∧
        ∃ octet,
          s.state.inner.peerToOctet.lookup (Hex.encode Sample.pubkey.val) = some octet
            ∧
          handleRegistration Sample.base64 s.state Sample.pubkeyText Sample.call
            = (s.state, s.state.success octet) := by
  obtain ⟨s, ts, hrun, hmem⟩ := Sample.exists_registered rfl rfl Sample.nonempty_initial
  obtain ⟨_, _, _, _, _, hagain⟩ := addressPool_of_run hrun
  exact ⟨s, ts, hrun, hagain _ Sample.pubkey Sample.call Sample.decode_pubkeyText hmem⟩

end Registration
