import VeilVpn.Loop
import VeilVpn.Device.Impl.Api
import VeilVpn.Device.Lemmas.Endpoint

namespace Device

def allowedIpsOf (d : Device) (id : PeerId) : Option (AllowedIps Unit) :=
  (d.accountOf id).map Prod.fst

section Step

variable {C : Primitives} {d d' : Device} {e : Event} {outputs : List Output} {id : PeerId}
  {p : Peer}

theorem allowedIpsOf_eq_some (h : d.peerArena.get id = some p)
    : d.allowedIpsOf id = some p.allowedIps := by
  rw [allowedIpsOf, accountOf_eq_some h]
  rfl

theorem exists_of_allowedIpsOf {ips : AllowedIps Unit} (h : d.allowedIpsOf id = some ips)
    : ∃ p, d.peerArena.get id = some p ∧ p.allowedIps = ips := by
  cases hget : d.peerArena.get id with
  | none => simp [allowedIpsOf, accountOf, hget] at h
  | some p =>
    rw [allowedIpsOf_eq_some hget, Option.some.injEq] at h
    exact ⟨p, rfl, h⟩

theorem allowedIpsOf_of_step {ips : AllowedIps Unit}
    (h : (machine C).step d e = some (d', outputs)) (hips : d.allowedIpsOf id = some ips)
    : d'.allowedIpsOf id = some ips := by
  rw [← hips]
  unfold allowedIpsOf at *
  cases step_cases h with
  | quiet _ _ haccounts _ _ =>
    rcases haccounts id with hsame | ⟨hnone, _⟩
    . rw [hsame]
    . simp [hnone] at hips
  | inbound i p p' _ _ _ _ _ _ _ _ _ _ _ hget hpeer hresult haccounts _ _ _ =>
    rw [haccounts]
    split
    . next hid =>
      subst hid
      have hsame := Peer.SameButState.of_sameButTunnel hpeer
      rw [accountOf_eq_some hget, Option.map_some, Option.map_some, Peer.account, Peer.account,
        (hsame.trans (handleResult_sameButState hresult)).allowedIps]
    . rfl
  | outbound id' p p' _ _ _ _ _ hget hresult haccounts _ _ =>
    rw [haccounts]
    split
    . next hid =>
      subst hid
      rw [accountOf_eq_some hget, Option.map_some, Option.map_some, Peer.account, Peer.account,
        (outbound_sameButState hresult).allowedIps]
    . rfl

theorem firstAllowedIpv4_of_step (h : (machine C).step d e = some (d', outputs))
    (hget : d.peerArena.get id = some p)
    : ∃ p', d'.peerArena.get id = some p' ∧ p'.firstAllowedIpv4 = p.firstAllowedIpv4 := by
  have hips := allowedIpsOf_of_step h (allowedIpsOf_eq_some hget)
  obtain ⟨p', hget', hsame⟩ := exists_of_allowedIpsOf hips
  refine ⟨p', hget', ?_⟩
  rw [Peer.firstAllowedIpv4, hsame, ← Peer.firstAllowedIpv4]

end Step

section Update

variable {C : Primitives} {d d' : Device} {key : FixedBytes 32} {endpoint : Option SocketAddr}
  {ips : List AllowedIP} {keepalive : Option UInt16} {presharedKey : Option (FixedBytes 32)}
  {env : Env}

structure Adds (d d' : Device) (key : FixedBytes 32) (ips : List AllowedIP) : Prop where
  absent : d.peers.lookup key = none
  peers : d'.peers = d.peers.insert key d.peerArena.size
  allowedIps : d'.allowedIpsOf d.peerArena.size = some (.ofList ips ())
  allowedIps_of_ne : ∀ id, id ≠ d.peerArena.size → d'.allowedIpsOf id = d.allowedIpsOf id

theorem updatePeer_adds
    (h : d.updatePeer C key false endpoint ips keepalive presharedKey env = some d')
    : Adds d d' key ips := by
  cases updatePeer_cases h with
  | remove hremove _ => simp at hremove
  | add lfsr index privateKey publicKey limiter stamper p _ habsent _ _ hpeer hdevice =>
    rw [hdevice]
    refine ⟨habsent, rfl, ?_, ?_⟩
    . simp only [allowedIpsOf, accountOf, get_addPeer, if_true, hpeer]
      rfl
    . intro id hid
      simp only [allowedIpsOf, accountOf, get_addPeer, if_neg hid]

theorem timeSinceLastHandshake_of_updatePeer
    (h : d.updatePeer C key false endpoint ips keepalive presharedKey env = some d')
    : ∃ p, d'.peerArena.get d.peerArena.size = some p
        ∧ ∀ now, p.tunnel.timeSinceLastHandshake now = some none := by
  cases updatePeer_cases h with
  | remove hremove _ => simp at hremove
  | add lfsr index privateKey publicKey limiter stamper p _ _ _ _ hpeer hdevice =>
    refine ⟨p, ?_, ?_⟩
    . rw [hdevice, get_addPeer, if_pos rfl]
    . intro now
      rw [hpeer]
      rfl

theorem allowedIpsOf_removePeer (d : Device) (key : FixedBytes 32) (id : PeerId)
    : (d.removePeer key).allowedIpsOf id = d.allowedIpsOf id := by
  rw [allowedIpsOf, accountOf_eq_of_coreOf_eq (coreOf_removePeer d key id), ← allowedIpsOf]

theorem lookup_removePeer (hexists : ∀ id, d.peers.lookup key = some id → (d.allowedIpsOf id).isSome)
    (k : FixedBytes 32)
    : (d.removePeer key).peers.lookup k = if k = key then none else d.peers.lookup k := by
  unfold removePeer
  split
  . next hnone =>
    split
    . next hk => rw [hk, hnone]
    . rfl
  . next id hid =>
    split
    . next hget =>
      have hsome := hexists id hid
      simp [allowedIpsOf, accountOf, hget] at hsome
    . simp only [peers_shutdownEndpoint, HashMap.lookup_erase]

end Update

section Api

variable {d : Device} {order : HashMap.Iteration d.peers} {now : Instant}

theorem apiGet_of_peers_eq_empty (hpeers : d.peers = ∅) (order : HashMap.Iteration d.peers)
    (now : Instant)
    : d.apiGet order now
        = some {
            ownPublicKey := d.keyPair.map Prod.snd
            listenPort := if d.listenPort ≠ 0 then some d.listenPort else none
            peers := []
          } := by
  have hentries : order.entries = [] := by
    rw [List.eq_nil_iff_forall_not_mem]
    rintro ⟨key, id⟩ hmem
    rw [order.mem_entries_iff, hpeers] at hmem
    simp at hmem
  simp only [apiGet, hentries, List.mapM_nil, Option.pure_def]

theorem apiGet_eq_some {answer : ApiGet} (h : d.apiGet order now = some answer)
    : order.entries.mapM (fun (key, id) => d.apiGetPeer now key id) = some answer.peers := by
  unfold apiGet at h
  split at h
  . simp at h
  . next hmap =>
    cases h
    exact hmap

theorem apiGet_device {answer : ApiGet} (h : d.apiGet order now = some answer)
    : answer.ownPublicKey = d.keyPair.map Prod.snd
        ∧ answer.listenPort = if d.listenPort = 0 then none else some d.listenPort := by
  unfold apiGet at h
  split at h
  . simp at h
  . cases h
    exact ⟨rfl, ite_not _ _ _⟩

theorem apiGetPeer_eq_some {key : FixedBytes 32} {id : PeerId} {peer : ApiPeer}
    (h : d.apiGetPeer now key id = some peer)
    : ∃ p time, d.peerArena.get id = some p
        ∧ p.tunnel.timeSinceLastHandshake now = some time
        ∧ peer = {
            publicKey := Hex.encode key.val
            lastHandshakeTimeSec := time.map Duration.asSecs
          } := by
  unfold apiGetPeer at h
  split at h
  . simp at h
  . next p hget =>
    split at h
    . simp at h
    . next time htime =>
      cases h
      exact ⟨p, time, hget, htime, rfl⟩

theorem exists_apiGet
    (h : ∀ key id, d.peers.lookup key = some id →
      ∃ p time, d.peerArena.get id = some p ∧ p.tunnel.timeSinceLastHandshake now = some time)
    (order : HashMap.Iteration d.peers)
    : ∃ answer, d.apiGet order now = some answer := by
  have hsome : ∀ entry ∈ order.entries, (d.apiGetPeer now entry.1 entry.2).isSome := by
    intro entry hentry
    rw [order.mem_entries_iff] at hentry
    obtain ⟨p, time, hget, htime⟩ := h entry.1 entry.2 hentry
    simp only [apiGetPeer, hget, htime, Option.isSome_some]
  obtain ⟨peers, hpeers⟩ := exists_mapM_eq_some hsome
  simp only [apiGet, hpeers]
  exact ⟨_, rfl⟩

theorem apiGet_reports {answer : ApiGet} (h : d.apiGet order now = some answer)
    {key : FixedBytes 32} {id : PeerId} (hkey : d.peers.lookup key = some id)
    : ∃ p time, d.peerArena.get id = some p
        ∧ p.tunnel.timeSinceLastHandshake now = some time
        ∧ {
            publicKey := Hex.encode key.val
            lastHandshakeTimeSec := time.map Duration.asSecs
          } ∈ answer.peers := by
  rw [← order.mem_entries_iff] at hkey
  obtain ⟨peer, hmem, hpeer⟩ := exists_mem_of_mapM (apiGet_eq_some h) hkey
  obtain ⟨p, time, hget, htime, rfl⟩ := apiGetPeer_eq_some hpeer
  exact ⟨p, time, hget, htime, hmem⟩

theorem nodup_publicKey_of_apiGet {answer : ApiGet} (h : d.apiGet order now = some answer)
    : (answer.peers.map ApiPeer.publicKey).Nodup := by
  have hmap : answer.peers.map ApiPeer.publicKey
      = order.entries.map (fun entry => Hex.encode entry.1.val) := by
    apply map_eq_map_of_mapM _ (apiGet_eq_some h)
    intro entry peer hpeer
    obtain ⟨_, _, _, _, rfl⟩ := apiGetPeer_eq_some hpeer
    rfl
  rw [hmap]
  have hinjective : Function.Injective (fun key : FixedBytes 32 => Hex.encode key.val) := by
    intro key key' heq
    exact Subtype.ext (Hex.encode_injective heq)
  have hnodup := order.nodup_keys.map hinjective
  rw [List.map_map] at hnodup
  exact hnodup

theorem lookup_of_lookup_removePeer {key k : FixedBytes 32} {id : PeerId}
    (h : (d.removePeer key).peers.lookup k = some id)
    : d.peers.lookup k = some id := by
  unfold removePeer at h
  split at h
  . exact h
  . split at h
    . exact h
    . simp only [peers_shutdownEndpoint, HashMap.lookup_erase] at h
      exact (Option.ite_none_left_eq_some.mp h).2

end Api

end Device
