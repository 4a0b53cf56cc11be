import VeilVpn.Device.Lemmas.AllowedIps
import VeilVpn.Device.Lemmas.Endpoint

namespace Device

def Held (d : Device) (id : PeerId) : Prop :=
  ∃ key, d.peers.lookup key = some id

/--
The part of a peer that the tables are made from, it never changes.
-/
def Peer.link (p : Peer) : UInt32 × AllowedIps Unit :=
  (p.index, p.allowedIps)

def linkOf (d : Device) (id : PeerId) : Option (UInt32 × AllowedIps Unit) :=
  (d.peerArena.get id).map Peer.link

structure Linked (d : Device) : Prop where
  peer : ∀ key id, d.peers.lookup key = some id → (d.linkOf id).isSome
  injective : ∀ key key' id, d.peers.lookup key = some id → d.peers.lookup key' = some id → key = key'
  byIdx : ∀ idx id, d.peersByIdx.lookup idx = some id →
    d.Held id ∧ ∃ ips, d.linkOf id = some (idx, ips)
  byIp : ∀ entry ∈ d.peersByIp.ips,
    d.Held entry.2 ∧ ∃ idx ips, d.linkOf entry.2 = some (idx, ips) ∧ (entry.1, ()) ∈ ips.ips

structure SameLinks (d d' : Device) : Prop where
  peers : d'.peers = d.peers
  byIdx : d'.peersByIdx = d.peersByIdx
  byIp : d'.peersByIp = d.peersByIp
  nextIndex : d'.nextIndex = d.nextIndex
  link : ∀ id, d'.linkOf id = d.linkOf id

section Links

variable {C : Primitives} {d d' d'' : Device} {id : PeerId} {p p' : Peer}

theorem SameLinks.refl (d : Device) : SameLinks d d :=
  ⟨rfl, rfl, rfl, rfl, fun _ => rfl⟩

theorem SameLinks.trans (h : SameLinks d d') (h' : SameLinks d' d'') : SameLinks d d'' where
  peers := h'.peers.trans h.peers
  byIdx := h'.byIdx.trans h.byIdx
  byIp := h'.byIp.trans h.byIp
  nextIndex := h'.nextIndex.trans h.nextIndex
  link := fun id => (h'.link id).trans (h.link id)

theorem SameLinks.setPeer (hget : d.peerArena.get id = some p) (p' : Peer) (hlink : p'.link = p.link)
    : SameLinks d (d.setPeer id p') where
  peers := rfl
  byIdx := rfl
  byIp := rfl
  nextIndex := rfl
  link := by
    intro j
    simp only [linkOf, Device.setPeer, Arena.get_set_of_get hget]
    split
    . next hj => rw [hj, hget, Option.map_some, Option.map_some, hlink]
    . rfl

theorem SameCores.sameLinks (h : SameCores d d') : SameLinks d d' where
  peers := (congrArg Device.peers h.static :)
  byIdx := (congrArg Device.peersByIdx h.static :)
  byIp := (congrArg Device.peersByIp h.static :)
  nextIndex := (congrArg Device.nextIndex h.static :)
  link := fun id => map_eq_of_coreOf_eq (h.core id) Peer.link fun _ => rfl

theorem Peer.SameButState.link (h : p.SameButState p') : p'.link = p.link := by
  rw [h]
  rfl

theorem Touches.sameLinks {Q : PeerId → Prop} (h : Touches Q d d') : SameLinks d d' := by
  induction h with
  | refl => exact .refl d
  | setLimiter _ ref rl ih => exact ih.trans ⟨rfl, rfl, rfl, rfl, fun _ => rfl⟩
  | setPeer _ hget hsame ih => exact ih.trans (.setPeer hget _ hsame.link)
  | shutdownEndpoint _ id ih => exact ih.trans (sameCores_shutdownEndpoint _ id).sameLinks
  | setEndpoint _ id addr ih => exact ih.trans (sameCores_setEndpoint _ id addr).sameLinks
  | connectEndpoint _ _ peerAddr env ih =>
    exact ih.trans (sameCores_connectEndpoint _ _ peerAddr env).sameLinks
  | listen _ _ _ _ ih => exact ih.trans ⟨rfl, rfl, rfl, rfl, fun _ => rfl⟩

theorem sameLinks_setKey (C : Primitives) (d : Device) (privateKey : FixedBytes 32) (env : Env)
    : SameLinks d (d.setKey C privateKey env) := by
  have hlink : ∀ id, (d.setKey C privateKey env).linkOf id = d.linkOf id :=
    fun id => map_get_setKey C d privateKey env id Peer.link fun _ _ => rfl
  unfold setKey at hlink ⊢
  dsimp only at hlink ⊢
  split
  . exact .refl d
  . next hne =>
    simp only [if_neg hne] at hlink
    exact ⟨rfl, rfl, rfl, rfl, hlink⟩

theorem Linked.of_sameLinks (hd : Linked d) (h : SameLinks d d') : Linked d' := by
  have hheld : ∀ id, d.Held id → d'.Held id := by
    rintro id ⟨key, hkey⟩
    exact ⟨key, by rw [h.peers, hkey]⟩
  constructor
  . intro key id hkey
    rw [h.peers] at hkey
    rw [h.link]
    exact hd.peer key id hkey
  . intro key key' id hkey hkey'
    rw [h.peers] at hkey hkey'
    exact hd.injective key key' id hkey hkey'
  . intro idx id hidx
    rw [h.byIdx] at hidx
    rw [h.link]
    exact (hd.byIdx idx id hidx).imp_left (hheld id)
  . intro entry hentry
    rw [h.byIp] at hentry
    rw [h.link]
    exact (hd.byIp entry hentry).imp_left (hheld entry.2)

end Links

section Update

variable {C : Primitives} {d d' : Device} {id : PeerId}

theorem linked_new (nextIndex : IndexLfsr) (config : DeviceConfig)
    (paymentConfig : Payment.PaymentConfig)
    : Linked (new nextIndex config paymentConfig) where
  peer := by simp [new]
  injective := by simp [new]
  byIdx := by simp [new]
  byIp := by simp [new, AllowedIps.new]

theorem Linked.clearPeers (d : Device) : Linked d.clearPeers where
  peer := by simp [Device.clearPeers]
  injective := by simp [Device.clearPeers]
  byIdx := by simp [Device.clearPeers]
  byIp := by simp [Device.clearPeers, AllowedIps.new]

structure Removes (d d' : Device) (key : FixedBytes 32) (id : PeerId) (idx : UInt32) : Prop where
  lookup : d.peers.lookup key = some id
  link : ∃ ips, d.linkOf id = some (idx, ips)
  peers : d'.peers = d.peers.erase key
  byIdx : d'.peersByIdx = d.peersByIdx.erase idx
  byIp : d'.peersByIp = d.peersByIp.remove (· == id)
  nextIndex : d'.nextIndex = d.nextIndex
  sameLink : ∀ j, d'.linkOf j = d.linkOf j

theorem removePeer_removes {key : FixedBytes 32} {p : Peer} (hkey : d.peers.lookup key = some id)
    (hget : d.peerArena.get id = some p)
    : Removes d (d.removePeer key) key id p.index := by
  have hsame := (sameCores_shutdownEndpoint d id).sameLinks
  unfold removePeer
  rw [hkey]
  dsimp only
  rw [hget]
  refine ⟨hkey, ⟨p.allowedIps, by rw [linkOf, hget]; rfl⟩, ?_, ?_, ?_, hsame.nextIndex, hsame.link⟩
  . dsimp only
    rw [hsame.peers]
  . dsimp only
    rw [hsame.byIdx]
  . dsimp only
    rw [hsame.byIp]

variable {key : FixedBytes 32} {idx : UInt32}

theorem Removes.held (h : Removes d d' key id idx) {j : PeerId} (hj : d.Held j) (hne : j ≠ id)
    : d'.Held j := by
  obtain ⟨key', hkey'⟩ := hj
  refine ⟨key', ?_⟩
  rw [h.peers, HashMap.lookup_erase, if_neg]
  . exact hkey'
  . rintro rfl
    rw [h.lookup] at hkey'
    cases hkey'
    exact hne rfl

theorem Removes.not_held (h : Removes d d' key id idx) (hd : Linked d) : ¬d'.Held id := by
  rintro ⟨key', hkey'⟩
  rw [h.peers, HashMap.lookup_erase] at hkey'
  obtain ⟨hne, hkey'⟩ := Option.ite_none_left_eq_some.mp hkey'
  exact hne (hd.injective key' key id hkey' h.lookup)

theorem Linked.removes (hd : Linked d) (h : Removes d d' key id idx) : Linked d' := by
  have hlookup : ∀ key' j, d'.peers.lookup key' = some j → d.peers.lookup key' = some j := by
    intro key' j hj
    rw [h.peers, HashMap.lookup_erase] at hj
    exact (Option.ite_none_left_eq_some.mp hj).2
  obtain ⟨ips, hlink⟩ := h.link
  constructor
  . intro key' j hj
    rw [h.sameLink]
    exact hd.peer key' j (hlookup key' j hj)
  . intro key' key'' j hj hj'
    exact hd.injective key' key'' j (hlookup key' j hj) (hlookup key'' j hj')
  . intro idx' j hj
    rw [h.byIdx, HashMap.lookup_erase] at hj
    obtain ⟨hne, hj⟩ := Option.ite_none_left_eq_some.mp hj
    obtain ⟨hheld, ips', hlink'⟩ := hd.byIdx idx' j hj
    rw [h.sameLink]
    refine ⟨h.held hheld ?_, ips', hlink'⟩
    rintro rfl
    rw [hlink] at hlink'
    cases hlink'
    exact hne rfl
  . intro entry hentry
    rw [h.byIp, AllowedIps.mem_remove] at hentry
    obtain ⟨hheld, hlink'⟩ := hd.byIp entry hentry.1
    rw [h.sameLink]
    exact ⟨h.held hheld (by simpa using hentry.2), hlink'⟩

structure Inserts (d d' : Device) (key : FixedBytes 32) (idx : UInt32) (ips : List AllowedIP)
    : Prop where
  absent : d.peers.lookup key = none
  peers : d'.peers = d.peers.insert key d.peerArena.size
  byIdx : d'.peersByIdx = d.peersByIdx.insert idx d.peerArena.size
  byIp : d'.peersByIp
    = ips.foldl (fun table ip => table.insert ip d.peerArena.size) d.peersByIp
  nextIndex : d.nextIndex.next = some (d'.nextIndex, idx)
  link : ∀ j, d'.linkOf j
    = if j = d.peerArena.size then some (idx, .ofList ips ()) else d.linkOf j

theorem updatePeer_inserts {endpoint : Option SocketAddr} {ips : List AllowedIP}
    {keepalive : Option UInt16} {presharedKey : Option (FixedBytes 32)} {env : Env}
    (h : d.updatePeer C key false endpoint ips keepalive presharedKey env = some d')
    : ∃ idx, Inserts d d' key idx ips := by
  cases updatePeer_cases h with
  | remove hremove _ => simp at hremove
  | add lfsr index privateKey publicKey limiter stamper p _ habsent hnext _ hpeer hdevice =>
    have hindex : p.index = index := by
      rw [hpeer]
      rfl
    rw [hdevice]
    refine ⟨index, habsent, rfl, by rw [← hindex]; rfl, rfl, hnext, ?_⟩
    intro j
    simp only [linkOf, get_addPeer, hpeer]
    split <;> rfl

variable {ips : List AllowedIP}

theorem linkOf_size (d : Device) : d.linkOf d.peerArena.size = none := by
  rw [linkOf, Arena.get_size]
  rfl

theorem Linked.ne_size (hd : Linked d) (hid : d.Held id) : id ≠ d.peerArena.size := by
  obtain ⟨key, hkey⟩ := hid
  rintro rfl
  have hsome := hd.peer key _ hkey
  simp [linkOf_size] at hsome

theorem Inserts.held (h : Inserts d d' key idx ips) {j : PeerId} (hj : d.Held j) : d'.Held j := by
  obtain ⟨key', hkey'⟩ := hj
  refine ⟨key', ?_⟩
  rw [h.peers, HashMap.lookup_insert, if_neg]
  . exact hkey'
  . rintro rfl
    simp [h.absent] at hkey'

theorem Inserts.held_self (h : Inserts d d' key idx ips) : d'.Held d.peerArena.size :=
  ⟨key, by rw [h.peers, HashMap.lookup_insert, if_pos rfl]⟩

theorem Inserts.of_held (h : Inserts d d' key idx ips) {j : PeerId} (hj : d'.Held j)
    : j = d.peerArena.size ∨ d.Held j := by
  obtain ⟨key', hkey'⟩ := hj
  rw [h.peers, HashMap.lookup_insert] at hkey'
  split at hkey'
  . cases hkey'
    exact .inl rfl
  . exact .inr ⟨key', hkey'⟩

theorem Linked.inserts (hd : Linked d) (h : Inserts d d' key idx ips) : Linked d' := by
  have hlookup : ∀ key' j, d'.peers.lookup key' = some j →
      (key' = key ∧ j = d.peerArena.size) ∨ d.peers.lookup key' = some j := by
    intro key' j hj
    rw [h.peers, HashMap.lookup_insert] at hj
    split at hj
    . next hkey =>
      cases hj
      exact .inl ⟨hkey, rfl⟩
    . exact .inr hj
  have hlink : ∀ j, d.Held j → d'.linkOf j = d.linkOf j := by
    intro j hj
    rw [h.link, if_neg (hd.ne_size hj)]
  have hnew : d'.linkOf d.peerArena.size = some (idx, .ofList ips ()) := by
    rw [h.link, if_pos rfl]
  constructor
  . intro key' j hj
    rcases hlookup key' j hj with ⟨_, rfl⟩ | hj
    . rw [hnew]
      rfl
    . rw [hlink j ⟨key', hj⟩]
      exact hd.peer key' j hj
  . intro key' key'' j hj hj'
    rcases hlookup key' j hj with ⟨rfl, rfl⟩ | hj <;>
    rcases hlookup key'' _ hj' with ⟨rfl, heq⟩ | hj'
    . rfl
    . exact absurd rfl (hd.ne_size ⟨key'', hj'⟩)
    . exact absurd heq (hd.ne_size ⟨key', hj⟩)
    . exact hd.injective key' key'' j hj hj'
  . intro idx' j hj
    rw [h.byIdx, HashMap.lookup_insert] at hj
    split at hj
    . next hidx =>
      cases hj
      exact ⟨h.held_self, _, by rw [hnew, hidx]⟩
    . obtain ⟨hheld, ips', hlink'⟩ := hd.byIdx idx' j hj
      exact ⟨h.held hheld, ips', by rw [hlink j hheld, hlink']⟩
  . intro entry hentry
    rw [h.byIp] at hentry
    rcases AllowedIps.mem_foldl_insert hentry with ⟨allowed, hallowed, rfl⟩ | hentry
    . exact ⟨h.held_self, idx, _, hnew, AllowedIps.mem_ofList.mpr ⟨allowed, hallowed, rfl⟩⟩
    . obtain ⟨hheld, idx', ips', hlink', hmem⟩ := hd.byIp entry hentry
      exact ⟨h.held hheld, idx', ips', by rw [hlink _ hheld, hlink'], hmem⟩

end Update

section Step

variable {C : Primitives} {d d' : Device} {e : Event} {outputs : List Output}

/--
What a step does to the tables.
-/
inductive TableStep (d : Device) (e : Event) (d' : Device) : Prop where
  | same (h : SameLinks d d')
  | insert (key : FixedBytes 32) (endpoint : Option SocketAddr) (ips : List AllowedIP)
    (keepalive : Option UInt16) (presharedKey : Option (FixedBytes 32)) (env : Env) (idx : UInt32)
    (he : e = .updatePeer key false endpoint ips keepalive presharedKey env)
    (h : Inserts d d' key idx ips)
  | remove (key : FixedBytes 32) (endpoint : Option SocketAddr) (ips : List AllowedIP)
    (keepalive : Option UInt16) (presharedKey : Option (FixedBytes 32)) (env : Env) (id : PeerId)
    (idx : UInt32) (he : e = .updatePeer key true endpoint ips keepalive presharedKey env)
    (h : Removes d d' key id idx)
  | clear (he : e = .clearPeers) (h : d' = d.clearPeers)

theorem tableStep (h : (machine C).step d e = some (d', outputs)) : TableStep d e d' := by
  cases he : e.isConfig with
  | false =>
    exact .same (touches_of_step (Q := fun _ => True) h he fun _ _ => trivial).sameLinks
  | true =>
    cases configCase_of_step h he with
    | updatePeer key remove endpoint ips keepalive presharedKey env hevent hupdate _ =>
      cases remove with
      | false =>
        obtain ⟨idx, hinserts⟩ := updatePeer_inserts hupdate
        exact .insert key endpoint ips keepalive presharedKey env idx hevent hinserts
      | true =>
        rw [updatePeer, if_pos rfl, Option.some.injEq] at hupdate
        rw [← hupdate]
        cases hkey : d.peers.lookup key with
        | none =>
          rw [removePeer, hkey]
          exact .same (.refl d)
        | some id =>
          cases hget : d.peerArena.get id with
          | none =>
            rw [removePeer, hkey]
            dsimp only
            rw [hget]
            exact .same (.refl d)
          | some p =>
            exact .remove key endpoint ips keepalive presharedKey env id p.index hevent
              (removePeer_removes hkey hget)
    | clearPeers hevent hdevice _ => exact .clear hevent hdevice
    | setKey privateKey env _ hdevice _ =>
      rw [hdevice]
      exact .same (sameLinks_setKey C d privateKey env)
    | openListenSocket port assigned _ hdevice _ =>
      rw [hdevice]
      exact .same (touches_openListenSocket (Q := fun _ => True) d port assigned).sameLinks
    | setFwmark _ _ hdevice _ =>
      rw [hdevice]
      exact .same ⟨rfl, rfl, rfl, rfl, fun _ => rfl⟩

theorem Linked.step (hd : Linked d) (h : (machine C).step d e = some (d', outputs)) : Linked d' := by
  cases tableStep h with
  | same h => exact hd.of_sameLinks h
  | insert _ _ _ _ _ _ _ _ h => exact hd.inserts h
  | remove _ _ _ _ _ _ _ _ _ h => exact hd.removes h
  | clear _ h =>
    rw [h]
    exact .clearPeers d

theorem linked_of_run {nextIndex : IndexLfsr} {config : DeviceConfig}
    {paymentConfig : Payment.PaymentConfig} {ts : List (Transition Device Event Output)}
    (hrun : (machine C).Run (new nextIndex config paymentConfig) ts d)
    : Linked d :=
  hrun.invariant Linked (linked_new nextIndex config paymentConfig) (fun _ _ _ _ hd h => hd.step h)

end Step

end Device
