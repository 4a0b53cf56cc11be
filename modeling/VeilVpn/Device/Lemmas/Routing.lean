import VeilVpn.Device.Lemmas.Roles
import VeilVpn.Device.Lemmas.Tables

namespace Device

def Allows (d : Device) (id : PeerId) (ip : IpAddr) : Prop :=
  ∃ p, d.peerArena.get id = some p ∧ p.isAllowedIp ip = true

section

variable {C : Primitives} {d d' : Device} {id : PeerId} {ip : IpAddr}

theorem allows_iff
    : d.Allows id ip
        ↔
      ∃ idx ips net, d.linkOf id = some (idx, ips) ∧ (net, ()) ∈ ips.ips ∧ net.contains ip = true := by
  unfold Allows linkOf
  constructor
  . rintro ⟨p, hget, hallowed⟩
    obtain ⟨⟨net, _⟩, hmem, hcontains⟩ := AllowedIps.isSome_find.mp hallowed
    exact ⟨p.index, p.allowedIps, net, by rw [hget]; rfl, hmem, hcontains⟩
  . rintro ⟨idx, ips, net, hlink, hmem, hcontains⟩
    obtain ⟨p, hget, heq⟩ := Option.map_eq_some_iff.mp hlink
    cases heq
    exact ⟨p, hget, AllowedIps.isSome_find.mpr ⟨_, hmem, hcontains⟩⟩

theorem Linked.allows_of_mem (hd : Linked d) {net : IpNetwork} (h : (net, id) ∈ d.peersByIp.ips)
    (hcontains : net.contains ip = true)
    : d.Held id ∧ d.Allows id ip := by
  obtain ⟨hheld, idx, ips, hlink, hmem⟩ := hd.byIp _ h
  exact ⟨hheld, allows_iff.mpr ⟨idx, ips, net, hlink, hmem, hcontains⟩⟩

/--
At most one peer lets packets from `ip` in, and packets to `ip` find it.
-/
structure Routed (d : Device) (ip : IpAddr) : Prop where
  unique : ∀ id id', d.Held id → d.Held id' → d.Allows id ip → d.Allows id' ip → id = id'
  entry : ∀ id idx ips net, d.Held id → d.linkOf id = some (idx, ips) → (net, ()) ∈ ips.ips →
    net.contains ip = true → (net, id) ∈ d.peersByIp.ips

theorem Routed.find_iff (h : Routed d ip) (hd : Linked d) (hheld : d.Held id)
    : d.Allows id ip ↔ d.peersByIp.find ip = some id := by
  constructor
  . intro hallows
    obtain ⟨idx, ips, net, hlink, hmem, hcontains⟩ := allows_iff.mp hallows
    have hentry := h.entry id idx ips net hheld hlink hmem hcontains
    cases hfind : d.peersByIp.find ip with
    | none => simp [AllowedIps.find_eq_none.mp hfind _ hentry] at hcontains
    | some id' =>
      obtain ⟨net', hmem', hcontains'⟩ := AllowedIps.exists_of_find hfind
      obtain ⟨hheld', hallows'⟩ := hd.allows_of_mem hmem' hcontains'
      rw [h.unique id id' hheld hheld' hallows hallows']
  . intro hfind
    obtain ⟨net, hmem, hcontains⟩ := AllowedIps.exists_of_find hfind
    exact (hd.allows_of_mem hmem hcontains).2

theorem Routed.of_sameLinks (h : Routed d ip) (hsame : SameLinks d d') : Routed d' ip := by
  have hheld : ∀ id, d'.Held id → d.Held id := by
    rintro id ⟨key, hkey⟩
    exact ⟨key, hsame.peers ▸ hkey⟩
  have hallows : ∀ id, d'.Allows id ip → d.Allows id ip := by
    intro id hallows
    rw [allows_iff, hsame.link] at hallows
    exact allows_iff.mpr hallows
  constructor
  . intro id id' hid hid' ha ha'
    exact h.unique id id' (hheld id hid) (hheld id' hid') (hallows id ha) (hallows id' ha')
  . intro id idx ips net hid hlink
    rw [hsame.link] at hlink
    rw [hsame.byIp]
    exact h.entry id idx ips net (hheld id hid) hlink

theorem Routed.removes {key : FixedBytes 32} {idx : UInt32} (h : Routed d ip) (hd : Linked d)
    (hremoves : Removes d d' key id idx)
    : Routed d' ip := by
  have hheld : ∀ j, d'.Held j → d.Held j := by
    rintro j ⟨key', hkey'⟩
    rw [hremoves.peers, HashMap.lookup_erase] at hkey'
    exact ⟨key', (Option.ite_none_left_eq_some.mp hkey').2⟩
  have hallows : ∀ j, d'.Allows j ip → d.Allows j ip := by
    intro j hallows
    rw [allows_iff, hremoves.sameLink] at hallows
    exact allows_iff.mpr hallows
  constructor
  . intro j j' hj hj' ha ha'
    exact h.unique j j' (hheld j hj) (hheld j' hj') (hallows j ha) (hallows j' ha')
  . intro j idx' ips net hj hlink hmem hcontains
    rw [hremoves.sameLink] at hlink
    rw [hremoves.byIp, AllowedIps.mem_remove]
    refine ⟨h.entry j idx' ips net (hheld j hj) hlink hmem hcontains, ?_⟩
    rw [beq_eq_false_iff_ne]
    rintro rfl
    exact hremoves.not_held hd hj

theorem Routed.inserts {key : FixedBytes 32} {idx : UInt32} {ips : List AllowedIP}
    (h : Routed d ip) (hd : Linked d) (hinserts : Inserts d d' key idx ips)
    (hdisjoint : ((AllowedIps.ofList ips ()).find ip).isSome → ∀ id, d.Held id → ¬d.Allows id ip)
    : Routed d' ip := by
  have hnew : d'.linkOf d.peerArena.size = some (idx, .ofList ips ()) := by
    rw [hinserts.link, if_pos rfl]
  have hold : ∀ j, d.Held j → d'.linkOf j = d.linkOf j := by
    intro j hj
    rw [hinserts.link, if_neg (hd.ne_size hj)]
  have hallows : ∀ j, d.Held j → d'.Allows j ip → d.Allows j ip := by
    intro j hj hallows
    rw [allows_iff, hold j hj] at hallows
    exact allows_iff.mpr hallows
  have hoverlap : ∀ net, (net, ()) ∈ (AllowedIps.ofList ips ()).ips → net.contains ip = true →
      ∀ j, d.Held j → ¬d.Allows j ip := by
    intro net hmem hcontains
    exact hdisjoint (AllowedIps.isSome_find.mpr ⟨_, hmem, hcontains⟩)
  have hself : d'.Allows d.peerArena.size ip → ∀ j, d.Held j → ¬d.Allows j ip := by
    intro hallows
    obtain ⟨_, _, net, hlink, hmem, hcontains⟩ := allows_iff.mp hallows
    rw [hnew] at hlink
    cases hlink
    exact hoverlap net hmem hcontains
  constructor
  . intro j j' hj hj' ha ha'
    rcases hinserts.of_held hj with rfl | hj <;> rcases hinserts.of_held hj' with rfl | hj'
    . rfl
    . exact absurd (hallows j' hj' ha') (hself ha j' hj')
    . exact absurd (hallows j hj ha) (hself ha' j hj)
    . exact h.unique j j' hj hj' (hallows j hj ha) (hallows j' hj' ha')
  . intro j idx' ips' net hj hlink hmem hcontains
    rw [hinserts.byIp]
    rcases hinserts.of_held hj with rfl | hj
    . rw [hnew] at hlink
      cases hlink
      obtain ⟨allowed, hallowed, heq⟩ := AllowedIps.mem_ofList.mp hmem
      cases heq
      exact AllowedIps.mem_foldl_insert_self _ hallowed
    . rw [hold j hj] at hlink
      refine AllowedIps.mem_foldl_insert_of_mem (h.entry j idx' ips' net hj hlink hmem hcontains) ?_
      -- the entry is not taken over, that would be an overlap at `ip`
      rintro allowed hallowed rfl
      refine absurd (allows_iff.mpr ⟨idx', ips', _, hlink, hmem, hcontains⟩)
        (hoverlap _ (AllowedIps.mem_ofList.mpr ⟨allowed, hallowed, rfl⟩) hcontains j hj)

/--
If a peer is added that lets packets from `ip` in, then no other peer does.
-/
def AddsDisjoint (ip : IpAddr) (t : Transition Device Event Output) : Prop :=
  ∀ key endpoint ips keepalive presharedKey env,
    t.event = .updatePeer key false endpoint ips keepalive presharedKey env →
    ((AllowedIps.ofList ips ()).find ip).isSome →
      ∀ id, t.before.Held id → ¬t.before.Allows id ip

theorem Routed.step {e : Event} {outputs : List Output} (h : Routed d ip) (hd : Linked d)
    (hstep : (machine C).step d e = some (d', outputs))
    (hdisjoint : AddsDisjoint ip ⟨d, e, outputs, d'⟩)
    : Routed d' ip := by
  cases tableStep hstep with
  | same hsame => exact h.of_sameLinks hsame
  | insert key endpoint ips keepalive presharedKey env idx he hinserts =>
    exact h.inserts hd hinserts (hdisjoint key endpoint ips keepalive presharedKey env he)
  | remove _ _ _ _ _ _ _ _ _ hremoves => exact h.removes hd hremoves
  | clear _ hclear =>
    subst hclear
    have hheld : ∀ j, ¬d.clearPeers.Held j := by
      rintro j ⟨key, hkey⟩
      simp [clearPeers] at hkey
    exact ⟨fun j _ hj => absurd hj (hheld j), fun j _ _ _ hj => absurd hj (hheld j)⟩

variable {nextIndex : IndexLfsr} {config : DeviceConfig} {paymentConfig : Payment.PaymentConfig}
  {ts : List (Transition Device Event Output)}

theorem routed_of_run (hrun : (machine C).Run (new nextIndex config paymentConfig) ts d)
    (hdisjoint : ∀ t ∈ ts, AddsDisjoint ip t)
    : Linked d ∧ Routed d ip := by
  refine hrun.invariant_of_mem (fun d => Linked d ∧ Routed d ip) ⟨linked_new _ _ _, ?_⟩ ?_
  . have hheld : ∀ j, ¬(new nextIndex config paymentConfig).Held j := by
      rintro j ⟨key, hkey⟩
      simp [new] at hkey
    exact ⟨fun j _ hj => absurd hj (hheld j), fun j _ _ _ hj => absurd hj (hheld j)⟩
  . rintro t ht ⟨hlinked, hrouted⟩ h
    exact ⟨hlinked.step h, hrouted.step hlinked h (hdisjoint t ht)⟩

/--
A peer to which packets are routed may send from their address. The other direction holds for the
addresses that no two peers ever share.
-/
theorem find_iff_allows_of_run (hrun : (machine C).Run (new nextIndex config paymentConfig) ts d)
    (ip : IpAddr)
    : (∀ id, d.peersByIp.find ip = some id → d.Held id ∧ d.Allows id ip)
        ∧
      ((∀ t ∈ ts, AddsDisjoint ip t) →
        ∀ id, d.Held id → (d.Allows id ip ↔ d.peersByIp.find ip = some id)) := by
  constructor
  . intro id hfind
    obtain ⟨net, hmem, hcontains⟩ := AllowedIps.exists_of_find hfind
    exact (linked_of_run hrun).allows_of_mem hmem hcontains
  . intro hdisjoint id hheld
    obtain ⟨hlinked, hrouted⟩ := routed_of_run hrun hdisjoint
    exact hrouted.find_iff hlinked hheld

end

namespace Sample

def addPeers (network : Ipv4Addr) : List Event := [
  .setKey (key 1) env,
  .updatePeer (key 2) false none
    [⟨.v4 network, 24, by simp [IpAddr.width, IpAddr.family, Family.width]⟩] none none env,
  .updatePeer (key 3) false none [⟨.v4 clientIp, 32, IpAddr.le_width_v4 clientIp⟩] none none env
]

def allowsClientIp (d : Device) (id : PeerId) : Bool :=
  (d.peerArena.get id).any fun p => p.isAllowedIp (.v4 clientIp)

theorem allowsClientIp_iff (d : Device) (id : PeerId)
    : allowsClientIp d id = true ↔ d.Allows id (.v4 clientIp) := by
  unfold allowsClientIp Allows
  rw [Option.any_eq_true]

end Sample

theorem find_iff_allows_of_run_disjoint
    : ∃ ts d, (machine Sample.primitives).Run Sample.server ts d
        ∧
      d.peers.lookup (Sample.key 2) = some 0 ∧ d.peers.lookup (Sample.key 3) = some 1
        ∧
      d.Allows 1 (.v4 Sample.clientIp) ∧ d.peersByIp.find (.v4 Sample.clientIp) = some 1 := by
  obtain ⟨ts, d, hrun, h⟩ := Machine.Run.exists_of_exec (machine Sample.primitives) Sample.server
    (Sample.addPeers (.new 10 0 1 0))
    (fun ts d => decide (d.peers.lookup (Sample.key 2) = some 0)
      && decide (d.peers.lookup (Sample.key 3) = some 1)
      && Sample.allowsClientIp d 1
      && ts.all fun t => decide (t.before.peerArena.size ≤ 1) && !Sample.allowsClientIp t.before 0)
    (by decide +kernel)
  simp only [Bool.and_eq_true, decide_eq_true_eq, List.all_eq_true, Bool.not_eq_true'] at h
  obtain ⟨⟨⟨hfirst, hsecond⟩, hallows⟩, hbefore⟩ := h
  have hallows := (Sample.allowsClientIp_iff d 1).mp hallows
  refine ⟨ts, d, hrun, hfirst, hsecond, hallows, ?_⟩
  refine ((find_iff_allows_of_run hrun (.v4 Sample.clientIp)).2 ?_ 1 ⟨_, hsecond⟩).mp hallows
  intro t ht key endpoint ips keepalive presharedKey env _ _ id _ hallowed
  obtain ⟨hsize, hnot⟩ := hbefore t ht
  have hid : id = 0 := by
    obtain ⟨p, hget, _⟩ := hallowed
    exact Nat.lt_one_iff.mp (lt_of_lt_of_le (Arena.lt_size_of_get hget) hsize)
  rw [hid, ← Sample.allowsClientIp_iff, hnot] at hallowed
  simp at hallowed

/--
The address of the second client is in the network of the first one: packets to it go to the second
client, and packets from it may come from both.
-/
theorem exists_allows_of_find_ne
    : ∃ ts d, (machine Sample.primitives).Run Sample.server ts d
        ∧
      d.peers.lookup (Sample.key 2) = some 0 ∧ d.peers.lookup (Sample.key 3) = some 1
        ∧
      d.Allows 0 (.v4 Sample.clientIp) ∧ d.peersByIp.find (.v4 Sample.clientIp) = some 1 := by
  obtain ⟨ts, d, hrun, h⟩ := Machine.Run.exists_of_exec (machine Sample.primitives) Sample.server
    (Sample.addPeers (.new 10 0 0 0))
    (fun _ d => decide (d.peers.lookup (Sample.key 2) = some 0)
      && decide (d.peers.lookup (Sample.key 3) = some 1)
      && Sample.allowsClientIp d 0
      && decide (d.peersByIp.find (.v4 Sample.clientIp) = some 1))
    (by decide +kernel)
  simp only [Bool.and_eq_true, decide_eq_true_eq, Sample.allowsClientIp_iff, and_assoc] at h
  exact ⟨ts, d, hrun, h⟩

end Device
