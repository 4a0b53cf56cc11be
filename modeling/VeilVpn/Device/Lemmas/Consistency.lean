import VeilVpn.Device.Lemmas.Index
import VeilVpn.Device.Lemmas.Revocation
import VeilVpn.Device.Lemmas.Routing

namespace Device

def Indexes (d : Device) : Prop :=
  ∀ id idx ips, d.Held id → d.linkOf id = some (idx, ips) → d.peersByIdx.lookup idx = some id

section Step

variable {C : Primitives} {d d' : Device} {e : Event} {outputs : List Output} {seed mask : RandomIndex}
  {key : FixedBytes 32} {id : PeerId} {idx : UInt32} {ips : List AllowedIP}

theorem Removes.of_held (h : Removes d d' key id idx) {j : PeerId} (hj : d'.Held j) : d.Held j := by
  obtain ⟨key', hkey'⟩ := hj
  rw [h.peers, HashMap.lookup_erase] at hkey'
  exact ⟨key', (Option.ite_none_left_eq_some.mp hkey').2⟩

theorem Indexes.inserts (hd : Indexes d) (hlinked : Linked d) (hnumbered : Numbered seed mask d')
    (h : Inserts d d' key idx ips)
    : Indexes d' := by
  intro j idx' ips' hj hlink
  have hnew : d'.linkOf d.peerArena.size = some (idx, .ofList ips ()) := by
    rw [h.link, if_pos rfl]
  rw [h.byIdx, HashMap.lookup_insert]
  rcases h.of_held hj with rfl | hj
  . rw [hnew] at hlink
    cases hlink
    rw [if_pos rfl]
  . have hne : j ≠ d.peerArena.size := hlinked.ne_size hj
    -- The new peer did not take the index of another one
    rw [if_neg]
    . rw [h.link, if_neg hne] at hlink
      exact hd j idx' ips' hj hlink
    . rintro rfl
      exact hne (hnumbered.injective hlink hnew)

theorem Indexes.removes (hd : Indexes d) (hlinked : Linked d) (hnumbered : Numbered seed mask d)
    (h : Removes d d' key id idx)
    : Indexes d' := by
  intro j idx' ips' hj hlink
  obtain ⟨ips, hold⟩ := h.link
  rw [h.sameLink] at hlink
  rw [h.byIdx, HashMap.lookup_erase, if_neg]
  . exact hd j idx' ips' (h.of_held hj) hlink
  . rintro rfl
    have hid : j = id := hnumbered.injective hlink hold
    rw [hid] at hj
    exact h.not_held hlinked hj

theorem Indexes.step (hd : Indexes d) (hlinked : Linked d) (hnumbered : Numbered seed mask d)
    (h : (machine C).step d e = some (d', outputs))
    : Indexes d' := by
  cases tableStep h with
  | same h =>
    intro id idx ips hheld hlink
    rw [h.link] at hlink
    rw [h.byIdx]
    unfold Held at hheld
    rw [h.peers] at hheld
    exact hd id idx ips hheld hlink
  | insert _ _ _ _ _ _ _ _ hinserts => exact hd.inserts hlinked (hnumbered.step h) hinserts
  | remove _ _ _ _ _ _ _ _ _ hremoves => exact hd.removes hlinked hnumbered hremoves
  | clear _ h =>
    subst h
    rintro id idx ips ⟨key, hkey⟩
    simp [Device.clearPeers] at hkey

end Step

section Run

variable {C : Primitives} {d : Device} {ts : List (Transition Device Event Output)}
  {seed mask : RandomIndex} {config : DeviceConfig} {paymentConfig : Payment.PaymentConfig}

theorem indexes_of_run
    (hrun : (machine C).Run (new (.default seed mask) config paymentConfig) ts d)
    : Linked d ∧ Numbered seed mask d ∧ Indexes d := by
  refine hrun.invariant (fun d => Linked d ∧ Numbered seed mask d ∧ Indexes d)
    ⟨linked_new _ _ _, numbered_new _ _ _ _, ?_⟩ ?_
  . rintro id idx ips ⟨key, hkey⟩
    simp [new] at hkey
  . rintro d e d' outputs ⟨hlinked, hnumbered, hindexes⟩ h
    exact ⟨hlinked.step h, hnumbered.step h, hindexes.step hlinked hnumbered h⟩

theorem not_held_of_run {us vs : List (Transition Device Event Output)}
    {r : Transition Device Event Output} {nextIndex : IndexLfsr} {key : FixedBytes 32} {id : PeerId}
    (hrun : (machine C).Run (new nextIndex config paymentConfig) (us ++ r :: vs) d)
    (hkey : r.before.peers.lookup key = some id) (hremoves : RemovesPeer r key)
    : ¬d.Held id := by
  obtain ⟨hus, hstep, hvs⟩ := hrun.of_append_cons
  have hafter := not_held_of_removesPeer (linked_of_run hus) hstep hkey hremoves
  exact (hvs.invariant (fun d => (d.linkOf id).isSome ∧ ¬d.Held id) hafter
    fun _ _ _ _ hd h => not_held_of_step h hd.1 hd.2).2

/--
The table by index has each peer of the device under its index and nothing else, the one by network
leads to peers of the device that let packets from there in, and nothing is left of a removed peer.
-/
theorem tables_consistent
    (hrun : (machine C).Run (new (.default seed mask) config paymentConfig) ts d)
    : (∀ idx id,
        d.peersByIdx.lookup idx = some id
          ↔
        d.Held id ∧ ∃ p, d.peerArena.get id = some p ∧ p.index = idx)
        ∧
      (∀ entry ∈ d.peersByIp.ips, d.Held entry.2)
        ∧
      (∀ us r vs, ts = us ++ r :: vs →
        ∀ key id, r.before.peers.lookup key = some id → RemovesPeer r key →
          (∀ key', d.peers.lookup key' ≠ some id)
            ∧
          (∀ idx, d.peersByIdx.lookup idx ≠ some id)
            ∧
          ∀ entry ∈ d.peersByIp.ips, entry.2 ≠ id)
        ∧
      ∀ ip id, d.peersByIp.find ip = some id →
        ∃ p, d.peerArena.get id = some p ∧ p.isAllowedIp ip = true := by
  obtain ⟨hlinked, _, hindexes⟩ := indexes_of_run hrun
  refine ⟨?_, fun entry hentry => (hlinked.byIp entry hentry).1, ?_, ?_⟩
  . intro idx id
    constructor
    . intro hlookup
      obtain ⟨hheld, ips, hlink⟩ := hlinked.byIdx idx id hlookup
      obtain ⟨p, hget, heq⟩ := Option.map_eq_some_iff.mp hlink
      exact ⟨hheld, p, hget, congrArg Prod.fst heq⟩
    . rintro ⟨hheld, p, hget, rfl⟩
      exact hindexes id p.index p.allowedIps hheld (linkOf_of_get hget)
  . rintro us r vs rfl key id hkey hremoves
    have hgone := not_held_of_run hrun hkey hremoves
    refine ⟨fun key' hkey' => hgone ⟨key', hkey'⟩, ?_, ?_⟩
    . intro idx hlookup
      exact hgone (hlinked.byIdx idx id hlookup).1
    . rintro entry hentry rfl
      exact hgone (hlinked.byIp entry hentry).1
  . intro ip id hfind
    obtain ⟨net, hmem, hcontains⟩ := AllowedIps.exists_of_find hfind
    exact (hlinked.allows_of_mem hmem hcontains).2

end Run

theorem tables_consistent_remove
    : ∃ ts d, (machine Sample.primitives).Run Sample.server ts d
        ∧
      (∃ us r vs, ts = us ++ r :: vs ∧ r.before.peers.lookup (Sample.key 2) = some 0
        ∧ RemovesPeer r (Sample.key 2))
        ∧
      (∀ idx, d.peersByIdx.lookup idx ≠ some 0)
        ∧
      d.peersByIp.find (.v4 Sample.clientIp) = some 1 ∧ d.Held 1 := by
  obtain ⟨us, d, hus, h⟩ := Machine.Run.exists_of_exec (machine Sample.primitives) Sample.server
    (Sample.addPeers Sample.clientIp)
    (fun _ d => decide (d.peers.lookup (Sample.key 2) = some 0)
      && ((machine Sample.primitives).step d Sample.remove).any fun (r : Device × List Output) =>
        decide (r.1.peersByIp.find (.v4 Sample.clientIp) = some 1))
    (by decide +kernel)
  simp only [Bool.and_eq_true, Option.any_eq_true, decide_eq_true_eq] at h
  obtain ⟨hkey, ⟨d', outputs⟩, hstep, hfind⟩ := h
  let r : Transition Device Event Output := ⟨d, Sample.remove, outputs, d'⟩
  have hremoves : RemovesPeer r (Sample.key 2) := .inr ⟨_, _, _, _, _, rfl⟩
  have hrun : (machine Sample.primitives).Run
      (new (.default ⟨1, by decide⟩ ⟨1, by decide⟩) { useConnectedSocket := false } Sample.serverConfig)
      (us ++ [r]) d' := hus.snoc hstep
  obtain ⟨_, hbyIp, hgone, _⟩ := tables_consistent hrun
  obtain ⟨net, hmem, _⟩ := AllowedIps.exists_of_find hfind
  exact ⟨us ++ [r], d', hrun, ⟨us, r, [], rfl, hkey, hremoves⟩,
    (hgone us r [] rfl _ 0 hkey hremoves).2.1, hfind, hbyIp _ hmem⟩

end Device
