import VeilVpn.Noise.Lemmas.Index
import VeilVpn.Device.Lemmas.Register
import VeilVpn.Device.Lemmas.Roles
import VeilVpn.Device.Lemmas.Tables
import VeilVpn.Device.Lemmas.Tunnels

def Noise.Packet.receiverIdx : Noise.Packet → Option UInt32
  | .handshakeInit _ => none
  | .handshakeResponse p => some p.receiverIdx
  | .packetCookieReply p => some p.receiverIdx
  | .packetData p => some p.receiverIdx

namespace Device

section Peers

variable {C : Primitives} {d d' : Device} {e : Event} {outputs : List Output} {id : PeerId}

theorem linkOf_isSome_iff (d : Device) (id : PeerId)
    : (d.linkOf id).isSome ↔ id < d.peerArena.size := by
  simp [linkOf, Arena.get, Arena.size]

/--
The peers of the arena were numbered in order by the register, which has not come back to its start.
-/
structure Numbered (seed mask : RandomIndex) (d : Device) : Prop where
  register : d.nextIndex
    = ⟨seed.val, (RandomIndex.next^[d.peerArena.size] seed).val, mask.val⟩
  fresh : ∀ k, 0 < k → k ≤ d.peerArena.size → RandomIndex.next^[k] seed ≠ seed
  index : ∀ id idx ips, d.linkOf id = some (idx, ips) →
    idx = (RandomIndex.next^[id] seed).index mask

variable {seed mask : RandomIndex}

theorem numbered_new (seed mask : RandomIndex) (config : DeviceConfig)
    (paymentConfig : Payment.PaymentConfig)
    : Numbered seed mask (new (.default seed mask) config paymentConfig) where
  register := rfl
  fresh := by
    intro k hk hle
    simp only [new, Arena.empty, Arena.size, List.length_nil] at hle
    omega
  index := by simp [new, linkOf, Arena.get_empty]

theorem size_eq_of_linkOf_eq (h : ∀ id, d'.linkOf id = d.linkOf id)
    : d'.peerArena.size = d.peerArena.size := by
  have hlt : ∀ id, id < d'.peerArena.size ↔ id < d.peerArena.size := by
    intro id
    rw [← linkOf_isSome_iff, ← linkOf_isSome_iff, h]
  have hle := hlt d.peerArena.size
  have hge := hlt d'.peerArena.size
  omega

theorem Numbered.of_linkOf_eq (hd : Numbered seed mask d) (hnext : d'.nextIndex = d.nextIndex)
    (hlink : ∀ id, d'.linkOf id = d.linkOf id)
    : Numbered seed mask d' where
  register := by rw [hnext, size_eq_of_linkOf_eq hlink, hd.register]
  fresh := by
    rw [size_eq_of_linkOf_eq hlink]
    exact hd.fresh
  index := by
    intro id idx ips h
    rw [hlink] at h
    exact hd.index id idx ips h

theorem Inserts.size {key : FixedBytes 32} {idx : UInt32} {ips : List AllowedIP}
    (h : Inserts d d' key idx ips)
    : d'.peerArena.size = d.peerArena.size + 1 := by
  have hlt : ∀ id, id < d'.peerArena.size ↔ id = d.peerArena.size ∨ id < d.peerArena.size := by
    intro id
    rw [← linkOf_isSome_iff, ← linkOf_isSome_iff, h.link]
    split <;> simp [*]
  have hle := hlt (d.peerArena.size + 1)
  have hge := hlt d.peerArena.size
  have hsize := hlt d'.peerArena.size
  omega

theorem Numbered.inserts (hd : Numbered seed mask d) {key : FixedBytes 32} {idx : UInt32}
    {ips : List AllowedIP} (h : Inserts d d' key idx ips)
    : Numbered seed mask d' := by
  have hnext := h.nextIndex
  rw [hd.register] at hnext
  obtain ⟨hregister, hindex, hfresh⟩ := IndexLfsr.next_eq_some hnext
  have hsucc : (RandomIndex.next^[d'.peerArena.size] seed).val
      = lfsrStep (RandomIndex.next^[d.peerArena.size] seed).val := by
    rw [h.size, Function.iterate_succ_apply']
    rfl
  constructor
  . rw [hregister, hsucc]
  . intro k hk hle
    rw [h.size] at hle
    rcases Nat.lt_or_ge k (d.peerArena.size + 1) with hlt | hge
    . exact hd.fresh k hk (by omega)
    . have hk : k = d'.peerArena.size := by
        rw [h.size]
        omega
      intro heq
      rw [hk, Subtype.ext_iff, hsucc] at heq
      exact hfresh heq
  . intro id idx' ips' hlink
    rw [h.link] at hlink
    split at hlink
    . next hid =>
      cases hlink
      rw [hindex, hid]
      rfl
    . exact hd.index id idx' ips' hlink

theorem Numbered.step (hd : Numbered seed mask d) (h : (machine C).step d e = some (d', outputs))
    : Numbered seed mask d' := by
  cases tableStep h with
  | same h => exact hd.of_linkOf_eq h.nextIndex h.link
  | insert _ _ _ _ _ _ _ _ h => exact hd.inserts h
  | remove _ _ _ _ _ _ _ _ _ h => exact hd.of_linkOf_eq h.nextIndex h.sameLink
  | clear _ h =>
    rw [h]
    exact hd.of_linkOf_eq rfl fun _ => rfl

theorem Numbered.injective (hd : Numbered seed mask d) {id id' : PeerId} {idx : UInt32}
    {ips ips' : AllowedIps Unit} (h : d.linkOf id = some (idx, ips))
    (h' : d.linkOf id' = some (idx, ips'))
    : id = id' := by
  have hlt := (linkOf_isSome_iff d id).mp (by rw [h]; rfl)
  have hlt' := (linkOf_isSome_iff d id').mp (by rw [h']; rfl)
  have heq : RandomIndex.next^[id] seed = RandomIndex.next^[id'] seed := by
    apply RandomIndex.index_injective mask
    dsimp only
    rw [← hd.index id idx ips h, ← hd.index id' idx ips' h']
  -- Otherwise the register would have come back to its start between the two
  have hwlog : ∀ {i j : Nat}, i ≤ j → j < d.peerArena.size →
      RandomIndex.next^[i] seed = RandomIndex.next^[j] seed → i = j := by
    intro i j hle hj heq
    by_contra hne
    have hsplit : RandomIndex.next^[(j - i) + i] seed = RandomIndex.next^[i] seed := by
      rw [Nat.sub_add_cancel hle, heq]
    exact hd.fresh (j - i) (by omega) (by omega)
      (Function.iterate_cancel_of_add RandomIndex.next_injective hsplit)
  rcases Nat.le_total id id' with hle | hle
  . exact hwlog hle hlt' heq
  . exact (hwlog hle hlt heq.symm).symm

theorem Numbered.size_lt (hd : Numbered seed mask d) : d.peerArena.size < 2 ^ 24 - 1 := by
  by_contra hge
  have hcycle : RandomIndex.next^[2 ^ 24 - 1] seed = seed :=
    (seed.iterate_next_eq_iff _).mpr (Nat.dvd_refl _)
  exact hd.fresh (2 ^ 24 - 1) (by decide) (by omega) hcycle

theorem Numbered.next_eq_none_iff (hd : Numbered seed mask d)
    : d.nextIndex.next = none ↔ d.peerArena.size = 2 ^ 24 - 2 := by
  have hlt := hd.size_lt
  have hnext := IndexLfsr.next_iterate seed mask.val d.peerArena.size
  rw [← hd.register] at hnext
  rw [← Option.map_eq_none_iff, hnext]
  split
  . next hdvd =>
    have hle := Nat.le_of_dvd (by omega) hdvd
    simp only [true_iff]
    omega
  . next hndvd =>
    have hne : d.peerArena.size + 1 ≠ 2 ^ 24 - 1 := by
      intro heq
      rw [heq] at hndvd
      exact hndvd (Nat.dvd_refl _)
    simp only [reduceCtorEq, false_iff]
    omega

end Peers

section Dispatch

variable {C : Primitives} {d d' : Device} {e : Event} {outputs : List Output}
  {ts : List (Transition Device Event Output)} {seed mask : RandomIndex} {config : DeviceConfig}
  {paymentConfig : Payment.PaymentConfig}

theorem linkOf_of_get {id : PeerId} {p : Peer} (h : d.peerArena.get id = some p)
    : d.linkOf id = some (p.index, p.allowedIps) := by
  rw [linkOf, h]
  rfl

theorem numbered_of_run
    (hrun : (machine C).Run (new (.default seed mask) config paymentConfig) ts d)
    : Numbered seed mask d :=
  hrun.invariant (Numbered seed mask) (numbered_new seed mask config paymentConfig)
    fun _ _ _ _ hd h => hd.step h

/--
A device numbers at most `2 ^ 24 - 2` peers over its life, the removed ones included, and there is an
index for another one until then.
-/
theorem size_le_of_run
    (hrun : (machine C).Run (new (.default seed mask) config paymentConfig) ts d)
    : d.peerArena.size ≤ 2 ^ 24 - 2
        ∧
      (d.nextIndex.next = none ↔ d.peerArena.size = 2 ^ 24 - 2) := by
  have hnumbered := numbered_of_run hrun
  exact ⟨Nat.le_of_lt_succ hnumbered.size_lt, hnumbered.next_eq_none_iff⟩

theorem Numbered.toNat_index_lt (hd : Numbered seed mask d) {id : PeerId} {p : Peer}
    (hget : d.peerArena.get id = some p)
    : p.index.toNat < 2 ^ 24 := by
  rw [hd.index id p.index p.allowedIps (linkOf_of_get hget)]
  exact RandomIndex.toNat_index_lt _ mask

theorem indexed_of_run
    (hrun : (machine C).Run (new (.default seed mask) config paymentConfig) ts d) {id : PeerId}
    {p : Peer} (hget : d.peerArena.get id = some p)
    : ∃ (p₀ : Peer) (vs : List (Transition Noise.Tunn Noise.Call Noise.TunnResult)),
        p₀.Fresh C
          ∧
        (Noise.Tunn.machine C.noise).Run p₀.tunnel vs p.tunnel
          ∧
        (∀ v ∈ vs, v.before.Indexed p.index ∧ v.after.Indexed p.index)
          ∧
        p.tunnel.Indexed p.index := by
  obtain ⟨p₀, hfresh, hindex, vs, hvs, _⟩ := tunnel_of_run hrun hget
  have hstart : p₀.tunnel.Indexed p.index := by
    obtain ⟨_, _, _, _, _, _, _, htunnel⟩ := hfresh
    rw [htunnel, hindex]
    apply Noise.Tunn.indexed_new
    rw [← hindex]
    exact (numbered_of_run hrun).toNat_index_lt hget
  have hstep : ∀ t c t' os, Noise.Tunn.Indexed p.index t →
      (Noise.Tunn.machine C.noise).step t c = some (t', os) → t'.Indexed p.index :=
    fun _ _ _ _ hi h => hi.step h
  refine ⟨p₀, vs, hfresh, hvs, ?_, hvs.invariant _ hstart hstep⟩
  intro v hv
  have hbefore := hvs.invariant_before _ hstart hstep hv
  exact ⟨hbefore, hbefore.step (hvs.step_of_mem hv)⟩

theorem exists_get_of_mem {start : Device} (hrun : (machine C).Run start ts d)
    {t : Transition Device Event Output} (ht : t ∈ ts) {id : PeerId} {p : Peer}
    (hget : t.after.peerArena.get id = some p)
    : ∃ p', d.peerArena.get id = some p' ∧ p'.index = p.index := by
  induction hrun with
  | nil => simp at ht
  | @snoc us d d' e os hrun hstep ih =>
    rcases List.mem_append.mp ht with ht | ht
    . obtain ⟨p', hp', hindex⟩ := ih ht
      have hserves := serves_of_step hstep id
      rw [hp'] at hserves
      generalize handed (effectsOf id os) = packets at hserves
      generalize ho : d'.peerArena.get id = o at hserves
      cases hserves with
      | takes htakes => exact ⟨_, rfl, htakes.index.trans hindex⟩
    . rw [List.mem_singleton] at ht
      subst ht
      exact ⟨p, hget, rfl⟩

theorem findPeer_of_receiverIdx {packet : Noise.Packet} {idx : UInt32}
    (h : packet.receiverIdx = some idx) (privateKey publicKey : FixedBytes 32)
    : d.findPeer C privateKey publicKey packet = d.peersByIdx.lookup (idx >>> 8) := by
  cases packet <;> cases h <;> rfl

/--
The indices of peers are distinct numbers of 24 bits. All that a tunnel hands out has the index of its
peer in the upper bits and tells the slot of a session, so that a message with such an index finds this
peer or, once it is removed, none.
-/
theorem index_dispatch
    (hrun : (machine C).Run (new (.default seed mask) config paymentConfig) ts d)
    : (∀ id p, d.peerArena.get id = some p →
        p.index.toNat < 2 ^ 24
          ∧
        ∀ id' p', d.peerArena.get id' = some p' → p'.index = p.index → id' = id)
        ∧
      (∀ id p, d.peerArena.get id = some p →
        ∃ (p₀ : Peer) (vs : List (Transition Noise.Tunn Noise.Call Noise.TunnResult)),
          p₀.Fresh C
            ∧
          (Noise.Tunn.machine C.noise).Run p₀.tunnel vs p.tunnel
            ∧
          (∀ v ∈ vs, v.before.Indexed p.index ∧ v.after.Indexed p.index)
            ∧
          p.tunnel.Indexed p.index)
        ∧
      ∀ t ∈ ts, ∀ id p idx, t.after.peerArena.get id = some p → p.tunnel.Holds idx →
        ∀ packet privateKey publicKey, packet.receiverIdx = some idx →
          d.findPeer C privateKey publicKey packet = none
            ∨
          d.findPeer C privateKey publicKey packet = some id := by
  have hnumbered := numbered_of_run hrun
  refine ⟨?_, fun id p hget => indexed_of_run hrun hget, ?_⟩
  . intro id p hget
    refine ⟨hnumbered.toNat_index_lt hget, ?_⟩
    intro id' p' hget' hindex
    have hlink' := linkOf_of_get hget'
    rw [hindex] at hlink'
    exact hnumbered.injective hlink' (linkOf_of_get hget)
  . intro t ht id p idx hget hholds packet privateKey publicKey hpacket
    obtain ⟨⟨us, _, hbefore⟩, hstep⟩ := hrun.exists_run_before t ht
    obtain ⟨_, _, _, _, _, hindexed⟩ := indexed_of_run (hbefore.snoc hstep) hget
    obtain ⟨p', hget', hindex⟩ := exists_get_of_mem hrun ht hget
    rw [findPeer_of_receiverIdx hpacket, hindexed.holds idx hholds]
    cases hlookup : d.peersByIdx.lookup p.index with
    | none => exact .inl rfl
    | some id' =>
      obtain ⟨_, ips, hlink⟩ := (linked_of_run hrun).byIdx _ _ hlookup
      have hlink' := linkOf_of_get hget'
      rw [hindex] at hlink'
      exact .inr (congrArg some (hnumbered.injective hlink hlink'))

end Dispatch

theorem index_dispatch_handshake
    : ∃ ts d, (machine Sample.primitives).Run Sample.server ts d
        ∧
      ∃ t ∈ ts, ∃ p s,
        t.after.peerArena.get 0 = some p
          ∧
        (p.tunnel.sessions 1 = some s ∧ s.receivingIndex = 0x101)
          ∧
        d.findPeer Sample.primitives (Sample.key 1) (Sample.key 1)
          (.packetData ⟨s.receivingIndex, 0, []⟩) = some 0 := by
  obtain ⟨ts, d, hrun, h⟩ := Machine.Run.exists_of_exec (machine Sample.primitives) Sample.server
    Sample.setup
    (fun ts d => (d.peersByIdx.lookup 1).isSome && ts.any fun t =>
      (t.after.peerArena.get 0).any fun p =>
        (p.tunnel.sessions 1).any fun s => s.receivingIndex = 0x101)
    (by decide +kernel)
  simp only [Bool.and_eq_true, List.any_eq_true, Option.any_eq_true, decide_eq_true_eq] at h
  obtain ⟨hfound, t, ht, p, hp, s, hs, hindex⟩ := h
  refine ⟨ts, d, hrun, t, ht, p, s, hp, ⟨hs, hindex⟩, ?_⟩
  have hrun : (machine Sample.primitives).Run
      (new (.default ⟨1, by decide⟩ ⟨1, by decide⟩) { useConnectedSocket := false } Sample.serverConfig)
      ts d := hrun
  rcases (index_dispatch hrun).2.2 t ht 0 p _ hp (.session hs) (.packetData ⟨s.receivingIndex, 0, []⟩)
    (Sample.key 1) (Sample.key 1) rfl with hnone | hsome
  . have hpacket : (Noise.Packet.packetData ⟨s.receivingIndex, 0, []⟩).receiverIdx = some 0x101 := by
      rw [← hindex]
      rfl
    have hone : (0x101 : UInt32) >>> 8 = 1 := by decide
    rw [findPeer_of_receiverIdx hpacket, hone] at hnone
    rw [hnone] at hfound
    simp at hfound
  . exact hsome

end Device
