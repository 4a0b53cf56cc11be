import VeilVpn.Device.Lemmas.Metering
import VeilVpn.Device.Lemmas.Tables

namespace Device

def OpenFor (d : Device) (id : PeerId) : Prop :=
  ∃ cid c, d.connArena.get cid = some c ∧ c.isOpen = true ∧ c.peer = id

def Attached (d : Device) : Prop :=
  ∀ id, d.OpenFor id → d.Held id

/--
A packet of the peer is written to the TUN interface, or one from there is encapsulated for it.
-/
def Effect.isTun : Effect → Bool
  | .writeTun _ => true
  | .encapsulateTun _ => true
  | _ => false

theorem not_isTun_of_isSend {f : Effect} (h : f.isSend) : f.isTun = false := by
  cases f <;> simp [Effect.isSend, Effect.isTun] at h ⊢

section Sockets

variable {C : Primitives} {d d' : Device} {id j : PeerId} {e : Event} {outputs : List Output}

theorem openFor_of_shutdown {conn : Option ConnId} (h : (d.shutdown conn).OpenFor id)
    : ∃ cid c, d.connArena.get cid = some c ∧ c.isOpen = true ∧ c.peer = id ∧ conn ≠ some cid := by
  obtain ⟨cid, c, hget, hopen, hpeer⟩ := h
  unfold shutdown at hget
  split at hget
  . exact ⟨cid, c, hget, hopen, hpeer, by simp⟩
  . next cid' =>
    split at hget
    . next hnone =>
      refine ⟨cid, c, hget, hopen, hpeer, ?_⟩
      rintro ⟨⟩
      simp [hnone] at hget
    . next c' hget' =>
      rw [Arena.get_set_of_get hget'] at hget
      split at hget
      . cases hget
        simp at hopen
      . next hne =>
        refine ⟨cid, c, hget, hopen, hpeer, ?_⟩
        rintro ⟨⟩
        exact hne rfl

theorem OpenFor.of_shutdown {conn : Option ConnId} (h : (d.shutdown conn).OpenFor id)
    : d.OpenFor id := by
  obtain ⟨cid, c, hget, hopen, hpeer, _⟩ := openFor_of_shutdown h
  exact ⟨cid, c, hget, hopen, hpeer⟩

theorem OpenFor.of_shutdownEndpoint (h : (d.shutdownEndpoint j).OpenFor id) : d.OpenFor id := by
  unfold shutdownEndpoint at h
  split at h
  . exact h
  . exact h.of_shutdown

theorem OpenFor.of_setEndpoint {addr : SocketAddr} (h : (d.setEndpoint j addr).OpenFor id)
    : d.OpenFor id := by
  unfold setEndpoint at h
  split at h
  . exact h
  . exact h.of_shutdown

theorem OpenFor.of_connectEndpoint {peerAddr : IpAddr} {env : Env}
    (h : (d.connectEndpoint j peerAddr env).OpenFor id)
    : id = j ∨ d.OpenFor id := by
  unfold connectEndpoint at h
  split at h
  . exact .inr h
  . split at h
    . obtain ⟨cid, c, hget, hopen, hpeer⟩ := h
      dsimp only at hget
      rw [Arena.get_alloc] at hget
      split at hget
      . cases hget
        exact .inl hpeer.symm
      . exact .inr ⟨cid, c, hget, hopen, hpeer⟩
    . exact .inr h

theorem OpenFor.of_touches {Q : PeerId → Prop} (h : Touches Q d d') (hopen : d'.OpenFor id)
    : Q id ∨ d.OpenFor id := by
  induction h with
  | refl => exact .inr hopen
  | setLimiter _ _ _ ih => exact ih hopen
  | setPeer _ _ _ ih => exact ih hopen
  | shutdownEndpoint _ _ ih => exact ih hopen.of_shutdownEndpoint
  | setEndpoint _ _ _ ih => exact ih hopen.of_setEndpoint
  | connectEndpoint _ hid _ _ ih =>
    rcases hopen.of_connectEndpoint with rfl | hopen
    . exact .inl hid
    . exact ih hopen
  | listen _ _ _ _ ih => exact ih hopen

theorem not_openFor_removePeer {key : FixedBytes 32} {p : Peer} (hd : ConnectedSockets d)
    (hkey : d.peers.lookup key = some id) (hget : d.peerArena.get id = some p)
    : ¬(d.removePeer key).OpenFor id := by
  intro h
  unfold removePeer at h
  rw [hkey] at h
  dsimp only at h
  rw [hget] at h
  have h : ((d.setPeer id p.shutdownEndpoint.1).shutdown p.endpoint.conn).OpenFor id := by
    rw [shutdownEndpoint, hget] at h
    exact h
  obtain ⟨cid, c, hc, hopen, hpeer, hne⟩ := openFor_of_shutdown h
  have hendpoint := hd cid c hc hopen
  rw [hpeer, endpointOf, hget, Option.map_some, Option.some.injEq] at hendpoint
  rw [hendpoint] at hne
  exact hne rfl

theorem OpenFor.of_removePeer {key : FixedBytes 32} (h : (d.removePeer key).OpenFor id)
    : d.OpenFor id := by
  unfold removePeer at h
  split at h
  . exact h
  . split at h
    . exact h
    . have h : (d.shutdownEndpoint _).OpenFor id := h
      exact h.of_shutdownEndpoint

end Sockets

section Step

variable {C : Primitives} {d d' : Device} {id : PeerId} {e : Event} {outputs : List Output}

theorem Linked.held_of_findPeer (hd : Linked d) {privateKey publicKey : FixedBytes 32}
    {packet : Noise.Packet} (h : d.findPeer C privateKey publicKey packet = some id)
    : d.Held id := by
  unfold findPeer at h
  split at h
  . split at h
    . simp at h
    . exact ⟨_, h⟩
  . exact (hd.byIdx _ _ h).1
  . exact (hd.byIdx _ _ h).1
  . exact (hd.byIdx _ _ h).1

theorem Attached.held_of_incoming (hd : Attached d) (hlinked : Linked d) {i : Inbound}
    (h : incoming C d e = some i)
    : d.Held i.id := by
  cases e with
  | udp addr datagram env =>
    simp only [incoming] at h
    split at h
    . next hreceive =>
      cases h
      obtain ⟨_, _, _, _, _, hfind, _⟩ := receiveUdp_eq_inr hreceive
      exact hlinked.held_of_findPeer hfind
    . simp at h
  | conn cid datagram env =>
    simp only [incoming] at h
    split at h
    . next c hc =>
      obtain ⟨hopen, hreceive⟩ := Option.ite_none_right_eq_some.mp h
      obtain ⟨_, _, _, _, hid, _⟩ := receiveConn_eq_some hreceive
      rw [hid]
      exact hd c.peer ⟨cid, c, hc, hopen, rfl⟩
    . simp at h
  | _ => simp [incoming] at h

theorem Attached.held_of_isTun (hd : Attached d) (hlinked : Linked d)
    (h : (machine C).step d e = some (d', outputs)) {f : Effect}
    (hf : ⟨some id, f⟩ ∈ outputs) (htun : f.isTun = true)
    : d.Held id := by
  cases step_cases h with
  | quiet _ _ _ _ houtputs =>
    rcases houtputs _ hf with hsend | ⟨hdeposit, _⟩
    . simp [not_isTun_of_isSend hsend] at htun
    . cases hdeposit
  | inbound i _ _ _ _ _ _ _ _ _ _ hincoming _ _ _ _ _ _ _ _ houtputs =>
    rw [houtputs] at hf
    obtain ⟨_, _, heq⟩ := List.mem_map.mp hf
    cases heq
    exact hd.held_of_incoming hlinked hincoming
  | outbound j _ _ src _ _ _ hfind _ _ _ _ houtputs =>
    rw [houtputs] at hf
    obtain ⟨_, _, heq⟩ := List.mem_map.mp hf
    cases heq
    obtain ⟨dst, _, hfind⟩ := Option.bind_eq_some_iff.mp hfind
    obtain ⟨net, hmem, _⟩ := AllowedIps.exists_of_find hfind
    exact (hlinked.byIp _ hmem).1

theorem connArena_updatePeer {key : FixedBytes 32} {endpoint : Option SocketAddr}
    {ips : List AllowedIP} {keepalive : Option UInt16} {presharedKey : Option (FixedBytes 32)}
    {env : Env}
    (h : d.updatePeer C key false endpoint ips keepalive presharedKey env = some d')
    : d'.connArena = d.connArena := by
  cases updatePeer_cases h with
  | remove hremove _ => simp at hremove
  | add _ _ _ _ _ _ _ _ _ _ _ _ hdevice =>
    rw [hdevice]
    rfl

theorem Attached.removePeer {key : FixedBytes 32} (hd : Attached d) (hsockets : ConnectedSockets d)
    : Attached (d.removePeer key) := by
  intro j hopen
  have hheld := hd j hopen.of_removePeer
  cases hkey : d.peers.lookup key with
  | none =>
    rw [Device.removePeer, hkey]
    exact hheld
  | some id =>
    cases hget : d.peerArena.get id with
    | none =>
      rw [Device.removePeer, hkey]
      dsimp only
      rw [hget]
      exact hheld
    | some p =>
      refine (removePeer_removes hkey hget).held hheld ?_
      rintro rfl
      exact not_openFor_removePeer hsockets hkey hget hopen

/--
The condition under which removing all peers leaves no socket behind.
-/
def ClearsUnconnected (t : Transition Device Event Output) : Prop :=
  t.event = .clearPeers → ∀ id, ¬t.before.OpenFor id

theorem Attached.step (hd : Attached d) (hlinked : Linked d) (hsockets : ConnectedSockets d)
    (hclear : ClearsUnconnected ⟨d, e, outputs, d'⟩)
    (h : (machine C).step d e = some (d', outputs))
    : Attached d' := by
  cases he : e.isConfig with
  | false =>
    have htouches : Touches d.Held d d' :=
      touches_of_step h he fun i hi => hd.held_of_incoming hlinked hi
    intro j hopen
    unfold Held
    rw [htouches.sameLinks.peers]
    exact (hopen.of_touches htouches).elim id (hd j)
  | true =>
    cases configCase_of_step h he with
    | updatePeer _ remove _ _ _ _ _ _ hupdate _ =>
      cases remove with
      | false =>
        obtain ⟨idx, hinserts⟩ := updatePeer_inserts hupdate
        intro j hopen
        unfold OpenFor at hopen
        rw [connArena_updatePeer hupdate] at hopen
        exact hinserts.held (hd j hopen)
      | true =>
        rw [Device.updatePeer, if_pos rfl, Option.some.injEq] at hupdate
        rw [← hupdate]
        exact hd.removePeer hsockets
    | clearPeers hevent hdevice _ =>
      rw [hdevice]
      intro j hopen
      exact absurd hopen (hclear hevent j)
    | setKey privateKey env _ hdevice _ =>
      rw [hdevice]
      intro j hopen
      unfold Held
      rw [(sameLinks_setKey C d privateKey env).peers]
      unfold OpenFor at hopen
      rw [(sameEndpoints_setKey C d privateKey env).conn] at hopen
      exact hd j hopen
    | openListenSocket port assigned _ hdevice _ =>
      rw [hdevice]
      have htouches := touches_openListenSocket (Q := d.Held) d port assigned
      intro j hopen
      unfold Held
      rw [htouches.sameLinks.peers]
      exact (hopen.of_touches htouches).elim id (hd j)
    | setFwmark _ _ hdevice _ =>
      rw [hdevice]
      exact hd

theorem not_held_of_step (h : (machine C).step d e = some (d', outputs)) (hlink : (d.linkOf id).isSome)
    (hheld : ¬d.Held id)
    : (d'.linkOf id).isSome ∧ ¬d'.Held id := by
  cases tableStep h with
  | same h =>
    refine ⟨by rw [h.link]; exact hlink, ?_⟩
    unfold Held
    rw [h.peers]
    exact hheld
  | insert _ _ _ _ _ _ _ _ h =>
    have hne : id ≠ d.peerArena.size := by
      rintro rfl
      simp [linkOf_size] at hlink
    refine ⟨by rw [h.link, if_neg hne]; exact hlink, ?_⟩
    intro hheld'
    exact (h.of_held hheld').elim hne hheld
  | remove _ _ _ _ _ _ _ _ _ h =>
    refine ⟨by rw [h.sameLink]; exact hlink, ?_⟩
    rintro ⟨key, hkey⟩
    rw [h.peers, HashMap.lookup_erase] at hkey
    exact hheld ⟨key, (Option.ite_none_left_eq_some.mp hkey).2⟩
  | clear _ h =>
    subst h
    exact ⟨hlink, by rintro ⟨key, hkey⟩; simp [Device.clearPeers] at hkey⟩

end Step

section Run

variable {C : Primitives} {nextIndex : IndexLfsr} {config : DeviceConfig}
  {paymentConfig : Payment.PaymentConfig} {ts : List (Transition Device Event Output)} {d : Device}

def RemovesPeer (t : Transition Device Event Output) (key : FixedBytes 32) : Prop :=
  t.event = .clearPeers
    ∨
  ∃ endpoint ips keepalive presharedKey env,
    t.event = .updatePeer key true endpoint ips keepalive presharedKey env

theorem not_held_of_removesPeer {t : Transition Device Event Output} (hlinked : Linked t.before)
    (h : (machine C).step t.before t.event = some (t.after, t.outputs)) {key : FixedBytes 32}
    {id : PeerId} (hkey : t.before.peers.lookup key = some id) (hremoves : RemovesPeer t key)
    : (t.after.linkOf id).isSome ∧ ¬t.after.Held id := by
  have hlink := hlinked.peer key id hkey
  rcases hremoves with hevent | ⟨_, _, _, _, _, hevent⟩
  . rw [hevent] at h
    simp only [machine, step, Option.some.injEq, Prod.mk.injEq] at h
    rw [← h.1]
    exact ⟨hlink, by rintro ⟨key, hkey⟩; simp [clearPeers] at hkey⟩
  . rw [hevent] at h
    simp only [machine, step, updatePeer, if_true, Option.some.injEq, Prod.mk.injEq] at h
    obtain ⟨p, hget⟩ := Option.isSome_iff_exists.mp (Option.isSome_map.symm.trans hlink)
    have hremoves := removePeer_removes hkey hget
    rw [h.1] at hremoves
    exact ⟨by rw [hremoves.sameLink]; exact hlink, hremoves.not_held hlinked⟩

theorem attached_of_run (hrun : (machine C).Run (new nextIndex config paymentConfig) ts d)
    (hclear : ∀ t ∈ ts, ClearsUnconnected t)
    : Linked d ∧ ConnectedSockets d ∧ Attached d := by
  refine hrun.invariant_of_mem (fun d => Linked d ∧ ConnectedSockets d ∧ Attached d)
    ⟨linked_new _ _ _, connectedSockets_new _ _ _, ?_⟩ ?_
  . rintro id ⟨cid, c, hget, _⟩
    simp [new, Arena.get_empty] at hget
  . rintro t ht ⟨hlinked, hsockets, hattached⟩ h
    exact ⟨hlinked.step h, hsockets.step h, hattached.step hlinked hsockets (hclear t ht) h⟩

/--
After a peer was removed, none of its packets is written to the TUN interface and no packet from
there is encapsulated for it, provided that the peers are never removed all at once while a socket is
connected.
-/
theorem revoked_of_run (hrun : (machine C).Run (new nextIndex config paymentConfig) ts d)
    (hclear : ∀ t ∈ ts, ClearsUnconnected t)
    : ∀ us r vs, ts = us ++ r :: vs →
        ∀ key id, r.before.peers.lookup key = some id → RemovesPeer r key →
          ∀ t ∈ vs, ∀ f, ⟨some id, f⟩ ∈ t.outputs → f.isTun = false := by
  intro us r vs hts key id hkey hremoves t ht f hf
  have hstate : ∀ v ∈ ts, Linked v.before ∧ Attached v.before := by
    intro v hv
    obtain ⟨⟨ws, hsub, hws⟩, _⟩ := hrun.exists_run_before v hv
    obtain ⟨hlinked, _, hattached⟩ := attached_of_run hws fun w hw => hclear w (hsub.subset hw)
    exact ⟨hlinked, hattached⟩
  have hmem : t ∈ ts := by
    rw [hts]
    exact List.mem_append_right _ (List.mem_cons_of_mem _ ht)
  have hgone : ¬t.before.Held id := by
    rw [hts] at hrun
    obtain ⟨hus, hstep, hvs⟩ := hrun.of_append_cons
    have hafter := not_held_of_removesPeer (linked_of_run hus) hstep hkey hremoves
    exact (hvs.invariant_before (fun d => (d.linkOf id).isSome ∧ ¬d.Held id) hafter
      (fun _ _ _ _ hd h => not_held_of_step h hd.1 hd.2) ht).2
  rw [← Bool.not_eq_true]
  intro htun
  exact hgone ((hstate t hmem).2.held_of_isTun (hstate t hmem).1 (hrun.step_of_mem hmem) hf htun)

end Run

namespace Sample

def connecting : Env :=
  { env with connects := true }

def connectingServer : Device :=
  new { initial := 1, lfsr := 1, mask := 1 } { useConnectedSocket := true } serverConfig

def connect : List Event := [
  .setKey (key 1) connecting,
  .openListenSocket 7000 (some 7000),
  .updatePeer (key 2) false none [⟨.v4 clientIp, 32, IpAddr.le_width_v4 clientIp⟩] none none connecting,
  .udp clientAddr (handshakeInit (key 2)) connecting
]

def remove : Event :=
  .updatePeer (key 2) true none [] none none connecting

def sendConnected : Event :=
  .conn 0 (dataDatagram 0x101 0 dataPacket length_dataPacket_le) connecting

def writesTun (o : Output) : Bool :=
  match o with
  | ⟨some 0, .writeTun _⟩ => true
  | _ => false

def isClear (e : Event) : Bool :=
  match e with
  | .clearPeers => true
  | _ => false

def afterwards (e e' : Event) (d : Device) : Option (List Output) :=
  match (machine primitives).step d e with
  | none => none
  | some (d, _) => ((machine primitives).step d e').map Prod.snd

theorem exists_run_afterwards (e e' : Event) (Q : List Output → Bool)
    (h : ((machine primitives).exec connectingServer connect).any (fun r =>
      decide (r.2.peers.lookup (key 2) = some 0)
        && r.1.all (fun t => !isClear t.event)
        && (afterwards e e' r.2).any Q) = true)
    : ∃ us r t d,
        (machine primitives).Run connectingServer (us ++ r :: [t]) d
          ∧
        (∀ u ∈ us, isClear u.event = false)
          ∧
        r.before.peers.lookup (key 2) = some 0 ∧ r.event = e
          ∧
        t.event = e' ∧ Q t.outputs = true := by
  obtain ⟨us, d, hus, h⟩ := Machine.Run.exists_of_exec (machine primitives) connectingServer connect
    (fun ts d => decide (d.peers.lookup (key 2) = some 0) && ts.all (fun t => !isClear t.event)
      && (afterwards e e' d).any Q) h
  simp only [Bool.and_eq_true, decide_eq_true_eq, List.all_eq_true, Bool.not_eq_true'] at h
  obtain ⟨⟨hkey, hclear⟩, hafter⟩ := h
  unfold afterwards at hafter
  split at hafter
  . simp at hafter
  . next d₁ os hfirst =>
    cases hsecond : (machine primitives).step d₁ e' with
    | none => simp [hsecond] at hafter
    | some result =>
      obtain ⟨d₂, os'⟩ := result
      simp only [hsecond, Option.map_some, Option.any_some] at hafter
      refine ⟨us, ⟨d, e, os, d₁⟩, ⟨d₁, e', os', d₂⟩, d₂, ?_, hclear, hkey, rfl, rfl, hafter⟩
      exact hus.append ((Machine.Run.single hfirst).append (.single hsecond))

end Sample

theorem revoked_of_run_removed
    : ∃ us r t d,
        (machine Sample.primitives).Run Sample.connectingServer (us ++ r :: [t]) d
          ∧
        r.before.peers.lookup (Sample.key 2) = some 0
          ∧
        RemovesPeer r (Sample.key 2)
          ∧
        ∀ f, ⟨some 0, f⟩ ∈ t.outputs → f.isTun = false := by
  obtain ⟨us, r, t, d, hrun, hclear, hkey, hr, ht, _⟩ := Sample.exists_run_afterwards Sample.remove
    (Sample.sendPacket 0 Sample.dataPacket Sample.length_dataPacket_le) (fun _ => true) (by decide +kernel)
  have hremoves : RemovesPeer r (Sample.key 2) := .inr ⟨_, _, _, _, _, hr⟩
  refine ⟨us, r, t, d, hrun, hkey, hremoves, ?_⟩
  refine revoked_of_run hrun ?_ us r [t] rfl (Sample.key 2) 0 hkey hremoves t List.mem_cons_self
  intro u hu hevent
  rcases List.mem_append.mp hu with hu | hu
  . have hnot := hclear u hu
    simp [hevent, Sample.isClear] at hnot
  . rcases List.mem_cons.mp hu with rfl | hu
    . simp [hr, Sample.remove] at hevent
    . rw [List.mem_singleton.mp hu, ht] at hevent
      simp [Sample.sendPacket] at hevent

/--
A client that was connected still sends packets after all peers were removed.
-/
theorem exists_unrevoked
    : ∃ us r t d packet,
        (machine Sample.primitives).Run Sample.connectingServer (us ++ r :: [t]) d
          ∧
        r.before.peers.lookup (Sample.key 2) = some 0
          ∧
        RemovesPeer r (Sample.key 2)
          ∧
        ⟨some 0, .writeTun packet⟩ ∈ t.outputs := by
  obtain ⟨us, r, t, d, hrun, _, hkey, hr, _, houtputs⟩ := Sample.exists_run_afterwards .clearPeers
    Sample.sendConnected
    (fun outputs => outputs.any Sample.writesTun) (by decide +kernel)
  obtain ⟨o, ho, hwrite⟩ := List.any_eq_true.mp houtputs
  unfold Sample.writesTun at hwrite
  split at hwrite
  . next packet => exact ⟨us, r, t, d, packet, hrun, hkey, .inl hr, ho⟩
  . simp at hwrite

end Device
