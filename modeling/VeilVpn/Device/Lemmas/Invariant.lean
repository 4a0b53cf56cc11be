import VeilVpn.Device.Lemmas.Quota

namespace Device

def settings (d : Device)
    : Option (FixedBytes 32 × FixedBytes 32) × Option Payment.PaymentWallet
      × Payment.PaymentConfig × Bool :=
  (d.keyPair, d.paymentWallet, d.paymentConfig, d.settlementClient)

theorem settings_eq_of_static_eq {d d' : Device} (h : d'.static = d.static)
    : d'.settings = d.settings := by
  change d'.static.settings = d.static.settings
  rw [h]

theorem settings_shutdownEndpoint (d : Device) (id : PeerId)
    : (d.shutdownEndpoint id).settings = d.settings :=
  settings_eq_of_static_eq (sameCores_shutdownEndpoint d id).static

theorem settings_removePeer (d : Device) (pubKey : FixedBytes 32)
    : (d.removePeer pubKey).settings = d.settings := by
  unfold removePeer
  split
  . rfl
  . split
    . rfl
    . exact settings_shutdownEndpoint d _

theorem settings_openListenSocket (d : Device) (port : UInt16) (assigned : Option UInt16)
    : (d.openListenSocket port assigned).settings = d.settings := by
  apply openListenSocket_induction (·.settings = d.settings)
  . intro acc _ _ _ hacc
    exact hacc
  . intro acc id hacc
    exact (settings_shutdownEndpoint acc id).trans hacc
  . rfl

variable {C : Primitives} {d d' : Device} {e : Event} {outputs : List Output}

theorem settings_updatePeer {pubKey : FixedBytes 32} {remove : Bool}
    {endpoint : Option SocketAddr} {allowedIps : List AllowedIP} {keepalive : Option UInt16}
    {presharedKey : Option (FixedBytes 32)} {env : Env}
    (h : d.updatePeer C pubKey remove endpoint allowedIps keepalive presharedKey env = some d')
    : d'.settings = d.settings := by
  cases updatePeer_cases h with
  | remove _ hdevice =>
    rw [hdevice]
    exact settings_removePeer d pubKey
  | add _ _ _ _ _ _ _ _ _ _ _ _ hdevice =>
    rw [hdevice]
    rfl

theorem settings_of_step (h : (machine C).step d e = some (d', outputs))
    : d'.settings = d.settings
        ∨
      ∃ privateKey env, e = .setKey privateKey env ∧ d' = d.setKey C privateKey env := by
  cases he : e.isConfig with
  | false => exact .inl (settings_eq_of_static_eq (static_of_step h he))
  | true =>
    cases configCase_of_step h he with
    | updatePeer _ _ _ _ _ _ _ _ hupdate _ => exact .inl (settings_updatePeer hupdate)
    | clearPeers _ hdevice _ =>
      rw [hdevice]
      exact .inl rfl
    | setKey privateKey env hevent hdevice _ => exact .inr ⟨privateKey, env, hevent, hdevice⟩
    | openListenSocket port assigned _ hdevice _ =>
      rw [hdevice]
      exact .inl (settings_openListenSocket d port assigned)
    | setFwmark _ _ hdevice _ =>
      rw [hdevice]
      exact .inl rfl

/--
The quota of a peer. Before a peer is created it counts as a new one.
-/
def quotaOf (d : Device) (id : PeerId) : Payment.BandwidthQuota :=
  match d.accountOf id with
  | some (_, some quota) => quota
  | _ => .new Payment.defaultQuotaBytes

structure IsServer (d : Device) : Prop where
  isServer : d.paymentConfig.isServer = true
  wallet_isSome : d.keyPair.isSome → d.paymentWallet.isSome
  settlementClient : d.paymentWallet.isSome → d.settlementClient = true
  keyPair_isSome : ∀ id, (d.accountOf id).isSome → d.keyPair.isSome
  quota_isSome : ∀ id account, d.accountOf id = some account → account.2.isSome

theorem isServer_new (nextIndex : IndexLfsr) (config : DeviceConfig)
    {paymentConfig : Payment.PaymentConfig} (h : paymentConfig.isServer = true)
    : IsServer (new nextIndex config paymentConfig) where
  isServer := h
  wallet_isSome := by simp [new]
  settlementClient := by simp [new]
  keyPair_isSome := by simp [new, accountOf, Arena.get_empty]
  quota_isSome := by simp [new, accountOf, Arena.get_empty]

theorem IsServer.accountOf_eq (hd : IsServer d) {id : PeerId} {p : Peer}
    (h : d.peerArena.get id = some p)
    : p.quota = some (d.quotaOf id) := by
  have haccount := accountOf_eq_some h
  obtain ⟨q, hq⟩ := Option.isSome_iff_exists.mp (hd.quota_isSome id _ haccount)
  simp only [Peer.account] at hq haccount
  rw [quotaOf, haccount, hq]

theorem IsServer.accountOf_eq_some (hd : IsServer d) {id : PeerId}
    {account : AllowedIps Unit × Option Payment.BandwidthQuota} (h : d.accountOf id = some account)
    : account = (account.1, some (d.quotaOf id)) := by
  obtain ⟨ips, quota⟩ := account
  obtain ⟨q, rfl⟩ := Option.isSome_iff_exists.mp (hd.quota_isSome id _ h)
  rw [quotaOf, h]

/--
What a step does to the account of one peer: there is still none, or the quota goes one step.
-/
inductive AccountStep (d : Device) (id : PeerId) (outputs : List Output) (d' : Device) : Prop where
  | absent (hbefore : d.accountOf id = none) (hafter : d'.accountOf id = none)
    (heffects : Uncharged (effectsOf id outputs))
  | step (ips : AllowedIps Unit) (q' : Payment.BandwidthQuota)
    (hkey : d.keyPair.isSome) (hafter : d'.accountOf id = some (ips, some q'))
    (hstep : QuotaStep d.paymentConfig.quotaBytes (d.quotaOf id) (effectsOf id outputs) q')

theorem IsServer.accountStep_of_eq (hd : IsServer d) {id : PeerId}
    (haccount : d'.accountOf id = d.accountOf id) (heffects : Uncharged (effectsOf id outputs))
    : AccountStep d id outputs d' := by
  cases hbefore : d.accountOf id with
  | none => exact .absent hbefore (haccount.trans hbefore) heffects
  | some account =>
    refine .step account.1 (d.quotaOf id) (hd.keyPair_isSome id (by simp [hbefore])) ?_
      (.idle heffects)
    rw [haccount, hbefore]
    exact congrArg some (hd.accountOf_eq_some hbefore)

theorem IsServer.accountStep_of_meters (hd : IsServer d) {id j : PeerId} {p p' : Peer}
    {effects : List Effect} (hget : d.peerArena.get id = some p)
    (haccounts : ∀ j, d'.accountOf j = if j = id then some p'.account else d.accountOf j)
    (hmeters : Meters d p (d.quotaOf id) effects p') (houtputs : outputs = outputsFor id effects)
    : AccountStep d j outputs d' := by
  subst houtputs
  by_cases hj : j = id
  . subst hj
    obtain ⟨hips, q', hq', hstep⟩ := hmeters
    refine .step p'.allowedIps q' ?_ ?_ ?_
    . apply hd.keyPair_isSome j
      simp [accountOf, hget]
    . rw [haccounts, if_pos rfl, ← hq']
      rfl
    . simpa [effectsOf_outputsFor] using hstep
  . apply hd.accountStep_of_eq
    . rw [haccounts, if_neg hj]
    . rw [effectsOf_outputsFor, if_neg hj]
      exact uncharged_nil

theorem IsServer.accountStep (hd : IsServer d) (h : (machine C).step d e = some (d', outputs))
    (id : PeerId)
    : AccountStep d id outputs d' := by
  cases step_cases h with
  | quiet _ _ haccounts _ houtputs =>
    have hsend : ∀ f ∈ effectsOf id outputs, f.isSend := by
      intro f hf
      rcases houtputs _ (mem_effectsOf.mp hf) with hsend | ⟨hauto, _⟩
      . exact hsend
      . simp at hauto
    rcases haccounts id with hsame | ⟨hnone, hkey, ips, hnew⟩
    . exact hd.accountStep_of_eq hsame (uncharged_of_isSend hsend)
    . have hquota : d.quotaOf id = .new Payment.defaultQuotaBytes := by
        rw [quotaOf, hnone]
      refine .step ips _ hkey hnew ?_
      rw [hquota]
      exact .idle (uncharged_of_isSend hsend)
  | inbound i p p' sock dest addr afterErr flow env effects flushed hincoming _ _ hget hpeer hresult
      haccounts _ hflushed houtputs =>
    have hquota : i.peer.quota = some (d.quotaOf i.id) := by
      rw [hpeer.quota, hd.accountOf_eq hget]
    have hlen : ∀ packet, i.result.packet = some packet → packet.length < 2 ^ 17 :=
      fun packet hpacket => (incoming_packet hincoming hpacket).1
    obtain ⟨hips, q', hq', hstep⟩ := handleResult_meters hd.isServer hquota hlen hresult
    refine hd.accountStep_of_meters hget haccounts ?_ houtputs
    exact ⟨hips.trans hpeer.allowedIps, q', hq', hstep.append_sends hflushed⟩
  | outbound id p p' src env effects _ _ hget hresult haccounts _ houtputs =>
    refine hd.accountStep_of_meters hget haccounts ?_ houtputs
    have hlen : src.val.length < 2 ^ 17 := Nat.lt_of_le_of_lt src.property (by decide)
    exact outbound_meters hd.isServer (hd.accountOf_eq hget) hlen hresult

theorem IsServer.quotaStep (hd : IsServer d) (h : (machine C).step d e = some (d', outputs))
    (id : PeerId)
    : QuotaStep d.paymentConfig.quotaBytes (d.quotaOf id) (effectsOf id outputs)
        (d'.quotaOf id) := by
  cases hd.accountStep h id with
  | absent hbefore hafter heffects =>
    simp only [quotaOf, hbefore, hafter]
    exact .idle heffects
  | step ips q' hkey hafter hstep =>
    have hquota : d'.quotaOf id = q' := by
      rw [quotaOf, hafter]
    rw [hquota]
    exact hstep

theorem paymentConfig_of_step (h : (machine C).step d e = some (d', outputs))
    : d'.paymentConfig = d.paymentConfig := by
  rcases settings_of_step h with hsettings | ⟨privateKey, env, _, rfl⟩
  . exact congrArg (fun s => s.2.2.1) hsettings
  . unfold setKey
    dsimp only
    split <;> rfl

theorem keyPair_isSome_of_step (h : (machine C).step d e = some (d', outputs))
    (hkey : d.keyPair.isSome)
    : d'.keyPair.isSome := by
  rcases settings_of_step h with hsettings | ⟨privateKey, env, _, rfl⟩
  . have : d'.keyPair = d.keyPair := congrArg (fun s => s.1) hsettings
    rwa [this]
  . unfold setKey
    dsimp only
    split
    . exact hkey
    . rfl

theorem IsServer.step (hd : IsServer d) (h : (machine C).step d e = some (d', outputs))
    : IsServer d' where
  isServer := by rw [paymentConfig_of_step h, hd.isServer]
  wallet_isSome := by
    rcases settings_of_step h with hsettings | ⟨privateKey, env, _, rfl⟩
    . simp only [settings, Prod.mk.injEq] at hsettings
      rw [hsettings.1, hsettings.2.1]
      exact hd.wallet_isSome
    . unfold setKey
      dsimp only
      split
      . exact hd.wallet_isSome
      . simp
  settlementClient := by
    rcases settings_of_step h with hsettings | ⟨privateKey, env, _, rfl⟩
    . simp only [settings, Prod.mk.injEq] at hsettings
      rw [hsettings.2.1, hsettings.2.2.2]
      exact hd.settlementClient
    . unfold setKey
      dsimp only
      split
      . exact hd.settlementClient
      . simp [hd.isServer]
  keyPair_isSome := by
    intro id hsome
    apply keyPair_isSome_of_step h
    cases hd.accountStep h id with
    | absent _ hafter _ => simp [hafter] at hsome
    | step _ _ hkey _ _ => exact hkey
  quota_isSome := by
    intro id account haccount
    cases hd.accountStep h id with
    | absent _ hafter _ => simp [hafter] at haccount
    | step ips q' _ hafter _ =>
      rw [hafter] at haccount
      cases haccount
      rfl

end Device
