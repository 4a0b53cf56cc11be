import VeilVpn.Device.Lemmas.Ready
import VeilVpn.Link.Lemmas.Move

namespace Link

open Device

section

variable {C : Primitives} {id id' : PeerId} {wallet : Payment.PaymentWallet} {key : FixedBytes 32}
  {ip ip' : Ipv4Addr} {l l' : Link} {e : Event} {outputs : List Output}

/--
A request or payment is in flight whose nonce the server has not seen yet.
-/
def Payable (id : PeerId) (l : Link) : Prop :=
  (∃ packet ∈ l.toClient, ∃ req, requestIn packet = some req
    ∧ req.nonce ∉ (l.server.quotaOf id).usedNonces)
    ∨
  (∃ packet ∈ l.toServer, ∃ submit, submitIn packet = some submit
    ∧ submit.nonce ∉ (l.server.quotaOf id).usedNonces)

theorem Payable.pending (h : Payable id l) : Pending l := by
  rw [pending_iff]
  rcases h with ⟨packet, hmem, req, hreq, _⟩ | ⟨packet, hmem, submit, hsubmit, _⟩
  . exact .inl ⟨packet, hmem, req, hreq⟩
  . exact .inr ⟨packet, hmem, submit, hsubmit⟩

/--
A step that loses nothing: signals arrive, payments are settled, and the client is told when it is
blocked, with a nonce that is new.
-/
structure Reliable (C : Primitives) (id : PeerId) (t : Transition Link Event Output) : Prop where
  lossless : ∀ packet, t.event ≠ .loseToClient packet ∧ t.event ≠ .loseToServer packet
  settled : ∀ e env packet submit, t.event = .server e → e.env = some env →
    arrival C id t.before.server e = some packet → submitIn packet = some submit →
    Settled t.before.server env submit
  asked : ∀ e env, t.event = .server e → e.env = some env → ¬Blocked id t.before →
    Blocked id t.after →
    AskedFor C id t.before.server e ∧ env.nonce ∉ (t.before.server.quotaOf id).usedNonces

theorem payable_of_step (hrecovers : C.payment.RecoversSigner)
    (hl : Configured C id id' wallet key ip ip' l) (hhonest : Honest C wallet ip ip' l)
    (hpayable : Blocked id l → Payable id l)
    (h : (machine C id id').step l e = some (l', outputs))
    (hreliable : Reliable C id ⟨l, e, outputs, l'⟩) (hblocked : Blocked id l')
    : Payable id l' := by
  have hl' := hl.step h
  have hasked := hreliable.asked
  rw [hl'.blocked_iff] at hblocked
  simp only [hl.blocked_iff, hl'.blocked_iff] at hasked hpayable
  cases move_of_step hrecovers hl hhonest h with
  | asks e env packets henv hasks hblock _ htoClient htoServer =>
    cases hbefore : (l.server.quotaOf id).blocked with
    | true =>
      obtain ⟨hquota, rfl⟩ := hasks.blocked hbefore
      rw [List.append_nil] at htoClient
      unfold Payable at *
      rw [hquota, htoClient, htoServer]
      exact hpayable hbefore
    | false =>
      obtain ⟨hasked, hnonce⟩ := hasked e env rfl henv (by simp [hbefore]) hblocked
      obtain rfl := hblock hasked hbefore hblocked
      refine .inl ⟨requestPacket l.server wallet ip env, ?_, request l.server wallet env,
        requestIn_signalPacket _ _ _, ?_⟩
      . simp [htoClient]
      . rw [hasks.usedNonces]
        exact hnonce
  | pays e env packet submit packets henv harrival hmem hsubmit hpays htoClient htoServer =>
    cases hpays with
    | replayed hused hquota hpackets =>
      subst hpackets
      rw [List.append_nil] at htoClient
      rw [hquota] at hblocked
      unfold Payable at *
      rw [hquota, htoClient, htoServer]
      rcases hpayable hblocked with hrequest | ⟨packet', hmem', submit', hsubmit', hnonce⟩
      . exact .inl hrequest
      . -- The payment that is refused is not the one with the new nonce
        have hne : packet' ≠ packet := by
          rintro rfl
          rw [hsubmit, Option.some.injEq] at hsubmit'
          subst hsubmit'
          exact hnonce hused
        exact .inr ⟨packet', (List.mem_erase_of_ne hne).mpr hmem', submit', hsubmit', hnonce⟩
    | unsettled hsettled _ _ =>
      exact absurd (hreliable.settled e env packet submit rfl henv harrival hsubmit) hsettled
    | credited hunblocked _ => simp [hunblocked] at hblocked
  | idle e hserver htoClient htoServer =>
    unfold Payable at *
    rw [hserver] at hblocked ⊢
    rw [htoClient, htoServer]
    exact hpayable hblocked
  | answers e env submit hserver hmem hnonce _ _ htoClient htoServer =>
    unfold Payable at *
    rw [hserver] at hblocked ⊢
    rw [htoClient, htoServer]
    rcases hpayable hblocked with ⟨packet, hpacket, req, hreq, hfresh⟩
      | ⟨packet, hpacket, submit', hsubmit', hfresh⟩
    . by_cases heq : packet = requestPacket l.server wallet ip env
      . subst heq
        rw [requestPacket, requestIn_signalPacket, Option.some.injEq] at hreq
        subst hreq
        refine .inr ⟨_, List.mem_append_right _ (List.mem_singleton_self _), submit,
          submitIn_signalPacket _ _ _, ?_⟩
        rw [hnonce]
        exact hfresh
      . exact .inl ⟨packet, (List.mem_erase_of_ne heq).mpr hpacket, req, hreq, hfresh⟩
    . exact .inr ⟨packet, List.mem_append_left _ hpacket, submit', hsubmit', hfresh⟩
  | ignores e packet hserver _ haccepted htoClient htoServer =>
    unfold Payable at *
    rw [hserver] at hblocked ⊢
    rw [htoClient, htoServer]
    rcases hpayable hblocked with ⟨packet', hpacket', req, hreq, hfresh⟩ | hsubmit
    . have hne : packet' ≠ packet := by
        rintro rfl
        simp [requestIn_accepted haccepted] at hreq
      exact .inl ⟨packet', (List.mem_erase_of_ne hne).mpr hpacket', req, hreq, hfresh⟩
    . exact .inr hsubmit
  | loseToClient packet => exact absurd rfl (hreliable.lossless packet).1
  | loseToServer packet => exact absurd rfl (hreliable.lossless packet).2

theorem requestCount_of_signalPackets {effects : List Effect} (h : signalPackets effects = [])
    : requestCount effects = 0 := by
  rw [signalPackets, List.filterMap_eq_nil_iff] at h
  rw [requestCount, List.countP_eq_zero]
  intro f hf
  have hnone := h f hf
  cases f with
  | signal => simp [signalPacket] at hnone
  | _ => simp [Effect.isRequest]

theorem blocked_and_not_pending_of_step (hrecovers : C.payment.RecoversSigner)
    (hl : Configured C id id' wallet key ip ip' l) (hhonest : Honest C wallet ip ip' l)
    (hblocked : Blocked id l) (hpending : ¬Pending l)
    (h : (machine C id id').step l e = some (l', outputs))
    : Blocked id l' ∧ ¬Pending l' ∧
        ∀ e', e = .server e' → requestCount (effectsOf id outputs) = 0 := by
  rw [hl.blocked_iff] at hblocked
  rw [(hl.step h).blocked_iff]
  rw [pending_iff] at hpending ⊢
  cases move_of_step hrecovers hl hhonest h with
  | asks e env packets _ hasks _ hpackets htoClient htoServer =>
    obtain ⟨hquota, rfl⟩ := hasks.blocked hblocked
    rw [List.append_nil] at htoClient
    rw [hquota, htoClient, htoServer]
    exact ⟨hblocked, hpending, fun _ _ => requestCount_of_signalPackets hpackets⟩
  | pays e env packet submit _ _ _ hmem hsubmit _ _ _ =>
    exact absurd (.inr ⟨packet, hmem, submit, hsubmit⟩) hpending
  | idle e hserver htoClient htoServer =>
    rw [hserver, htoClient, htoServer]
    exact ⟨hblocked, hpending, by simp⟩
  | answers e env submit _ hmem _ _ _ _ _ =>
    exact absurd (.inl ⟨_, hmem, _, requestIn_signalPacket _ _ _⟩) hpending
  | ignores e packet hserver _ _ htoClient htoServer =>
    rw [hserver, htoClient, htoServer]
    refine ⟨hblocked, ?_, by simp⟩
    rintro (⟨packet', hmem, hreq⟩ | hsubmit)
    . exact hpending (.inl ⟨packet', List.mem_of_mem_erase hmem, hreq⟩)
    . exact hpending (.inr hsubmit)
  | loseToClient packet hserver htoClient htoServer =>
    rw [hserver, htoClient, htoServer]
    refine ⟨hblocked, ?_, by simp⟩
    rintro (⟨packet', hmem, hreq⟩ | hsubmit)
    . exact hpending (.inl ⟨packet', List.mem_of_mem_erase hmem, hreq⟩)
    . exact hpending (.inr hsubmit)
  | loseToServer packet hserver htoClient htoServer =>
    rw [hserver, htoClient, htoServer]
    refine ⟨hblocked, ?_, by simp⟩
    rintro (hreq | ⟨packet', hmem, hsubmit⟩)
    . exact hpending (.inl hreq)
    . exact hpending (.inr ⟨packet', List.mem_of_mem_erase hmem, hsubmit⟩)

structure LockedOut (C : Primitives) (id id' : PeerId) (wallet : Payment.PaymentWallet)
    (key : FixedBytes 32) (ip ip' : Ipv4Addr) (l : Link) : Prop where
  configured : Configured C id id' wallet key ip ip' l
  honest : Honest C wallet ip ip' l
  blocked : Blocked id l
  not_pending : ¬Pending l

theorem LockedOut.step (hrecovers : C.payment.RecoversSigner)
    (hl : LockedOut C id id' wallet key ip ip' l)
    (h : (machine C id id').step l e = some (l', outputs))
    : LockedOut C id id' wallet key ip ip' l' ∧
        ∀ e', e = .server e' → requestCount (effectsOf id outputs) = 0 := by
  obtain ⟨hblocked, hpending, hrequests⟩ :=
    blocked_and_not_pending_of_step hrecovers hl.configured hl.honest hl.blocked hl.not_pending h
  exact ⟨⟨hl.configured.step h, hl.honest.step hrecovers hl.configured h, hblocked, hpending⟩,
    hrequests⟩

variable {l₀ : Link} {ts : List (Transition Link Event Output)}

theorem honest_of_empty (h : l.toClient = [] ∧ l.toServer = []) : Honest C wallet ip ip' l := by
  constructor
  . simp [h.1]
  . simp [h.2]

theorem honest_of_run (hrecovers : C.payment.RecoversSigner)
    (hl : Configured C id id' wallet key ip ip' l₀) (hhonest : Honest C wallet ip ip' l₀)
    (hrun : (machine C id id').Run l₀ ts l)
    : Configured C id id' wallet key ip ip' l ∧ Honest C wallet ip ip' l := by
  apply hrun.invariant (fun l => Configured C id id' wallet key ip ip' l ∧ Honest C wallet ip ip' l)
    ⟨hl, hhonest⟩
  intro l e l' outputs ⟨hl, hhonest⟩ h
  exact ⟨hl.step h, hhonest.step hrecovers hl h⟩

theorem payable_of_run (hrecovers : C.payment.RecoversSigner)
    (hl : Configured C id id' wallet key ip ip' l₀) (hempty : l₀.toClient = [] ∧ l₀.toServer = [])
    (hunblocked : ¬Blocked id l₀) (hrun : (machine C id id').Run l₀ ts l)
    (hreliable : ∀ t ∈ ts, Reliable C id t)
    : Blocked id l → Payable id l := by
  have hinv := hrun.invariant_of_mem (fun l => Configured C id id' wallet key ip ip' l
    ∧ Honest C wallet ip ip' l ∧ (Blocked id l → Payable id l))
    ⟨hl, honest_of_empty hempty, fun hblocked => absurd hblocked hunblocked⟩
  apply (hinv ?_).2.2
  intro t ht ⟨hl, hhonest, hpayable⟩ h
  exact ⟨hl.step h, hhonest.step hrecovers hl h,
    payable_of_step hrecovers hl hhonest hpayable h (hreliable t ht)⟩

/--
As long as nothing is lost, a client that is blocked is about to be asked for a payment or to pay.
Once it is blocked with nothing in flight, it is locked out: no packet makes the server ask again.
-/
theorem pending_or_lockedOut (hrecovers : C.payment.RecoversSigner)
    (hl : Configured C id id' wallet key ip ip' l₀) (hempty : l₀.toClient = [] ∧ l₀.toServer = [])
    (hunblocked : ¬Blocked id l₀) (hrun : (machine C id id').Run l₀ ts l)
    : ((∀ t ∈ ts, Reliable C id t) → Blocked id l → Pending l)
        ∧
      (Blocked id l → ¬Pending l →
        ∀ us l', (machine C id id').Run l us l' →
          Blocked id l' ∧ ¬Pending l'
            ∧
          ∀ t ∈ us, ∀ e, t.event = .server e → requestCount (effectsOf id t.outputs) = 0) := by
  obtain ⟨hl', hhonest⟩ := honest_of_run hrecovers hl (honest_of_empty hempty) hrun
  constructor
  . intro hreliable hblocked
    exact (payable_of_run hrecovers hl hempty hunblocked hrun hreliable hblocked).pending
  . intro hblocked hpending us l' hus
    have hstart : LockedOut C id id' wallet key ip ip' l := ⟨hl', hhonest, hblocked, hpending⟩
    have hstep := fun l e l' outputs (hl : LockedOut C id id' wallet key ip ip' l)
      (h : (machine C id id').step l e = some (l', outputs)) => (hl.step hrecovers h).1
    have hend := hus.invariant _ hstart hstep
    refine ⟨hend.blocked, hend.not_pending, ?_⟩
    intro t ht e he
    have hbefore := hus.invariant_before _ hstart hstep ht
    exact (hbefore.step hrecovers (hus.step_of_mem ht)).2 e he

end

namespace Sample

open Device.Sample

def anyIp : AllowedIP where
  addr := .v4 (.new 0 0 0 0)
  cidr := 0
  cidr_le := Nat.zero_le _

def clientSetup : List Device.Event := [
  .setKey (Device.Sample.key 2) env,
  .updatePeer (Device.Sample.key 1) false none [anyIp] none none env
]

def isClient (d : Device) : Bool :=
  !d.paymentConfig.isServer
    ∧ d.paymentWallet = some (.fromWireguardKey primitives.payment (Device.Sample.key 2))
    ∧ (∃ p ∈ d.peerArena.get 0, p.firstAllowedIpv4 = some (.new 0 0 0 0))
    ∧ d.paymentConfig.gatewayDomain = serverConfig.gatewayDomain

theorem recoversSigner : primitives.payment.RecoversSigner := by
  intro key digest recoveryId r s h
  cases h
  exact ⟨by decide, rfl⟩

theorem exists_client
    : ∃ d, ClientSide primitives 0 (Device.Sample.key 2) (.new 0 0 0 0) d
        ∧ d.paymentConfig.gatewayDomain = serverConfig.gatewayDomain := by
  obtain ⟨_, d, _, h⟩ := Machine.Run.exists_of_exec (Device.machine primitives)
    (.new { initial := 1, lfsr := 1, mask := 1 } { useConnectedSocket := false }
      { serverConfig with isServer := false })
    clientSetup (fun _ d => isClient d) (by decide +kernel)
  simp only [isClient, Bool.not_eq_true', decide_eq_true_eq] at h
  obtain ⟨hclient, hwallet, ⟨p, hp, hip⟩, hdomain⟩ := h
  exact ⟨d, ⟨hclient, hwallet, p, hp, hip⟩, hdomain⟩

theorem exists_asked
    : ∃ wallet l src l' outputs packet p q,
        Configured primitives 0 0 wallet (Device.Sample.key 2) clientIp (.new 0 0 0 0) l
          ∧
        l.toClient = [] ∧ l.toServer = [] ∧ ¬Blocked 0 l
          ∧
        (machine primitives 0 0).step l (.server (.iface src env)) = some (l', outputs)
          ∧
        Reliable primitives 0 ⟨l, .server (.iface src env), outputs, l'⟩
          ∧
        l'.toClient = [packet] ∧ l'.toServer = []
          ∧
        Ready l'.server 0 clientAddr clientIp p q ∧ q.blocked = true := by
  obtain ⟨ts, d, p, q, src, d', p', q', outputs, hrun, hready, hunblocked, hstep, hready', hblocked⟩ :=
    exists_exhausted clientAddr (by decide +kernel)
  obtain ⟨wallet, hwallet⟩ := Option.isSome_iff_exists.mp hready.wallet
  obtain ⟨client, hclient, hdomain⟩ := exists_client
  have hserver : ServerSide primitives 0 wallet clientIp d :=
    ⟨⟨_, _, _, ts, rfl, hrun⟩, hwallet, p, hready.get, hready.ip⟩
  have hl : Configured primitives 0 0 wallet (Device.Sample.key 2) clientIp (.new 0 0 0 0)
      ⟨d, client, [], []⟩ := by
    refine ⟨hserver, hclient, by decide, ?_⟩
    rw [hdomain]
    exact congrArg _ (paymentConfig_of_run hrun).symm
  have hasked : AskedFor primitives 0 d (.iface src env) :=
    .inr ⟨src, env, p, clientAddr, rfl, hready.get, hready.addr⟩
  have hpackets := server_asks_of_block hserver.isServer hserver.connectedSockets hready.get
    hready.ip hwallet hstep rfl hasked (by rw [hready.quotaOf_eq, hunblocked])
    (by rw [hready'.quotaOf_eq, hblocked])
  have hlink : (machine primitives 0 0).step ⟨d, client, [], []⟩ (.server (.iface src env))
      = some (⟨d', client, signalPackets (effectsOf 0 outputs), []⟩, outputs) := by
    simp only [machine, step, deviceStep, hstep]
    rfl
  refine ⟨wallet, _, src, _, outputs, _, p', q', hl, rfl, rfl, ?_, hlink, ?_, hpackets, rfl, hready',
    hblocked⟩
  . rw [hl.blocked_iff, hready.quotaOf_eq, hunblocked]
    decide
  . refine ⟨by simp, ?_, ?_⟩
    . intro e env' packet submit he _ harrival
      cases he
      simp [arrival, incoming] at harrival
    . intro e env' he henv _ _
      cases he
      cases henv
      refine ⟨hasked, ?_⟩
      rw [hready.quotaOf_eq, hready.usedNonces]
      simp

end Sample

theorem pending_or_lockedOut_asked
    : ∃ l₀ ts l, (machine Device.Sample.primitives 0 0).Run l₀ ts l ∧ ¬Blocked 0 l₀
        ∧ (∀ t ∈ ts, Reliable Device.Sample.primitives 0 t) ∧ Blocked 0 l ∧ Pending l := by
  obtain ⟨wallet, l, src, l', outputs, packet, p, q, hl, htoClient, htoServer, hunblocked, hstep,
    hreliable, _, _, hready, hq⟩ := Sample.exists_asked
  have hrun := Machine.Run.single hstep
  have hblocked : Blocked 0 l' := ⟨p, q, hready.get, hready.quota, hq⟩
  have hpending := pending_or_lockedOut Sample.recoversSigner hl ⟨htoClient, htoServer⟩ hunblocked
    hrun
  rw [List.forall_mem_singleton] at hpending
  refine ⟨l, _, l', hrun, hunblocked, ?_, hblocked, hpending.1 hreliable hblocked⟩
  rw [List.forall_mem_singleton]
  exact hreliable

/--
The request for payment is lost. The client stays blocked, and its next packet is dropped without a
new request.
-/
theorem exists_lockedOut
    : ∃ wallet key ip ip' l₀ ts l,
        Configured Device.Sample.primitives 0 0 wallet key ip ip' l₀
          ∧
        l₀.toClient = [] ∧ l₀.toServer = [] ∧ ¬Blocked 0 l₀
          ∧
        (machine Device.Sample.primitives 0 0).Run l₀ ts l
          ∧
        Blocked 0 l ∧ ¬Pending l
          ∧
        ∃ p src env l',
          l.server.peerArena.get 0 = some p ∧ p.endpoint.addr.isSome
            ∧
          charged Device.Sample.primitives l.server (.iface src env) = some (0, src.val)
            ∧
          Noise.Tunn.dstAddress src.val = some (.v4 ip)
            ∧
          (machine Device.Sample.primitives 0 0).step l (.server (.iface src env)) = some (l', [])
    := by
  obtain ⟨wallet, l, src, l', outputs, packet, p, q, hl, htoClient, htoServer, hunblocked, hstep, _,
    htoClient', htoServer', hready, hq⟩ := Sample.exists_asked
  have hlose : (machine Device.Sample.primitives 0 0).step l' (.loseToClient packet)
      = some ({ l' with toClient := [] }, []) := by
    simp [machine, step, receive, htoClient']
  have hdst := Device.Sample.dstAddress_tunPacket 0 (by omega)
  generalize Device.Sample.tunPacket 0 (by omega) = src at hdst
  obtain ⟨server, hdrop⟩ := hready.drop (C := Device.Sample.primitives) hq hdst Device.Sample.env
  refine ⟨wallet, _, _, _, l, _, _, hl, htoClient, htoServer, hunblocked,
    (Machine.Run.single hstep).snoc hlose, ⟨p, q, hready.get, hready.quota, hq⟩, ?_, p, src,
    Device.Sample.env, ⟨server, l'.client, [], l'.toServer⟩, hready.get, ?_, ?_, hdst, ?_⟩
  . rw [pending_iff]
    simp [htoServer']
  . simp [hready.addr]
  . simp [charged, incoming, hdst, hready.find]
  . simp only [machine, step, deviceStep, hdrop]
    rfl

end Link
