import VeilVpn.Device.Lemmas.Endpoint
import VeilVpn.Device.Lemmas.Requests

namespace Device

def Socket.reaches (sock : Socket) (addr : SocketAddr) : Bool :=
  match sock with
  | .conn _ connected => connected = addr
  | _ => sock.family = addr.family

def Event.source : Event → Option SocketAddr
  | .udp addr _ _ => some addr
  | _ => none

def Effect.sealedRequest (C : Primitives) (msg : Payment.PaymentRequired) (packet : Bytes)
    (sock : Socket) (addr : SocketAddr) (session : Noise.Session) : Effect :=
  .signal (.paymentRequired msg) packet sock addr
    (.writeToNetwork (session.sealPacket C.noise packet))

/--
The transition sends a request for payment to the peer: it is in a datagram of a session, and that
is handed to a socket which reaches the peer, either where it just sent from or at its endpoint.
-/
def Notified (C : Primitives) (id : PeerId) (t : Transition Device Event Output) : Prop :=
  ∃ msg packet sock addr session,
    .sealedRequest C msg packet sock addr session ∈ effectsOf id t.outputs
      ∧
    sock.reaches addr
      ∧
    (t.event.source = some addr ∨ (t.before.endpointOf id).bind Endpoint.addr = some addr)

/--
The packet is an IPv4 packet from the peer, or it is for the peer, which has an IPv4 endpoint and a
session.
-/
def Notifiable (C : Primitives) (id : PeerId) (t : Transition Device Event Output) : Prop :=
  (∃ i packet srcIp, incoming C t.before t.event = some i
      ∧ i.result = .writeToTunnelV4 packet srcIp)
    ∨
  (∃ src env p addr, t.event = .iface src env
      ∧ t.before.peerArena.get id = some p ∧ p.endpoint.addr = some addr ∧ addr.family = .v4
      ∧ p.tunnel.currentSession.isSome)

section

variable {C : Primitives} {d d' : Device} {p p' : Peer} {q q' : Payment.BandwidthQuota}
  {sock : Socket} {env : Env} {effects : List Effect} {flow : Flow}

theorem blocked_handlePaymentSubmit {payload : Bytes} {addr : SocketAddr} (hq : p.quota = some q)
    (h : handlePaymentSubmit C d p payload sock addr env = some (p', effects))
    (hq' : p'.quota = some q') (hblocked : q'.blocked = true)
    : q.blocked = true := by
  cases handlePaymentSubmit_cases h with
  | unchanged _ hpeer _ =>
    rw [hpeer, hq] at hq'
    cases hq'
    exact hblocked
  | rejected submit _ _ hfresh _ _ =>
    simp only [Peer.checkAndRecordNonce, hq, Prod.mk.injEq] at hfresh
    rw [← hfresh.1] at hq'
    cases hq'
    exact hblocked
  | accepted submit recorded _ _ hfresh _ _ hpeer _ =>
    simp only [Peer.checkAndRecordNonce, hq, Prod.mk.injEq] at hfresh
    rw [hpeer.quota, ← hfresh.1] at hq'
    cases hq'
    simp [Payment.BandwidthQuota.credit] at hblocked

theorem enforceQuota_blocks {packet : Bytes} {verdict : Verdict}
    (hserver : d.paymentConfig.isServer = true) (hq : p.quota = some q)
    (hunblocked : q.blocked = false) (h : enforceQuota d p packet = (p', verdict))
    (hq' : p'.quota = some q') (hblocked : q'.blocked = true)
    : verdict = .exhausted ∧ p' = { p with quota := some q' } := by
  cases verdict with
  | forward =>
    obtain ⟨q₁, _, hconsume, rfl⟩ := enforceQuota_eq_forward hserver hq h
    cases hq'
    obtain ⟨_, _, rfl⟩ := Payment.BandwidthQuota.consume_eq_true hconsume
    simp [hunblocked] at hblocked
  | blocked =>
    obtain ⟨rfl, _⟩ := enforceQuota_eq_blocked hserver hq h
    rw [hq] at hq'
    cases hq'
    simp [hunblocked] at hblocked
  | exhausted =>
    obtain ⟨q₁, _, _, rfl⟩ := enforceQuota_eq_exhausted hserver hq h
    cases hq'
    exact ⟨rfl, rfl⟩

theorem handleResult_blocks {result : Noise.TunnResult} {dest addr : Option SocketAddr}
    {afterErr : Flow} (hserver : d.paymentConfig.isServer = true) (hq : p.quota = some q)
    (hunblocked : q.blocked = false)
    (h : handleResult C d p result sock dest addr afterErr env = some (p', effects, flow))
    (hq' : p'.quota = some q') (hblocked : q'.blocked = true)
    : (∃ packet srcIp, result = .writeToTunnelV6 packet srcIp ∧ effects = [])
        ∨
      ∃ packet srcIp dest, result = .writeToTunnelV4 packet srcIp ∧ addr = some dest
        ∧ sendPaymentRequired C d { p with quota := some q' } sock dest env = some (p', effects) := by
  have hsame : p'.quota ≠ p.quota := by
    intro hquota
    rw [hquota, hq] at hq'
    cases hq'
    simp [hunblocked] at hblocked
  have hverdict : ∀ packet p₁ verdict, enforceQuota d p packet = (p₁, verdict) →
      p₁.quota = p'.quota → verdict = .exhausted ∧ p₁ = { p with quota := some q' } := by
    intro packet p₁ verdict hverdict hquota
    exact enforceQuota_blocks hserver hq hunblocked hverdict (hquota.trans hq') hblocked
  cases handleResult_cases h with
  | idle _ hpeer _ => exact absurd (by rw [hpeer]) hsame
  | ignored _ _ _ _ _ hpeer _ => exact absurd (by rw [hpeer]) hsame
  | submit _ _ _ _ _ _ _ _ _ hhandle =>
    simp [blocked_handlePaymentSubmit hq hhandle hq' hblocked] at hunblocked
  | request _ _ _ _ _ _ _ _ _ hhandle =>
    exact absurd (handlePaymentSignalClient_eq_some hhandle).1.quota hsame
  | refused _ _ _ _ hpeer _ => exact absurd (by rw [hpeer]) hsame
  | blocked packet _ _ _ hblocks _ => simpa using (hverdict packet _ _ hblocks rfl).1
  | exhausted packet srcIp p₁ dest hdata _ hexhausts haddr hsend =>
    have hquota := (sendPaymentRequired_eq_some hsend).1.quota
    rw [(hverdict packet p₁ _ hexhausts hquota.symm).2] at hsend
    cases hdata
    exact .inr ⟨packet, srcIp, dest, rfl, haddr, hsend⟩
  | exhaustedV6 packet srcIp hdata _ _ heffects =>
    cases hdata
    exact .inl ⟨packet, srcIp, rfl, heffects⟩
  | forwarded packet _ _ _ hforwards _ => simpa using (hverdict packet _ _ hforwards rfl).1

theorem outbound_blocks {src : Bytes} (hserver : d.paymentConfig.isServer = true)
    (hq : p.quota = some q) (hunblocked : q.blocked = false)
    (h : outbound C d p src env = some (p', effects))
    (hq' : p'.quota = some q') (hblocked : q'.blocked = true)
    : (p.endpoint.addr = none ∧ effects = [])
        ∨
      ∃ dest, p.endpoint.addr = some dest
        ∧ sendPaymentRequired C d { p with quota := some q' } .udp4 dest env = some (p', effects)
      := by
  have hverdict : ∀ p₁ verdict, enforceQuota d p src = (p₁, verdict) → p₁.quota = p'.quota →
      verdict = .exhausted ∧ p₁ = { p with quota := some q' } := by
    intro p₁ verdict hverdict hquota
    exact enforceQuota_blocks hserver hq hunblocked hverdict (hquota.trans hq') hblocked
  cases outbound_cases h with
  | blocked hblocks _ => simpa using (hverdict _ _ hblocks rfl).1
  | exhausted p₁ dest hexhausts haddr hsend =>
    rw [(enforceQuota_sameButState hexhausts).endpoint] at haddr
    have hquota := (sendPaymentRequired_eq_some hsend).1.quota
    rw [(hverdict p₁ _ hexhausts hquota.symm).2] at hsend
    exact .inr ⟨dest, haddr, hsend⟩
  | exhaustedSilent hexhausts haddr heffects =>
    rw [(enforceQuota_sameButState hexhausts).endpoint] at haddr
    exact .inl ⟨haddr, heffects⟩
  | forwarded p₁ _ _ _ hforwards _ hpeer _ _ =>
    simpa using (hverdict p₁ _ hforwards (by rw [hpeer])).1

theorem sendPaymentRequired_without_session {addr : SocketAddr}
    (hsession : p.tunnel.currentSession = none)
    (h : sendPaymentRequired C d p sock addr env = some (p', effects))
    : ∀ msg packet sock addr session,
        .sealedRequest C msg packet sock addr session ∉ effects := by
  intro msg packet sock addr session hmem
  unfold sendPaymentRequired at h
  split at h
  . cases h
    simp at hmem
  . split at h
    . cases h
      simp at hmem
    . unfold sendSignal at h
      dsimp only at h
      split at h
      . simp at h
      . split at h
        . simp at h
        . next hencapsulate =>
          cases h
          simp only [Effect.sealedRequest, List.mem_singleton, Effect.signal.injEq] at hmem
          obtain ⟨_, rfl, _, _, rfl⟩ := hmem
          exact Noise.Tunn.encapsulate_without_session hsession hencapsulate session _ rfl

theorem sendPaymentRequired_with_session {addr : SocketAddr} {session : Noise.Session}
    (hwallet : d.paymentWallet.isSome) (hip : p.firstAllowedIpv4.isSome)
    (hsession : p.tunnel.currentSession = some session)
    (h : sendPaymentRequired C d p sock addr env = some (p', effects))
    : ∃ msg packet, effects = [.sealedRequest C msg packet sock addr session] := by
  obtain ⟨tunnel, msg, packet, hsend, _⟩ :=
    sendPaymentRequired_of_session (C := C) sock addr env hwallet hip hsession
  rw [hsend] at h
  cases h
  exact ⟨msg, packet, rfl⟩

variable {e : Event} {outputs : List Output} {id : PeerId}

theorem quota_of_blocked (haccount : d.accountOf id = some p.account)
    (hblocked : (d.quotaOf id).blocked = true)
    : p.quota = some (d.quotaOf id) := by
  rw [quotaOf, haccount, Peer.account] at hblocked ⊢
  cases hquota : p.quota with
  | none => simp [hquota, Payment.BandwidthQuota.new] at hblocked
  | some q => rfl

theorem not_notified_of_isSend {t : Transition Device Event Output} {flushed : List Effect}
    (houtputs : t.outputs = outputsFor id flushed) (hflushed : ∀ f ∈ flushed, f.isSend)
    : ¬Notified C id t := by
  rintro ⟨msg, packet, sock, addr, session, hmem, _⟩
  rw [houtputs, effectsOf_outputsFor, if_pos rfl] at hmem
  simpa [Effect.sealedRequest, Effect.isSend] using hflushed _ hmem

theorem Source.reaches {i : Inbound} {addr : Option SocketAddr} {dest : SocketAddr}
    (h : Source d e i sock addr) (haddr : addr = some dest)
    (hsockets : ConnectedSockets d) (hget : d.peerArena.get i.id = some p)
    (hpeer : p.SameButTunnel i.peer)
    : sock.reaches dest ∧
        (e.source = some dest ∨ (d.endpointOf i.id).bind Endpoint.addr = some dest) := by
  cases h with
  | udp addr datagram env he =>
    cases haddr
    subst he
    refine ⟨?_, .inl rfl⟩
    unfold udpSocket
    split <;>
    . next hfamily => simp [Socket.reaches, Socket.family, hfamily]
  | conn cid c datagram env he hconn hopen hid =>
    have hendpoint := hsockets cid c hconn hopen
    rw [hid, endpointOf, hget, Option.map_some, Option.some.injEq] at hendpoint
    simp only [hpeer.endpoint, hendpoint, Option.some.injEq] at haddr
    subst haddr
    refine ⟨by simp [Socket.reaches], .inr ?_⟩
    rw [endpointOf, hget, Option.map_some, hendpoint]
    rfl

variable (C) in
inductive BlockCase (d : Device) (id : PeerId) (p : Peer) (e : Event) (outputs : List Output)
    : Prop where
  | inboundV4 (i : Inbound) (packet : Bytes) (srcIp : Ipv4Addr) (sock : Socket)
    (dest : SocketAddr) (env : Env) (q' : Payment.BandwidthQuota) (p' : Peer)
    (effects flushed : List Effect)
    (hincoming : incoming C d e = some i)
    (henv : e.env = some env)
    (hid : i.id = id)
    (hpeer : p.SameButTunnel i.peer)
    (hresult : i.result = .writeToTunnelV4 packet srcIp)
    (hreaches : sock.reaches dest ∧
      (e.source = some dest ∨ (d.endpointOf id).bind Endpoint.addr = some dest))
    (hsend : sendPaymentRequired C d { i.peer with quota := some q' } sock dest env
      = some (p', effects))
    (hflushed : ∀ f ∈ flushed, f.isSend)
    (houtputs : outputs = outputsFor id (effects ++ flushed))
  | inboundV6 (i : Inbound) (packet : Bytes) (srcIp : Ipv6Addr) (flushed : List Effect)
    (hincoming : incoming C d e = some i)
    (hresult : i.result = .writeToTunnelV6 packet srcIp)
    (hflushed : ∀ f ∈ flushed, f.isSend)
    (houtputs : outputs = outputsFor id flushed)
  | outboundUnknown (src : Received) (env : Env)
    (hevent : e = .iface src env)
    (haddr : p.endpoint.addr = none)
    (houtputs : outputs = outputsFor id [])
  | outbound (src : Received) (env : Env) (dest : SocketAddr) (q' : Payment.BandwidthQuota)
    (p' : Peer) (effects : List Effect)
    (hevent : e = .iface src env)
    (haddr : p.endpoint.addr = some dest)
    (hsend : sendPaymentRequired C d { p with quota := some q' } .udp4 dest env
      = some (p', effects))
    (houtputs : outputs = outputsFor id effects)

theorem IsServer.block_cases (hd : IsServer d) (hsockets : ConnectedSockets d)
    (h : (machine C).step d e = some (d', outputs)) (hget : d.peerArena.get id = some p)
    (hunblocked : (d.quotaOf id).blocked = false) (hblocked : (d'.quotaOf id).blocked = true)
    : BlockCase C d id p e outputs := by
  have hsame : d'.accountOf id ≠ d.accountOf id := by
    intro hsame
    rw [quotaOf, hsame, ← quotaOf, hunblocked] at hblocked
    simp at hblocked
  -- the peer that is blocked is the one whose account the step changes
  have hid : ∀ {id' account}, (∀ i, d'.accountOf i = if i = id' then account else d.accountOf i)
      → id = id' := by
    intro id' account haccounts
    by_contra hne
    exact hsame (by rw [haccounts, if_neg hne])
  cases step_cases h with
  | quiet _ _ haccounts _ _ =>
    rcases haccounts id with heq | ⟨_, _, _, hnew⟩
    . exact absurd heq hsame
    . simp [quotaOf, hnew, Payment.BandwidthQuota.new] at hblocked
  | inbound i p₀ p' sock dest addr afterErr flow env effects flushed hincoming henv hsource hget'
      hpeer hresult haccounts _ hflushed houtputs =>
    obtain rfl := hid haccounts
    rw [hget] at hget'
    cases hget'
    have hq' := quota_of_blocked (by rw [haccounts, if_pos rfl]) hblocked
    have hquota : i.peer.quota = some (d.quotaOf i.id) := by
      rw [hpeer.quota, hd.accountOf_eq hget]
    rcases handleResult_blocks hd.isServer hquota hunblocked hresult hq' hblocked with
      ⟨packet, srcIp, hv6, rfl⟩ | ⟨packet, srcIp, dest, hv4, haddr, hsend⟩
    . exact .inboundV6 i packet srcIp flushed hincoming hv6 hflushed houtputs
    . exact .inboundV4 i packet srcIp sock dest env _ p' effects flushed hincoming henv rfl hpeer hv4
        (hsource.reaches haddr hsockets hget hpeer) hsend hflushed houtputs
  | outbound id' p₀ p' src env effects hevent _ hget' hresult haccounts _ houtputs =>
    obtain rfl := hid haccounts
    rw [hget] at hget'
    cases hget'
    have hq' := quota_of_blocked (by rw [haccounts, if_pos rfl]) hblocked
    rcases outbound_blocks hd.isServer (hd.accountOf_eq hget) hunblocked hresult hq' hblocked with
      ⟨hnone, rfl⟩ | ⟨dest, hdest, hsend⟩
    . exact .outboundUnknown src env hevent hnone houtputs
    . exact .outbound src env dest _ p' effects hevent hdest hsend houtputs

theorem IsServer.wallet_of_get (hd : IsServer d) (hget : d.peerArena.get id = some p)
    : d.paymentWallet.isSome := by
  apply hd.wallet_isSome
  apply hd.keyPair_isSome id
  simp [accountOf, hget]

theorem IsServer.notified_iff (hd : IsServer d) (hsockets : ConnectedSockets d)
    (h : (machine C).step d e = some (d', outputs)) (hget : d.peerArena.get id = some p)
    (hip : p.firstAllowedIpv4.isSome) (hunblocked : (d.quotaOf id).blocked = false)
    (hblocked : (d'.quotaOf id).blocked = true)
    : Notified C id ⟨d, e, outputs, d'⟩ ↔ Notifiable C id ⟨d, e, outputs, d'⟩ := by
  have hwallet := hd.wallet_of_get hget
  cases hd.block_cases hsockets h hget hunblocked hblocked with
  | inboundV4 i packet srcIp sock dest env q' p' effects flushed hincoming _ hid hpeer hresult
      hreaches hsend _ houtputs =>
    have hsession : i.peer.tunnel.currentSession.isSome := by
      apply (incoming_packet hincoming _).2
      . exact packet
      . rw [hresult]
        rfl
    obtain ⟨session, hsession⟩ := Option.isSome_iff_exists.mp hsession
    have hip : Peer.firstAllowedIpv4 { i.peer with quota := some q' } |>.isSome := by
      simpa [Peer.firstAllowedIpv4, hpeer.allowedIps] using hip
    obtain ⟨msg, request, rfl⟩ := sendPaymentRequired_with_session hwallet hip hsession hsend
    apply iff_of_true
    . refine ⟨msg, request, sock, dest, session, ?_, hreaches⟩
      simp [houtputs, effectsOf_outputsFor]
    . exact .inl ⟨i, packet, srcIp, hincoming, hresult⟩
  | inboundV6 i packet srcIp flushed hincoming hresult hflushed houtputs =>
    apply iff_of_false
    . exact not_notified_of_isSend houtputs hflushed
    . rintro (⟨i', _, _, hincoming', hv4⟩ | ⟨_, _, _, _, rfl, _⟩)
      . rw [hincoming] at hincoming'
        cases hincoming'
        simp [hresult] at hv4
      . simp [incoming] at hincoming
  | outboundUnknown src env hevent haddr houtputs =>
    subst hevent
    apply iff_of_false
    . exact not_notified_of_isSend houtputs (by simp)
    . rintro (⟨_, _, _, hincoming, _⟩ | ⟨_, _, p'', addr, _, hget', haddr', _⟩)
      . simp [incoming] at hincoming
      . simp only [hget, Option.some.injEq] at hget'
        subst hget'
        simp [haddr] at haddr'
  | outbound src env dest q' p' effects hevent haddr hsend houtputs =>
    subst hevent
    cases hsession : p.tunnel.currentSession with
    | none =>
      apply iff_of_false
      . rintro ⟨msg, packet, sock, addr, session, hmem, _⟩
        simp only [houtputs, effectsOf_outputsFor, if_true] at hmem
        exact sendPaymentRequired_without_session (p := { p with quota := some q' }) hsession hsend
          _ _ _ _ _ hmem
      . rintro (⟨_, _, _, hincoming, _⟩ | ⟨_, _, p'', addr, _, hget', _, _, hsession'⟩)
        . simp [incoming] at hincoming
        . simp only [hget, Option.some.injEq] at hget'
          subst hget'
          simp [hsession] at hsession'
    | some session =>
      obtain ⟨msg, packet, rfl⟩ := sendPaymentRequired_with_session
        (p := { p with quota := some q' }) hwallet hip hsession hsend
      constructor
      . rintro ⟨_, _, sock, addr, _, hmem, hreaches, _⟩
        simp only [houtputs, effectsOf_outputsFor, if_true, List.mem_singleton,
          Effect.sealedRequest, Effect.signal.injEq] at hmem
        obtain ⟨_, _, rfl, rfl, _⟩ := hmem
        exact .inr ⟨src, env, p, addr, rfl, hget, haddr, (of_decide_eq_true hreaches).symm,
          by simp [hsession]⟩
      . rintro (⟨_, _, _, hincoming, _⟩ | ⟨_, _, p'', addr, _, hget', haddr', hfamily, _⟩)
        . simp [incoming] at hincoming
        . simp only [hget, Option.some.injEq] at hget'
          subst hget'
          rw [haddr, Option.some.injEq] at haddr'
          subst haddr'
          refine ⟨msg, packet, .udp4, dest, session, ?_, ?_, .inr ?_⟩
          . simp [houtputs, effectsOf_outputsFor]
          . simp [Socket.reaches, Socket.family, hfamily]
          . simp [endpointOf, hget, haddr]

variable {nextIndex : IndexLfsr} {config : DeviceConfig} {paymentConfig : Payment.PaymentConfig}
  {ts : List (Transition Device Event Output)}

/--
In every run of a server, a transition that blocks the quota of a peer whose first allowed IP is an
IPv4 address sends the peer a request for payment exactly if the packet is an IPv4 packet from the
peer, or a packet to the peer while it has an IPv4 endpoint and a session.
-/
theorem server_block_notified_iff (hserver : paymentConfig.isServer = true)
    (hrun : (machine C).Run (new nextIndex config paymentConfig) ts d)
    : ∀ t ∈ ts, ∀ id p,
        t.before.peerArena.get id = some p
          →
        p.firstAllowedIpv4.isSome
          →
        (t.before.quotaOf id).blocked = false
          →
        (t.after.quotaOf id).blocked = true
          →
        (Notified C id t ↔ Notifiable C id t) := by
  intro t ht id p hget hip hunblocked hblocked
  have hd := isServer_before_of_run hserver hrun ht
  have hsockets := connectedSockets_before_of_run hrun ht
  exact hd.notified_iff hsockets (hrun.step_of_mem ht) hget hip hunblocked hblocked

end

namespace Sample

def clientAddr6 : SocketAddr where
  ip := .v6 (.zero 16)
  port := 5000

theorem exists_block (addr : SocketAddr)
    (h : ((machine primitives).exec server (connected addr)).any (fun r => isReady addr r.1 r.2)
      = true)
    : ∃ ts d, (machine primitives).Run server ts d ∧
        ∃ t ∈ ts, ∃ p q src,
          t.event = .iface src env
            ∧
          Ready t.before 0 addr clientIp p q
            ∧
          (t.before.quotaOf 0).blocked = false ∧ (t.after.quotaOf 0).blocked = true := by
  obtain ⟨ts, d, p, q, src, d', p', q', outputs, hrun, hready, hunblocked, hstep, hready', hblocked⟩ :=
    exists_exhausted addr h
  refine ⟨_, d', hrun.snoc hstep, ⟨d, .iface src env, outputs, d'⟩, by simp, p, q, src, rfl, hready,
    ?_, ?_⟩
  . rw [hready.quotaOf_eq]
    exact hunblocked
  . rw [hready'.quotaOf_eq]
    exact hblocked

end Sample

/--
A packet for a client with an IPv6 endpoint blocks the client, but the request for payment is handed
to the IPv4 socket.
-/
theorem exists_block_not_notified
    : ∃ ts d, (machine Sample.primitives).Run Sample.server ts d ∧
        ∃ t ∈ ts, ∃ p,
          t.before.peerArena.get 0 = some p
            ∧
          (p.firstAllowedIpv4.isSome ∧ t.before.paymentWallet.isSome)
            ∧
          ((t.before.quotaOf 0).blocked = false ∧ (t.after.quotaOf 0).blocked = true)
            ∧
          ¬Notified Sample.primitives 0 t := by
  obtain ⟨ts, d, hrun, t, ht, p, q, src, hevent, hready, hunblocked, hblocked⟩ :=
    Sample.exists_block Sample.clientAddr6 (by decide +kernel)
  have hget := hready.get
  have hip : p.firstAllowedIpv4.isSome := by rw [hready.ip]; rfl
  refine ⟨ts, d, hrun, t, ht, p, hget, ⟨hip, hready.wallet⟩, ⟨hunblocked, hblocked⟩, ?_⟩
  have hd : IsServer t.before := isServer_before_of_run rfl hrun ht
  have hiff := hd.notified_iff (connectedSockets_before_of_run hrun ht) (hrun.step_of_mem ht) hget
    hip hunblocked hblocked
  rw [hiff]
  rintro (⟨_, _, _, hincoming, _⟩ | ⟨_, _, p', addr, _, hget', haddr, hfamily, _⟩)
  . simp [hevent, incoming] at hincoming
  . simp only [hget, Option.some.injEq] at hget'
    subst hget'
    rw [hready.addr, Option.some.injEq] at haddr
    subst haddr
    simp [SocketAddr.family, IpAddr.family, Sample.clientAddr6] at hfamily

theorem server_block_notified_iff_clientAddr
    : ∃ ts d, (machine Sample.primitives).Run Sample.server ts d ∧
        ∃ t ∈ ts,
          ((t.before.quotaOf 0).blocked = false ∧ (t.after.quotaOf 0).blocked = true)
            ∧
          Notified Sample.primitives 0 t := by
  obtain ⟨ts, d, hrun, t, ht, p, q, src, hevent, hready, hunblocked, hblocked⟩ :=
    Sample.exists_block Sample.clientAddr (by decide +kernel)
  have hip : p.firstAllowedIpv4.isSome := by rw [hready.ip]; rfl
  refine ⟨ts, d, hrun, t, ht, ⟨hunblocked, hblocked⟩, ?_⟩
  rw [server_block_notified_iff rfl hrun t ht 0 p hready.get hip hunblocked hblocked]
  exact .inr ⟨src, Sample.env, p, Sample.clientAddr, hevent, hready.get, hready.addr,
    rfl, hready.session⟩

end Device
