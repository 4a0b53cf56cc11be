import VeilVpn.Link.Lemmas.Signals

namespace Link

open Device

section Packets

variable {d d' : Device} {wallet : Payment.PaymentWallet} {ip : Ipv4Addr} {env : Env}

def requestIn (packet : Bytes) : Option Payment.PaymentRequired :=
  (Payment.extractSignalPayload packet).bind Payment.PaymentRequired.decode

def submitIn (packet : Bytes) : Option Payment.PaymentSubmit :=
  (Payment.extractSignalPayload packet).bind Payment.PaymentSubmit.decode

theorem pending_iff (l : Link)
    : Pending l
        ↔
      (∃ packet ∈ l.toClient, ∃ req, requestIn packet = some req)
        ∨
      (∃ packet ∈ l.toServer, ∃ submit, submitIn packet = some submit) := by
  simp only [Pending, requestIn, submitIn, Option.bind_eq_some_iff]
  constructor
  . rintro (⟨packet, hmem, payload, req, h⟩ | ⟨packet, hmem, payload, submit, h⟩)
    . exact .inl ⟨packet, hmem, req, payload, h⟩
    . exact .inr ⟨packet, hmem, submit, payload, h⟩
  . rintro (⟨packet, hmem, req, payload, h⟩ | ⟨packet, hmem, submit, payload, h⟩)
    . exact .inl ⟨packet, hmem, payload, req, h⟩
    . exact .inr ⟨packet, hmem, payload, submit, h⟩

theorem extractSignalPayload_encode (srcIp dstIp : Ipv4Addr) (signal : Signal)
    : Payment.extractSignalPayload (Payment.signalPacket srcIp dstIp signal.encode)
        = some signal.encode := by
  have hlen := signal.length_encode_le
  exact Payment.extractSignalPayload_signalPacket _ _ _ (by omega)

theorem requestIn_signalPacket (srcIp dstIp : Ipv4Addr) (req : Payment.PaymentRequired)
    : requestIn (Payment.signalPacket srcIp dstIp req.encode) = some req := by
  have hextract := extractSignalPayload_encode srcIp dstIp (.paymentRequired req)
  rw [Signal.encode] at hextract
  rw [requestIn, hextract, Option.bind_some, Payment.PaymentRequired.decode_encode]

theorem submitIn_signalPacket (srcIp dstIp : Ipv4Addr) (submit : Payment.PaymentSubmit)
    : submitIn (Payment.signalPacket srcIp dstIp submit.encode) = some submit := by
  have hextract := extractSignalPayload_encode srcIp dstIp (.paymentSubmit submit)
  rw [Signal.encode] at hextract
  rw [submitIn, hextract, Option.bind_some, Payment.PaymentSubmit.decode_encode]

theorem requestIn_accepted {packet : Bytes} (h : IsAccepted ip packet) : requestIn packet = none := by
  obtain ⟨msg, rfl⟩ := h
  have hextract := extractSignalPayload_encode Payment.paymentGatewayIp ip (.paymentAccepted msg)
  have hhead : msg.encode.head? ≠ some Payment.msgPaymentRequired := by
    change some Payment.msgPaymentAccepted ≠ some Payment.msgPaymentRequired
    decide
  rw [Signal.encode] at hextract
  rw [requestIn, hextract, Option.bind_some, Payment.PaymentRequired.decode, Payment.decodeTlv,
    if_pos (.inr hhead)]

end Packets

section Steps

variable {C : Primitives} {id id' : PeerId} {d d' : Device} {e : Device.Event}
  {outputs : List Output} {incoming outgoing incoming' outgoing' : List Bytes} {packet : Bytes}

theorem receive_eq_some (h : receive (some packet) incoming = some incoming')
    : packet ∈ incoming ∧ incoming' = incoming.erase packet := by
  unfold receive at h
  dsimp only at h
  split at h
  . next hmem =>
    cases h
    exact ⟨hmem, rfl⟩
  . simp at h

theorem deviceStep_eq_some
    (h : deviceStep C id d e incoming outgoing = some (d', outputs, incoming', outgoing'))
    : e.isConfig = false
        ∧
      receive (arrival C id d e) incoming = some incoming'
        ∧
      (Device.machine C).step d e = some (d', outputs)
        ∧
      outgoing' = outgoing ++ signalPackets (effectsOf id outputs) := by
  unfold deviceStep at h
  split at h
  . simp at h
  . next hconfig =>
    split at h
    . next hreceive hstep =>
      cases h
      exact ⟨by simpa using hconfig, hreceive, hstep, rfl⟩
    . simp at h

theorem exists_env (h : e.isConfig = false) : ∃ env, e.env = some env := by
  cases e with
  | udp _ _ env => exact ⟨env, rfl⟩
  | conn _ _ env => exact ⟨env, rfl⟩
  | iface _ env => exact ⟨env, rfl⟩
  | timer _ env => exact ⟨env, rfl⟩
  | resetRateLimiter env => exact ⟨env, rfl⟩
  | updatePeer => simp [Event.isConfig] at h
  | clearPeers => simp [Event.isConfig] at h
  | setKey => simp [Event.isConfig] at h
  | openListenSocket => simp [Event.isConfig] at h
  | setFwmark => simp [Event.isConfig] at h

end Steps

/--
A server in a state that it can reach, with a client that has an IPv4 address.
-/
structure ServerSide (C : Primitives) (id : PeerId) (wallet : Payment.PaymentWallet)
    (ip : Ipv4Addr) (d : Device) : Prop where
  reachable : ∃ nextIndex config paymentConfig ts, paymentConfig.isServer = true ∧
    (Device.machine C).Run (.new nextIndex config paymentConfig) ts d
  wallet : d.paymentWallet = some wallet
  peer : ∃ p, d.peerArena.get id = some p ∧ p.firstAllowedIpv4 = some ip

/--
A client that can pay, with a server that it sends IPv4 packets to.
-/
structure ClientSide (C : Primitives) (id : PeerId) (key : FixedBytes 32) (ip : Ipv4Addr)
    (d : Device) : Prop where
  isClient : d.paymentConfig.isServer = false
  wallet : d.paymentWallet = some (.fromWireguardKey C.payment key)
  peer : ∃ p, d.peerArena.get id = some p ∧ p.firstAllowedIpv4 = some ip

structure Configured (C : Primitives) (id id' : PeerId) (wallet : Payment.PaymentWallet)
    (key : FixedBytes 32) (ip ip' : Ipv4Addr) (l : Link) : Prop where
  server : ServerSide C id wallet ip l.server
  client : ClientSide C id' key ip' l.client
  ip_ne : ip ≠ Payment.paymentGatewayIp
  domain : l.client.paymentConfig.gatewayDomain = l.server.paymentConfig.gatewayDomain

/--
Everything in flight was sent by the server or by the client.
-/
structure Honest (C : Primitives) (wallet : Payment.PaymentWallet) (ip ip' : Ipv4Addr) (l : Link)
    : Prop where
  toClient : ∀ packet ∈ l.toClient,
    (∃ env, packet = requestPacket l.server wallet ip env) ∨ IsAccepted ip packet
  toServer : ∀ packet ∈ l.toServer, ∃ submit,
    packet = Payment.signalPacket ip' Payment.paymentGatewayIp submit.encode
      ∧ Addressed l.server submit ∧ Signed C l.server submit

section Invariants

variable {C : Primitives} {id id' : PeerId} {wallet : Payment.PaymentWallet} {key : FixedBytes 32}
  {ip ip' : Ipv4Addr} {l l' : Link} {e : Event} {outputs : List Output}

theorem paymentConfig_eq_of_static_eq {d d' : Device} (h : d'.static = d.static)
    : d'.paymentConfig = d.paymentConfig := by
  change d'.static.paymentConfig = d.static.paymentConfig
  rw [h]

theorem paymentWallet_eq_of_static_eq {d d' : Device} (h : d'.static = d.static)
    : d'.paymentWallet = d.paymentWallet := by
  change d'.static.paymentWallet = d.static.paymentWallet
  rw [h]

section Sides

variable {d d' : Device} {e : Device.Event}

theorem ServerSide.isServer (hd : ServerSide C id wallet ip d) : IsServer d := by
  obtain ⟨_, _, _, _, hserver, hrun⟩ := hd.reachable
  exact isServer_of_run hserver hrun

theorem ServerSide.connectedSockets (hd : ServerSide C id wallet ip d) : ConnectedSockets d := by
  obtain ⟨_, _, _, _, _, hrun⟩ := hd.reachable
  exact connectedSockets_of_run hrun

theorem ServerSide.step (hd : ServerSide C id wallet ip d) (he : e.isConfig = false)
    (h : (Device.machine C).step d e = some (d', outputs))
    : ServerSide C id wallet ip d' := by
  obtain ⟨nextIndex, config, paymentConfig, ts, hserver, hrun⟩ := hd.reachable
  obtain ⟨p, hget, hip⟩ := hd.peer
  refine ⟨⟨nextIndex, config, paymentConfig, _, hserver, hrun.snoc h⟩, ?_, ?_⟩
  . rw [paymentWallet_eq_of_static_eq (static_of_step h he), hd.wallet]
  . rw [← hip]
    exact firstAllowedIpv4_of_step h hget

theorem ClientSide.step (hd : ClientSide C id key ip d) (he : e.isConfig = false)
    (h : (Device.machine C).step d e = some (d', outputs))
    : ClientSide C id key ip d' := by
  have hstatic := static_of_step h he
  obtain ⟨p, hget, hip⟩ := hd.peer
  refine ⟨?_, ?_, ?_⟩
  . rw [paymentConfig_eq_of_static_eq hstatic, hd.isClient]
  . rw [paymentWallet_eq_of_static_eq hstatic, hd.wallet]
  . rw [← hip]
    exact firstAllowedIpv4_of_step h hget

end Sides

theorem Configured.blocked_iff (hl : Configured C id id' wallet key ip ip' l)
    : Blocked id l ↔ (l.server.quotaOf id).blocked = true := by
  obtain ⟨p, hget, _⟩ := hl.server.peer
  have hquota := hl.server.isServer.accountOf_eq hget
  constructor
  . rintro ⟨p', q, hget', hq, hblocked⟩
    rw [hget] at hget'
    cases hget'
    rw [hq, Option.some.injEq] at hquota
    rw [← hquota]
    exact hblocked
  . intro hblocked
    exact ⟨p, _, hget, hquota, hblocked⟩

theorem step_server_eq_some {e : Device.Event}
    (h : (machine C id id').step l (.server e) = some (l', outputs))
    : e.isConfig = false
        ∧
      receive (arrival C id l.server e) l.toServer = some l'.toServer
        ∧
      (Device.machine C).step l.server e = some (l'.server, outputs)
        ∧
      l'.toClient = l.toClient ++ signalPackets (effectsOf id outputs)
        ∧
      l'.client = l.client := by
  simp only [machine, step] at h
  split at h
  . simp at h
  . next hstep =>
    cases h
    obtain ⟨hconfig, hreceive, hstep, houtgoing⟩ := deviceStep_eq_some hstep
    exact ⟨hconfig, hreceive, hstep, houtgoing, rfl⟩

theorem step_client_eq_some {e : Device.Event}
    (h : (machine C id id').step l (.client e) = some (l', outputs))
    : e.isConfig = false
        ∧
      receive (arrival C id' l.client e) l.toClient = some l'.toClient
        ∧
      (Device.machine C).step l.client e = some (l'.client, outputs)
        ∧
      l'.toServer = l.toServer ++ signalPackets (effectsOf id' outputs)
        ∧
      l'.server = l.server := by
  simp only [machine, step] at h
  split at h
  . simp at h
  . next hstep =>
    cases h
    obtain ⟨hconfig, hreceive, hstep, houtgoing⟩ := deviceStep_eq_some hstep
    exact ⟨hconfig, hreceive, hstep, houtgoing, rfl⟩

theorem step_loseToClient_eq_some {packet : Bytes}
    (h : (machine C id id').step l (.loseToClient packet) = some (l', outputs))
    : packet ∈ l.toClient ∧ l' = { l with toClient := l.toClient.erase packet } := by
  simp only [machine, step] at h
  split at h
  . simp at h
  . next hreceive =>
    cases h
    obtain ⟨hmem, rfl⟩ := receive_eq_some hreceive
    exact ⟨hmem, rfl⟩

theorem step_loseToServer_eq_some {packet : Bytes}
    (h : (machine C id id').step l (.loseToServer packet) = some (l', outputs))
    : packet ∈ l.toServer ∧ l' = { l with toServer := l.toServer.erase packet } := by
  simp only [machine, step] at h
  split at h
  . simp at h
  . next hreceive =>
    cases h
    obtain ⟨hmem, rfl⟩ := receive_eq_some hreceive
    exact ⟨hmem, rfl⟩

theorem server_of_step (h : (machine C id id').step l e = some (l', outputs))
    : l'.server = l.server
        ∨
      ∃ e, e.isConfig = false ∧ (Device.machine C).step l.server e = some (l'.server, outputs) := by
  cases e with
  | server e =>
    obtain ⟨hconfig, _, hstep, _⟩ := step_server_eq_some h
    exact .inr ⟨e, hconfig, hstep⟩
  | client e =>
    obtain ⟨_, _, _, _, hserver⟩ := step_client_eq_some h
    exact .inl hserver
  | loseToClient packet =>
    rw [(step_loseToClient_eq_some h).2]
    exact .inl rfl
  | loseToServer packet =>
    rw [(step_loseToServer_eq_some h).2]
    exact .inl rfl

theorem client_of_step (h : (machine C id id').step l e = some (l', outputs))
    : l'.client = l.client
        ∨
      ∃ e, e.isConfig = false ∧ (Device.machine C).step l.client e = some (l'.client, outputs) := by
  cases e with
  | server e =>
    obtain ⟨_, _, _, _, hclient⟩ := step_server_eq_some h
    exact .inl hclient
  | client e =>
    obtain ⟨hconfig, _, hstep, _⟩ := step_client_eq_some h
    exact .inr ⟨e, hconfig, hstep⟩
  | loseToClient packet =>
    rw [(step_loseToClient_eq_some h).2]
    exact .inl rfl
  | loseToServer packet =>
    rw [(step_loseToServer_eq_some h).2]
    exact .inl rfl

theorem static_server_of_step (h : (machine C id id').step l e = some (l', outputs))
    : l'.server.static = l.server.static := by
  rcases server_of_step h with hsame | ⟨e, hconfig, hstep⟩
  . rw [hsame]
  . exact static_of_step hstep hconfig

theorem static_client_of_step (h : (machine C id id').step l e = some (l', outputs))
    : l'.client.static = l.client.static := by
  rcases client_of_step h with hsame | ⟨e, hconfig, hstep⟩
  . rw [hsame]
  . exact static_of_step hstep hconfig

theorem Configured.step (hl : Configured C id id' wallet key ip ip' l)
    (h : (machine C id id').step l e = some (l', outputs))
    : Configured C id id' wallet key ip ip' l' := by
  refine ⟨?_, ?_, hl.ip_ne, ?_⟩
  . rcases server_of_step h with hsame | ⟨e, hconfig, hstep⟩
    . rw [hsame]
      exact hl.server
    . exact hl.server.step hconfig hstep
  . rcases client_of_step h with hsame | ⟨e, hconfig, hstep⟩
    . rw [hsame]
      exact hl.client
    . exact hl.client.step hconfig hstep
  . rw [paymentConfig_eq_of_static_eq (static_server_of_step h),
      paymentConfig_eq_of_static_eq (static_client_of_step h), hl.domain]

/--
What a step of the link does to the quota of the client and to the signals in flight.
-/
inductive Move (C : Primitives) (id : PeerId) (wallet : Payment.PaymentWallet) (ip ip' : Ipv4Addr)
    (l l' : Link) (outputs : List Output) : Event → Prop where
  | asks (e : Device.Event) (env : Env) (packets : List Bytes) (henv : e.env = some env)
    (hasks : Asks l.server wallet ip env (l.server.quotaOf id) (l'.server.quotaOf id) packets)
    (hblock : AskedFor C id l.server e → (l.server.quotaOf id).blocked = false →
      (l'.server.quotaOf id).blocked = true → packets = [requestPacket l.server wallet ip env])
    (hpackets : signalPackets (effectsOf id outputs) = packets)
    (htoClient : l'.toClient = l.toClient ++ packets) (htoServer : l'.toServer = l.toServer)
    : Move C id wallet ip ip' l l' outputs (.server e)
  | pays (e : Device.Event) (env : Env) (packet : Bytes) (submit : Payment.PaymentSubmit)
    (packets : List Bytes) (henv : e.env = some env)
    (harrival : arrival C id l.server e = some packet) (hmem : packet ∈ l.toServer)
    (hsubmit : submitIn packet = some submit)
    (hpays : Pays l.server ip env submit (l.server.quotaOf id) (l'.server.quotaOf id) packets)
    (htoClient : l'.toClient = l.toClient ++ packets)
    (htoServer : l'.toServer = l.toServer.erase packet)
    : Move C id wallet ip ip' l l' outputs (.server e)
  | idle (e : Device.Event) (hserver : l'.server = l.server)
    (htoClient : l'.toClient = l.toClient) (htoServer : l'.toServer = l.toServer)
    : Move C id wallet ip ip' l l' outputs (.client e)
  | answers (e : Device.Event) (env : Env) (submit : Payment.PaymentSubmit)
    (hserver : l'.server = l.server) (hmem : requestPacket l.server wallet ip env ∈ l.toClient)
    (hnonce : submit.nonce = env.nonce) (haddressed : Addressed l.server submit)
    (hsigned : Signed C l.server submit)
    (htoClient : l'.toClient = l.toClient.erase (requestPacket l.server wallet ip env))
    (htoServer : l'.toServer
      = l.toServer ++ [Payment.signalPacket ip' Payment.paymentGatewayIp submit.encode])
    : Move C id wallet ip ip' l l' outputs (.client e)
  | ignores (e : Device.Event) (packet : Bytes) (hserver : l'.server = l.server)
    (hmem : packet ∈ l.toClient) (haccepted : IsAccepted ip packet)
    (htoClient : l'.toClient = l.toClient.erase packet) (htoServer : l'.toServer = l.toServer)
    : Move C id wallet ip ip' l l' outputs (.client e)
  | loseToClient (packet : Bytes) (hserver : l'.server = l.server)
    (htoClient : l'.toClient = l.toClient.erase packet) (htoServer : l'.toServer = l.toServer)
    : Move C id wallet ip ip' l l' outputs (.loseToClient packet)
  | loseToServer (packet : Bytes) (hserver : l'.server = l.server)
    (htoClient : l'.toClient = l.toClient) (htoServer : l'.toServer = l.toServer.erase packet)
    : Move C id wallet ip ip' l l' outputs (.loseToServer packet)

theorem move_server {e : Device.Event} (hl : Configured C id id' wallet key ip ip' l)
    (hhonest : Honest C wallet ip ip' l)
    (h : (machine C id id').step l (.server e) = some (l', outputs))
    : Move C id wallet ip ip' l l' outputs (.server e) := by
  obtain ⟨hconfig, hreceive, hstep, htoClient, _⟩ := step_server_eq_some h
  obtain ⟨env, henv⟩ := exists_env hconfig
  obtain ⟨p, hget, hip⟩ := hl.server.peer
  cases harrival : arrival C id l.server e with
  | none =>
    rw [harrival] at hreceive
    have hasks := server_asks hl.server.isServer hget hip hl.server.wallet hstep henv harrival
    refine .asks e env _ henv hasks ?_ rfl htoClient (Option.some.inj hreceive).symm
    intro hasked hunblocked hblocked
    exact server_asks_of_block hl.server.isServer hl.server.connectedSockets hget hip
      hl.server.wallet hstep henv hasked hunblocked hblocked
  | some packet =>
    rw [harrival] at hreceive
    obtain ⟨hmem, htoServer⟩ := receive_eq_some hreceive
    obtain ⟨submit, hpacket, haddressed, hsigned⟩ := hhonest.toServer packet hmem
    have hpays := server_pays hl.server.isServer hget hip hstep henv (hpacket ▸ harrival) haddressed
      hsigned
    have hsubmit : submitIn packet = some submit := by
      rw [hpacket, submitIn_signalPacket]
    exact .pays e env packet submit _ henv harrival hmem hsubmit hpays htoClient htoServer

theorem move_client {e : Device.Event} (hrecovers : C.payment.RecoversSigner)
    (hl : Configured C id id' wallet key ip ip' l) (hhonest : Honest C wallet ip ip' l)
    (h : (machine C id id').step l (.client e) = some (l', outputs))
    : Move C id wallet ip ip' l l' outputs (.client e) := by
  obtain ⟨hconfig, hreceive, hstep, htoServer, hserver⟩ := step_client_eq_some h
  obtain ⟨env, henv⟩ := exists_env hconfig
  obtain ⟨p, hget, hip⟩ := hl.client.peer
  cases harrival : arrival C id' l.client e with
  | none =>
    rw [harrival] at hreceive
    rw [client_silent hl.client.isClient hstep harrival, List.append_nil] at htoServer
    exact .idle e hserver (Option.some.inj hreceive).symm htoServer
  | some packet =>
    rw [harrival] at hreceive
    obtain ⟨hmem, htoClient⟩ := receive_eq_some hreceive
    rcases hhonest.toClient packet hmem with ⟨env', rfl⟩ | haccepted
    . rw [client_answers hget hip hl.client.wallet hstep henv hl.ip_ne harrival] at htoServer
      refine .answers e env' _ hserver hmem rfl ?_ (signed_answer hrecovers hl.domain _ _ _)
        htoClient htoServer
      exact ⟨wallet, hl.server.wallet, rfl, UInt64.le_refl _⟩
    . rw [client_ignores_accepted hget hstep henv hl.ip_ne haccepted harrival, List.append_nil]
        at htoServer
      exact .ignores e packet hserver hmem haccepted htoClient htoServer

theorem move_of_step (hrecovers : C.payment.RecoversSigner)
    (hl : Configured C id id' wallet key ip ip' l) (hhonest : Honest C wallet ip ip' l)
    (h : (machine C id id').step l e = some (l', outputs))
    : Move C id wallet ip ip' l l' outputs e := by
  cases e with
  | server e => exact move_server hl hhonest h
  | client e => exact move_client hrecovers hl hhonest h
  | loseToClient packet =>
    obtain ⟨_, rfl⟩ := step_loseToClient_eq_some h
    exact .loseToClient packet rfl rfl rfl
  | loseToServer packet =>
    obtain ⟨_, rfl⟩ := step_loseToServer_eq_some h
    exact .loseToServer packet rfl rfl rfl

theorem Honest.step (hrecovers : C.payment.RecoversSigner)
    (hl : Configured C id id' wallet key ip ip' l) (hhonest : Honest C wallet ip ip' l)
    (h : (machine C id id').step l e = some (l', outputs))
    : Honest C wallet ip ip' l' := by
  have hstatic := static_server_of_step h
  have hconfig := paymentConfig_eq_of_static_eq hstatic
  have hwallet := paymentWallet_eq_of_static_eq hstatic
  have hmove := move_of_step hrecovers hl hhonest h
  constructor
  . intro packet hmem
    simp only [requestPacket, request, hconfig]
    have hold := hhonest.toClient packet
    cases hmove with
    | asks _ env _ _ hasks _ _ htoClient _ =>
      rw [htoClient, List.mem_append] at hmem
      rcases hmem with hmem | hmem
      . exact hold hmem
      . exact .inl ⟨env, hasks.requests packet hmem⟩
    | pays _ _ _ _ _ _ _ _ _ hpays htoClient _ =>
      rw [htoClient, List.mem_append] at hmem
      rcases hmem with hmem | hmem
      . exact hold hmem
      . cases hpays with
        | replayed _ _ hpackets => simp [hpackets] at hmem
        | unsettled _ _ hpackets => simp [hpackets] at hmem
        | credited _ hpackets => exact .inr (hpackets packet hmem)
    | idle _ _ htoClient _ => exact hold (htoClient ▸ hmem)
    | answers _ _ _ _ _ _ _ _ htoClient _ => exact hold (List.mem_of_mem_erase (htoClient ▸ hmem))
    | ignores _ _ _ _ _ htoClient _ => exact hold (List.mem_of_mem_erase (htoClient ▸ hmem))
    | loseToClient _ _ htoClient _ => exact hold (List.mem_of_mem_erase (htoClient ▸ hmem))
    | loseToServer _ _ htoClient _ => exact hold (htoClient ▸ hmem)
  . intro packet hmem
    simp only [Addressed, Signed, hconfig, hwallet]
    have hold := hhonest.toServer packet
    cases hmove with
    | asks _ _ _ _ _ _ _ _ htoServer => exact hold (htoServer ▸ hmem)
    | pays _ _ _ _ _ _ _ _ _ _ _ htoServer => exact hold (List.mem_of_mem_erase (htoServer ▸ hmem))
    | idle _ _ _ htoServer => exact hold (htoServer ▸ hmem)
    | answers _ _ submit _ _ _ haddressed hsigned _ htoServer =>
      rw [htoServer, List.mem_append, List.mem_singleton] at hmem
      rcases hmem with hmem | hmem
      . exact hold hmem
      . exact ⟨submit, hmem, haddressed, hsigned⟩
    | ignores _ _ _ _ _ _ htoServer => exact hold (htoServer ▸ hmem)
    | loseToClient _ _ _ htoServer => exact hold (htoServer ▸ hmem)
    | loseToServer _ _ _ htoServer => exact hold (List.mem_of_mem_erase (htoServer ▸ hmem))

end Invariants

end Link
