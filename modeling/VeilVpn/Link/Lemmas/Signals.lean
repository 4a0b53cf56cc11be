import VeilVpn.Payment.Lemmas.Authorization
import VeilVpn.Device.Lemmas.Notification
import VeilVpn.Device.Lemmas.Peers
import VeilVpn.Device.Lemmas.Replay
import VeilVpn.Link.Basic

namespace Link

open Device

section Handlers

variable {C : Primitives} {d : Device} {p p' : Peer} {q : Payment.BandwidthQuota} {sock : Socket}
  {env : Env} {effects : List Effect} {flow : Flow} {wallet : Payment.PaymentWallet} {ip : Ipv4Addr}

@[simp]
theorem signalPackets_append (xs ys : List Effect)
    : signalPackets (xs ++ ys) = signalPackets xs ++ signalPackets ys := by
  simp [signalPackets]

theorem signalPackets_of_isSend (h : ∀ f ∈ effects, f.isSend) : signalPackets effects = [] := by
  rw [signalPackets, List.filterMap_eq_nil_iff]
  intro f hf
  have hsend := h f hf
  cases f with
  | send => rfl
  | _ => simp [Effect.isSend] at hsend

theorem signalPackets_encapsulateTun {src : Bytes} (h : ∀ f ∈ effects, f.isSend)
    : signalPackets (.encapsulateTun src :: effects) = [] := by
  rw [← List.singleton_append, signalPackets_append, signalPackets_of_isSend h]
  rfl

theorem signalPackets_sendSignal {signal : Signal} {srcIp dstIp : Ipv4Addr} {addr : SocketAddr}
    (h : sendSignal C p signal srcIp dstIp sock addr env = some (p', effects))
    : signalPackets effects = [Payment.signalPacket srcIp dstIp signal.encode] := by
  obtain ⟨_, packet, result, rfl, hpacket⟩ := sendSignal_eq_some h
  rw [← hpacket]
  rfl

def request (d : Device) (wallet : Payment.PaymentWallet) (env : Env)
    : Payment.PaymentRequired where
  amountUsdc := d.paymentConfig.amountPerQuota
  nonce := env.nonce
  recipient := wallet.ethereumAddress
  deadline := UInt64.ofNat env.systemTime.asSecs + 300
  chainId := d.paymentConfig.chainId
  usdcContract := d.paymentConfig.usdcContract

def requestPacket (d : Device) (wallet : Payment.PaymentWallet) (ip : Ipv4Addr) (env : Env)
    : Bytes :=
  Payment.signalPacket Payment.paymentGatewayIp ip (request d wallet env).encode

theorem signalPackets_sendPaymentRequired {addr : SocketAddr} (hwallet : d.paymentWallet = some wallet)
    (hip : p.firstAllowedIpv4 = some ip)
    (h : sendPaymentRequired C d p sock addr env = some (p', effects))
    : signalPackets effects = [requestPacket d wallet ip env] := by
  simp only [sendPaymentRequired, hwallet, hip] at h
  rw [signalPackets_sendSignal h, requestPacket, request, Signal.encode]

/--
How the quota of a client changes when no payment arrives, and what the server asks for.
-/
structure Asks (d : Device) (wallet : Payment.PaymentWallet) (ip : Ipv4Addr) (env : Env)
    (q q' : Payment.BandwidthQuota) (packets : List Bytes) : Prop where
  usedNonces : q'.usedNonces = q.usedNonces
  requests : ∀ packet ∈ packets, packet = requestPacket d wallet ip env
  blocked : q.blocked = true → q' = q ∧ packets = []

theorem asks_refl (q : Payment.BandwidthQuota) : Asks d wallet ip env q q [] :=
  ⟨rfl, by simp, fun _ => ⟨rfl, rfl⟩⟩

section Server

variable (hserver : d.paymentConfig.isServer = true) (hq : p.quota = some q)

include hserver hq

theorem asks_of_forward {packet : Bytes} (h : enforceQuota d p packet = (p', .forward))
    : ∃ q', p'.quota = some q' ∧ Asks d wallet ip env q q' [] := by
  obtain ⟨q', hblocked, hconsume, rfl⟩ := enforceQuota_eq_forward hserver hq h
  refine ⟨q', rfl, Payment.BandwidthQuota.usedNonces_consume hconsume, by simp, ?_⟩
  intro hblocked'
  simp [Payment.BandwidthQuota.isBlocked, hblocked'] at hblocked

theorem asks_of_exhausted {packet : Bytes} {packets : List Bytes}
    (h : enforceQuota d p packet = (p', .exhausted))
    (hpackets : ∀ packet ∈ packets, packet = requestPacket d wallet ip env)
    : ∃ q', p'.quota = some q' ∧ Asks d wallet ip env q q' packets := by
  obtain ⟨q', hblocked, hconsume, rfl⟩ := enforceQuota_eq_exhausted hserver hq h
  refine ⟨q', rfl, Payment.BandwidthQuota.usedNonces_consume hconsume, hpackets, ?_⟩
  intro hblocked'
  simp [Payment.BandwidthQuota.isBlocked, hblocked'] at hblocked

variable (hwallet : d.paymentWallet = some wallet) (hip : p.firstAllowedIpv4 = some ip)

include hwallet hip

theorem asks_of_sendPaymentRequired {packet : Bytes} {addr : SocketAddr} {p'' : Peer}
    (h : enforceQuota d p packet = (p', .exhausted))
    (hsend : sendPaymentRequired C d p' sock addr env = some (p'', effects))
    : ∃ q', p''.quota = some q' ∧ Asks d wallet ip env q q' (signalPackets effects) := by
  have hip' : p'.firstAllowedIpv4 = some ip := by
    rw [(enforceQuota_sameButState h).firstAllowedIpv4, hip]
  rw [signalPackets_sendPaymentRequired hwallet hip' hsend]
  obtain ⟨q', hq', hasks⟩ : ∃ q', p'.quota = some q' ∧
      Asks d wallet ip env q q' [requestPacket d wallet ip env] :=
    asks_of_exhausted hserver hq h (by simp)
  refine ⟨q', ?_, hasks⟩
  rw [(sendPaymentRequired_eq_some hsend).1.quota, hq']

theorem handleResult_asks {result : Noise.TunnResult} {dest addr : Option SocketAddr}
    {afterErr : Flow}
    (hsignal : ∀ packet srcIp, result = .writeToTunnelV4 packet srcIp →
      Payment.isPaymentSignal packet = false)
    (h : handleResult C d p result sock dest addr afterErr env = some (p', effects, flow))
    : ∃ q', p'.quota = some q' ∧ Asks d wallet ip env q q' (signalPackets effects) := by
  cases handleResult_cases h with
  | idle _ hpeer hsends =>
    rw [hpeer, signalPackets_of_isSend hsends]
    exact ⟨q, hq, asks_refl q⟩
  | ignored packet srcIp hresult hsignal' _ _ _ => simp [hsignal packet srcIp hresult] at hsignal'
  | submit packet srcIp _ _ hresult hsignal' _ _ _ _ =>
    simp [hsignal packet srcIp hresult] at hsignal'
  | request packet srcIp _ _ hresult hsignal' _ _ _ _ =>
    simp [hsignal packet srcIp hresult] at hsignal'
  | refused _ _ _ _ hpeer heffects =>
    subst hpeer heffects
    exact ⟨q, hq, asks_refl q⟩
  | blocked _ _ _ _ hverdict heffects =>
    subst heffects
    obtain ⟨rfl, _⟩ := enforceQuota_eq_blocked hserver hq hverdict
    exact ⟨q, hq, asks_refl q⟩
  | exhausted _ _ _ _ _ _ hverdict _ hsend =>
    exact asks_of_sendPaymentRequired hserver hq hwallet hip hverdict hsend
  | exhaustedV6 _ _ _ _ hverdict heffects =>
    subst heffects
    apply asks_of_exhausted hserver hq hverdict
    simp [signalPackets]
  | forwarded _ _ _ _ hverdict heffects =>
    subst heffects
    exact asks_of_forward hserver hq hverdict

theorem outbound_asks {src : Bytes} (h : outbound C d p src env = some (p', effects))
    : ∃ q', p'.quota = some q' ∧ Asks d wallet ip env q q' (signalPackets effects) := by
  cases outbound_cases h with
  | blocked hverdict heffects =>
    subst heffects
    obtain ⟨rfl, _⟩ := enforceQuota_eq_blocked hserver hq hverdict
    exact ⟨q, hq, asks_refl q⟩
  | exhausted _ _ hverdict _ hsend =>
    exact asks_of_sendPaymentRequired hserver hq hwallet hip hverdict hsend
  | exhaustedSilent hverdict _ heffects =>
    subst heffects
    apply asks_of_exhausted hserver hq hverdict
    simp [signalPackets]
  | forwarded _ _ _ _ hverdict _ hpeer hsends heffects =>
    subst hpeer heffects
    rw [signalPackets_encapsulateTun hsends]
    obtain ⟨q', hq', hasks⟩ := asks_of_forward hserver hq hverdict
    exact ⟨q', hq', hasks⟩

end Server

end Handlers

section Steps

variable {C : Primitives} {d d' : Device} {e : Device.Event} {outputs : List Output} {id : PeerId}
  {p : Peer} {env : Env} {wallet : Payment.PaymentWallet} {ip : Ipv4Addr}

theorem quotaOf_of_account {q : Payment.BandwidthQuota} (haccount : d.accountOf id = some p.account)
    (hq : p.quota = some q)
    : d.quotaOf id = q := by
  rw [quotaOf, haccount, Peer.account, hq]

theorem quotaOf_of_account_eq (h : d'.accountOf id = d.accountOf id)
    : d'.quotaOf id = d.quotaOf id := by
  rw [quotaOf, h, ← quotaOf]

theorem server_asks (hd : IsServer d) (hget : d.peerArena.get id = some p)
    (hip : p.firstAllowedIpv4 = some ip) (hwallet : d.paymentWallet = some wallet)
    (h : (Device.machine C).step d e = some (d', outputs)) (henv : e.env = some env)
    (harrival : arrival C id d e = none)
    : Asks d wallet ip env (d.quotaOf id) (d'.quotaOf id)
        (signalPackets (effectsOf id outputs)) := by
  have hbefore := accountOf_eq_some hget
  have hidle : d'.accountOf id = d.accountOf id → (∀ f ∈ effectsOf id outputs, f.isSend) →
      Asks d wallet ip env (d.quotaOf id) (d'.quotaOf id)
        (signalPackets (effectsOf id outputs)) := by
    intro hsame hsend
    rw [quotaOf_of_account_eq hsame, signalPackets_of_isSend hsend]
    exact asks_refl _
  cases step_cases h with
  | quiet _ _ haccounts _ houtputs =>
    apply hidle
    . rcases haccounts id with hsame | ⟨hnone, _⟩
      . exact hsame
      . simp [hbefore] at hnone
    . intro f hf
      rcases houtputs _ (mem_effectsOf.mp hf) with hsend | ⟨hauto, _⟩
      . exact hsend
      . simp at hauto
  | inbound i p₀ p' sock dest addr afterErr flow env' effects flushed hincoming henv' _ hget' hpeer
      hresult haccounts _ hflushed houtputs =>
    rw [henv, Option.some.injEq] at henv'
    subst henv'
    by_cases hid : id = i.id
    . subst hid
      rw [hget] at hget'
      cases hget'
      have hquota : i.peer.quota = some (d.quotaOf i.id) := by
        rw [hpeer.quota, hd.accountOf_eq hget]
      have hip' : i.peer.firstAllowedIpv4 = some ip := by
        rw [(Peer.SameButState.of_sameButTunnel hpeer).firstAllowedIpv4, hip]
      have hafter : d'.accountOf i.id = some p'.account := by
        rw [haccounts, if_pos rfl]
      rw [houtputs, effectsOf_outputsFor, if_pos rfl, signalPackets_append,
        signalPackets_of_isSend hflushed, List.append_nil]
      obtain ⟨q', hq', hasks⟩ : ∃ q', p'.quota = some q' ∧
          Asks d wallet ip env (d.quotaOf i.id) q' (signalPackets effects) := by
        refine handleResult_asks hd.isServer hquota hwallet hip' ?_ hresult
        intro packet srcIp hv4
        simpa [arrival, hincoming, hv4] using harrival
      rw [quotaOf_of_account hafter hq']
      exact hasks
    . apply hidle
      . rw [haccounts, if_neg hid]
      . rw [houtputs, effectsOf_outputsFor, if_neg hid]
        simp
  | outbound id' p₀ p' src env' effects hevent _ hget' hresult haccounts _ houtputs =>
    subst hevent
    simp only [Event.env, Option.some.injEq] at henv
    subst henv
    by_cases hid : id = id'
    . subst hid
      rw [hget] at hget'
      cases hget'
      have hafter : d'.accountOf id = some p'.account := by
        rw [haccounts, if_pos rfl]
      rw [houtputs, effectsOf_outputsFor, if_pos rfl]
      obtain ⟨q', hq', hasks⟩ :=
        outbound_asks hd.isServer (hd.accountOf_eq hget) hwallet hip hresult
      rw [quotaOf_of_account hafter hq']
      exact hasks
    . apply hidle
      . rw [haccounts, if_neg hid]
      . rw [houtputs, effectsOf_outputsFor, if_neg hid]
        simp

/--
The packet that blocks the client is one that a request can follow: an IPv4 packet from the client,
or a packet for the client while its endpoint is known.
-/
def AskedFor (C : Primitives) (id : PeerId) (d : Device) (e : Device.Event) : Prop :=
  (∃ i packet srcIp, incoming C d e = some i ∧ i.result = .writeToTunnelV4 packet srcIp)
    ∨
  (∃ src env p addr, e = .iface src env ∧ d.peerArena.get id = some p
    ∧ p.endpoint.addr = some addr)

theorem server_asks_of_block (hd : IsServer d) (hsockets : ConnectedSockets d)
    (hget : d.peerArena.get id = some p) (hip : p.firstAllowedIpv4 = some ip)
    (hwallet : d.paymentWallet = some wallet)
    (h : (Device.machine C).step d e = some (d', outputs)) (henv : e.env = some env)
    (hasked : AskedFor C id d e) (hunblocked : (d.quotaOf id).blocked = false)
    (hblocked : (d'.quotaOf id).blocked = true)
    : signalPackets (effectsOf id outputs) = [requestPacket d wallet ip env] := by
  cases hd.block_cases hsockets h hget hunblocked hblocked with
  | inboundV4 i packet srcIp sock dest env' q' p' effects flushed _ henv' _ hpeer _ _ hsend hflushed
      houtputs =>
    rw [henv, Option.some.injEq] at henv'
    subst henv'
    have hip' : Peer.firstAllowedIpv4 { i.peer with quota := some q' } = some ip := by
      rw [← hip]
      exact (Peer.SameButState.of_sameButTunnel hpeer).firstAllowedIpv4
    rw [houtputs, effectsOf_outputsFor, if_pos rfl, signalPackets_append,
      signalPackets_of_isSend hflushed, signalPackets_sendPaymentRequired hwallet hip' hsend]
    rfl
  | inboundV6 i packet srcIp flushed hincoming hresult _ _ =>
    rcases hasked with ⟨i', _, _, hincoming', hv4⟩ | ⟨_, _, _, _, rfl, _⟩
    . rw [hincoming] at hincoming'
      cases hincoming'
      simp [hresult] at hv4
    . simp [incoming] at hincoming
  | outboundUnknown src env' hevent haddr _ =>
    subst hevent
    rcases hasked with ⟨_, _, _, hincoming, _⟩ | ⟨_, _, p', addr, _, hget', haddr'⟩
    . simp [incoming] at hincoming
    . simp only [hget, Option.some.injEq] at hget'
      subst hget'
      simp [haddr] at haddr'
  | outbound src env' dest q' p' effects hevent _ hsend houtputs =>
    subst hevent
    simp only [Event.env, Option.some.injEq] at henv
    subst henv
    rw [houtputs, effectsOf_outputsFor, if_pos rfl]
    exact signalPackets_sendPaymentRequired (p := { p with quota := some q' }) hwallet hip hsend

theorem arrival_eq_some {packet : Bytes} (h : arrival C id d e = some packet)
    : ∃ i srcIp, incoming C d e = some i ∧ i.id = id ∧ i.result = .writeToTunnelV4 packet srcIp
        ∧ Payment.isPaymentSignal packet = true := by
  unfold arrival at h
  split at h
  . simp at h
  . next i hincoming =>
    split at h
    . next hid =>
      split at h
      . next packet' srcIp hresult =>
        split at h
        . next hsignal =>
          cases h
          exact ⟨i, srcIp, hincoming, hid, hresult, hsignal⟩
        . simp at h
      . simp at h
    . simp at h

theorem step_of_arrival {packet : Bytes} (h : (Device.machine C).step d e = some (d', outputs))
    (henv : e.env = some env) (hget : d.peerArena.get id = some p)
    (harrival : arrival C id d e = some packet)
    : ∃ p₁ p' sock addr effects,
        p.SameButTunnel p₁
          ∧
        handlePaymentSignal C d p₁ packet sock addr env = some (p', effects)
          ∧
        d'.accountOf id = some p'.account
          ∧
        signalPackets (effectsOf id outputs) = signalPackets effects := by
  obtain ⟨i, srcIp, hincoming, rfl, hv4, hsignal⟩ := arrival_eq_some harrival
  cases step_cases h with
  | quiet hnone => simp [hincoming] at hnone
  | inbound i' p₀ p' sock dest addr afterErr flow env' effects flushed hincoming' henv' _ hget' hpeer
      hresult haccounts _ hflushed houtputs =>
    rw [hincoming] at hincoming'
    cases hincoming'
    rw [henv, Option.some.injEq] at henv'
    subst henv'
    rw [hget] at hget'
    cases hget'
    simp only [handleResult, hv4] at hresult
    rw [inboundV4, if_pos hsignal] at hresult
    split at hresult
    . simp at hresult
    . next hhandle =>
      cases hresult
      refine ⟨i.peer, _, sock, addr, _, hpeer, hhandle, ?_, ?_⟩
      . rw [haccounts, if_pos rfl]
      . rw [houtputs, effectsOf_outputsFor, if_pos rfl, signalPackets_append,
          signalPackets_of_isSend hflushed, List.append_nil]
  | outbound _ _ _ _ _ _ hevent =>
    subst hevent
    simp [incoming] at hincoming

theorem handlePaymentSignal_toGateway {p' : Peer} {srcIp : Ipv4Addr} {payload : Bytes}
    {sock : Socket} {addr : Option SocketAddr} {effects : List Effect}
    (hlen : 28 + payload.length ≤ 65535)
    (h : handlePaymentSignal C d p
      (Payment.signalPacket srcIp Payment.paymentGatewayIp payload) sock addr env
      = some (p', effects))
    : ∃ dest, handlePaymentSubmit C d p payload sock dest env = some (p', effects) := by
  unfold handlePaymentSignal at h
  rw [Payment.extractSignalPayload_signalPacket _ _ _ hlen, Payment.dstIpv4_signalPacket] at h
  dsimp only at h
  rw [if_pos rfl] at h
  split at h
  . simp at h
  . exact ⟨_, h⟩

theorem handlePaymentSignal_fromGateway {p' : Peer} {dstIp : Ipv4Addr} {payload : Bytes}
    {sock : Socket} {addr : Option SocketAddr} {effects : List Effect}
    (hlen : 28 + payload.length ≤ 65535) (hip : dstIp ≠ Payment.paymentGatewayIp)
    (h : handlePaymentSignal C d p
      (Payment.signalPacket Payment.paymentGatewayIp dstIp payload) sock addr env
      = some (p', effects))
    : ∃ dest, handlePaymentSignalClient C d p payload sock dest env = some (p', effects) := by
  unfold handlePaymentSignal at h
  rw [Payment.extractSignalPayload_signalPacket _ _ _ hlen, Payment.dstIpv4_signalPacket,
    Payment.srcIpv4_signalPacket] at h
  dsimp only at h
  rw [if_neg hip, if_pos rfl] at h
  split at h
  . simp at h
  . exact ⟨_, h⟩

def IsAccepted (ip : Ipv4Addr) (packet : Bytes) : Prop :=
  ∃ msg : Payment.PaymentAccepted,
    packet = Payment.signalPacket Payment.paymentGatewayIp ip msg.encode

inductive Pays (d : Device) (ip : Ipv4Addr) (env : Env) (submit : Payment.PaymentSubmit)
    (q q' : Payment.BandwidthQuota) (packets : List Bytes) : Prop where
  | replayed (hused : submit.nonce ∈ q.usedNonces) (hquota : q' = q) (hpackets : packets = [])
  | unsettled (hsettled : ¬Settled d env submit) (hblocked : q'.blocked = q.blocked)
    (hpackets : packets = [])
  | credited (hblocked : q'.blocked = false) (hpackets : ∀ packet ∈ packets, IsAccepted ip packet)

theorem server_pays {submit : Payment.PaymentSubmit} {srcIp : Ipv4Addr} (hd : IsServer d)
    (hget : d.peerArena.get id = some p) (hip : p.firstAllowedIpv4 = some ip)
    (h : (Device.machine C).step d e = some (d', outputs)) (henv : e.env = some env)
    (harrival : arrival C id d e
      = some (Payment.signalPacket srcIp Payment.paymentGatewayIp submit.encode))
    (haddressed : Addressed d submit) (hsigned : Signed C d submit)
    : Pays d ip env submit (d.quotaOf id) (d'.quotaOf id)
        (signalPackets (effectsOf id outputs)) := by
  obtain ⟨p₁, p', sock, addr, effects, hpeer, hhandle, hafter, hpackets⟩ :=
    step_of_arrival h henv hget harrival
  have hlen := (Signal.paymentSubmit submit).length_encode_le
  rw [Signal.encode] at hlen
  obtain ⟨dest, hhandle⟩ := handlePaymentSignal_toGateway (by omega) hhandle
  have hq : p₁.quota = some (d.quotaOf id) := by
    rw [hpeer.quota, hd.accountOf_eq hget]
  rw [hpackets]
  cases handlePaymentSubmit_cases hhandle with
  | unchanged hreason hsame heffects =>
    subst hsame heffects
    refine .replayed ?_ (quotaOf_of_account hafter hq) rfl
    rw [← checkAndRecordNonce_snd hq]
    exact hreason submit submit.decode_encode haddressed
  | rejected submit' hdecode _ hfresh hreason heffects =>
    rw [Payment.PaymentSubmit.decode_encode, Option.some.injEq] at hdecode
    subst hdecode heffects
    simp only [Peer.checkAndRecordNonce, hq, Prod.mk.injEq] at hfresh
    refine .unsettled ?_ ?_ rfl
    . intro hsettled
      exact hreason ⟨hsigned, .inr hsettled⟩
    . rw [quotaOf_of_account hafter (by rw [← hfresh.1])]
      rfl
  | accepted submit' recorded _ _ hfresh _ _ hpeer' heffects =>
    have hrecorded := checkAndRecordNonce_sameButState hfresh
    simp only [Peer.checkAndRecordNonce, hq, Prod.mk.injEq] at hfresh
    refine .credited ?_ ?_
    . have hq' : p'.quota = some (Payment.BandwidthQuota.credit
          ((d.quotaOf id).checkAndRecordNonce submit'.nonce).1 d.paymentConfig.quotaBytes) := by
        rw [hpeer'.quota, ← hfresh.1]
        rfl
      rw [quotaOf_of_account hafter hq']
      rfl
    . rcases heffects with rfl | ⟨msg, packet, _, _, _, rfl, ip', hip', hpacket⟩
      . simp [signalPackets, signalPacket]
      . rw [hrecorded.firstAllowedIpv4,
          (Peer.SameButState.of_sameButTunnel hpeer).firstAllowedIpv4, hip, Option.some.injEq]
          at hip'
        subst hip'
        intro packet' hmem
        simp only [signalPackets, signalPacket, List.filterMap_cons, List.filterMap_nil,
          List.mem_singleton] at hmem
        exact ⟨msg, by rw [hmem, hpacket]⟩

theorem enforceQuota_client (hclient : d.paymentConfig.isServer = false) (packet : Bytes)
    : enforceQuota d p packet = (p, .forward) := by
  simp [enforceQuota, hclient]

theorem client_silent (hclient : d.paymentConfig.isServer = false)
    (h : (Device.machine C).step d e = some (d', outputs)) (harrival : arrival C id d e = none)
    : signalPackets (effectsOf id outputs) = [] := by
  cases step_cases h with
  | quiet _ _ _ _ houtputs =>
    apply signalPackets_of_isSend
    intro f hf
    rcases houtputs _ (mem_effectsOf.mp hf) with hsend | ⟨hauto, _⟩
    . exact hsend
    . simp at hauto
  | inbound i _ p' sock dest addr afterErr flow env effects flushed hincoming _ _ _ _ hresult _ _
      hflushed houtputs =>
    rw [houtputs, effectsOf_outputsFor]
    split
    . next hid =>
      subst hid
      rw [signalPackets_append, signalPackets_of_isSend hflushed, List.append_nil]
      cases handleResult_cases hresult with
      | idle _ _ hsends => exact signalPackets_of_isSend hsends
      | ignored _ _ hv4 hsignal _ _ _ => simp [arrival, hincoming, hv4, hsignal] at harrival
      | submit _ _ _ _ hv4 hsignal _ _ _ _ => simp [arrival, hincoming, hv4, hsignal] at harrival
      | request _ _ _ _ hv4 hsignal _ _ _ _ => simp [arrival, hincoming, hv4, hsignal] at harrival
      | exhausted packet _ _ _ _ _ hverdict _ _ =>
        simp [enforceQuota_client hclient] at hverdict
      | refused _ _ _ _ _ heffects =>
        rw [heffects]
        rfl
      | blocked _ _ _ _ _ heffects =>
        rw [heffects]
        rfl
      | exhaustedV6 _ _ _ _ _ heffects =>
        rw [heffects]
        rfl
      | forwarded _ _ _ _ _ heffects =>
        rw [heffects]
        rfl
    . rfl
  | outbound _ _ _ _ _ effects _ _ _ hresult _ _ houtputs =>
    rw [houtputs, effectsOf_outputsFor]
    split
    . cases outbound_cases hresult with
      | blocked _ heffects =>
        rw [heffects]
        rfl
      | exhausted _ _ hverdict _ _ => simp [enforceQuota_client hclient] at hverdict
      | exhaustedSilent _ _ heffects =>
        rw [heffects]
        rfl
      | forwarded _ _ _ _ _ _ _ hsends heffects =>
        rw [heffects, signalPackets_encapsulateTun hsends]
    . rfl

def authorization (wallet : Payment.PaymentWallet) (req : Payment.PaymentRequired) (env : Env)
    : Payment.TransferAuthorization where
  «from» := wallet.ethereumAddress
  «to» := req.recipient
  value := req.amountUsdc
  validAfter := 0
  validBefore := UInt64.ofNat env.systemTime.asSecs + 345600
  nonce := req.nonce

def answer (C : Primitives) (d : Device) (wallet : Payment.PaymentWallet)
    (req : Payment.PaymentRequired) (env : Env) : Payment.PaymentSubmit :=
  let auth := authorization wallet req env
  let digest := Payment.computeEip712Digest C.payment d.paymentConfig.gatewayDomain auth
  let (v, r, s) := wallet.signDigest C.payment digest
  {
    «from» := auth.from
    «to» := auth.to
    value := auth.value
    validAfter := auth.validAfter
    validBefore := auth.validBefore
    nonce := auth.nonce
    v, r, s
  }

theorem client_answers {req : Payment.PaymentRequired} {dstIp : Ipv4Addr}
    (hget : d.peerArena.get id = some p) (hip : p.firstAllowedIpv4 = some ip)
    (hwallet : d.paymentWallet = some wallet)
    (h : (Device.machine C).step d e = some (d', outputs)) (henv : e.env = some env)
    (hdst : dstIp ≠ Payment.paymentGatewayIp)
    (harrival : arrival C id d e
      = some (Payment.signalPacket Payment.paymentGatewayIp dstIp req.encode))
    : signalPackets (effectsOf id outputs)
        =
      [Payment.signalPacket ip Payment.paymentGatewayIp (answer C d wallet req env).encode] := by
  obtain ⟨p₁, p', sock, addr, effects, hpeer, hhandle, _, hpackets⟩ :=
    step_of_arrival h henv hget harrival
  have hlen := (Signal.paymentRequired req).length_encode_le
  rw [Signal.encode] at hlen
  obtain ⟨dest, hhandle⟩ := handlePaymentSignal_fromGateway (by omega) hdst hhandle
  have hip' : p₁.firstAllowedIpv4 = some ip := by
    rw [(Peer.SameButState.of_sameButTunnel hpeer).firstAllowedIpv4, hip]
  have hhead : req.encode.head? = some Payment.msgPaymentRequired := rfl
  rw [hpackets]
  simp only [handlePaymentSignalClient, hhead, ne_eq, not_true_eq_false, if_false,
    Payment.PaymentRequired.decode_encode, hwallet, hip'] at hhandle
  split at hhandle
  . simp at hhandle
  . next hsend =>
    cases hhandle
    rw [← List.singleton_append, signalPackets_append, signalPackets_sendSignal hsend]
    rfl

theorem client_ignores_accepted {packet : Bytes} {dstIp : Ipv4Addr}
    (hget : d.peerArena.get id = some p)
    (h : (Device.machine C).step d e = some (d', outputs)) (henv : e.env = some env)
    (hdst : dstIp ≠ Payment.paymentGatewayIp) (hpacket : IsAccepted dstIp packet)
    (harrival : arrival C id d e = some packet)
    : signalPackets (effectsOf id outputs) = [] := by
  obtain ⟨msg, rfl⟩ := hpacket
  obtain ⟨p₁, p', sock, addr, effects, hpeer, hhandle, _, hpackets⟩ :=
    step_of_arrival h henv hget harrival
  have hlen := (Signal.paymentAccepted msg).length_encode_le
  rw [Signal.encode] at hlen
  obtain ⟨dest, hhandle⟩ := handlePaymentSignal_fromGateway (by omega) hdst hhandle
  have hhead : msg.encode.head? ≠ some Payment.msgPaymentRequired := by
    change some Payment.msgPaymentAccepted ≠ some Payment.msgPaymentRequired
    decide
  rw [handlePaymentSignalClient, if_pos hhead] at hhandle
  cases hhandle
  rw [hpackets]
  rfl

end Steps

theorem signed_answer {C : Primitives} (hrecovers : C.payment.RecoversSigner) {d d' : Device}
    (hdomain : d.paymentConfig.gatewayDomain = d'.paymentConfig.gatewayDomain) (key : FixedBytes 32)
    (req : Payment.PaymentRequired) (env : Env)
    : Signed C d' (answer C d (.fromWireguardKey C.payment key) req env) := by
  let wallet := Payment.PaymentWallet.fromWireguardKey C.payment key
  let auth := authorization wallet req env
  obtain ⟨⟨v, r, s⟩, hsign⟩ : ∃ signature, wallet.signDigest C.payment
      (Payment.computeEip712Digest C.payment d.paymentConfig.gatewayDomain auth) = signature :=
    ⟨_, rfl⟩
  have hrecover := Payment.recoverAddress_signDigest hrecovers hsign
  rw [Signed, Payment.verifyAuthorization, ← hdomain, answer]
  simp only [wallet, auth] at hsign hrecover
  simp only [hsign]
  exact hrecover

end Link
