import VeilVpn.Payment.Lemmas.Settlement
import VeilVpn.Noise.Lemmas.Operation
import VeilVpn.Noise.Lemmas.Transport
import VeilVpn.Device.Lemmas.AllowedIps
import VeilVpn.Link.Lemmas.Lockout

theorem Device.Peer.exists_firstAllowedIpv4 {p : Device.Peer} {ips : List Device.AllowedIP}
    {allowed : Device.AllowedIP} (h : p.allowedIps = .ofList ips ()) (hmem : allowed ∈ ips)
    (hv4 : allowed.addr.family = .v4)
    : ∃ ip, p.firstAllowedIpv4 = some ip := by
  have hentry : (.newTruncate allowed, ()) ∈ (Device.AllowedIps.ofList ips ()).ips :=
    Device.AllowedIps.mem_ofList.mpr ⟨allowed, hmem, rfl⟩
  have hfamily : (Device.IpNetwork.newTruncate allowed).networkAddress.family = .v4 := by
    unfold Device.IpNetwork.newTruncate IpAddr.truncate
    cases haddr : allowed.addr with
    | v4 => rfl
    | v6 => simp [haddr, IpAddr.family] at hv4
  obtain ⟨_, ip, _, _, hiter⟩ := (Device.AllowedIps.v4First_ofList ips ()).head hentry hfamily
  refine ⟨ip, ?_⟩
  rw [Device.Peer.firstAllowedIpv4, h, hiter]

namespace Link

open Device

section Transport

variable {C : Primitives} {d : Device} {id : PeerId} {p : Peer} {s : Noise.Session} {e : Device.Event}
  {env : Env} {datagram : Received} {packet : Bytes}

/--
The device knows the peer by the index of the session `s` of the other side, and the next packet
that is sealed with it will be accepted.
-/
structure Carries (s : Noise.Session) (d : Device) (id : PeerId) (p : Peer) : Prop where
  get : d.peerArena.get id = some p
  index : d.peersByIdx.lookup (s.sendingIndex >>> 8) = some id
  session : ∃ s', p.tunnel.sessions (Noise.Tunn.slot s.sendingIndex.toNat) = some s' ∧ s.Feeds s'

inductive Arrives (d : Device) (id : PeerId) (p : Peer) (datagram : Received) (env : Env)
    : Device.Event → Prop where
  | udp (addr : SocketAddr) (ref : Noise.RateLimiterRef) (rl : Noise.RateLimiter)
    (hkey : d.keyPair.isSome) (href : d.rateLimiter = some ref)
    (hlimiter : d.limiterArena.get ref = some rl)
    : Arrives d id p datagram env (.udp addr datagram env)
  | conn (connId : ConnId) (c : Conn) (addr : SocketAddr) (rl : Noise.RateLimiter)
    (hconn : d.connArena.get connId = some c) (hopen : c.isOpen = true) (hpeer : c.peer = id)
    (hlimiter : d.limiterArena.get p.tunnel.rateLimiter = some rl)
    (haddr : p.endpoint.addr = some addr)
    : Arrives d id p datagram env (.conn connId datagram env)

theorem verifyPacket_sealPacket {P : Noise.Primitives} (rl : Noise.RateLimiter)
    (srcAddr : Option IpAddr) (s : Noise.Session) (src : Bytes) (dstLen : Nat) (now : Instant)
    : rl.verifyPacket P srcAddr (s.sealPacket P src) dstLen now
        =
      (rl, .ok (.packetData (s.sealData P src))) := by
  simp only [Noise.RateLimiter.verifyPacket, Noise.Session.parseIncomingPacket_sealPacket,
    Noise.RateLimiter.limitedSenderIdx]

theorem step_of_carries (hnoise : C.noise.Lawful) (hcarries : Carries s d id p)
    (harrives : Arrives d id p datagram env e)
    (hdatagram : datagram.val = s.sealPacket C.noise packet) {srcIp : Ipv4Addr}
    (hheader : Noise.Tunn.ipHeader packet = some (packet.length, .v4 srcIp))
    (hsignal : Payment.isPaymentSignal packet = true)
    : ∃ i sock addr,
        incoming C d e = some i
          ∧
        i.device.static = d.static ∧ p.SameButTunnel i.peer ∧ i.peer.tunnel.currentSession.isSome
          ∧
        ∀ p' effects, handlePaymentSignal C i.device i.peer packet sock (some addr) env
            = some (p', effects) →
          ∃ d', (Device.machine C).step d e = some (d', outputsFor id effects) := by
  obtain ⟨s', hslot, hfeeds⟩ := hcarries.session
  have hlen : packet.length + 16 ≤ maxUdpSize := by
    have hle := datagram.property
    rw [hdatagram, Noise.Session.length_sealPacket, Noise.dataOverheadSz] at hle
    omega
  obtain ⟨tunnel, hhandle, hcurrent⟩ := Noise.Tunn.handleVerifiedPacket_sealData hnoise hslot hfeeds
    hheader hlen env.now (env.ephemeral 0)
  cases harrives with
  | udp addr ref rl hkey href hlimiter =>
    obtain ⟨⟨privateKey, publicKey⟩, hkey⟩ := Option.isSome_iff_exists.mp hkey
    have hreceive : receiveUdp C d addr datagram env = some (.inr {
        device := d.setLimiter ref rl, id, peer := { p with tunnel }
        result := .writeToTunnelV4 packet srcIp }) := by
      simp only [receiveUdp, hkey, href, hlimiter, hdatagram, verifyPacket_sealPacket, findPeer]
      have hindex : (d.setLimiter ref rl).peersByIdx.lookup
          ((s.sealData C.noise packet).receiverIdx >>> 8) = some id := hcarries.index
      have hget : (d.setLimiter ref rl).peerArena.get id = some p := hcarries.get
      simp only [hindex, hget, hhandle]
    have hincoming : incoming C d (.udp addr datagram env) = some ⟨d.setLimiter ref rl, id,
        { p with tunnel }, .writeToTunnelV4 packet srcIp⟩ := by
      simp only [incoming, hreceive]
    refine ⟨_, udpSocket addr, addr, hincoming, rfl, .of_tunnel p tunnel, hcurrent, ?_⟩
    intro p' effects hsome
    simp only [Device.machine, Device.step, udpHandler, hreceive, finishInbound, handleResult,
      inboundV4, hsignal, if_true, hsome]
    exact ⟨_, rfl⟩
  | conn connId c addr rl hconn hopen hpeer hlimiter haddr =>
    subst hpeer
    have hnonempty : (s.sealPacket C.noise packet).isEmpty = false := rfl
    have hreceive : receiveConn C d c datagram env = some {
        device := d.setLimiter p.tunnel.rateLimiter rl, id := c.peer, peer := { p with tunnel }
        result := .writeToTunnelV4 packet srcIp } := by
      simp only [receiveConn, hcarries.get, hlimiter, Noise.Tunn.decapsulate, hdatagram, hnonempty,
        Bool.false_eq_true, if_false, verifyPacket_sealPacket, hhandle, Option.map_some]
    have hincoming : incoming C d (.conn connId datagram env)
        = some ⟨d.setLimiter p.tunnel.rateLimiter rl, c.peer, { p with tunnel },
          .writeToTunnelV4 packet srcIp⟩ := by
      simp only [incoming, hconn, hopen, if_true, hreceive]
    refine ⟨_, .conn connId c.addr, addr, hincoming, rfl, .of_tunnel p tunnel, hcurrent, ?_⟩
    intro p' effects hsome
    simp only [Device.machine, Device.step, connHandler, hconn, hopen, Bool.not_true,
      Bool.false_eq_true, if_false, hreceive, finishInbound, handleResult, inboundV4, hsignal,
      if_true, haddr, hsome]
    exact ⟨_, rfl⟩

end Transport

section Handlers

variable {C : Primitives} {d : Device} {p : Peer} {sock : Socket} {addr : SocketAddr} {env : Env}
  {wallet : Payment.PaymentWallet}

theorem exists_sendSignal (C : Primitives) (p : Peer) (signal : Signal) (srcIp dstIp : Ipv4Addr)
    (sock : Socket) (addr : SocketAddr) (env : Env)
    : ∃ p' packet result,
        sendSignal C p signal srcIp dstIp sock addr env
          = some (p', [.signal signal packet sock addr result])
          ∧
        ∀ e, result ≠ .err e := by
  cases hsession : p.tunnel.currentSession with
  | some session =>
    obtain ⟨tunnel, packet, hsend, _⟩ :=
      sendSignal_of_session (C := C) signal srcIp dstIp sock addr env hsession
    exact ⟨_, packet, _, hsend, by simp⟩
  | none =>
    have hencode := signal.length_encode_le
    have hbuild : 20 + (8 + signal.encode.length) ≤ 65535 := by omega
    simp only [sendSignal, Payment.buildSignalPacket, hbuild, if_true,
      Noise.Tunn.encapsulate_of_none hsession]
    refine ⟨_, _, _, rfl, ?_⟩
    intro e
    apply Noise.Tunn.formatHandshakeInitiation_ne_err
    decide

theorem exists_acceptPayment (C : Primitives) (d : Device) (p : Peer) (submit : Payment.PaymentSubmit)
    (sock : Socket) (addr : SocketAddr) (env : Env)
    : ∃ result, acceptPayment C d p submit sock addr env = some result := by
  unfold acceptPayment
  dsimp only
  split
  . exact ⟨_, rfl⟩
  . next ip _ =>
    obtain ⟨p', packet, result, hsend, _⟩ := exists_sendSignal C (p.credit d.paymentConfig.quotaBytes)
      (.paymentAccepted { newQuotaBytes := d.paymentConfig.quotaBytes }) Payment.paymentGatewayIp ip
      sock addr env
    rw [hsend]
    exact ⟨_, rfl⟩

theorem exists_handlePaymentSubmit (C : Primitives) (d : Device) (p : Peer) (payload : Bytes)
    (sock : Socket) (addr : SocketAddr) (env : Env)
    : ∃ result, handlePaymentSubmit C d p payload sock addr env = some result := by
  unfold handlePaymentSubmit
  split
  . exact ⟨_, rfl⟩
  . split
    . exact ⟨_, rfl⟩
    . split
      . exact ⟨_, rfl⟩
      . split
        . exact ⟨_, rfl⟩
        . split
          . exact ⟨_, rfl⟩
          . split
            . exact ⟨_, rfl⟩
            . split
              . exact ⟨_, rfl⟩
              . split
                . exact exists_acceptPayment C d _ _ sock addr env
                . split
                  . exact ⟨_, rfl⟩
                  . split
                    . exact exists_acceptPayment C d _ _ sock addr env
                    . exact ⟨_, rfl⟩

theorem server_credits {submit : Payment.PaymentSubmit} (haddressed : Addressed d submit)
    (hsigned : Signed C d submit)
    (hfresh : ∀ q, p.quota = some q → submit.nonce ∉ q.usedNonces) (srcIp : Ipv4Addr)
    (sock : Socket) (addr : SocketAddr) (env : Env)
    : ∃ p' effects,
        handlePaymentSignal C d p
          (Payment.signalPacket srcIp Payment.paymentGatewayIp submit.encode) sock (some addr) env
          = some (p', effects)
          ∧
        (.credit submit ∈ effects ↔ d.settlementClient = false ∨ Settled d env submit) := by
  have hlen := (Signal.paymentSubmit submit).length_encode_le
  rw [Signal.encode] at hlen
  obtain ⟨⟨p', effects⟩, hhandle⟩ := exists_handlePaymentSubmit C d p submit.encode sock addr env
  refine ⟨p', effects, ?_, ?_⟩
  . unfold handlePaymentSignal
    rw [Payment.extractSignalPayload_signalPacket _ _ _ (by omega), Payment.dstIpv4_signalPacket]
    dsimp only
    rw [if_pos rfl, hhandle]
  . cases handlePaymentSubmit_cases hhandle with
    | unchanged hreason =>
      have hreplay := hreason submit submit.decode_encode haddressed
      cases hq : p.quota with
      | none => simp [Peer.checkAndRecordNonce, hq] at hreplay
      | some q =>
        rw [checkAndRecordNonce_snd hq] at hreplay
        exact absurd hreplay (hfresh q hq)
    | rejected submit' hdecode _ _ hreason heffects =>
      rw [Payment.PaymentSubmit.decode_encode, Option.some.injEq] at hdecode
      subst hdecode heffects
      simp only [List.not_mem_nil, false_iff]
      intro hsettled
      exact hreason ⟨hsigned, hsettled⟩
    | accepted submit' _ hdecode _ _ _ hsettled _ heffects =>
      rw [Payment.PaymentSubmit.decode_encode, Option.some.injEq] at hdecode
      subst hdecode
      refine iff_of_true ?_ hsettled
      rcases heffects with rfl | ⟨_, _, _, _, _, rfl, _⟩ <;> exact List.mem_cons_self

theorem client_signs {req : Payment.PaymentRequired} {s : Noise.Session} {ip dstIp : Ipv4Addr}
    (hwallet : d.paymentWallet = some wallet) (hip : p.firstAllowedIpv4 = some ip)
    (hsession : p.tunnel.currentSession = some s) (hdst : dstIp ≠ Payment.paymentGatewayIp)
    (sock : Socket) (addr : SocketAddr) (env : Env)
    : ∃ p' packet,
        handlePaymentSignal C d p (Payment.signalPacket Payment.paymentGatewayIp dstIp req.encode)
            sock (some addr) env
          = some (p', [.sign (authorization wallet req env),
            .signal (.paymentSubmit (answer C d wallet req env)) packet sock addr
              (.writeToNetwork (s.sealPacket C.noise packet))])
          ∧
        packet
          = Payment.signalPacket ip Payment.paymentGatewayIp (answer C d wallet req env).encode := by
  have hlen := (Signal.paymentRequired req).length_encode_le
  rw [Signal.encode] at hlen
  have hhead : req.encode.head? = some Payment.msgPaymentRequired := rfl
  obtain ⟨tunnel, packet, hsend, hpacket, _⟩ := sendSignal_of_session (C := C)
    (.paymentSubmit (answer C d wallet req env)) ip Payment.paymentGatewayIp sock addr env hsession
  refine ⟨{ p with tunnel }, packet, ?_, hpacket⟩
  unfold handlePaymentSignal
  rw [Payment.extractSignalPayload_signalPacket _ _ _ (by omega), Payment.dstIpv4_signalPacket,
    Payment.srcIpv4_signalPacket]
  dsimp only
  rw [if_neg hdst, if_pos rfl]
  simp only [handlePaymentSignalClient, hhead, ne_eq, not_true_eq_false, if_false,
    Payment.PaymentRequired.decode_encode, hwallet, hip]
  unfold answer authorization at hsend
  rw [hsend]
  rfl

end Handlers

section

variable {C : Primitives} {d : Device} {p : Peer} {s : Noise.Session} {wallet : Payment.PaymentWallet}

def HasIpv4 (p : Peer) : Prop :=
  ∃ ips allowed, p.allowedIps = .ofList ips () ∧ allowed ∈ ips ∧ allowed.addr.family = .v4

theorem HasIpv4.firstAllowedIpv4 (h : HasIpv4 p) : ∃ ip, p.firstAllowedIpv4 = some ip := by
  obtain ⟨ips, allowed, hips, hmem, hv4⟩ := h
  exact p.exists_firstAllowedIpv4 hips hmem hv4

theorem length_sealSignal_le (s : Noise.Session) (srcIp dstIp : Ipv4Addr) (signal : Signal)
    : (s.sealPacket C.noise (Payment.signalPacket srcIp dstIp signal.encode)).length ≤ maxUdpSize := by
  have hlen := signal.length_encode_le
  rw [Noise.Session.length_sealPacket, Payment.length_signalPacket, Noise.dataOverheadSz, maxUdpSize]
  omega

theorem answer_congr {c c' : Device} (h : c'.paymentConfig = c.paymentConfig)
    (wallet : Payment.PaymentWallet) (req : Payment.PaymentRequired) (env : Env)
    : answer C c' wallet req env = answer C c wallet req env := by
  unfold answer
  rw [h]

theorem client_step_of_request (hnoise : C.noise.Lawful) {c : Device} {id : PeerId}
    {req : Payment.PaymentRequired} {ip : Ipv4Addr} {e : Device.Event} {env : Env}
    {datagram : Received} (hwallet : c.paymentWallet = some wallet) (hip : HasIpv4 p)
    (hcarries : Carries s c id p) (harrives : Arrives c id p datagram env e)
    (hdatagram : datagram.val = s.sealPacket C.noise
      (Payment.signalPacket Payment.paymentGatewayIp ip req.encode))
    (hne : ip ≠ Payment.paymentGatewayIp)
    : let submit := answer C c wallet req env
      ∃ c' i s' ip' sock addr packet datagram',
        (Device.machine C).step c e
          = some (c', outputsFor id [.sign submit.signed.auth,
            .signal (.paymentSubmit submit) packet sock addr (.writeToNetwork datagram'.val)])
          ∧
        (datagram' : Received).val = s'.sealPacket C.noise packet
          ∧
        incoming C c e = some i ∧ i.peer.tunnel.currentSession = some s'
          ∧
        packet = Payment.signalPacket ip' Payment.paymentGatewayIp submit.encode := by
  intro submit
  have hlen := (Signal.paymentRequired req).length_encode_le
  rw [Signal.encode] at hlen
  obtain ⟨i, sock, addr, hincoming, hstatic, hpeer, hcurrent, hstep⟩ :=
    step_of_carries hnoise hcarries harrives hdatagram
      (ipHeader_signalPacket Payment.paymentGatewayIp ip _ (by omega))
      (by simp [Payment.isPaymentSignal_signalPacket])
  obtain ⟨s', hs'⟩ := Option.isSome_iff_exists.mp hcurrent
  obtain ⟨ip', hip⟩ := hip.firstAllowedIpv4
  have hip' : i.peer.firstAllowedIpv4 = some ip' := by
    rw [Peer.firstAllowedIpv4, hpeer.allowedIps, ← Peer.firstAllowedIpv4, hip]
  have hwallet' : i.device.paymentWallet = some wallet :=
    (congrArg Device.paymentWallet hstatic).trans hwallet
  have hsubmit : answer C i.device wallet req env = submit :=
    answer_congr (congrArg Device.paymentConfig hstatic) wallet req env
  obtain ⟨p', packet, hhandle, hpacket⟩ :=
    @client_signs C _ _ _ req _ _ _ hwallet' hip' hs' hne sock addr env
  rw [hsubmit] at hhandle hpacket
  obtain ⟨c', hstep⟩ := hstep _ _ hhandle
  have hle : (s'.sealPacket C.noise packet).length ≤ maxUdpSize := by
    rw [hpacket]
    exact length_sealSignal_le s' _ _ (.paymentSubmit submit)
  exact ⟨c', i, s', ip', sock, addr, packet, ⟨_, hle⟩, hstep, rfl, hincoming, hs', hpacket⟩

theorem server_step_of_submit (hnoise : C.noise.Lawful) {id : PeerId} {srcIp : Ipv4Addr}
    {submit : Payment.PaymentSubmit} {e : Device.Event} {env : Env} {datagram : Received}
    (haddressed : Addressed d submit) (hsigned : Signed C d submit)
    (hfresh : ∀ q, p.quota = some q → submit.nonce ∉ q.usedNonces)
    (hcarries : Carries s d id p) (harrives : Arrives d id p datagram env e)
    (hdatagram : datagram.val = s.sealPacket C.noise
      (Payment.signalPacket srcIp Payment.paymentGatewayIp submit.encode))
    : ∃ d' effects,
        (Device.machine C).step d e = some (d', outputsFor id effects)
          ∧
        (.credit submit ∈ effects ↔ d.settlementClient = false ∨ Settled d env submit) := by
  have hlen := (Signal.paymentSubmit submit).length_encode_le
  rw [Signal.encode] at hlen
  obtain ⟨i, sock, addr, _, hstatic, hpeer, _, hstep⟩ :=
    step_of_carries hnoise hcarries harrives hdatagram
      (ipHeader_signalPacket srcIp Payment.paymentGatewayIp _ (by omega))
      (by simp [Payment.isPaymentSignal_signalPacket])
  have hwallet : i.device.paymentWallet = d.paymentWallet :=
    (congrArg Device.paymentWallet hstatic :)
  have hconfig : i.device.paymentConfig = d.paymentConfig :=
    (congrArg Device.paymentConfig hstatic :)
  have hclient : i.device.settlementClient = d.settlementClient :=
    (congrArg Device.settlementClient hstatic :)
  obtain ⟨p', effects, hhandle, hcredit⟩ := server_credits (d := i.device) (p := i.peer)
    (by rwa [Addressed, hwallet, hconfig]) (by rwa [Signed, hconfig])
    (fun q hq => hfresh q (hpeer.quota ▸ hq)) srcIp sock addr env
  obtain ⟨d', hstep⟩ := hstep _ _ hhandle
  refine ⟨d', effects, hstep, ?_⟩
  rw [hcredit, hclient, Settled, Settled, hwallet, hconfig]

/--
A payment succeeds: the request of the server is answered by the client, and the answer passes all
checks of the server. It depends only on the settlement service, which is told what the client has
signed, whether the client is credited. The address of the client must not be the one of the gateway.
-/
theorem payment_completes (hnoise : C.noise.Lawful) (hrecovers : C.payment.RecoversSigner)
    (hwallet : d.paymentWallet = some wallet) (hip : HasIpv4 p)
    (hgateway : p.firstAllowedIpv4 ≠ some Payment.paymentGatewayIp)
    (hsession : p.tunnel.currentSession = some s) (sock : Socket) (addr : SocketAddr) (env : Env)
    : (∀ p signal srcIp dstIp sock addr env, ∃ p' packet result,
        sendSignal C p signal srcIp dstIp sock addr env
          = some (p', [.signal signal packet sock addr result])
          ∧
        ∀ e, result ≠ .err e)
        ∧
      ∃ p₁ packet datagram,
        sendPaymentRequired C d p sock addr env
          = some (p₁, [.signal (.paymentRequired (request d wallet env)) packet sock addr
              (.writeToNetwork datagram.val)])
          ∧
        datagram.val = s.sealPacket C.noise packet
          ∧
        ∀ (c : Device) id' p' key e' env',
          c.paymentWallet = some (.fromWireguardKey C.payment key) →
          c.paymentConfig.gatewayDomain = d.paymentConfig.gatewayDomain →
          HasIpv4 p' → Carries s c id' p' → Arrives c id' p' datagram env' e' →
          let submit := answer C c (.fromWireguardKey C.payment key) (request d wallet env) env'
          ∃ c' i s' sock' addr' packet' datagram',
            (Device.machine C).step c e'
              = some (c', outputsFor id' [.sign submit.signed.auth,
                .signal (.paymentSubmit submit) packet' sock' addr' (.writeToNetwork datagram'.val)])
              ∧
            datagram'.val = s'.sealPacket C.noise packet'
              ∧
            incoming C c e' = some i ∧ i.peer.tunnel.currentSession = some s'
              ∧
            ∀ (d' : Device) id p₂ e'' env'',
              d'.paymentWallet = some wallet → d'.paymentConfig = d.paymentConfig →
              Carries s' d' id p₂ → Arrives d' id p₂ datagram' env'' e'' →
              (∀ q, p₂.quota = some q → submit.nonce ∉ q.usedNonces) →
              let settle :=
                Payment.buildSettleRequest d'.paymentConfig submit wallet.ethereumAddress
              ∃ d'' effects,
                (Device.machine C).step d' e'' = some (d'', outputsFor id effects)
                  ∧
                (.credit submit ∈ effects ↔ d'.settlementClient = false
                  ∨ ∃ resp, env''.settle settle = .ok resp ∧ resp.success = true)
                  ∧
                ∀ signed, settle.Names signed ↔ signed = submit.signed := by
  refine ⟨exists_sendSignal C, ?_⟩
  obtain ⟨ip, hip⟩ := hip.firstAllowedIpv4
  have hne : ip ≠ Payment.paymentGatewayIp := by
    rintro rfl
    exact hgateway hip
  obtain ⟨tunnel, packet, hsend, hpacket, _⟩ := sendSignal_of_session (C := C)
    (.paymentRequired (request d wallet env)) Payment.paymentGatewayIp ip sock addr env hsession
  have hle : (s.sealPacket C.noise packet).length ≤ maxUdpSize := by
    rw [hpacket]
    exact length_sealSignal_le s _ _ _
  refine ⟨{ p with tunnel }, packet, ⟨_, hle⟩, ?_, rfl, ?_⟩
  . simp only [sendPaymentRequired, hwallet, hip]
    exact hsend
  intro c id' p' key e' env' hwallet' hdomain hip' hcarries harrives submit
  obtain ⟨c', i, s', ip', sock', addr', packet', datagram', hstep, hdatagram', hincoming, hs',
    hpacket'⟩ := client_step_of_request hnoise hwallet' hip' hcarries harrives
      (congrArg (s.sealPacket C.noise) hpacket) hne
  refine ⟨c', i, s', sock', addr', packet', datagram', hstep, hdatagram', hincoming, hs', ?_⟩
  intro d' id p₂ e'' env'' hwallet₂ hconfig hcarries' harrives' hfresh settle
  have haddressed : Addressed d' submit := by
    refine ⟨wallet, hwallet₂, rfl, ?_⟩
    rw [hconfig]
    exact UInt64.le_refl _
  have hsigned : Signed C d' submit :=
    signed_answer hrecovers (by rw [hdomain, hconfig]) key (request d wallet env) env'
  obtain ⟨d'', effects, hstep', hcredit⟩ :=
    server_step_of_submit hnoise haddressed hsigned hfresh hcarries' harrives'
      (by rw [hdatagram', hpacket'])
  refine ⟨d'', effects, hstep', ?_, ?_⟩
  . rw [hcredit, Settled, hwallet₂]
    simp [settle]
  . have hnames : settle.Names submit.signed := Payment.names_buildSettleRequest _ rfl
    intro signed
    constructor
    . intro hsigned
      exact hsigned.unique hnames
    . rintro rfl
      exact hnames

end

namespace Sample

open Device.Sample

theorem lawful : primitives.noise.Lawful where
  diffieHellman_comm := fun _ _ => rfl
  open_seal := by
    intro _ _ plain _
    simp [primitives, noise]

def serverAddr : SocketAddr where
  ip := .v4 (.new 192 0 2 1)
  port := 7000

def sentDatagram (outputs : List Output) : Option Received :=
  outputs.findSome? fun o =>
    match o.effect with
    | .send _ _ datagram => if h : datagram.length ≤ maxUdpSize then some ⟨datagram, h⟩ else none
    | _ => none

def passOn (d : Device) (addr : SocketAddr) (outputs : List Output)
    : Option (Device × List Output) :=
  match sentDatagram outputs with
  | none => none
  | some datagram => (Device.machine primitives).step d (.udp addr datagram env)

def host (ip : Ipv4Addr) : AllowedIP :=
  ⟨.v4 ip, 32, IpAddr.le_width_v4 ip⟩

/--
A server and a client after a handshake. The server has the given address for the client.
-/
def connected (ip : Ipv4Addr) : Option (Device × Device) := do
  let (_, c) ← (Device.machine primitives).exec
    (.new { initial := 1, lfsr := 1, mask := 1 } { useConnectedSocket := false }
      { serverConfig with isServer := false })
    [.setKey (Device.Sample.key 2) env, .openListenSocket 7000 (some 7000),
      .updatePeer (Device.Sample.key 1) false (some serverAddr)
        [anyIp] none none env]
  let (_, d) ← (Device.machine primitives).exec Device.Sample.server
    [.setKey (Device.Sample.key 1) env, .openListenSocket 7000 (some 7000),
      .updatePeer (Device.Sample.key 2) false none
        [host ip] none none env]
  let (c, outputs) ← (Device.machine primitives).step c (.iface (tunPacket 0 (by decide)) env)
  let (d, outputs) ← passOn d clientAddr outputs
  let (c, outputs) ← passOn c serverAddr outputs
  let (d, _) ← passOn d clientAddr outputs
  return (d, c)

def reaches (s : Noise.Session) (d : Device) : Bool :=
  d.keyPair.isSome
    && (d.rateLimiter.bind d.limiterArena.get).isSome
    && decide (d.peersByIdx.lookup (s.sendingIndex >>> 8) = some 0)
    && (d.peerArena.get 0).any fun p =>
      (p.tunnel.sessions (Noise.Tunn.slot s.sendingIndex.toNat)).any fun s' => decide (s.Feeds s')

theorem carries_of_reaches {s : Noise.Session} {d : Device} {p : Peer} (h : reaches s d = true)
    (hget : d.peerArena.get 0 = some p)
    : Carries s d 0 p ∧
        ∀ addr datagram env, Arrives d 0 p datagram env (.udp addr datagram env) := by
  simp only [reaches, hget, Option.any_some, Bool.and_eq_true, decide_eq_true_eq,
    Option.any_eq_true] at h
  obtain ⟨⟨⟨hkey, hlimiter⟩, hindex⟩, hsession⟩ := h
  obtain ⟨rl, hlimiter⟩ := Option.isSome_iff_exists.mp hlimiter
  obtain ⟨ref, href, hlimiter⟩ := Option.bind_eq_some_iff.mp hlimiter
  exact ⟨⟨hget, hindex, hsession⟩, fun addr _ _ => .udp addr ref rl hkey href hlimiter⟩

def requested (d : Device) (p : Peer) : Option Received :=
  match sendPaymentRequired primitives d p .udp4 clientAddr env with
  | some (_, [.signal _ _ _ _ (.writeToNetwork datagram)]) =>
    if h : datagram.length ≤ maxUdpSize then some ⟨datagram, h⟩ else none
  | _ => none

theorem requested_eq {d : Device} {p p₁ : Peer} {signal : Signal} {packet : Bytes}
    {datagram : Received}
    (h : sendPaymentRequired primitives d p .udp4 clientAddr env
      = some (p₁, [.signal signal packet .udp4 clientAddr (.writeToNetwork datagram.val)]))
    : requested d p = some datagram := by
  simp only [requested, h]
  rw [dif_pos datagram.property]

def serverWallet : Payment.PaymentWallet :=
  .fromWireguardKey primitives.payment (Device.Sample.key 1)

def clientWallet : Payment.PaymentWallet :=
  .fromWireguardKey primitives.payment (Device.Sample.key 2)

structure Prepared (d c : Device) (p p' : Peer) (s : Noise.Session) : Prop where
  get : d.peerArena.get 0 = some p
  get' : c.peerArena.get 0 = some p'
  wallet : d.paymentWallet = some serverWallet
  wallet' : c.paymentWallet = some clientWallet
  domain : c.paymentConfig.gatewayDomain = d.paymentConfig.gatewayDomain
  ip : HasIpv4 p
  ip' : HasIpv4 p'
  session : p.tunnel.currentSession = some s
  reaches : reaches s c = true

theorem hasIpv4_of_eq {p : Peer} {allowed : AllowedIP}
    (h : p.allowedIps.ips = (AllowedIps.ofList [allowed] ()).ips) (hv4 : allowed.addr.family = .v4)
    : HasIpv4 p := by
  refine ⟨[allowed], allowed, ?_, List.mem_singleton_self _, hv4⟩
  exact congrArg AllowedIps.mk h

theorem exists_connected (ip : Ipv4Addr) (Q : Device → Device → Peer → Bool)
    (h : (connected ip).any (fun (d, c) =>
      (d.peerArena.get 0).any fun p =>
        (c.peerArena.get 0).any fun p' =>
          p.tunnel.currentSession.any fun s =>
            decide (d.paymentWallet = some serverWallet)
              && decide (c.paymentWallet = some clientWallet)
              && decide (c.paymentConfig.gatewayDomain = d.paymentConfig.gatewayDomain)
              && decide (p.allowedIps.ips
                = (AllowedIps.ofList [host ip] ()).ips)
              && decide (p'.allowedIps.ips
                = (AllowedIps.ofList [⟨.v4 (.new 0 0 0 0), 0, Nat.zero_le _⟩] ()).ips)
              && reaches s c && Q d c p) = true)
    : ∃ d c p p' s, Prepared d c p p' s ∧ Q d c p = true := by
  obtain ⟨⟨d, c⟩, _, h⟩ := (Option.any_eq_true _ _).mp h
  obtain ⟨p, hget, h⟩ := (Option.any_eq_true _ _).mp h
  obtain ⟨p', hget', h⟩ := (Option.any_eq_true _ _).mp h
  obtain ⟨s, hsession, h⟩ := (Option.any_eq_true _ _).mp h
  simp only [Bool.and_eq_true, decide_eq_true_eq] at h
  obtain ⟨⟨⟨⟨⟨⟨hwallet, hwallet'⟩, hdomain⟩, hips⟩, hips'⟩, hreaches⟩, hQ⟩ := h
  exact ⟨d, c, p, p', s, ⟨hget, hget', hwallet, hwallet', hdomain, hasIpv4_of_eq hips rfl,
    hasIpv4_of_eq hips' rfl, hsession, hreaches⟩, hQ⟩

/--
The server has not recorded a nonce yet, and the session with which the client answers a request
reaches it.
-/
def canPay (d c : Device) (p : Peer) : Bool :=
  decide (p.firstAllowedIpv4 ≠ some Payment.paymentGatewayIp)
    && (p.quota.all fun q : Payment.BandwidthQuota => decide (q.usedNonces = ∅))
    && (requested d p).any fun datagram =>
      (incoming primitives c (.udp serverAddr datagram env)).any fun i : Inbound =>
        i.peer.tunnel.currentSession.any fun s => reaches s d

end Sample

section

open Device.Sample Sample

theorem payment_completes_connected
    : ∃ d c p p' s datagram c' submit packet sock addr datagram' d' effects,
        Prepared d c p p' s
          ∧
        requested d p = some datagram
          ∧
        (Device.machine primitives).step c (.udp serverAddr datagram env)
          = some (c', outputsFor 0 [.sign submit.signed.auth,
            .signal (.paymentSubmit submit) packet sock addr (.writeToNetwork datagram'.val)])
          ∧
        (Device.machine primitives).step d (.udp clientAddr datagram' env)
          = some (d', outputsFor 0 effects)
          ∧
        .credit submit ∈ effects := by
  obtain ⟨d, c, p, p', s, hprepared, h⟩ := exists_connected clientIp canPay (by decide +kernel)
  simp only [canPay, Bool.and_eq_true, decide_eq_true_eq] at h
  obtain ⟨⟨hgateway, hquota⟩, hpays⟩ := h
  obtain ⟨hcarries, harrives⟩ := carries_of_reaches hprepared.reaches hprepared.get'
  obtain ⟨_, p₁, packet, datagram, hsend, _, hclient⟩ := payment_completes lawful recoversSigner
    hprepared.wallet hprepared.ip hgateway hprepared.session .udp4 clientAddr env
  have hdatagram := requested_eq hsend
  obtain ⟨c', i, s', sock, addr, packet', datagram', hstep, _, hincoming, hs', hserver⟩ :=
    hclient c 0 p' (Device.Sample.key 2) (.udp serverAddr datagram env) env hprepared.wallet'
      hprepared.domain hprepared.ip' hcarries (harrives serverAddr datagram env)
  rw [hdatagram, Option.any_some, hincoming, Option.any_some, hs', Option.any_some] at hpays
  obtain ⟨hcarries', harrives'⟩ := carries_of_reaches hpays hprepared.get
  obtain ⟨d', effects, hstep', hcredit, _⟩ := hserver d 0 p (.udp clientAddr datagram' env) env
    hprepared.wallet rfl hcarries' (harrives' clientAddr datagram' env) (by
      intro q hq
      rw [hq, Option.all_some, decide_eq_true_eq] at hquota
      simp [hquota])
  exact ⟨d, c, p, p', s, datagram, c', _, packet', sock, addr, datagram', d', effects, hprepared,
    hdatagram, hstep, hstep', hcredit.mpr (.inr ⟨_, rfl, rfl⟩)⟩

/--
The server has the address of the gateway for its client. The client takes the request for a payment
to itself, and drops it.
-/
theorem exists_unanswered
    : ∃ d c p p' s datagram c',
        Prepared d c p p' s
          ∧
        requested d p = some datagram
          ∧
        Arrives c 0 p' datagram env (.udp serverAddr datagram env)
          ∧
        (Device.machine primitives).step c (.udp serverAddr datagram env) = some (c', []) := by
  obtain ⟨d, c, p, p', s, hprepared, h⟩ := exists_connected Payment.paymentGatewayIp
    (fun d c p => (requested d p).any fun datagram =>
      ((Device.machine primitives).step c (.udp serverAddr datagram env)).any fun r =>
        r.2.isEmpty) (by decide +kernel)
  obtain ⟨datagram, hdatagram, h⟩ := (Option.any_eq_true _ _).mp h
  obtain ⟨⟨c', outputs⟩, hstep, h⟩ := (Option.any_eq_true _ _).mp h
  rw [List.isEmpty_iff] at h
  refine ⟨d, c, p, p', s, datagram, c', hprepared, hdatagram, ?_, ?_⟩
  . exact (carries_of_reaches hprepared.reaches hprepared.get').2 serverAddr datagram env
  . rw [hstep]
    exact congrArg (fun outputs => some (c', outputs)) h

end

end Link
