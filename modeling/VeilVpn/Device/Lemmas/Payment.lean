import VeilVpn.Payment.Lemmas.Protocol
import VeilVpn.Noise.Lemmas.Handshake
import VeilVpn.Device.Lemmas.Step

namespace Device

theorem version_signalPacket {srcIp dstIp : Ipv4Addr} {payload rest : Bytes} {first : UInt8}
    (h : Payment.signalPacket srcIp dstIp payload = first :: rest)
    : first >>> 4 = 4 := by
  have hhead : (Payment.signalPacket srcIp dstIp payload).head? = some 0x45 := rfl
  rw [h, List.head?_cons, Option.some.injEq] at hhead
  rw [hhead]
  decide

theorem ipHeader_signalPacket (srcIp dstIp : Ipv4Addr) (payload : Bytes)
    (hlen : 28 + payload.length ≤ 65535)
    : Noise.Tunn.ipHeader (Payment.signalPacket srcIp dstIp payload)
        =
      some ((Payment.signalPacket srcIp dstIp payload).length, .v4 srcIp) := by
  have hlength := Payment.length_signalPacket srcIp dstIp payload
  have htotal : (Bytes.slice (Payment.signalPacket srcIp dstIp payload) 2 4).beNat
      = (Payment.signalPacket srcIp dstIp payload).length := by
    have hslice : Bytes.slice (Payment.signalPacket srcIp dstIp payload) 2 4
        = Bytes.beBytes 2 (20 + (8 + payload.length)) := by
      simp [Bytes.slice, Payment.signalPacket, Payment.ipHeaderStart]
    rw [hslice, Bytes.beNat_beBytes, hlength]
    omega
  have hsrc := Payment.srcIpv4_signalPacket srcIp dstIp payload
  unfold Payment.srcIpv4 at hsrc
  rw [dif_neg (by omega), Option.some.injEq] at hsrc
  unfold Noise.Tunn.ipHeader
  split
  . next hnil =>
    rw [hnil, List.length_nil] at hlength
    omega
  . next hcons =>
    rw [dif_pos ⟨version_signalPacket hcons, by simp [Noise.Tunn.ipv4MinHeaderSize, hlength]; omega⟩,
      htotal, hsrc]

theorem dstAddress_signalPacket (srcIp dstIp : Ipv4Addr) (payload : Bytes)
    : Noise.Tunn.dstAddress (Payment.signalPacket srcIp dstIp payload) = some (.v4 dstIp) := by
  have hlength := Payment.length_signalPacket srcIp dstIp payload
  have hdst := Payment.dstIpv4_signalPacket srcIp dstIp payload
  unfold Payment.dstIpv4 at hdst
  rw [dif_neg (by omega), Option.some.injEq] at hdst
  unfold Noise.Tunn.dstAddress
  split
  . next hnil =>
    rw [hnil, List.length_nil] at hlength
    omega
  . next hcons =>
    rw [dif_pos ⟨version_signalPacket hcons, by simp [Noise.Tunn.ipv4MinHeaderSize, hlength]; omega⟩,
      hdst]

theorem validateDecapsulatedPacket_signalPacket (t : Noise.Tunn) (srcIp dstIp : Ipv4Addr)
    (payload : Bytes) (hlen : 28 + payload.length ≤ 65535)
    : (t.validateDecapsulatedPacket (Payment.signalPacket srcIp dstIp payload)).2
        =
      .writeToTunnelV4 (Payment.signalPacket srcIp dstIp payload) srcIp := by
  have hlength := Payment.length_signalPacket srcIp dstIp payload
  have hnonempty : ¬(Payment.signalPacket srcIp dstIp payload).isEmpty := by
    rw [List.isEmpty_iff_length_eq_zero]
    omega
  unfold Noise.Tunn.validateDecapsulatedPacket
  rw [if_neg hnonempty, ipHeader_signalPacket srcIp dstIp payload hlen]
  dsimp only
  rw [if_neg (by omega), List.take_length]

/--
The builder and the readers of signals agree on all offsets, up to the largest packet there is.
-/
theorem readers_buildSignalPacket (t : Noise.Tunn) (srcIp dstIp : Ipv4Addr) (payload : Bytes)
    (hlen : payload.length ≤ 65507)
    : ∃ packet,
        Payment.buildSignalPacket srcIp dstIp payload = some packet
          ∧
        (t.validateDecapsulatedPacket packet).2 = .writeToTunnelV4 packet srcIp
          ∧
        (Payment.isPaymentSignal packet
            ↔
          srcIp = Payment.paymentGatewayIp ∨ dstIp = Payment.paymentGatewayIp)
          ∧
        Payment.srcIpv4 packet = some srcIp
          ∧
        Payment.dstIpv4 packet = some dstIp
          ∧
        Noise.Tunn.dstAddress packet = some (.v4 dstIp)
          ∧
        Payment.extractSignalPayload packet = some payload := by
  refine ⟨Payment.signalPacket srcIp dstIp payload, ?_, ?_, ?_, ?_, ?_, ?_, ?_⟩
  . unfold Payment.buildSignalPacket
    rw [if_pos (by omega)]
  . apply validateDecapsulatedPacket_signalPacket
    omega
  . rw [Payment.isPaymentSignal_signalPacket]
    simp
  . apply Payment.srcIpv4_signalPacket
  . apply Payment.dstIpv4_signalPacket
  . apply dstAddress_signalPacket
  . apply Payment.extractSignalPayload_signalPacket
    omega

theorem readers_buildSignalPacket_largest
    : ∃ packet,
        Payment.buildSignalPacket Payment.paymentGatewayIp (.new 10 8 0 2) (List.replicate 65507 0)
          =
        some packet
          ∧
        ((Noise.Tunn.new Noise.Sample.primitives (Noise.Sample.key 1) (Noise.Sample.key 2) none none 1
            0 false ⟨0, 0⟩ 0).validateDecapsulatedPacket packet).2
          =
        .writeToTunnelV4 packet Payment.paymentGatewayIp
          ∧
        Payment.isPaymentSignal packet
          ∧
        Payment.extractSignalPayload packet = some (List.replicate 65507 0) := by
  have hlen : (List.replicate 65507 (0 : UInt8)).length ≤ 65507 := by
    rw [List.length_replicate]
  obtain ⟨packet, hbuild, hvalid, hsignal, _, _, _, hpayload⟩ :=
    readers_buildSignalPacket _ Payment.paymentGatewayIp (.new 10 8 0 2) _ hlen
  exact ⟨packet, hbuild, hvalid, hsignal.mpr (.inl rfl), hpayload⟩

variable {C : Primitives} {d : Device} {p p' : Peer} {sock : Socket} {addr : SocketAddr} {env : Env}
  {effects : List Effect}

theorem sendSignal_eq_some {signal : Signal} {srcIp dstIp : Ipv4Addr}
    (h : sendSignal C p signal srcIp dstIp sock addr env = some (p', effects))
    : p.SameButTunnel p' ∧
        ∃ packet result, effects = [.signal signal packet sock addr result]
          ∧ packet = Payment.signalPacket srcIp dstIp signal.encode := by
  unfold sendSignal at h
  split at h
  . simp at h
  . next packet hbuild =>
    have hpacket : packet = Payment.signalPacket srcIp dstIp signal.encode := by
      unfold Payment.buildSignalPacket at hbuild
      split at hbuild
      . exact (Option.some.inj hbuild).symm
      . simp at hbuild
    split at h
    . simp at h
    . cases h
      exact ⟨.of_tunnel p _, _, _, rfl, hpacket⟩

theorem Signal.length_encode_le (signal : Signal) : signal.encode.length ≤ 164 := by
  cases signal <;>
    simp [encode, Payment.PaymentRequired.encode, Payment.PaymentAccepted.encode,
      Payment.PaymentSubmit.encode, Payment.encodeTlv]

theorem sendSignal_of_session (signal : Signal) (srcIp dstIp : Ipv4Addr) (sock : Socket)
    (addr : SocketAddr) (env : Env) {session : Noise.Session}
    (hsession : p.tunnel.currentSession = some session)
    : ∃ tunnel packet,
        sendSignal C p signal srcIp dstIp sock addr env
          = some ({ p with tunnel },
            [.signal signal packet sock addr (.writeToNetwork (session.sealPacket C.noise packet))])
          ∧
        packet = Payment.signalPacket srcIp dstIp signal.encode
          ∧
        tunnel.currentSession.isSome := by
  have hencode := signal.length_encode_le
  have hbuild : 20 + (8 + signal.encode.length) ≤ 65535 := by omega
  have hfits : (Payment.signalPacket srcIp dstIp signal.encode).length + Noise.dataOverheadSz
      ≤ maxPaymentPacketSize := by
    rw [Payment.length_signalPacket]
    simp only [Noise.dataOverheadSz, maxPaymentPacketSize]
    omega
  obtain ⟨tunnel, hencapsulate, hafter⟩ :=
    Noise.Tunn.encapsulate_of_session (P := C.noise) hfits env.now (env.ephemeral 1) hsession
  refine ⟨tunnel, _, ?_, rfl, hafter⟩
  simp [sendSignal, Payment.buildSignalPacket, hbuild, hencapsulate]

theorem sendPaymentRequired_eq_some
    (h : sendPaymentRequired C d p sock addr env = some (p', effects))
    : p.SameButTunnel p' ∧
        (effects = [] ∨
          ∃ msg packet result, effects = [.signal (.paymentRequired msg) packet sock addr result])
        := by
  unfold sendPaymentRequired at h
  split at h
  . cases h
    exact ⟨.refl p, .inl rfl⟩
  . split at h
    . cases h
      exact ⟨.refl p, .inl rfl⟩
    . obtain ⟨hsame, packet, result, heffects, _⟩ := sendSignal_eq_some h
      exact ⟨hsame, .inr ⟨_, packet, result, heffects⟩⟩

theorem sendPaymentRequired_of_session (sock : Socket) (addr : SocketAddr) (env : Env)
    (hwallet : d.paymentWallet.isSome) (hip : p.firstAllowedIpv4.isSome) {session : Noise.Session}
    (hsession : p.tunnel.currentSession = some session)
    : ∃ tunnel msg packet,
        sendPaymentRequired C d p sock addr env
          = some ({ p with tunnel },
            [.signal (.paymentRequired msg) packet sock addr
              (.writeToNetwork (session.sealPacket C.noise packet))])
          ∧
        tunnel.currentSession.isSome := by
  obtain ⟨wallet, hwallet⟩ := Option.isSome_iff_exists.mp hwallet
  obtain ⟨ip, hip⟩ := Option.isSome_iff_exists.mp hip
  simp only [sendPaymentRequired, hwallet, hip]
  obtain ⟨tunnel, packet, hsend, _, hafter⟩ :=
    sendSignal_of_session (C := C) _ Payment.paymentGatewayIp ip sock addr env hsession
  exact ⟨tunnel, _, packet, hsend, hafter⟩

theorem acceptPayment_eq_some {submit : Payment.PaymentSubmit}
    (h : acceptPayment C d p submit sock addr env = some (p', effects))
    : (p.credit d.paymentConfig.quotaBytes).SameButTunnel p' ∧
        (effects = [.credit submit] ∨
          ∃ msg packet result,
            effects = [.credit submit, .signal (.paymentAccepted msg) packet sock addr result]
              ∧
            ∃ ip, p.firstAllowedIpv4 = some ip
              ∧ packet = Payment.signalPacket Payment.paymentGatewayIp ip msg.encode) := by
  unfold acceptPayment at h
  dsimp only at h
  split at h
  . cases h
    exact ⟨.refl _, .inl rfl⟩
  . next ip hip =>
    split at h
    . simp at h
    . next hsend =>
      cases h
      obtain ⟨hsame, packet, result, rfl, hpacket⟩ := sendSignal_eq_some hsend
      exact ⟨hsame, .inr ⟨_, packet, result, rfl, ip, hip, hpacket⟩⟩

/--
The checks of a payment that do not need the quota of the peer: recipient and value.
-/
def Addressed (d : Device) (submit : Payment.PaymentSubmit) : Prop :=
  ∃ wallet, d.paymentWallet = some wallet ∧ submit.to = wallet.ethereumAddress
    ∧ d.paymentConfig.amountPerQuota ≤ submit.value

variable (C) in
def Signed (d : Device) (submit : Payment.PaymentSubmit) : Prop :=
  Payment.verifyAuthorization C.payment d.paymentConfig.gatewayDomain submit.signed
    = some submit.from

def Settled (d : Device) (env : Env) (submit : Payment.PaymentSubmit) : Prop :=
  ∃ wallet resp, d.paymentWallet = some wallet ∧
    env.settle (Payment.buildSettleRequest d.paymentConfig submit wallet.ethereumAddress) = .ok resp
    ∧ resp.success = true

/--
What `handlePaymentSubmit` does with a payload: nothing, or it records the nonce, or it also credits
the quota.
-/
inductive SubmitCase (C : Primitives) (d : Device) (p : Peer) (payload : Bytes) (env : Env)
    (p' : Peer) (effects : List Effect) : Prop where
  | unchanged
    (hreason : ∀ submit, Payment.PaymentSubmit.decode payload = some submit →
      Addressed d submit → (p.checkAndRecordNonce submit.nonce).2 = false)
    (hpeer : p' = p) (heffects : effects = [])
  | rejected (submit : Payment.PaymentSubmit)
    (hdecode : Payment.PaymentSubmit.decode payload = some submit)
    (haddressed : Addressed d submit)
    (hfresh : p.checkAndRecordNonce submit.nonce = (p', true))
    (hreason : ¬(Signed C d submit ∧ (d.settlementClient = false ∨ Settled d env submit)))
    (heffects : effects = [])
  | accepted (submit : Payment.PaymentSubmit) (recorded : Peer)
    (hdecode : Payment.PaymentSubmit.decode payload = some submit)
    (haddressed : Addressed d submit)
    (hfresh : p.checkAndRecordNonce submit.nonce = (recorded, true))
    (hsigned : Signed C d submit)
    (hsettled : d.settlementClient = false ∨ Settled d env submit)
    (hpeer : (recorded.credit d.paymentConfig.quotaBytes).SameButTunnel p')
    (heffects : effects = [.credit submit] ∨ ∃ msg packet sock addr result,
      effects = [.credit submit, .signal (.paymentAccepted msg) packet sock addr result]
        ∧ ∃ ip, recorded.firstAllowedIpv4 = some ip
          ∧ packet = Payment.signalPacket Payment.paymentGatewayIp ip msg.encode)

theorem checkAndRecordNonce_eq_of_replay {nonce : FixedBytes 32}
    (h : p.checkAndRecordNonce nonce = (p', false))
    : p' = p := by
  unfold Peer.checkAndRecordNonce at h
  split at h
  . simp at h
  . next quota hquota =>
    simp only [Payment.BandwidthQuota.checkAndRecordNonce, Prod.mk.injEq, decide_eq_false_iff_not,
      not_not] at h
    obtain ⟨rfl, hmem⟩ := h
    rw [Finset.insert_eq_of_mem hmem, ← hquota]

theorem handlePaymentSubmit_cases {payload : Bytes}
    (h : handlePaymentSubmit C d p payload sock addr env = some (p', effects))
    : SubmitCase C d p payload env p' effects := by
  unfold handlePaymentSubmit at h
  split at h
  . next hwallet =>
    cases h
    refine .unchanged ?_ rfl rfl
    rintro submit _ ⟨wallet, hwallet', _⟩
    simp [hwallet] at hwallet'
  . next wallet hwallet =>
    split at h
    . next hdecode =>
      cases h
      refine .unchanged ?_ rfl rfl
      intro submit hdecode'
      simp [hdecode] at hdecode'
    . next submit hdecode =>
      split at h
      . next hto =>
        cases h
        refine .unchanged ?_ rfl rfl
        rintro submit' hdecode' ⟨wallet', hwallet', hto', _⟩
        grind
      . next hto =>
        split at h
        . next hvalue =>
          cases h
          refine .unchanged ?_ rfl rfl
          rintro submit' hdecode' ⟨wallet', hwallet', _, hvalue'⟩
          rw [hdecode] at hdecode'
          cases hdecode'
          exact absurd hvalue' (UInt64.not_le.mpr hvalue)
        . next hvalue =>
          have haddressed : Addressed d submit :=
            ⟨wallet, hwallet, not_not.mp hto, UInt64.not_lt.mp hvalue⟩
          split at h
          . next recorded hreplay =>
            cases h
            refine .unchanged ?_ (checkAndRecordNonce_eq_of_replay hreplay) rfl
            intro submit' hdecode' _
            rw [hdecode] at hdecode'
            cases hdecode'
            rw [hreplay]
          . next recorded hfresh =>
            split at h
            . next hverify =>
              cases h
              refine .rejected submit hdecode haddressed hfresh ?_ rfl
              rintro ⟨hsigned, _⟩
              simp [Signed, hverify] at hsigned
            . next recovered hverify =>
              split at h
              . next hne =>
                cases h
                refine .rejected submit hdecode haddressed hfresh ?_ rfl
                rintro ⟨hsigned, _⟩
                rw [Signed, hverify, Option.some.injEq] at hsigned
                exact hne hsigned
              . next heq =>
                have hsigned : Signed C d submit := by
                  rw [Signed, hverify, not_not.mp heq]
                split at h
                . next hclient =>
                  obtain ⟨hsame, heffects⟩ := acceptPayment_eq_some h
                  refine .accepted submit recorded hdecode haddressed hfresh hsigned
                    (.inl (by simpa using hclient)) hsame ?_
                  exact heffects.imp id fun ⟨msg, packet, result, h⟩ =>
                    ⟨msg, packet, sock, addr, result, h⟩
                . next hclient =>
                  have hclient : d.settlementClient = true := by simpa using hclient
                  split at h
                  . next hsettle =>
                    cases h
                    refine .rejected submit hdecode haddressed hfresh ?_ rfl
                    rintro ⟨_, hnone | ⟨wallet', resp, hwallet', hok, _⟩⟩
                    . simp [hclient] at hnone
                    . grind
                  . next resp hsettle =>
                    split at h
                    . next hsuccess =>
                      obtain ⟨hsame, heffects⟩ := acceptPayment_eq_some h
                      refine .accepted submit recorded hdecode haddressed hfresh hsigned
                        (.inr ⟨wallet, resp, hwallet, hsettle, hsuccess⟩) hsame ?_
                      exact heffects.imp id fun ⟨msg, packet, result, h⟩ =>
                        ⟨msg, packet, sock, addr, result, h⟩
                    . next hsuccess =>
                      cases h
                      refine .rejected submit hdecode haddressed hfresh ?_ rfl
                      rintro ⟨_, hnone | ⟨wallet', resp', hwallet', hok, hsuccess'⟩⟩
                      . simp [hclient] at hnone
                      . grind

/--
What `handlePaymentSignalClient` does with a payload: nothing, or it signs an authorization for the
request and sends it if the peer has an IPv4 address.
-/
inductive ClientCase (C : Primitives) (d : Device) (p : Peer) (payload : Bytes) (sock : Socket)
    (addr : SocketAddr) (env : Env) (p' : Peer) (effects : List Effect) : Prop where
  | silent
    (hreason : d.paymentWallet = none ∨ Payment.PaymentRequired.decode payload = none)
    (hpeer : p' = p) (heffects : effects = [])
  | signed (wallet : Payment.PaymentWallet) (req : Payment.PaymentRequired)
    (auth : Payment.TransferAuthorization) (sends : List Effect)
    (hwallet : d.paymentWallet = some wallet)
    (hdecode : Payment.PaymentRequired.decode payload = some req)
    (hauth : auth = {
      «from» := wallet.ethereumAddress
      «to» := req.recipient
      value := req.amountUsdc
      validAfter := 0
      validBefore := UInt64.ofNat env.systemTime.asSecs + 345600
      nonce := req.nonce })
    (heffects : effects = .sign auth :: sends)
    (hsends : (p.firstAllowedIpv4 = none ∧ p' = p ∧ sends = [])
      ∨ ∃ ip submit, p.firstAllowedIpv4 = some ip
        ∧ sendSignal C p (.paymentSubmit submit) ip Payment.paymentGatewayIp sock addr env
          = some (p', sends))

theorem head?_of_decode_eq_some {payload : Bytes} {req : Payment.PaymentRequired}
    (h : Payment.PaymentRequired.decode payload = some req)
    : payload.head? = some Payment.msgPaymentRequired := by
  unfold Payment.PaymentRequired.decode Payment.decodeTlv at h
  split at h
  . simp at h
  . next hdecode =>
    split at hdecode
    . simp at hdecode
    . next htag =>
      rw [not_or, not_not] at htag
      exact htag.2

theorem handlePaymentSignalClient_cases {payload : Bytes}
    (h : handlePaymentSignalClient C d p payload sock addr env = some (p', effects))
    : ClientCase C d p payload sock addr env p' effects := by
  unfold handlePaymentSignalClient at h
  split at h
  . next htag =>
    cases h
    refine .silent (.inr ?_) rfl rfl
    cases hdecode : Payment.PaymentRequired.decode payload with
    | none => rfl
    | some req => exact absurd (head?_of_decode_eq_some hdecode) htag
  . split at h
    . next hdecode =>
      cases h
      exact .silent (.inr hdecode) rfl rfl
    . next req hdecode =>
      split at h
      . next hwallet =>
        cases h
        exact .silent (.inl hwallet) rfl rfl
      . next wallet hwallet =>
        dsimp only at h
        split at h
        . next hip =>
          cases h
          exact .signed wallet req _ [] hwallet hdecode rfl rfl (.inl ⟨hip, rfl, rfl⟩)
        . next ip hip =>
          split at h
          . simp at h
          . next hsend =>
            cases h
            exact .signed wallet req _ _ hwallet hdecode rfl rfl (.inr ⟨ip, _, hip, hsend⟩)

theorem handlePaymentSignalClient_eq_some {payload : Bytes}
    (h : handlePaymentSignalClient C d p payload sock addr env = some (p', effects))
    : p.SameButTunnel p' ∧
        (effects = [] ∨ (∃ auth, effects = [.sign auth]) ∨
          ∃ auth msg packet result,
            effects = [.sign auth, .signal (.paymentSubmit msg) packet sock addr result]) := by
  cases handlePaymentSignalClient_cases h with
  | silent _ hpeer heffects =>
    subst hpeer
    exact ⟨.refl p', .inl heffects⟩
  | signed _ _ auth _ _ _ _ heffects hsends =>
    rcases hsends with ⟨_, rfl, rfl⟩ | ⟨_, submit, _, hsend⟩
    . exact ⟨.refl p', .inr (.inl ⟨auth, heffects⟩)⟩
    . obtain ⟨hsame, packet, result, rfl, _⟩ := sendSignal_eq_some hsend
      exact ⟨hsame, .inr (.inr ⟨auth, submit, packet, result, heffects⟩)⟩

end Device
