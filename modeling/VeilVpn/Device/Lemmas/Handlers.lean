import VeilVpn.Device.Lemmas.Step
import VeilVpn.Noise.Lemmas.Queue

namespace Device

inductive IsData (packet : Bytes) : IpAddr → Noise.TunnResult → Prop where
  | v4 (srcIp : Ipv4Addr) (hsignal : Payment.isPaymentSignal packet = false)
    : IsData packet (.v4 srcIp) (.writeToTunnelV4 packet srcIp)
  | v6 (srcIp : Ipv6Addr) : IsData packet (.v6 srcIp) (.writeToTunnelV6 packet srcIp)

theorem IsData.packet {packet : Bytes} {ip : IpAddr} {result : Noise.TunnResult}
    (h : IsData packet ip result)
    : result.packet = some packet := by
  cases h <;> rfl

section

variable (C : Primitives) (d : Device) (p : Peer) (env : Env)

/--
All that the result of the tunnel can lead to.
-/
inductive ResultCase (result : Noise.TunnResult) (sock : Socket) (addr : Option SocketAddr)
    (p' : Peer) (effects : List Effect) : Prop where
  | idle (hpacket : result.packet = none) (hpeer : p' = p) (heffects : ∀ f ∈ effects, f.isSend)
  | ignored (packet : Bytes) (srcIp : Ipv4Addr)
    (hresult : result = .writeToTunnelV4 packet srcIp)
    (hsignal : Payment.isPaymentSignal packet = true)
    (hpayload : Payment.extractSignalPayload packet = none)
    (hpeer : p' = p) (heffects : effects = [])
  | submit (packet : Bytes) (srcIp : Ipv4Addr) (payload : Bytes) (dest : SocketAddr)
    (hresult : result = .writeToTunnelV4 packet srcIp)
    (hsignal : Payment.isPaymentSignal packet = true)
    (hpayload : Payment.extractSignalPayload packet = some payload)
    (hdst : Payment.dstIpv4 packet = some Payment.paymentGatewayIp)
    (haddr : addr = some dest)
    (hhandle : handlePaymentSubmit C d p payload sock dest env = some (p', effects))
  | request (packet : Bytes) (srcIp : Ipv4Addr) (payload : Bytes) (dest : SocketAddr)
    (hresult : result = .writeToTunnelV4 packet srcIp)
    (hsignal : Payment.isPaymentSignal packet = true)
    (hpayload : Payment.extractSignalPayload packet = some payload)
    (hdst : Payment.dstIpv4 packet ≠ some Payment.paymentGatewayIp)
    (haddr : addr = some dest)
    (hhandle : handlePaymentSignalClient C d p payload sock dest env = some (p', effects))
  | refused (packet : Bytes) (ip : IpAddr) (hdata : IsData packet ip result)
    (hallowed : p.isAllowedIp ip = false) (hpeer : p' = p) (heffects : effects = [])
  | blocked (packet : Bytes) (ip : IpAddr) (hdata : IsData packet ip result)
    (hallowed : p.isAllowedIp ip = true)
    (hverdict : enforceQuota d p packet = (p', .blocked)) (heffects : effects = [])
  | exhausted (packet : Bytes) (srcIp : Ipv4Addr) (p₁ : Peer) (dest : SocketAddr)
    (hdata : IsData packet (.v4 srcIp) result) (hallowed : p.isAllowedIp (.v4 srcIp) = true)
    (hverdict : enforceQuota d p packet = (p₁, .exhausted))
    (haddr : addr = some dest)
    (hsend : sendPaymentRequired C d p₁ sock dest env = some (p', effects))
  | exhaustedV6 (packet : Bytes) (srcIp : Ipv6Addr)
    (hdata : IsData packet (.v6 srcIp) result) (hallowed : p.isAllowedIp (.v6 srcIp) = true)
    (hverdict : enforceQuota d p packet = (p', .exhausted)) (heffects : effects = [])
  | forwarded (packet : Bytes) (ip : IpAddr) (hdata : IsData packet ip result)
    (hallowed : p.isAllowedIp ip = true)
    (hverdict : enforceQuota d p packet = (p', .forward)) (heffects : effects = [.writeTun packet])

inductive OutboundCase (src : Bytes) (p' : Peer) (effects : List Effect) : Prop where
  | blocked (hverdict : enforceQuota d p src = (p', .blocked)) (heffects : effects = [])
  | exhausted (p₁ : Peer) (dest : SocketAddr)
    (hverdict : enforceQuota d p src = (p₁, .exhausted))
    (haddr : p₁.endpoint.addr = some dest)
    (hsend : sendPaymentRequired C d p₁ .udp4 dest env = some (p', effects))
  | exhaustedSilent (hverdict : enforceQuota d p src = (p', .exhausted))
    (haddr : p'.endpoint.addr = none) (heffects : effects = [])
  | forwarded (p₁ : Peer) (tunnel : Noise.Tunn) (result : Noise.TunnResult) (sends : List Effect)
    (hverdict : enforceQuota d p src = (p₁, .forward))
    (hencapsulate : p₁.tunnel.encapsulate C.noise src maxUdpSize env.now (env.ephemeral 0)
      = some (tunnel, result))
    (hpeer : p' = { p₁ with tunnel }) (hsends : ∀ f ∈ sends, f.isSend)
    (heffects : effects = .encapsulateTun src :: sends)

end

theorem srcIpv4_of_isPaymentSignal {packet : Bytes} (h : Payment.isPaymentSignal packet = true)
    (hdst : Payment.dstIpv4 packet ≠ some Payment.paymentGatewayIp)
    : Payment.srcIpv4 packet = some Payment.paymentGatewayIp := by
  unfold Payment.isPaymentSignal at h
  split at h
  . simp at h
  . split at h
    . simp at h
    . simpa [hdst] using h

theorem dstIpv4_isSome_of_isPaymentSignal {packet : Bytes}
    (h : Payment.isPaymentSignal packet = true)
    : ∃ dst, Payment.dstIpv4 packet = some dst := by
  unfold Payment.isPaymentSignal at h
  split at h
  . simp at h
  . next hlen => exact ⟨_, dif_neg hlen⟩

variable {C : Primitives} {d : Device} {p p' : Peer} {sock : Socket} {addr : Option SocketAddr}
  {env : Env} {effects : List Effect} {flow : Flow}

theorem handlePaymentSignal_cases {packet : Bytes} {srcIp : Ipv4Addr}
    (hsignal : Payment.isPaymentSignal packet = true)
    (h : handlePaymentSignal C d p packet sock addr env = some (p', effects))
    : ResultCase C d p env (.writeToTunnelV4 packet srcIp) sock addr p' effects := by
  obtain ⟨dst, hdst⟩ := dstIpv4_isSome_of_isPaymentSignal hsignal
  unfold handlePaymentSignal at h
  rw [hdst] at h
  split at h
  . next payload _ hpayload heq =>
    cases heq
    split at h
    . next hgateway =>
      split at h
      . simp at h
      . next dest =>
        exact .submit packet srcIp payload dest rfl hsignal hpayload (by rw [hdst, hgateway]) rfl h
    . next hgateway =>
      have hgateway : Payment.dstIpv4 packet ≠ some Payment.paymentGatewayIp := by
        simpa [hdst] using hgateway
      rw [if_pos (srcIpv4_of_isPaymentSignal hsignal hgateway)] at h
      split at h
      . simp at h
      . next dest => exact .request packet srcIp payload dest rfl hsignal hpayload hgateway rfl h
  . next hnone =>
    cases h
    cases hpayload : Payment.extractSignalPayload packet with
    | none => exact .ignored packet srcIp rfl hsignal hpayload rfl rfl
    | some payload => exact absurd rfl (hnone payload dst hpayload)

theorem inboundV4_cases {packet : Bytes} {srcIp : Ipv4Addr}
    (h : inboundV4 C d p packet srcIp sock addr env = some (p', effects, flow))
    : ResultCase C d p env (.writeToTunnelV4 packet srcIp) sock addr p' effects := by
  unfold inboundV4 at h
  split at h
  . next hsignal =>
    split at h
    . simp at h
    . next hhandle =>
      cases h
      exact handlePaymentSignal_cases hsignal hhandle
  . next hsignal =>
    have hdata : IsData packet (.v4 srcIp) (.writeToTunnelV4 packet srcIp) :=
      .v4 srcIp (by simpa using hsignal)
    split at h
    . next hallowed =>
      split at h
      . next hverdict =>
        cases h
        exact .blocked packet _ hdata hallowed hverdict rfl
      . next p₁ hverdict =>
        split at h
        . simp at h
        . next dest =>
          split at h
          . simp at h
          . next hsend =>
            cases h
            exact .exhausted packet srcIp p₁ dest hdata hallowed hverdict rfl hsend
      . next hverdict =>
        cases h
        exact .forwarded packet _ hdata hallowed hverdict rfl
    . next hallowed =>
      cases h
      exact .refused packet _ hdata (by simpa using hallowed) rfl rfl

theorem inboundV6_cases {packet : Bytes} {srcIp : Ipv6Addr}
    (h : inboundV6 d p packet srcIp = (p', effects, flow))
    : ResultCase C d p env (.writeToTunnelV6 packet srcIp) sock addr p' effects := by
  unfold inboundV6 at h
  split at h
  . next hallowed =>
    split at h
    . next hverdict =>
      cases h
      exact .blocked packet _ (.v6 srcIp) hallowed hverdict rfl
    . next hverdict =>
      cases h
      exact .exhaustedV6 packet srcIp (.v6 srcIp) hallowed hverdict rfl
    . next hverdict =>
      cases h
      exact .forwarded packet _ (.v6 srcIp) hallowed hverdict rfl
  . next hallowed =>
    cases h
    exact .refused packet _ (.v6 srcIp) (by simpa using hallowed) rfl rfl

theorem handleResult_cases {result : Noise.TunnResult} {dest : Option SocketAddr} {afterErr : Flow}
    (h : handleResult C d p result sock dest addr afterErr env = some (p', effects, flow))
    : ResultCase C d p env result sock addr p' effects := by
  unfold handleResult at h
  split at h
  . cases h
    exact .idle rfl rfl (by simp)
  . cases h
    exact .idle rfl rfl (by simp)
  . cases h
    exact .idle rfl rfl (by simp [Effect.isSend])
  . exact inboundV4_cases h
  . exact inboundV6_cases (Option.some.inj h)

theorem sendToEndpoint_isSend {endpoint : Endpoint} {packet : Bytes}
    (h : d.sendToEndpoint endpoint packet = some effects)
    : ∀ f ∈ effects, f.isSend := by
  unfold sendToEndpoint at h
  split at h
  . split at h
    . simp at h
    . cases h
      simp [Effect.isSend]
  . split at h <;>
    . cases h
      simp [Effect.isSend]

theorem outbound_cases {src : Bytes} (h : outbound C d p src env = some (p', effects))
    : OutboundCase C d p env src p' effects := by
  unfold outbound at h
  split at h
  . next hverdict =>
    cases h
    exact .blocked hverdict rfl
  . next p₁ hverdict =>
    split at h
    . next haddr =>
      cases h
      exact .exhaustedSilent hverdict haddr rfl
    . next dest haddr => exact .exhausted p₁ dest hverdict haddr h
  . next p₁ hverdict =>
    split at h
    . simp at h
    . next tunnel hencapsulate =>
      cases h
      exact .forwarded p₁ tunnel _ [] hverdict hencapsulate rfl (by simp) rfl
    . next tunnel _ hencapsulate =>
      cases h
      exact .forwarded p₁ tunnel _ [] hverdict hencapsulate rfl (by simp) rfl
    . next tunnel _ hencapsulate =>
      split at h
      . simp at h
      . next sends hsend =>
        cases h
        exact .forwarded p₁ tunnel _ sends hverdict hencapsulate rfl (sendToEndpoint_isSend hsend) rfl
    . simp at h
    . simp at h

section Flush

variable {C : Primitives} {p : Peer} {sock : Socket} {dest : Option SocketAddr} {env : Env}

def flushRounds (env : Env) : Nat → List (Instant × FixedBytes 32)
  | 0 => []
  | fuel + 1 => (env.now, env.ephemeral (fuel + 2)) :: flushRounds env fuel

theorem length_flushRounds (env : Env) (fuel : Nat) : (flushRounds env fuel).length = fuel := by
  induction fuel with
  | zero => rfl
  | succ fuel ih => rw [flushRounds, List.length_cons, ih]

theorem flushQueue.go_of_flush {rl : Noise.RateLimiter} {fuel : Nat} {tunnel : Noise.Tunn}
    {packets : List Bytes}
    (h : p.tunnel.flush C.noise rl maxUdpSize (flushRounds env fuel) = some (tunnel, packets))
    : go C sock dest env fuel p = some ({ p with tunnel }, packets.map (.send sock dest)) := by
  induction fuel generalizing p packets with
  | zero => simp [flushRounds, Noise.Tunn.flush] at h
  | succ fuel ih =>
    simp only [flushRounds, Noise.Tunn.flush, Noise.Tunn.decapsulate, List.isEmpty_nil, if_true] at h
    simp only [go]
    cases hsend : p.tunnel.sendQueuedPacket C.noise maxUdpSize env.now (env.ephemeral (fuel + 2)) with
    | none => simp [hsend] at h
    | some result =>
      obtain ⟨t, r⟩ := result
      rw [hsend, Option.map_some] at h
      cases r with
      | writeToNetwork packet =>
        simp only at h
        split at h
        . simp at h
        . next tunnel' packets' hflush =>
          cases h
          simp only [ih (p := { p with tunnel := t }) hflush, List.map_cons]
      | _ =>
        cases h
        rfl

/--
The rounds of `flushQueue` do not run out: it is the loop of the handlers.
-/
theorem flushQueue_of_fits (rl : Noise.RateLimiter)
    (hfits : ∀ packet ∈ p.tunnel.packetQueue, packet.length + Noise.dataOverheadSz ≤ maxUdpSize)
    : ∃ tunnel packets,
        p.tunnel.flush C.noise rl maxUdpSize (flushRounds env (p.tunnel.packetQueue.length + 2))
            = some (tunnel, packets)
          ∧
        flushQueue C p sock dest env = some ({ p with tunnel }, packets.map (.send sock dest)) := by
  have hrounds : max 1 p.tunnel.packetQueue.length
      < (flushRounds env (p.tunnel.packetQueue.length + 2)).length := by
    rw [length_flushRounds]
    omega
  obtain ⟨tunnel, packets, hflush, _⟩ := Noise.Tunn.exists_flush (P := C.noise) rl (by decide) hfits
    hrounds
  exact ⟨tunnel, packets, hflush, flushQueue.go_of_flush hflush⟩

end Flush

end Device
