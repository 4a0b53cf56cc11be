import VeilVpn.Noise.Lemmas.Delivery
import VeilVpn.Device.Lemmas.Ready
import VeilVpn.Device.Lemmas.Revocation
import VeilVpn.Device.Lemmas.Tunnels

namespace Device

section Packets

variable {packet : Bytes} {len : Nat}

theorem srcIpv4_of_take {addr : Ipv4Addr} (h : Payment.srcIpv4 (packet.take len) = some addr)
    : Payment.srcIpv4 packet = some addr := by
  unfold Payment.srcIpv4 at h ⊢
  split at h
  . simp at h
  . next hlen =>
    rw [FixedBytes.slice_take] at h
    rw [List.length_take] at hlen
    rw [dif_neg (by omega), h]

theorem dstIpv4_of_take {addr : Ipv4Addr} (h : Payment.dstIpv4 (packet.take len) = some addr)
    : Payment.dstIpv4 packet = some addr := by
  unfold Payment.dstIpv4 at h ⊢
  split at h
  . simp at h
  . next hlen =>
    rw [FixedBytes.slice_take] at h
    rw [List.length_take] at hlen
    rw [dif_neg (by omega), h]

theorem isPaymentSignal_of_take (h : Payment.isPaymentSignal (packet.take len) = true)
    : Payment.isPaymentSignal packet = true := by
  unfold Payment.isPaymentSignal at h ⊢
  split at h
  . simp at h
  . next hlen =>
    rw [List.length_take] at hlen
    rw [dif_neg (by omega)]
    rw [List.getElem_take] at h
    split at h
    . simp at h
    . next hversion =>
      rw [if_neg hversion]
      simp only [Bool.or_eq_true, decide_eq_true_eq] at h ⊢
      exact h.imp srcIpv4_of_take dstIpv4_of_take

theorem isPaymentSignal_of_v6 {addr : Ipv6Addr}
    (h : Noise.Tunn.ipHeader packet = some (len, .v6 addr))
    : Payment.isPaymentSignal (packet.take len) = false := by
  rw [Bool.eq_false_iff]
  intro hsignal
  have hsignal := isPaymentSignal_of_take hsignal
  unfold Noise.Tunn.ipHeader at h
  split at h
  . simp at h
  . next first rest =>
    split at h
    . simp at h
    . split at h
      . next hversion =>
        unfold Payment.isPaymentSignal at hsignal
        rw [dif_neg (by have := hversion.2; unfold Noise.Tunn.ipv6MinHeaderSize at this; omega),
          if_pos (by simp [hversion.1])] at hsignal
        simp at hsignal
      . simp at h

theorem isPaymentSignal_of_call {P : Noise.Primitives} {t t' : Noise.Tunn} {c : Noise.Call}
    {addr : Ipv6Addr} (h : t.call P c = some (t', .writeToTunnelV6 packet addr))
    : Payment.isPaymentSignal packet = false := by
  have hresult : ∃ (t₁ : Noise.Tunn) (plain : Bytes),
      .writeToTunnelV6 packet addr = (t₁.validateDecapsulatedPacket plain).2 := by
    cases Noise.Tunn.effect_of_call h with
    | drop _ hpacket => simp [Noise.TunnResult.packet] at hpacket
    | send _ _ _ _ _ _ _ _ hresult => simp at hresult
    | receive _ _ _ plain _ _ _ _ _ hresult =>
      obtain ⟨t₁, hresult⟩ := hresult
      exact ⟨t₁, plain, hresult⟩
    | respond _ _ _ _ _ _ _ _ hresult => simp at hresult
    | establish _ _ _ _ _ _ _ hresult => simp at hresult
  obtain ⟨t₁, plain, hresult⟩ := hresult
  unfold Noise.Tunn.validateDecapsulatedPacket at hresult
  split at hresult
  . simp at hresult
  . split at hresult
    . simp at hresult
    . next hheader =>
      split at hresult
      . simp at hresult
      . dsimp only at hresult
        split at hresult
        . simp at hresult
        . cases hresult
          exact isPaymentSignal_of_v6 hheader

end Packets

section Handed

/--
Where a packet comes from that a handler hands to the tunnel of the peer `p`: it is a signal of the
server, or it answers a request for payment.
-/
inductive HandedCase (C : Primitives) (d : Device) (p : Peer) (effects : List Effect)
    (packet : Bytes) : Prop where
  | required (p₁ p' : Peer) (sock : Socket) (addr : SocketAddr) (env : Env)
    (hsame : p.SameButState p₁)
    (hsend : sendPaymentRequired C d p₁ sock addr env = some (p', effects))
  | submit (p₁ p' : Peer) (payload : Bytes) (sock : Socket) (addr : SocketAddr) (env : Env)
    (hsame : p.SameButState p₁)
    (hhandle : handlePaymentSubmit C d p₁ payload sock addr env = some (p', effects))
  | answer (ip : Ipv4Addr) (payload : Bytes) (hip : p.firstAllowedIpv4 = some ip)
    (hpacket : packet = Payment.signalPacket ip Payment.paymentGatewayIp payload)

variable {C : Primitives} {d d' : Device} {p p' : Peer} {sock : Socket} {env : Env}
  {effects : List Effect} {packet : Bytes}

theorem handed_sendSignal {signal : Signal} {srcIp dstIp : Ipv4Addr} {addr : SocketAddr}
    (h : sendSignal C p signal srcIp dstIp sock addr env = some (p', effects))
    : handed effects = [Payment.signalPacket srcIp dstIp signal.encode] := by
  obtain ⟨_, _, _, rfl, rfl⟩ := sendSignal_eq_some h
  rfl

theorem handed_sendPaymentRequired {addr : SocketAddr}
    (h : sendPaymentRequired C d p sock addr env = some (p', effects)) (hmem : packet ∈ handed effects)
    : ∃ ip signal, packet = Payment.signalPacket Payment.paymentGatewayIp ip (Signal.encode signal) := by
  unfold sendPaymentRequired at h
  split at h
  . cases h
    simp at hmem
  . split at h
    . cases h
      simp at hmem
    . rw [handed_sendSignal h, List.mem_singleton] at hmem
      exact ⟨_, _, hmem⟩

theorem handed_handlePaymentSubmit {payload : Bytes} {addr : SocketAddr}
    (h : handlePaymentSubmit C d p payload sock addr env = some (p', effects))
    (hmem : packet ∈ handed effects)
    : ∃ ip signal, packet = Payment.signalPacket Payment.paymentGatewayIp ip (Signal.encode signal) := by
  cases handlePaymentSubmit_cases h with
  | unchanged _ _ heffects => simp [heffects] at hmem
  | rejected _ _ _ _ _ heffects => simp [heffects] at hmem
  | accepted submit _ _ _ _ _ _ _ heffects =>
    rcases heffects with rfl | ⟨msg, packet', _, _, _, rfl, ip, _, rfl⟩
    . simp [handed, Effect.handed] at hmem
    . simp only [handed, Effect.handed, List.filterMap_cons, List.filterMap_nil,
        List.mem_singleton] at hmem
      exact ⟨ip, .paymentAccepted msg, hmem⟩

theorem handed_handlePaymentSignalClient {payload : Bytes} {addr : SocketAddr}
    (h : handlePaymentSignalClient C d p payload sock addr env = some (p', effects))
    (hmem : packet ∈ handed effects)
    : HandedCase C d p effects packet := by
  cases handlePaymentSignalClient_cases h with
  | silent _ _ heffects => simp [heffects] at hmem
  | signed _ _ auth sends _ _ _ heffects hsends =>
    have hmem : packet ∈ handed sends := by
      rw [heffects] at hmem
      exact hmem
    rcases hsends with ⟨_, _, rfl⟩ | ⟨ip, submit, hip, hsend⟩
    . simp at hmem
    . rw [handed_sendSignal hsend, List.mem_singleton] at hmem
      exact .answer ip _ hip hmem

theorem handed_handleResult {result : Noise.TunnResult} {dest addr : Option SocketAddr}
    {afterErr flow : Flow}
    (h : handleResult C d p result sock dest addr afterErr env = some (p', effects, flow))
    (hmem : packet ∈ handed effects)
    : HandedCase C d p effects packet := by
  cases handleResult_cases h with
  | idle _ _ heffects => simp [handed_of_sends heffects] at hmem
  | ignored _ _ _ _ _ _ heffects => simp [heffects] at hmem
  | submit _ _ payload dest _ _ _ _ _ hhandle => exact .submit p p' payload sock dest env (.refl p) hhandle
  | request _ _ _ _ _ _ _ _ _ hhandle => exact handed_handlePaymentSignalClient hhandle hmem
  | refused _ _ _ _ _ heffects => simp [heffects] at hmem
  | blocked _ _ _ _ _ heffects => simp [heffects] at hmem
  | exhausted _ _ p₁ dest _ _ hverdict _ hsend =>
    exact .required p₁ p' sock dest env (enforceQuota_sameButState hverdict) hsend
  | exhaustedV6 _ _ _ _ _ heffects => simp [heffects] at hmem
  | forwarded _ _ _ _ _ heffects => simp [heffects, handed, Effect.handed] at hmem

theorem handed_outbound {src : Bytes} (h : outbound C d p src env = some (p', effects))
    (hmem : packet ∈ handed effects)
    : packet = src ∨ HandedCase C d p effects packet := by
  cases outbound_cases h with
  | blocked _ heffects => simp [heffects] at hmem
  | exhausted p₁ dest hverdict _ hsend =>
    exact .inr (.required p₁ p' .udp4 dest env (enforceQuota_sameButState hverdict) hsend)
  | exhaustedSilent _ _ heffects => simp [heffects] at hmem
  | forwarded _ _ _ sends _ _ _ hsends heffects =>
    rw [heffects, ← List.singleton_append, handed_append, handed_of_sends hsends] at hmem
    exact .inl (by simpa [handed, Effect.handed] using hmem)

end Handed

section Tun

variable {C : Primitives} {d d' : Device} {p p' : Peer} {sock : Socket} {env : Env}
  {effects : List Effect} {f : Effect}

theorem sendPaymentRequired_isTun {addr : SocketAddr}
    (h : sendPaymentRequired C d p sock addr env = some (p', effects)) (hf : f ∈ effects)
    : f.isTun = false := by
  obtain ⟨_, rfl | ⟨_, _, _, rfl⟩⟩ := sendPaymentRequired_eq_some h
  . simp at hf
  . rw [List.mem_singleton] at hf
    rw [hf]
    rfl

theorem handlePaymentSubmit_isTun {payload : Bytes} {addr : SocketAddr}
    (h : handlePaymentSubmit C d p payload sock addr env = some (p', effects)) (hf : f ∈ effects)
    : f.isTun = false := by
  cases handlePaymentSubmit_cases h with
  | unchanged _ _ heffects => simp [heffects] at hf
  | rejected _ _ _ _ _ heffects => simp [heffects] at hf
  | accepted _ _ _ _ _ _ _ _ heffects =>
    rcases heffects with rfl | ⟨_, _, _, _, _, rfl, _⟩
    . rw [List.mem_singleton] at hf
      rw [hf]
      rfl
    . simp only [List.mem_cons, List.not_mem_nil, or_false] at hf
      rcases hf with rfl | rfl <;> rfl

theorem handlePaymentSignalClient_isTun {payload : Bytes} {addr : SocketAddr}
    (h : handlePaymentSignalClient C d p payload sock addr env = some (p', effects))
    (hf : f ∈ effects)
    : f.isTun = false := by
  obtain ⟨_, rfl | ⟨_, rfl⟩ | ⟨_, _, _, _, rfl⟩⟩ := handlePaymentSignalClient_eq_some h
  . simp at hf
  . rw [List.mem_singleton] at hf
    rw [hf]
    rfl
  . simp only [List.mem_cons, List.not_mem_nil, or_false] at hf
    rcases hf with rfl | rfl <;> rfl

theorem handleResult_isTun {result : Noise.TunnResult} {dest addr : Option SocketAddr}
    {afterErr flow : Flow}
    (h : handleResult C d p result sock dest addr afterErr env = some (p', effects, flow))
    (hf : f ∈ effects) (htun : f.isTun = true)
    : ∃ packet ip, f = .writeTun packet ∧ IsData packet ip result := by
  cases handleResult_cases h with
  | idle _ _ heffects => simp [not_isTun_of_isSend (heffects f hf)] at htun
  | ignored _ _ _ _ _ _ heffects => simp [heffects] at hf
  | submit _ _ _ _ _ _ _ _ _ hhandle => simp [handlePaymentSubmit_isTun hhandle hf] at htun
  | request _ _ _ _ _ _ _ _ _ hhandle => simp [handlePaymentSignalClient_isTun hhandle hf] at htun
  | refused _ _ _ _ _ heffects => simp [heffects] at hf
  | blocked _ _ _ _ _ heffects => simp [heffects] at hf
  | exhausted _ _ _ _ _ _ _ _ hsend => simp [sendPaymentRequired_isTun hsend hf] at htun
  | exhaustedV6 _ _ _ _ _ heffects => simp [heffects] at hf
  | forwarded packet ip hdata _ _ heffects =>
    rw [heffects, List.mem_singleton] at hf
    exact ⟨packet, ip, hf, hdata⟩

theorem outbound_isTun {src : Bytes} (h : outbound C d p src env = some (p', effects))
    (hf : f ∈ effects) (htun : f.isTun = true)
    : f = .encapsulateTun src := by
  cases outbound_cases h with
  | blocked _ heffects => simp [heffects] at hf
  | exhausted _ _ _ _ hsend => simp [sendPaymentRequired_isTun hsend hf] at htun
  | exhaustedSilent _ _ heffects => simp [heffects] at hf
  | forwarded _ _ _ _ _ _ _ hsends heffects =>
    rw [heffects, List.mem_cons] at hf
    rcases hf with hf | hf
    . exact hf
    . simp [not_isTun_of_isSend (hsends f hf)] at htun

theorem Inbound.From.isPaymentSignal {i : Inbound} {packet : Bytes} {ip : IpAddr}
    (h : i.From C d p) (hdata : IsData packet ip i.result)
    : Payment.isPaymentSignal packet = false := by
  obtain ⟨c, hcall, _⟩ := h.call
  generalize i.result = result at hdata hcall
  cases hdata with
  | v4 _ hsignal => exact hsignal
  | v6 _ => exact isPaymentSignal_of_call hcall

end Tun

section Isolation

variable {C : Primitives} {d d' : Device} {e : Event} {outputs : List Output}

variable (C) in
def Builds (d : Device) (id : PeerId) (outputs : List Output) (packet : Bytes) : Prop :=
  ∃ q p p' sock addr env effects,
    d.peerArena.get id = some q
      ∧
    q.SameButState p
      ∧
    (sendPaymentRequired C d p sock addr env = some (p', effects)
      ∨ ∃ payload, handlePaymentSubmit C d p payload sock addr env = some (p', effects))
      ∧
    packet ∈ handed effects
      ∧
    ∀ f ∈ effects, ⟨some id, f⟩ ∈ outputs

/--
A condition on an event and the state in which it arrives: a payment signal from the TUN interface is
not for any peer, and no peer has the address of the gateway.
-/
structure Isolates (d : Device) (e : Event) : Prop where
  iface : ∀ src env, e = .iface src env → Payment.isPaymentSignal src.val = true →
    Noise.Tunn.dstAddress src.val >>= d.peersByIp.find = none
  allowedIps : ∀ id p, d.peerArena.get id = some p →
    p.firstAllowedIpv4 ≠ some Payment.paymentGatewayIp

def isolates (d : Device) (e : Event) : Bool :=
  (match e with
    | .iface src _ =>
      !Payment.isPaymentSignal src.val || (Noise.Tunn.dstAddress src.val >>= d.peersByIp.find).isNone
    | _ => true)
    && d.peerArena.cells.all fun p => p.firstAllowedIpv4 ≠ some Payment.paymentGatewayIp

theorem isolates_of_test (h : d.isolates e = true) : Isolates d e := by
  simp only [isolates, Bool.and_eq_true, List.all_eq_true, decide_eq_true_eq] at h
  refine ⟨?_, fun id p hget => h.2 p (List.mem_of_getElem? hget)⟩
  rintro src env rfl hsignal
  simpa [hsignal] using h.1

theorem Isolates.isPaymentSignal (hd : Isolates d e) (h : (machine C).step d e = some (d', outputs))
    {o : Output} (ho : o ∈ outputs) {packet : Bytes}
    (heffect : o.effect = .writeTun packet ∨ o.effect = .encapsulateTun packet)
    : Payment.isPaymentSignal packet = false := by
  have htun : o.effect.isTun = true := by
    rcases heffect with heffect | heffect <;> rw [heffect] <;> rfl
  cases step_cases h with
  | quiet _ _ _ _ houtputs =>
    rcases houtputs o ho with hsend | ⟨rfl, _⟩
    . simp [not_isTun_of_isSend hsend] at htun
    . simp [Effect.isTun] at htun
  | inbound i _ _ _ _ _ _ _ _ effects flushed hincoming _ _ _ _ hresult _ _ hflushed houtputs =>
    rw [houtputs] at ho
    obtain ⟨f, hf, rfl⟩ := List.mem_map.mp ho
    rcases List.mem_append.mp hf with hf | hf
    . obtain ⟨packet', ip, heq, hdata⟩ := handleResult_isTun hresult hf htun
      obtain ⟨p, hfrom⟩ := incoming_from hincoming
      rcases heffect with heffect | heffect <;> rw [heq] at heffect <;> cases heffect
      exact hfrom.isPaymentSignal hdata
    . simp [not_isTun_of_isSend (hflushed f hf)] at htun
  | outbound id _ _ src env effects hevent hfind _ hresult _ _ houtputs =>
    rw [houtputs] at ho
    obtain ⟨f, hf, rfl⟩ := List.mem_map.mp ho
    have heq := outbound_isTun hresult hf htun
    rcases heffect with heffect | heffect <;> rw [heq] at heffect <;> cases heffect
    rw [Bool.eq_false_iff]
    intro hsignal
    rw [hd.iface src env hevent hsignal] at hfind
    simp at hfind

theorem HandedCase.builds {p q : Peer} {id : PeerId} {effects : List Effect} {packet : Bytes}
    (h : HandedCase C d p effects packet) (hget : d.peerArena.get id = some q)
    (hsame : q.SameButState p) (hmem : packet ∈ handed effects)
    (houtputs : ∀ f ∈ effects, ⟨some id, f⟩ ∈ outputs)
    (hallowed : q.firstAllowedIpv4 ≠ some Payment.paymentGatewayIp)
    (hsrc : Payment.srcIpv4 packet = some Payment.paymentGatewayIp)
    : Builds C d id outputs packet := by
  cases h with
  | required p₁ p' sock addr env hsame' hsend =>
    exact ⟨q, p₁, p', sock, addr, env, effects, hget, hsame.trans hsame', .inl hsend, hmem, houtputs⟩
  | submit p₁ p' payload sock addr env hsame' hhandle =>
    exact ⟨q, p₁, p', sock, addr, env, effects, hget, hsame.trans hsame', .inr ⟨payload, hhandle⟩,
      hmem, houtputs⟩
  | answer ip payload hip hpacket =>
    rw [hpacket, Payment.srcIpv4_signalPacket, ← hip, hsame.firstAllowedIpv4] at hsrc
    exact absurd hsrc hallowed

theorem Isolates.builds (hd : Isolates d e) (h : (machine C).step d e = some (d', outputs))
    {id : PeerId} {packet : Bytes} (hmem : packet ∈ handed (effectsOf id outputs))
    (hsignal : Payment.isPaymentSignal packet = true)
    (hsrc : Payment.srcIpv4 packet = some Payment.paymentGatewayIp)
    : Builds C d id outputs packet := by
  have hfor : ∀ j effects, outputs = outputsFor j effects →
      j = id ∧ packet ∈ handed effects ∧ ∀ f ∈ effects, ⟨some id, f⟩ ∈ outputs := by
    intro j effects houtputs
    rw [houtputs, effectsOf_outputsFor] at hmem
    split at hmem
    . next hid =>
      subst hid
      refine ⟨rfl, hmem, ?_⟩
      intro f hf
      rw [houtputs]
      exact List.mem_map.mpr ⟨f, hf, rfl⟩
    . simp at hmem
  cases step_cases h with
  | quiet _ _ _ _ houtputs =>
    obtain ⟨f, hf, hhanded⟩ := List.mem_filterMap.mp hmem
    rcases houtputs _ (mem_effectsOf.mp hf) with hsend | ⟨hdeposit, _⟩
    . cases f <;> simp [Effect.isSend, Effect.handed] at hsend hhanded
    . cases hdeposit
  | inbound i p _ _ _ _ _ _ _ effects flushed _ _ _ hget hpeer hresult _ _ hflushed houtputs =>
    obtain ⟨rfl, hmem, houtputs⟩ := hfor _ _ houtputs
    rw [handed_append, handed_of_sends hflushed, List.append_nil] at hmem
    refine (handed_handleResult hresult hmem).builds hget (.of_sameButTunnel hpeer) hmem ?_
      (hd.allowedIps _ p hget) hsrc
    intro f hf
    exact houtputs f (List.mem_append_left _ hf)
  | outbound j p _ src env effects hevent hfind hget hresult _ _ houtputs =>
    obtain ⟨rfl, hmem, houtputs⟩ := hfor _ _ houtputs
    rcases handed_outbound hresult hmem with rfl | hcase
    . rw [hd.iface src env hevent hsignal] at hfind
      simp at hfind
    . exact hcase.builds hget (.refl p) hmem houtputs (hd.allowedIps _ p hget) hsrc

theorem Builds.ipHeader {id : PeerId} {packet : Bytes} (h : Builds C d id outputs packet)
    : ∃ addr, Noise.Tunn.ipHeader packet = some (packet.length, addr) := by
  obtain ⟨_, _, _, _, _, _, _, _, _, hbuilt, hmem, _⟩ := h
  have hpacket : ∃ ip signal,
      packet = Payment.signalPacket Payment.paymentGatewayIp ip (Signal.encode signal) := by
    rcases hbuilt with hsend | ⟨payload, hhandle⟩
    . exact handed_sendPaymentRequired hsend hmem
    . exact handed_handlePaymentSubmit hhandle hmem
  obtain ⟨ip, signal, rfl⟩ := hpacket
  have hlen := signal.length_encode_le
  exact ⟨_, ipHeader_signalPacket _ _ _ (by omega)⟩

open Noise (Channel)

/--
Under the condition, payment signals do not cross the TUN interface in either direction. What the other
side of a tunnel receives from the gateway was made by the server, provided that the sending tunnel is
handed nothing but what the device hands to the tunnel of the peer, as it is in every run.
-/
theorem payment_signals_isolated {nextIndex : IndexLfsr} {config : DeviceConfig}
    {paymentConfig : Payment.PaymentConfig} {ts : List (Transition Device Event Output)}
    (hrun : (machine C).Run (new nextIndex config paymentConfig) ts d)
    (hisolates : ∀ t ∈ ts, Isolates t.before t.event)
    : (∀ t ∈ ts, ∀ o ∈ t.outputs, ∀ packet,
        o.effect = .writeTun packet ∨ o.effect = .encapsulateTun packet →
        Payment.isPaymentSignal packet = false)
        ∧
      ∀ id start us ch,
        start.sender.packetQueue = [] →
        (Channel.machine C.noise).Run start us ch →
        Channel.Ideal C.noise start us →
        (∀ u ∈ us, ∀ packet, Channel.given u = some packet →
          packet ∈ handed (effectsOf id (Machine.outputs ts))) →
        ∀ u ∈ us, ∀ packet, Channel.delivered u = some packet →
          Payment.isPaymentSignal packet = true →
          Payment.srcIpv4 packet = some Payment.paymentGatewayIp →
          ∃ t ∈ ts, Builds C t.before id t.outputs packet := by
  refine ⟨?_, ?_⟩
  . intro t ht o ho packet heffect
    exact (hisolates t ht).isPaymentSignal (hrun.step_of_mem ht) ho heffect
  . intro id start us ch hqueue hchannel hideal hgiven u hu packet hdelivered hsignal hsrc
    obtain ⟨v, hv, src, len, addr, hsource, hheader, hlen, rfl⟩ :=
      Channel.exists_given_of_delivered hqueue hchannel hideal hu hdelivered
    have hmem := hgiven v hv src hsource
    obtain ⟨f, hf, hhanded⟩ := List.mem_filterMap.mp hmem
    obtain ⟨t, ht, ho⟩ := List.mem_flatMap.mp (mem_effectsOf.mp hf)
    have hbuilds : Builds C t.before id t.outputs src :=
      (hisolates t ht).builds (hrun.step_of_mem ht)
        (List.mem_filterMap.mpr ⟨f, mem_effectsOf.mpr ho, hhanded⟩)
        (isPaymentSignal_of_take hsignal) (srcIpv4_of_take hsrc)
    obtain ⟨_, hheader'⟩ := hbuilds.ipHeader
    rw [hheader'] at hheader
    cases hheader
    rw [List.take_length]
    exact ⟨t, ht, hbuilds⟩

end Isolation

namespace Sample

/--
A packet from the TUN interface to the client with the address of the gateway as its source.
-/
def spoofedRequest : Received :=
  ⟨Payment.signalPacket Payment.paymentGatewayIp clientIp <|
    Payment.PaymentRequired.encode {
      amountUsdc := 1000000
      nonce := key 4
      recipient := .ofBytes 20 (key 6).val
      deadline := 0
      chainId := 5042002
      usdcContract := .zero 20
    }, by decide +kernel⟩

end Sample

/--
The server passes a request for payment, which it has not made, from the TUN interface to the client.
-/
theorem exists_encapsulates_request
    : ∃ ts d, (machine Sample.primitives).Run Sample.server ts d ∧
        ∃ t ∈ ts, ∃ o ∈ t.outputs, ∃ packet,
          o.effect = .encapsulateTun packet
            ∧
          Payment.isPaymentSignal packet = true
            ∧
          Payment.srcIpv4 packet = some Payment.paymentGatewayIp := by
  obtain ⟨ts, d, hrun, h⟩ := Machine.Run.exists_of_exec (machine Sample.primitives) Sample.server
    (Sample.setup ++ [.iface Sample.spoofedRequest Sample.env])
    (fun ts _ => ts.any fun t => t.outputs.any fun o =>
      match o.effect with
      | .encapsulateTun packet =>
        Payment.isPaymentSignal packet && Payment.srcIpv4 packet = some Payment.paymentGatewayIp
      | _ => false)
    (by decide +kernel)
  simp only [List.any_eq_true] at h
  obtain ⟨t, ht, o, ho, h⟩ := h
  split at h
  . next packet heffect =>
    simp only [Bool.and_eq_true, decide_eq_true_eq] at h
    exact ⟨ts, d, hrun, t, ht, o, ho, packet, heffect, h.1, h.2⟩
  . simp at h

theorem payment_signals_isolated_dataPacket
    : ∃ ts d, (machine Sample.primitives).Run Sample.server ts d
        ∧
      ts.length = 6
        ∧
      ∃ t ∈ ts, ∃ o ∈ t.outputs, ∃ packet,
        o.effect = .writeTun packet ∧ Payment.isPaymentSignal packet = false := by
  obtain ⟨ts, d, hrun, h⟩ := Machine.Run.exists_of_exec (machine Sample.primitives) Sample.server
    (Sample.setup ++ [Sample.sendPacket 0 Sample.dataPacket Sample.length_dataPacket_le,
      .iface (Sample.tunPacket 0 (by decide)) Sample.env])
    (fun ts _ => ts.length = 6 && (ts.all fun t => isolates t.before t.event)
      && ts.any fun t => t.outputs.any Sample.writesTun)
    (by decide +kernel)
  simp only [Bool.and_eq_true, decide_eq_true_eq, List.all_eq_true, List.any_eq_true] at h
  obtain ⟨⟨hlength, hisolates⟩, t, ht, o, ho, h⟩ := h
  unfold Sample.writesTun at h
  split at h
  . next packet =>
    refine ⟨ts, d, hrun, hlength, t, ht, _, ho, packet, rfl, ?_⟩
    exact (payment_signals_isolated hrun fun t ht => isolates_of_test (hisolates t ht)).1 t ht _ ho
      packet (.inl rfl)
  . simp at h

end Device
