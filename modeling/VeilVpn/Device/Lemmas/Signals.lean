import VeilVpn.Device.Lemmas.Invariant

namespace Device

def submitOf : Noise.TunnResult → Option Payment.PaymentSubmit
  | .writeToTunnelV4 packet _ =>
    if
      Payment.isPaymentSignal packet && Payment.dstIpv4 packet = some Payment.paymentGatewayIp
    then
      Payment.extractSignalPayload packet >>= Payment.PaymentSubmit.decode
    else
      none
  | _ => none

def requestOf : Noise.TunnResult → Option Payment.PaymentRequired
  | .writeToTunnelV4 packet _ =>
    if
      Payment.isPaymentSignal packet && Payment.dstIpv4 packet ≠ some Payment.paymentGatewayIp
    then
      Payment.extractSignalPayload packet >>= Payment.PaymentRequired.decode
    else
      none
  | _ => none

/--
Effects for which the device needs the key of its wallet.
-/
def Effect.usesWallet : Effect → Bool
  | .sign _ => true
  | .autoDeposit => true
  | .signal (.paymentSubmit _) _ _ _ _ => true
  | _ => false

def Effect.isPlain (f : Effect) : Bool :=
  f.credited.isNone && !f.usesWallet

theorem isPlain_of_isSend {f : Effect} (h : f.isSend) : f.isPlain := by
  cases f <;> simp_all [Effect.isSend, Effect.isPlain, Effect.credited, Effect.usesWallet]

variable {C : Primitives} {d d' : Device} {p p' : Peer} {sock : Socket} {env : Env}
  {effects : List Effect} {flow : Flow}

theorem sendPaymentRequired_isPlain {addr : SocketAddr}
    (h : sendPaymentRequired C d p sock addr env = some (p', effects))
    : ∀ f ∈ effects, f.isPlain := by
  obtain ⟨_, rfl | ⟨msg, packet, result, rfl⟩⟩ := sendPaymentRequired_eq_some h
  . simp
  . simp [Effect.isPlain, Effect.credited, Effect.usesWallet]

theorem outbound_isPlain {src : Bytes} (h : outbound C d p src env = some (p', effects))
    : ∀ f ∈ effects, f.isPlain := by
  cases outbound_cases h with
  | blocked _ heffects => simp [heffects]
  | exhausted _ _ _ _ hsend => exact sendPaymentRequired_isPlain hsend
  | exhaustedSilent _ _ heffects => simp [heffects]
  | forwarded _ _ _ sends _ _ _ hsends heffects =>
    subst heffects
    intro f hf
    rcases List.mem_cons.mp hf with rfl | hf
    . rfl
    . exact isPlain_of_isSend (hsends f hf)

theorem IsData.submitOf {packet : Bytes} {ip : IpAddr} {result : Noise.TunnResult}
    (h : IsData packet ip result)
    : submitOf result = none := by
  cases h with
  | v4 _ hsignal => simp [Device.submitOf, hsignal]
  | v6 _ => rfl

theorem IsData.requestOf {packet : Bytes} {ip : IpAddr} {result : Noise.TunnResult}
    (h : IsData packet ip result)
    : requestOf result = none := by
  cases h with
  | v4 _ hsignal => simp [Device.requestOf, hsignal]
  | v6 _ => rfl

/--
What a packet from a peer can make the device do besides forwarding it: take a payment or answer a
request for payment.
-/
inductive SignalCase (C : Primitives) (d : Device) (p : Peer) (result : Noise.TunnResult)
    (sock : Socket) (env : Env) (p' : Peer) (effects : List Effect) : Prop where
  | plain (hsubmit : submitOf result = none) (hrequest : requestOf result = none)
    (heffects : ∀ f ∈ effects, f.isPlain)
  | submit (packet : Bytes) (srcIp : Ipv4Addr) (payload : Bytes) (addr : SocketAddr)
    (hresult : result = .writeToTunnelV4 packet srcIp)
    (hsubmit : submitOf result = Payment.PaymentSubmit.decode payload)
    (hrequest : requestOf result = none)
    (hhandle : handlePaymentSubmit C d p payload sock addr env = some (p', effects))
  | request (packet : Bytes) (srcIp : Ipv4Addr) (payload : Bytes) (addr : SocketAddr)
    (hresult : result = .writeToTunnelV4 packet srcIp)
    (hsubmit : submitOf result = none)
    (hrequest : requestOf result = Payment.PaymentRequired.decode payload)
    (hhandle : handlePaymentSignalClient C d p payload sock addr env = some (p', effects))

theorem signalCase_of_handleResult {result : Noise.TunnResult} {dest addr : Option SocketAddr}
    {afterErr : Flow}
    (h : handleResult C d p result sock dest addr afterErr env = some (p', effects, flow))
    : SignalCase C d p result sock env p' effects := by
  cases handleResult_cases h with
  | idle hpacket _ heffects =>
    refine .plain ?_ ?_ (fun f hf => isPlain_of_isSend (heffects f hf))
    . cases result <;> first | rfl | simp [Noise.TunnResult.packet] at hpacket
    . cases result <;> first | rfl | simp [Noise.TunnResult.packet] at hpacket
  | ignored packet srcIp hresult hsignal hpayload _ heffects =>
    subst hresult heffects
    exact .plain (by simp [submitOf, hpayload]) (by simp [requestOf, hpayload]) (by simp)
  | submit packet srcIp payload addr hresult hsignal hpayload hdst _ hhandle =>
    subst hresult
    refine .submit packet srcIp payload addr rfl ?_ ?_ hhandle
    . simp [submitOf, hsignal, hdst, hpayload]
    . simp [requestOf, hdst]
  | request packet srcIp payload addr hresult hsignal hpayload hdst _ hhandle =>
    subst hresult
    refine .request packet srcIp payload addr rfl ?_ ?_ hhandle
    . simp [submitOf, hdst]
    . simp [requestOf, hsignal, hdst, hpayload]
  | refused _ _ hdata _ _ heffects => exact .plain hdata.submitOf hdata.requestOf (by simp [heffects])
  | blocked _ _ hdata _ _ heffects => exact .plain hdata.submitOf hdata.requestOf (by simp [heffects])
  | exhausted _ _ _ _ hdata _ _ _ hsend =>
    exact .plain hdata.submitOf hdata.requestOf (sendPaymentRequired_isPlain hsend)
  | exhaustedV6 _ _ hdata _ _ heffects =>
    exact .plain hdata.submitOf hdata.requestOf (by simp [heffects])
  | forwarded _ _ hdata _ _ heffects =>
    refine .plain hdata.submitOf hdata.requestOf ?_
    simp [heffects, Effect.isPlain, Effect.credited, Effect.usesWallet]

end Device
