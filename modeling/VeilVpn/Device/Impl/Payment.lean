import VeilVpn.Device.Impl.Device

/-!
This module contains what the device does about payments: requesting them, accepting them and, on
the other side, answering requests. All functions work on a peer that is locked, they return it
together with the effects they have.
-/

namespace Device

def maxPaymentPacketSize : Nat := 512

inductive Socket where
  | udp4
  | udp6
  | conn (id : ConnId) (addr : SocketAddr)
  deriving DecidableEq

def Socket.family : Socket → Family
  | .udp4 => .v4
  | .udp6 => .v6
  | .conn _ addr => addr.family

inductive Signal where
  | paymentRequired (msg : Payment.PaymentRequired)
  | paymentAccepted (msg : Payment.PaymentAccepted)
  | paymentSubmit (msg : Payment.PaymentSubmit)
  deriving DecidableEq

def Signal.encode : Signal → Bytes
  | .paymentRequired msg => msg.encode
  | .paymentAccepted msg => msg.encode
  | .paymentSubmit msg => msg.encode

inductive Effect where
  /-- A packet is written to the TUN interface -/
  | writeTun (packet : Bytes)
  /-- A packet that was read from the TUN interface is passed to the tunnel -/
  | encapsulateTun (packet : Bytes)
  | send (sock : Socket) (addr : Option SocketAddr) (datagram : Bytes)
  /-- The packet with the signal is passed to the tunnel. If this results in a datagram then it is
  sent to the address -/
  | signal (signal : Signal) (packet : Bytes) (sock : Socket) (addr : SocketAddr)
    (result : Noise.TunnResult)
  /-- The wallet of the device signs a transfer authorization -/
  | sign (auth : Payment.TransferAuthorization)
  | credit (submit : Payment.PaymentSubmit)
  | autoDeposit

/--
The quota of a peer with a nonce recorded in it, unless it was already recorded.
-/
def Peer.checkAndRecordNonce (p : Peer) (nonce : FixedBytes 32) : Peer × Bool :=
  match p.quota with
  | none => (p, true)
  | some quota =>
    let (quota, fresh) := quota.checkAndRecordNonce nonce
    ({ p with quota := some quota }, fresh)

def Peer.credit (p : Peer) (bytes : UInt64) : Peer :=
  { p with quota := p.quota.map (·.credit bytes) }

variable (C : Primitives)

def sendSignal (p : Peer) (signal : Signal) (srcIp dstIp : Ipv4Addr) (sock : Socket)
    (addr : SocketAddr) (env : Env) : Option (Peer × List Effect) :=
  match Payment.buildSignalPacket srcIp dstIp signal.encode with
  | none => none
  | some packet =>
    match p.tunnel.encapsulate C.noise packet maxPaymentPacketSize env.now (env.ephemeral 1) with
    | none => none
    | some (tunnel, result) =>
      some ({ p with tunnel }, [.signal signal packet sock addr result])

def sendPaymentRequired (d : Device) (p : Peer) (sock : Socket) (addr : SocketAddr) (env : Env)
    : Option (Peer × List Effect) :=
  match d.paymentWallet with
  | none => some (p, [])
  | some wallet =>
    -- Get peer's tunnel IP from allowed_ips
    match p.firstAllowedIpv4 with
    | none => some (p, [])
    | some peerIp =>
      let msg : Payment.PaymentRequired := {
        amountUsdc := d.paymentConfig.amountPerQuota
        nonce := env.nonce
        recipient := wallet.ethereumAddress
        deadline := UInt64.ofNat env.systemTime.asSecs + 300
        chainId := d.paymentConfig.chainId
        usdcContract := d.paymentConfig.usdcContract
      }
      sendSignal C p (.paymentRequired msg) Payment.paymentGatewayIp peerIp sock addr env

def acceptPayment (d : Device) (p : Peer) (submit : Payment.PaymentSubmit) (sock : Socket)
    (addr : SocketAddr) (env : Env) : Option (Peer × List Effect) :=
  let p := p.credit d.paymentConfig.quotaBytes
  match p.firstAllowedIpv4 with
  | none => some (p, [.credit submit])
  | some peerIp =>
    let accepted : Payment.PaymentAccepted := { newQuotaBytes := d.paymentConfig.quotaBytes }
    match
      sendSignal C p (.paymentAccepted accepted) Payment.paymentGatewayIp peerIp sock addr env
    with
    | none => none
    | some (p, effects) => some (p, .credit submit :: effects)

def handlePaymentSubmit (d : Device) (p : Peer) (payload : Bytes) (sock : Socket)
    (addr : SocketAddr) (env : Env) : Option (Peer × List Effect) :=
  match d.paymentWallet with
  | none => some (p, [])
  | some wallet =>
    match Payment.PaymentSubmit.decode payload with
    | none => some (p, [])
    | some submit =>
      -- `to` must be server's address
      if submit.to ≠ wallet.ethereumAddress then
        some (p, [])
      -- value must be >= required amount
      else if submit.value < d.paymentConfig.amountPerQuota then
        some (p, [])
      else
        -- Nonce replay check (before any expensive operations)
        match p.checkAndRecordNonce submit.nonce with
        | (p, false) => some (p, [])
        | (p, true) =>
          -- Signature against the domain of the gateway
          match
            Payment.verifyAuthorization C.payment d.paymentConfig.gatewayDomain submit.signed
          with
          | none => some (p, [])
          | some recovered =>
            if recovered ≠ submit.from then
              some (p, [])
            else if !d.settlementClient then
              -- Fallback: credit without settlement
              acceptPayment C d p submit sock addr env
            else
              match
                env.settle
                  (Payment.buildSettleRequest d.paymentConfig submit wallet.ethereumAddress)
              with
              | .error _ => some (p, [])
              | .ok resp =>
                if resp.success then
                  acceptPayment C d p submit sock addr env
                else
                  some (p, [])

/--
Answer a PaymentRequired signal, the other signals are only logged.
-/
def handlePaymentSignalClient (d : Device) (p : Peer) (payload : Bytes) (sock : Socket)
    (addr : SocketAddr) (env : Env) : Option (Peer × List Effect) :=
  if payload.head? ≠ some Payment.msgPaymentRequired then
    some (p, [])
  else
    match Payment.PaymentRequired.decode payload with
    | none => some (p, [])
    | some req =>
      match d.paymentWallet with
      | none => some (p, [])
      | some wallet =>
        -- Auto-sign EIP-3009 authorization
        let auth : Payment.TransferAuthorization := {
          «from» := wallet.ethereumAddress
          «to» := req.recipient
          value := req.amountUsdc
          validAfter := 0
          validBefore := UInt64.ofNat env.systemTime.asSecs + 345600
          nonce := req.nonce
        }
        let digest := Payment.computeEip712Digest C.payment d.paymentConfig.gatewayDomain auth
        let (v, r, s) := wallet.signDigest C.payment digest
        let submit : Payment.PaymentSubmit := {
          «from» := wallet.ethereumAddress
          «to» := req.recipient
          value := req.amountUsdc
          validAfter := auth.validAfter
          validBefore := auth.validBefore
          nonce := req.nonce
          v, r, s
        }
        match p.firstAllowedIpv4 with
        | none => some (p, [.sign auth])
        | some clientIp =>
          match
            sendSignal C p (.paymentSubmit submit) clientIp Payment.paymentGatewayIp sock addr env
          with
          | none => none
          | some (p, effects) => some (p, .sign auth :: effects)

end Device
