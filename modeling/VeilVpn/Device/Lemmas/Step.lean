import VeilVpn.Device.Lemmas.Frame
import VeilVpn.Noise.Lemmas.Operation

namespace Device

def Effect.isSend : Effect → Bool
  | .send _ _ _ => true
  | _ => false

def effectsOf (id : PeerId) (outputs : List Output) : List Effect :=
  outputs.filterMap fun o => if o.peer = some id then some o.effect else none

@[simp]
theorem effectsOf_nil (id : PeerId) : effectsOf id [] = [] := rfl

@[simp]
theorem effectsOf_append (id : PeerId) (os os' : List Output)
    : effectsOf id (os ++ os') = effectsOf id os ++ effectsOf id os' := by
  simp [effectsOf]

theorem effectsOf_outputsFor (id j : PeerId) (effects : List Effect)
    : effectsOf j (outputsFor id effects) = if j = id then effects else [] := by
  simp only [effectsOf, outputsFor, List.filterMap_map]
  split
  . next h =>
    subst h
    simp
  . next h =>
    have hne : ¬id = j := fun h' => h h'.symm
    simp [hne]

theorem mem_effectsOf {id : PeerId} {outputs : List Output} {f : Effect}
    : f ∈ effectsOf id outputs ↔ ⟨some id, f⟩ ∈ outputs := by
  simp only [effectsOf, List.mem_filterMap, Option.ite_none_right_eq_some, Option.some.injEq]
  constructor
  . rintro ⟨⟨_, _⟩, hmem, rfl, rfl⟩
    exact hmem
  . intro hmem
    exact ⟨_, hmem, rfl, rfl⟩

variable (C : Primitives)

def incoming (d : Device) : Event → Option Inbound
  | .udp addr datagram env =>
    match receiveUdp C d addr datagram env with
    | some (.inr i) => some i
    | _ => none
  | .conn id datagram env =>
    match d.connArena.get id with
    | some c => if c.isOpen then receiveConn C d c datagram env else none
    | none => none
  | _ => none

/--
Where the datagram of an event comes from: the socket, and the address for signals.
-/
inductive Source (d : Device) (e : Event) (i : Inbound) : Socket → Option SocketAddr → Prop where
  | udp (addr : SocketAddr) (datagram : Received) (env : Env)
    (he : e = .udp addr datagram env)
    : Source d e i (udpSocket addr) (some addr)
  | conn (id : ConnId) (c : Conn) (datagram : Received) (env : Env)
    (he : e = .conn id datagram env) (hget : d.connArena.get id = some c) (hopen : c.isOpen)
    (hpeer : c.peer = i.id)
    : Source d e i (.conn id c.addr) i.peer.endpoint.addr

def Event.env : Event → Option Env
  | .udp _ _ env => some env
  | .conn _ _ env => some env
  | .iface _ env => some env
  | .timer _ env => some env
  | .resetRateLimiter env => some env
  | .updatePeer _ _ _ _ _ _ env => some env
  | .clearPeers => none
  | .setKey _ env => some env
  | .openListenSocket _ _ => none
  | .setFwmark _ => none

def Event.isConfig : Event → Bool
  | .updatePeer _ _ _ _ _ _ _ => true
  | .clearPeers => true
  | .setKey _ _ => true
  | .openListenSocket _ _ => true
  | .setFwmark _ => true
  | _ => false

/--
All that a step can do to the accounts of peers.
-/
inductive StepCase (d : Device) (e : Event) (d' : Device) (outputs : List Output) : Prop where
  | quiet
    (hincoming : incoming C d e = none)
    (hiface : ∀ src env id, e = .iface src env → Noise.Tunn.dstAddress src.val >>= d.peersByIp.find
      ≠ some id)
    (haccounts : ∀ id, d'.accountOf id = d.accountOf id ∨
      d.accountOf id = none ∧ d.keyPair.isSome ∧
        ∃ ips, d'.accountOf id = some (ips, some (.new Payment.defaultQuotaBytes)))
    (hstatic : e.isConfig = false → d'.static = d.static)
    (houtputs : ∀ o ∈ outputs, o.effect.isSend ∨
      o = ⟨none, .autoDeposit⟩ ∧ d.paymentConfig.isServer = false)
  | inbound (i : Inbound) (p p' : Peer) (sock : Socket) (dest addr : Option SocketAddr)
    (afterErr flow : Flow) (env : Env) (effects flushed : List Effect)
    (hincoming : incoming C d e = some i)
    (henv : e.env = some env)
    (hsource : Source d e i sock addr)
    (hget : d.peerArena.get i.id = some p)
    (hpeer : p.SameButTunnel i.peer)
    (hresult : handleResult C d i.peer i.result sock dest addr afterErr env
      = some (p', effects, flow))
    (haccounts : ∀ id, d'.accountOf id = if id = i.id then some p'.account else d.accountOf id)
    (hstatic : d'.static = d.static)
    (hflushed : ∀ f ∈ flushed, f.isSend)
    (houtputs : outputs = outputsFor i.id (effects ++ flushed))
  | outbound (id : PeerId) (p p' : Peer) (src : Received) (env : Env) (effects : List Effect)
    (hevent : e = .iface src env)
    (hfind : Noise.Tunn.dstAddress src.val >>= d.peersByIp.find = some id)
    (hget : d.peerArena.get id = some p)
    (hresult : outbound C d p src.val env = some (p', effects))
    (haccounts : ∀ j, d'.accountOf j = if j = id then some p'.account else d.accountOf j)
    (hstatic : d'.static = d.static)
    (houtputs : outputs = outputsFor id effects)

variable {C}

theorem StepCase.of_sameAccounts {d d' : Device} {e : Event} {outputs : List Output}
    (hincoming : incoming C d e = none)
    (hiface : ∀ src env id, e = .iface src env → Noise.Tunn.dstAddress src.val >>= d.peersByIp.find
      ≠ some id)
    (hsame : SameAccounts d d') (houtputs : ∀ o ∈ outputs, o.effect.isSend)
    : StepCase C d e d' outputs :=
  .quiet hincoming hiface (fun id => .inl (hsame.account id)) (fun _ => hsame.static)
    (fun o ho => .inl (houtputs o ho))

theorem flushQueue.go_eq_some {sock : Socket} {dest : Option SocketAddr} {env : Env} {fuel : Nat}
    {p p' : Peer} {effects : List Effect}
    (h : flushQueue.go C sock dest env fuel p = some (p', effects))
    : p.SameButTunnel p' ∧ ∀ f ∈ effects, f.isSend := by
  induction fuel generalizing p effects with
  | zero =>
    simp only [go, Option.some.injEq, Prod.mk.injEq] at h
    obtain ⟨rfl, rfl⟩ := h
    exact ⟨.refl p, by simp⟩
  | succ fuel ih =>
    simp only [go] at h
    split at h
    . simp at h
    . next tunnel packet _ =>
      split at h
      . simp at h
      . next p'' rest hrest =>
        simp only [Option.some.injEq, Prod.mk.injEq] at h
        obtain ⟨rfl, rfl⟩ := h
        obtain ⟨hsame, hsend⟩ := ih hrest
        refine ⟨Peer.SameButTunnel.trans (.of_tunnel p tunnel) hsame, ?_⟩
        intro f hf
        rcases List.mem_cons.mp hf with rfl | hf
        . rfl
        . exact hsend f hf
    . next tunnel _ _ _ =>
      simp only [Option.some.injEq, Prod.mk.injEq] at h
      obtain ⟨rfl, rfl⟩ := h
      exact ⟨.of_tunnel p tunnel, by simp⟩

variable (C) in
def Flushes (sock : Socket) (dest : Option SocketAddr) (env : Env) (p p' : Peer)
    (flushed : List Effect) : Prop :=
  p' = p ∧ flushed = [] ∨ flushQueue C p sock dest env = some (p', flushed)

theorem Flushes.sameButTunnel {sock : Socket} {dest : Option SocketAddr} {env : Env} {p p' : Peer}
    {flushed : List Effect} (h : Flushes C sock dest env p p' flushed)
    : p.SameButTunnel p' := by
  rcases h with ⟨rfl, _⟩ | h
  . exact .refl p'
  . exact (flushQueue.go_eq_some h).1

theorem Flushes.isSend {sock : Socket} {dest : Option SocketAddr} {env : Env} {p p' : Peer}
    {flushed : List Effect} (h : Flushes C sock dest env p p' flushed)
    : ∀ f ∈ flushed, f.isSend := by
  rcases h with ⟨_, rfl⟩ | h
  . simp
  . exact (flushQueue.go_eq_some h).2

theorem finishInbound_eq_some {i : Inbound} {sock : Socket} {dest addr : Option SocketAddr}
    {afterErr : Flow} {env : Env} {d' : Device} {outputs : List Output} {finished : Bool}
    (h : finishInbound C i sock dest addr afterErr env = some (d', outputs, finished))
    : ∃ p' effects flow p'' flushed,
        handleResult C i.device i.peer i.result sock dest addr afterErr env
          = some (p', effects, flow)
          ∧
        Flushes C sock dest env p' p'' flushed
          ∧
        d' = i.device.setPeer i.id p''
          ∧
        outputs = outputsFor i.id (effects ++ flushed) := by
  unfold finishInbound at h
  split at h
  . simp at h
  . next p' effects hresult =>
    cases h
    exact ⟨p', effects, _, p', [], hresult, .inl ⟨rfl, rfl⟩, rfl, by simp⟩
  . next p' effects hresult =>
    cases h
    exact ⟨p', effects, _, p', [], hresult, .inl ⟨rfl, rfl⟩, rfl, by simp⟩
  . next p' effects hresult =>
    split at h
    . simp at h
    . next p'' flushed hflush =>
      cases h
      exact ⟨p', effects, _, p'', flushed, hresult, .inr hflush, rfl, rfl⟩

theorem handleResult_setLimiter (d : Device) (ref : Noise.RateLimiterRef) (rl : Noise.RateLimiter)
    (p : Peer) (result : Noise.TunnResult) (sock : Socket) (dest addr : Option SocketAddr)
    (afterErr : Flow) (env : Env)
    : handleResult C (d.setLimiter ref rl) p result sock dest addr afterErr env
        =
      handleResult C d p result sock dest addr afterErr env := by
  rfl

/--
A datagram went through the tunnel of the peer `p`, which changed nothing else than the tunnel and a
rate limiter.
-/
structure Inbound.From (C : Primitives) (d : Device) (i : Inbound) (p : Peer) : Prop where
  device : ∃ ref rl, i.device = d.setLimiter ref rl
  get : d.peerArena.get i.id = some p
  peer : p.SameButTunnel i.peer
  call : ∃ c, p.tunnel.call C.noise c = some (i.peer.tunnel, i.result) ∧ c.given = none

theorem receiveUdp_eq_inr {d : Device} {addr : SocketAddr} {datagram : Received} {env : Env}
    {i : Inbound} (h : receiveUdp C d addr datagram env = some (.inr i))
    : ∃ p packet privateKey publicKey,
        i.From C d p
          ∧
        d.findPeer C privateKey publicKey packet = some i.id
          ∧
        p.tunnel.handleVerifiedPacket C.noise packet maxUdpSize env.now (env.ephemeral 0)
          = some (i.peer.tunnel, i.result) := by
  unfold receiveUdp at h
  split at h
  . next ref _ _ =>
    split at h
    . simp at h
    . dsimp only at h
      split at h
      . simp at h
      . simp at h
      . next packet _ =>
        split at h
        . simp at h
        . next id hfind =>
          split at h
          . simp at h
          . next p hp =>
            split at h
            . simp at h
            . next tunnel result hverified =>
              simp only [Option.some.injEq, Sum.inr.injEq] at h
              subst h
              refine ⟨p, packet, _, _, ⟨⟨ref, _, rfl⟩, hp, .of_tunnel p _, ?_⟩, hfind, hverified⟩
              exact ⟨⟨.handleVerifiedPacket packet, _, _, _⟩, hverified, rfl⟩
  . simp at h

theorem receiveUdp_eq_inl {d d' : Device} {addr : SocketAddr} {datagram : Received} {env : Env}
    {outputs : List Output} (h : receiveUdp C d addr datagram env = some (.inl (d', outputs)))
    : (∃ ref rl, d' = d.setLimiter ref rl) ∧ ∀ o ∈ outputs, o.effect.isSend := by
  unfold receiveUdp at h
  split at h
  . split at h
    . simp at h
    . dsimp only at h
      split at h
      . cases h
        exact ⟨⟨_, _, rfl⟩, by simp [Effect.isSend]⟩
      . cases h
        exact ⟨⟨_, _, rfl⟩, by simp⟩
      . split at h
        . cases h
          exact ⟨⟨_, _, rfl⟩, by simp⟩
        . split at h
          . simp at h
          . split at h <;> simp at h
  . simp at h

theorem receiveConn_eq_some {d : Device} {c : Conn} {datagram : Received} {env : Env}
    {i : Inbound} (h : receiveConn C d c datagram env = some i)
    : ∃ p rl rl',
        i.From C d p
          ∧
        i.id = c.peer
          ∧
        Noise.Tunn.decapsulate C.noise rl p.tunnel (some c.peerAddr) datagram.val maxUdpSize env.now
          (env.ephemeral 0) = some (rl', i.peer.tunnel, i.result) := by
  unfold receiveConn at h
  split at h
  . simp at h
  . next p hp =>
    split at h
    . simp at h
    . next rl _ =>
      split at h
      . simp at h
      . next rl' tunnel result hdecapsulate =>
        simp only [Option.some.injEq] at h
        subst h
        refine ⟨p, rl, rl', ⟨⟨_, _, rfl⟩, hp, .of_tunnel p _, ?_⟩, rfl, hdecapsulate⟩
        exact ⟨⟨.decapsulate rl (some c.peerAddr) datagram.val, maxUdpSize, env.now, env.ephemeral 0⟩,
          congrArg (Option.map Prod.snd) hdecapsulate, rfl⟩

theorem incoming_from {d : Device} {e : Event} {i : Inbound} (h : incoming C d e = some i)
    : ∃ p, i.From C d p := by
  cases e with
  | udp addr datagram env =>
    simp only [incoming] at h
    split at h
    . next hreceive =>
      cases h
      obtain ⟨p, _, _, _, hfrom, _⟩ := receiveUdp_eq_inr hreceive
      exact ⟨p, hfrom⟩
    . simp at h
  | conn id datagram env =>
    simp only [incoming] at h
    split at h
    . obtain ⟨_, hreceive⟩ := Option.ite_none_right_eq_some.mp h
      obtain ⟨p, _, _, hfrom, _⟩ := receiveConn_eq_some hreceive
      exact ⟨p, hfrom⟩
    . simp at h
  | _ => simp [incoming] at h

variable (C) in
/--
All that a handler can do: nothing but to a rate limiter, take a datagram through the tunnel of a peer,
take a packet from the TUN interface, or run the timers of a peer.
-/
inductive HandlerCase (d : Device) (e : Event) (d' : Device) (outputs : List Output) : Prop where
  | idle
    (hincoming : incoming C d e = none)
    (hiface : ∀ src env id, e = .iface src env → Noise.Tunn.dstAddress src.val >>= d.peersByIp.find
      ≠ some id)
    (hdevice : d' = d ∨ ∃ ref rl, d' = d.setLimiter ref rl)
    (hsend : ∀ o ∈ outputs, o.effect.isSend)
  | inbound (i : Inbound) (p : Peer) (sock : Socket) (dest addr : Option SocketAddr)
    (afterErr : Flow) (env : Env) (d₁ : Device) (finished : Bool) (c : Noise.Call)
    (hincoming : incoming C d e = some i)
    (henv : e.env = some env)
    (hsource : Source d e i sock addr)
    (hfrom : i.From C d p)
    (hcall : p.tunnel.call C.noise c = some (i.peer.tunnel, i.result))
    (hoperation : ∀ staticPrivate staticPublic ref,
      c.operation ≠ .setStaticPrivate staticPrivate staticPublic ref)
    (hfinish : finishInbound C i sock dest addr afterErr env = some (d₁, outputs, finished))
    (hdevice : d' = d₁ ∨ ∃ addr, d' = d₁.setEndpoint i.id addr
      ∨ d' = (d₁.setEndpoint i.id addr).connectEndpoint i.id addr.ip env)
  | outbound (id : PeerId) (p p' : Peer) (src : Received) (env : Env) (effects : List Effect)
    (hevent : e = .iface src env)
    (hfind : Noise.Tunn.dstAddress src.val >>= d.peersByIp.find = some id)
    (hget : d.peerArena.get id = some p)
    (hresult : outbound C d p src.val env = some (p', effects))
    (hdevice : d' = d.setPeer id p')
    (houtputs : outputs = outputsFor id effects)
  | timer (id : PeerId) (p : Peer) (env : Env) (rl rl' : Noise.RateLimiter) (tunnel : Noise.Tunn)
    (result : Noise.TunnResult) (d₁ : Device)
    (hevent : e = .timer id env)
    (hget : d.peerArena.get id = some p)
    (htimers : Noise.Tunn.updateTimers C.noise rl p.tunnel maxUdpSize env.now env.later
      (env.ephemeral 0) = some (rl', tunnel, result))
    (hset : d₁ = (d.setLimiter p.tunnel.rateLimiter rl').setPeer id { p with tunnel })
    (hdevice : d' = d₁ ∨ d' = d₁.shutdownEndpoint id)
    (hsend : ∀ o ∈ outputs, o.effect.isSend)

theorem udpHandler_cases {d d' : Device} {addr : SocketAddr} {datagram : Received} {env : Env}
    {outputs : List Output} (h : udpHandler C d addr datagram env = some (d', outputs))
    : HandlerCase C d (.udp addr datagram env) d' outputs := by
  unfold udpHandler at h
  split at h
  . simp at h
  . next dropped hreceive =>
    cases h
    obtain ⟨hlimiter, hsend⟩ := receiveUdp_eq_inl hreceive
    exact .idle (by simp [incoming, hreceive]) (by simp) (.inr hlimiter) hsend
  . next i hreceive =>
    obtain ⟨p, packet, _, _, hfrom, _, hverified⟩ := receiveUdp_eq_inr hreceive
    have hinbound {d₁ : Device} {finished : Bool}
        (hfinish : finishInbound C i (udpSocket addr) (some addr) (some addr) .continue env
          = some (d₁, outputs, finished))
        (hdevice : d' = d₁ ∨ ∃ addr, d' = d₁.setEndpoint i.id addr
          ∨ d' = (d₁.setEndpoint i.id addr).connectEndpoint i.id addr.ip env)
        : HandlerCase C d (.udp addr datagram env) d' outputs :=
      .inbound i p _ _ _ _ env d₁ finished
        ⟨.handleVerifiedPacket packet, maxUdpSize, env.now, env.ephemeral 0⟩
        (by simp [incoming, hreceive]) rfl (.udp addr datagram env rfl) hfrom hverified (by simp)
        hfinish hdevice
    split at h
    . simp at h
    . next hfinish =>
      cases h
      exact hinbound hfinish (.inl rfl)
    . next hfinish =>
      dsimp only at h
      split at h
      . cases h
        exact hinbound hfinish (.inr ⟨addr, .inr rfl⟩)
      . cases h
        exact hinbound hfinish (.inr ⟨addr, .inl rfl⟩)

theorem connHandler_cases {d d' : Device} {id : ConnId} {datagram : Received} {env : Env}
    {outputs : List Output} (h : connHandler C d id datagram env = some (d', outputs))
    : HandlerCase C d (.conn id datagram env) d' outputs := by
  unfold connHandler at h
  split at h
  . simp at h
  . next c hc =>
    split at h
    . simp at h
    . next hopen =>
      have hopen : c.isOpen = true := by simpa using hopen
      split at h
      . simp at h
      . next i hreceive =>
        obtain ⟨p, rl, _, hfrom, hid, hdecapsulate⟩ := receiveConn_eq_some hreceive
        split at h
        . simp at h
        . next hfinish =>
          cases h
          exact .inbound i p _ _ _ _ env _ _
            ⟨.decapsulate rl (some c.peerAddr) datagram.val, maxUdpSize, env.now, env.ephemeral 0⟩
            (by simp [incoming, hc, hopen, hreceive]) rfl
            (.conn id c datagram env rfl hc hopen hid.symm) hfrom
            (congrArg (Option.map Prod.snd) hdecapsulate) (by simp) hfinish (.inl rfl)

theorem ifaceHandler_cases {d d' : Device} {src : Received} {env : Env} {outputs : List Output}
    (h : ifaceHandler C d src env = some (d', outputs))
    : HandlerCase C d (.iface src env) d' outputs := by
  unfold ifaceHandler at h
  split at h
  . simp at h
  . split at h
    . next hdst =>
      cases h
      refine .idle rfl ?_ (.inl rfl) (by simp)
      intro src' env' id he
      cases he
      simp [hdst]
    . next dst hdst =>
      split at h
      . next hfind =>
        cases h
        refine .idle rfl ?_ (.inl rfl) (by simp)
        intro src' env' id he
        cases he
        simp [hdst, hfind]
      . next id hfind =>
        split at h
        . simp at h
        . next p hget =>
          split at h
          . simp at h
          . next p' effects hresult =>
            cases h
            exact .outbound id p p' src env effects rfl (by simp [hdst, hfind]) hget hresult rfl rfl

theorem timerHandler_cases {d d' : Device} {id : PeerId} {env : Env} {outputs : List Output}
    (h : timerHandler C d id env = some (d', outputs))
    : HandlerCase C d (.timer id env) d' outputs := by
  have hidle : HandlerCase C d (.timer id env) d [] := .idle rfl (by simp) (.inl rfl) (by simp)
  unfold timerHandler at h
  split at h
  . cases h
    exact hidle
  . split at h
    . simp at h
    . next p hget =>
      split at h
      . cases h
        exact hidle
      . split at h
        . simp at h
        . next rl _ =>
          split at h
          . simp at h
          . next rl' tunnel result htimers =>
            dsimp only at h
            split at h
            . cases h
              exact .timer id p env rl rl' tunnel _ _ rfl hget htimers rfl (.inl rfl) (by simp)
            . cases h
              exact .timer id p env rl rl' tunnel _ _ rfl hget htimers rfl (.inr rfl) (by simp)
            . cases h
              exact .timer id p env rl rl' tunnel _ _ rfl hget htimers rfl (.inl rfl) (by simp)
            . cases h
              exact .timer id p env rl rl' tunnel _ _ rfl hget htimers rfl (.inl rfl)
                (by simp [outputsFor, Effect.isSend])
            . simp at h
            . simp at h

theorem handlerCase_of_step {d d' : Device} {e : Event} {outputs : List Output}
    (h : (machine C).step d e = some (d', outputs)) (he : e.isConfig = false)
    : HandlerCase C d e d' outputs := by
  simp only [machine, step] at h
  cases e with
  | udp addr datagram env => exact udpHandler_cases h
  | conn id datagram env => exact connHandler_cases h
  | iface src env => exact ifaceHandler_cases h
  | timer id env => exact timerHandler_cases h
  | resetRateLimiter env =>
    cases h
    refine .idle rfl (by simp) ?_ (by simp)
    unfold resetRateLimiter
    split
    . exact .inl rfl
    . split
      . exact .inl rfl
      . exact .inr ⟨_, _, rfl⟩
  | updatePeer => simp [Event.isConfig] at he
  | clearPeers => simp [Event.isConfig] at he
  | setKey => simp [Event.isConfig] at he
  | openListenSocket => simp [Event.isConfig] at he
  | setFwmark => simp [Event.isConfig] at he

variable (C) in
inductive ConfigCase (d : Device) (e : Event) (d' : Device) (outputs : List Output) : Prop where
  | updatePeer (pubKey : FixedBytes 32) (remove : Bool) (endpoint : Option SocketAddr)
    (allowedIps : List AllowedIP) (keepalive : Option UInt16)
    (presharedKey : Option (FixedBytes 32)) (env : Env)
    (hevent : e = .updatePeer pubKey remove endpoint allowedIps keepalive presharedKey env)
    (hupdate : d.updatePeer C pubKey remove endpoint allowedIps keepalive presharedKey env = some d')
    (houtputs : outputs = [])
  | clearPeers
    (hevent : e = .clearPeers)
    (hdevice : d' = d.clearPeers)
    (houtputs : outputs = [])
  | setKey (privateKey : FixedBytes 32) (env : Env)
    (hevent : e = .setKey privateKey env)
    (hdevice : d' = d.setKey C privateKey env)
    (houtputs : ∀ o ∈ outputs, o = ⟨none, .autoDeposit⟩ ∧ d.paymentConfig.isServer = false)
  | openListenSocket (port : UInt16) (assigned : Option UInt16)
    (hevent : e = .openListenSocket port assigned)
    (hdevice : d' = d.openListenSocket port assigned)
    (houtputs : outputs = [])
  | setFwmark (mark : UInt32)
    (hevent : e = .setFwmark mark)
    (hdevice : d' = d.setFwmark mark)
    (houtputs : outputs = [])

theorem configCase_of_step {d d' : Device} {e : Event} {outputs : List Output}
    (h : (machine C).step d e = some (d', outputs)) (he : e.isConfig = true)
    : ConfigCase C d e d' outputs := by
  simp only [machine, step] at h
  cases e with
  | updatePeer pubKey remove endpoint allowedIps keepalive presharedKey env =>
    dsimp only at h
    split at h
    . simp at h
    . next hupdate =>
      cases h
      exact .updatePeer pubKey remove endpoint allowedIps keepalive presharedKey env rfl hupdate rfl
  | clearPeers =>
    cases h
    exact .clearPeers rfl rfl rfl
  | setKey privateKey env =>
    cases h
    refine .setKey privateKey env rfl rfl ?_
    intro o ho
    split at ho
    . next hclient => exact ⟨by simpa using ho, by simpa using hclient.2⟩
    . simp at ho
  | openListenSocket port assigned =>
    cases h
    exact .openListenSocket port assigned rfl rfl rfl
  | setFwmark mark =>
    cases h
    exact .setFwmark mark rfl rfl rfl
  | _ => simp [Event.isConfig] at he

theorem stepCase_of_finishInbound {d d' d₁ : Device} {e : Event} {i : Inbound} {p : Peer}
    {sock : Socket} {dest addr : Option SocketAddr} {afterErr : Flow} {env : Env}
    {outputs : List Output} {finished : Bool}
    (hincoming : incoming C d e = some i) (henv : e.env = some env)
    (hsource : Source d e i sock addr) (hfrom : i.From C d p)
    (h : finishInbound C i sock dest addr afterErr env = some (d₁, outputs, finished))
    (hsame : SameAccounts d₁ d')
    : StepCase C d e d' outputs := by
  obtain ⟨p', effects, flow, p'', flushed, hresult, hflush, rfl, rfl⟩ := finishInbound_eq_some h
  obtain ⟨ref, rl, hdevice⟩ := hfrom.device
  rw [hdevice] at hsame
  rw [hdevice, handleResult_setLimiter] at hresult
  refine .inbound i p p' sock dest addr afterErr flow env effects flushed hincoming henv hsource
    hfrom.get hfrom.peer hresult ?_ hsame.static hflush.isSend rfl
  intro id
  rw [hsame.account, accountOf_setPeer (d := d.setLimiter ref rl) hfrom.get,
    hflush.sameButTunnel.account, accountOf_setLimiter]

theorem HandlerCase.stepCase {d d' : Device} {e : Event} {outputs : List Output}
    (h : HandlerCase C d e d' outputs)
    : StepCase C d e d' outputs := by
  cases h with
  | idle hincoming hiface hdevice hsend =>
    refine .of_sameAccounts hincoming hiface ?_ hsend
    rcases hdevice with rfl | ⟨ref, rl, rfl⟩
    . exact .refl d'
    . exact (sameCores_setLimiter d ref rl).sameAccounts
  | inbound i p _ _ _ _ env d₁ _ _ hincoming henv hsource hfrom _ _ hfinish hdevice =>
    refine stepCase_of_finishInbound hincoming henv hsource hfrom hfinish ?_
    rcases hdevice with rfl | ⟨addr, rfl | rfl⟩
    . exact .refl d'
    . exact (sameCores_setEndpoint d₁ i.id addr).sameAccounts
    . exact ((sameCores_setEndpoint d₁ i.id addr).trans
        (sameCores_connectEndpoint _ i.id addr.ip env)).sameAccounts
  | outbound id p p' src env effects hevent hfind hget hresult hdevice houtputs =>
    rw [hdevice]
    exact .outbound id p p' src env effects hevent hfind hget hresult (accountOf_setPeer hget p') rfl
      houtputs
  | timer id p env rl rl' tunnel result d₁ hevent hget _ hset hdevice hsend =>
    subst hevent
    have hsame : SameAccounts d d₁ := by
      rw [hset]
      exact (sameCores_setLimiter d _ rl').sameAccounts.trans (.setPeer hget rfl)
    refine .of_sameAccounts rfl (by simp) ?_ hsend
    rcases hdevice with rfl | rfl
    . exact hsame
    . exact hsame.trans (sameCores_shutdownEndpoint d₁ id).sameAccounts

theorem accountOf_updatePeer {d d' : Device} {pubKey : FixedBytes 32} {remove : Bool}
    {endpoint : Option SocketAddr} {allowedIps : List AllowedIP} {keepalive : Option UInt16}
    {presharedKey : Option (FixedBytes 32)} {env : Env}
    (h : d.updatePeer C pubKey remove endpoint allowedIps keepalive presharedKey env = some d')
    (id : PeerId)
    : d'.accountOf id = d.accountOf id ∨
        d.accountOf id = none ∧ d.keyPair.isSome ∧
          ∃ ips, d'.accountOf id = some (ips, some (.new Payment.defaultQuotaBytes)) := by
  cases updatePeer_cases h with
  | remove _ hdevice =>
    rw [hdevice]
    exact .inl (accountOf_eq_of_coreOf_eq (coreOf_removePeer d pubKey id))
  | add lfsr index privateKey publicKey limiter stamper p _ _ _ hkey hpeer hdevice =>
    simp only [hdevice, accountOf, get_addPeer]
    split
    . next hid =>
      right
      rw [hid, Arena.get_size, hpeer]
      exact ⟨rfl, by simp [hkey], _, rfl⟩
    . left
      rfl

theorem ConfigCase.stepCase {d d' : Device} {e : Event} {outputs : List Output}
    (h : ConfigCase C d e d' outputs)
    : StepCase C d e d' outputs := by
  cases h with
  | updatePeer pubKey remove endpoint allowedIps keepalive presharedKey env hevent hupdate houtputs =>
    rw [hevent, houtputs]
    exact .quiet rfl (by simp) (accountOf_updatePeer hupdate) (by simp [Event.isConfig]) (by simp)
  | clearPeers hevent hdevice houtputs =>
    rw [hevent, hdevice, houtputs]
    exact .quiet rfl (by simp) (fun _ => .inl rfl) (by simp [Event.isConfig]) (by simp)
  | setKey privateKey env hevent hdevice houtputs =>
    rw [hevent, hdevice]
    exact .quiet rfl (by simp) (fun id => .inl (accountOf_setKey C d privateKey env id))
      (by simp [Event.isConfig]) (fun o ho => .inr (houtputs o ho))
  | openListenSocket port assigned hevent hdevice houtputs =>
    rw [hevent, hdevice, houtputs]
    exact .quiet rfl (by simp)
      (fun id => .inl (accountOf_eq_of_coreOf_eq (coreOf_openListenSocket d port assigned id)))
      (by simp [Event.isConfig]) (by simp)
  | setFwmark mark hevent hdevice houtputs =>
    rw [hevent, hdevice, houtputs]
    exact .quiet rfl (by simp) (fun _ => .inl rfl) (by simp [Event.isConfig]) (by simp)

theorem step_cases {d d' : Device} {e : Event} {outputs : List Output}
    (h : (machine C).step d e = some (d', outputs))
    : StepCase C d e d' outputs := by
  cases he : e.isConfig with
  | false => exact (handlerCase_of_step h he).stepCase
  | true => exact (configCase_of_step h he).stepCase

theorem static_of_step {d d' : Device} {e : Event} {outputs : List Output}
    (h : (machine C).step d e = some (d', outputs)) (he : e.isConfig = false)
    : d'.static = d.static := by
  cases step_cases h with
  | quiet _ _ _ hstatic _ => exact hstatic he
  | inbound _ _ _ _ _ _ _ _ _ _ _ _ _ _ _ _ _ _ hstatic _ _ => exact hstatic
  | outbound _ _ _ _ _ _ _ _ _ _ _ hstatic _ => exact hstatic

theorem incoming_packet {d : Device} {e : Event} {i : Inbound} {packet : Bytes}
    (h : incoming C d e = some i) (hpacket : i.result.packet = some packet)
    : packet.length < 2 ^ 17 ∧ i.peer.tunnel.currentSession.isSome := by
  cases e with
  | udp addr datagram env =>
    simp only [incoming] at h
    split at h
    . next hreceive =>
      cases h
      obtain ⟨_, _, _, _, _, _, hverified⟩ := receiveUdp_eq_inr hreceive
      exact Noise.Tunn.handleVerifiedPacket_packet hverified hpacket
    . simp at h
  | conn id datagram env =>
    simp only [incoming] at h
    split at h
    . obtain ⟨_, hreceive⟩ := Option.ite_none_right_eq_some.mp h
      obtain ⟨_, _, _, _, _, hdecapsulate⟩ := receiveConn_eq_some hreceive
      exact Noise.Tunn.decapsulate_packet hdecapsulate hpacket
    . simp at h
  | _ => simp [incoming] at h

end Device
