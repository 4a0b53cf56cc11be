import VeilVpn.Device.Lemmas.Quota

namespace Device

section Handlers

def Peer.SameButState (p p' : Peer) : Prop :=
  p' = { p with tunnel := p'.tunnel, quota := p'.quota }

namespace Peer.SameButState

variable {p p' p'' : Peer}

theorem refl (p : Peer) : p.SameButState p := rfl

theorem of_sameButTunnel (h : p.SameButTunnel p') : p.SameButState p' := by
  rw [h]
  rfl

theorem trans (h : p.SameButState p') (h' : p'.SameButState p'') : p.SameButState p'' := by
  unfold SameButState at *
  rw [h', h]

theorem endpoint (h : p.SameButState p') : p'.endpoint = p.endpoint := by
  rw [h]

theorem allowedIps (h : p.SameButState p') : p'.allowedIps = p.allowedIps := by
  rw [h]

theorem firstAllowedIpv4 (h : p.SameButState p') : p'.firstAllowedIpv4 = p.firstAllowedIpv4 := by
  rw [Peer.firstAllowedIpv4, h.allowedIps, ← Peer.firstAllowedIpv4]

end Peer.SameButState

variable {C : Primitives} {d : Device} {p p' : Peer} {sock : Socket} {env : Env}
  {effects : List Effect} {flow : Flow}

theorem enforceQuota_sameButState {packet : Bytes} {verdict : Verdict}
    (h : enforceQuota d p packet = (p', verdict))
    : p.SameButState p' := by
  unfold enforceQuota at h
  split at h
  . split at h
    . cases h
      rfl
    . split at h
      . cases h
        rfl
      . split at h <;>
        . cases h
          rfl
  . cases h
    rfl

theorem checkAndRecordNonce_sameButState {nonce : FixedBytes 32} {fresh : Bool}
    (h : p.checkAndRecordNonce nonce = (p', fresh))
    : p.SameButState p' := by
  unfold Peer.checkAndRecordNonce at h
  split at h <;>
  . cases h
    rfl

theorem handlePaymentSubmit_sameButState {payload : Bytes} {addr : SocketAddr}
    (h : handlePaymentSubmit C d p payload sock addr env = some (p', effects))
    : p.SameButState p' := by
  cases handlePaymentSubmit_cases h with
  | unchanged _ hpeer _ =>
    rw [hpeer]
    rfl
  | rejected submit _ _ hfresh _ _ => exact checkAndRecordNonce_sameButState hfresh
  | accepted submit recorded _ _ hfresh _ _ hpeer _ =>
    have hrecorded := checkAndRecordNonce_sameButState hfresh
    have hcredit : recorded.SameButState (recorded.credit d.paymentConfig.quotaBytes) := rfl
    exact (hrecorded.trans hcredit).trans (.of_sameButTunnel hpeer)

theorem handleResult_sameButState {result : Noise.TunnResult} {dest addr : Option SocketAddr}
    {afterErr : Flow}
    (h : handleResult C d p result sock dest addr afterErr env = some (p', effects, flow))
    : p.SameButState p' := by
  cases handleResult_cases h with
  | idle _ hpeer _ =>
    rw [hpeer]
    rfl
  | ignored _ _ _ _ _ hpeer _ =>
    rw [hpeer]
    rfl
  | submit _ _ _ _ _ _ _ _ _ hhandle => exact handlePaymentSubmit_sameButState hhandle
  | request _ _ _ _ _ _ _ _ _ hhandle =>
    exact .of_sameButTunnel (handlePaymentSignalClient_eq_some hhandle).1
  | refused _ _ _ _ hpeer _ =>
    rw [hpeer]
    rfl
  | blocked _ _ _ _ hverdict _ => exact enforceQuota_sameButState hverdict
  | exhausted _ _ _ _ _ _ hverdict _ hsend =>
    have hsame := (sendPaymentRequired_eq_some hsend).1
    exact (enforceQuota_sameButState hverdict).trans (.of_sameButTunnel hsame)
  | exhaustedV6 _ _ _ _ hverdict _ => exact enforceQuota_sameButState hverdict
  | forwarded _ _ _ _ hverdict _ => exact enforceQuota_sameButState hverdict

theorem outbound_sameButState {src : Bytes} (h : outbound C d p src env = some (p', effects))
    : p.SameButState p' := by
  cases outbound_cases h with
  | blocked hverdict _ => exact enforceQuota_sameButState hverdict
  | exhausted _ _ hverdict _ hsend =>
    have hsame := (sendPaymentRequired_eq_some hsend).1
    exact (enforceQuota_sameButState hverdict).trans (.of_sameButTunnel hsame)
  | exhaustedSilent hverdict _ _ => exact enforceQuota_sameButState hverdict
  | forwarded p₁ tunnel _ _ hverdict _ hpeer _ _ =>
    rw [hpeer]
    have htunnel : p₁.SameButState { p₁ with tunnel } := rfl
    exact (enforceQuota_sameButState hverdict).trans htunnel

end Handlers

section Touches

/--
`d'` comes from `d` by what handlers do to the objects of a device: tunnels, quotas and rate limiters
change their state, endpoints move and sockets are connected to peers with the property `Q`. The
listening sockets may be opened again as well.
-/
inductive Touches (Q : PeerId → Prop) (d : Device) : Device → Prop where
  | refl : Touches Q d d
  | setLimiter {d₁ : Device} (h : Touches Q d d₁) (ref : Noise.RateLimiterRef)
    (rl : Noise.RateLimiter)
    : Touches Q d (d₁.setLimiter ref rl)
  | setPeer {d₁ : Device} {id : PeerId} {p p' : Peer} (h : Touches Q d d₁)
    (hget : d₁.peerArena.get id = some p) (hsame : p.SameButState p')
    : Touches Q d (d₁.setPeer id p')
  | shutdownEndpoint {d₁ : Device} (h : Touches Q d d₁) (id : PeerId)
    : Touches Q d (d₁.shutdownEndpoint id)
  | setEndpoint {d₁ : Device} (h : Touches Q d d₁) (id : PeerId) (addr : SocketAddr)
    : Touches Q d (d₁.setEndpoint id addr)
  | connectEndpoint {d₁ : Device} (h : Touches Q d d₁) {id : PeerId} (hid : Q id)
    (peerAddr : IpAddr) (env : Env)
    : Touches Q d (d₁.connectEndpoint id peerAddr env)
  | listen {d₁ : Device} (h : Touches Q d d₁) (udp4 udp6 : Bool) (listenPort : UInt16)
    : Touches Q d { d₁ with udp4, udp6, listenPort }

variable {C : Primitives} {Q : PeerId → Prop} {d d' : Device} {e : Event} {env : Env}
  {outputs : List Output}

theorem touches_finishInbound {i : Inbound} {p : Peer} {sock : Socket}
    {dest addr : Option SocketAddr} {afterErr : Flow} {finished : Bool} (hfrom : i.From C d p)
    (h : finishInbound C i sock dest addr afterErr env = some (d', outputs, finished))
    : Touches Q d d' := by
  obtain ⟨p', _, _, p'', _, hresult, hflush, rfl, _⟩ := finishInbound_eq_some h
  obtain ⟨ref, rl, hdevice⟩ := hfrom.device
  rw [hdevice]
  refine .setPeer (Touches.refl.setLimiter ref rl) hfrom.get ?_
  have hresult := (Peer.SameButState.of_sameButTunnel hfrom.peer).trans
    (handleResult_sameButState hresult)
  exact hresult.trans (.of_sameButTunnel hflush.sameButTunnel)

theorem touches_of_step (h : (machine C).step d e = some (d', outputs)) (he : e.isConfig = false)
    (hQ : ∀ i, incoming C d e = some i → Q i.id)
    : Touches Q d d' := by
  cases handlerCase_of_step h he with
  | idle _ _ hdevice _ =>
    rcases hdevice with rfl | ⟨ref, rl, rfl⟩
    . exact .refl
    . exact Touches.refl.setLimiter ref rl
  | inbound i p _ _ _ _ env d₁ _ _ hincoming _ _ hfrom _ _ hfinish hdevice =>
    have htouches : Touches Q d d₁ := touches_finishInbound hfrom hfinish
    rcases hdevice with rfl | ⟨addr, rfl | rfl⟩
    . exact htouches
    . exact htouches.setEndpoint i.id addr
    . exact (htouches.setEndpoint i.id addr).connectEndpoint (hQ i hincoming) addr.ip env
  | outbound id p p' src env effects _ _ hget hresult hdevice _ =>
    rw [hdevice]
    exact Touches.refl.setPeer hget (outbound_sameButState hresult)
  | timer id p env rl rl' tunnel result d₁ _ hget _ hset hdevice _ =>
    have htouches : Touches Q d d₁ := by
      rw [hset]
      exact .setPeer (Touches.refl.setLimiter _ rl') hget rfl
    rcases hdevice with rfl | rfl
    . exact htouches
    . exact htouches.shutdownEndpoint id

theorem touches_openListenSocket (d : Device) (port : UInt16) (assigned : Option UInt16)
    : Touches Q d (d.openListenSocket port assigned) := by
  apply openListenSocket_induction (Touches Q d)
  . intro acc udp4 udp6 listenPort hacc
    exact hacc.listen udp4 udp6 listenPort
  . intro acc id hacc
    exact hacc.shutdownEndpoint id
  . exact .refl

end Touches

def endpointOf (d : Device) (id : PeerId) : Option Endpoint :=
  (d.peerArena.get id).map Peer.endpoint

/--
An open connected socket is the one that its peer uses, and it is connected to the endpoint.
-/
def ConnectedSockets (d : Device) : Prop :=
  ∀ cid c, d.connArena.get cid = some c → c.isOpen = true →
    d.endpointOf c.peer = some { addr := some c.addr, conn := some cid }

structure SameEndpoints (d d' : Device) : Prop where
  conn : d'.connArena = d.connArena
  endpoint : ∀ id endpoint, d.endpointOf id = some endpoint → d'.endpointOf id = some endpoint

variable {d d' : Device} {id : PeerId}

theorem endpointOf_setPeer {p : Peer} (h : d.peerArena.get id = some p) (p' : Peer) (j : PeerId)
    : (d.setPeer id p').endpointOf j = if j = id then some p'.endpoint else d.endpointOf j := by
  unfold endpointOf setPeer
  rw [Arena.get_set_of_get h]
  split <;> rfl

theorem SameEndpoints.setPeer {p p' : Peer} (h : d.peerArena.get id = some p)
    (hendpoint : p'.endpoint = p.endpoint)
    : SameEndpoints d (d.setPeer id p') where
  conn := rfl
  endpoint := by
    intro j endpoint hj
    rw [endpointOf_setPeer h, hendpoint]
    split
    . next heq =>
      subst heq
      simpa [endpointOf, h] using hj
    . exact hj

theorem ConnectedSockets.of_sameEndpoints (hd : ConnectedSockets d) (h : SameEndpoints d d')
    : ConnectedSockets d' := by
  intro cid c hget hopen
  rw [h.conn] at hget
  apply h.endpoint
  exact hd cid c hget hopen

theorem ConnectedSockets.setLimiter (hd : ConnectedSockets d) (ref : Noise.RateLimiterRef)
    (rl : Noise.RateLimiter)
    : ConnectedSockets (d.setLimiter ref rl) :=
  hd.of_sameEndpoints ⟨rfl, fun _ _ h => h⟩

/--
A peer that gives up its connected socket may change its endpoint, since the socket is shut down.
-/
theorem ConnectedSockets.shutdown {p : Peer} (hd : ConnectedSockets d)
    (hget : d.peerArena.get id = some p) (p' : Peer)
    : ConnectedSockets ((d.setPeer id p').shutdown p.endpoint.conn) := by
  have hother : ∀ cid c, d.connArena.get cid = some c → c.isOpen = true →
      p.endpoint.conn ≠ some cid →
        (d.setPeer id p').endpointOf c.peer = some { addr := some c.addr, conn := some cid } := by
    intro cid c hc hopen hne
    have hendpoint := hd cid c hc hopen
    rw [endpointOf_setPeer hget, if_neg]
    . exact hendpoint
    . intro hpeer
      rw [hpeer, endpointOf, hget, Option.map_some, Option.some.injEq] at hendpoint
      rw [hendpoint] at hne
      exact hne rfl
  cases hused : p.endpoint.conn with
  | none =>
    intro cid c hc hopen
    exact hother cid c hc hopen (by simp [hused])
  | some used =>
    cases hc' : d.connArena.get used with
    | none =>
      have hshutdown : (d.setPeer id p').shutdown (some used) = d.setPeer id p' := by
        simp [Device.shutdown, setPeer, hc']
      rw [hshutdown]
      intro cid c hc hopen
      apply hother cid c hc hopen
      rw [hused]
      intro heq
      cases heq
      simp [setPeer, hc'] at hc
    | some c' =>
      have hshutdown : (d.setPeer id p').shutdown (some used) = { d.setPeer id p' with
          connArena := d.connArena.set used { c' with isOpen := false } } := by
        simp [Device.shutdown, setPeer, hc']
      rw [hshutdown]
      intro cid c hc hopen
      dsimp only at hc
      rw [Arena.get_set_of_get hc'] at hc
      split at hc
      . cases hc
        simp at hopen
      . next hne =>
        apply hother cid c hc hopen
        rw [hused]
        intro heq
        cases heq
        exact hne rfl

theorem ConnectedSockets.shutdownEndpoint (hd : ConnectedSockets d) (id : PeerId)
    : ConnectedSockets (d.shutdownEndpoint id) := by
  unfold Device.shutdownEndpoint
  split
  . exact hd
  . next hget => exact hd.shutdown hget _

theorem ConnectedSockets.setEndpoint (hd : ConnectedSockets d) (id : PeerId) (addr : SocketAddr)
    : ConnectedSockets (d.setEndpoint id addr) := by
  unfold Device.setEndpoint
  split
  . exact hd
  . next p hget =>
    by_cases haddr : p.endpoint.addr ≠ some addr
    . rw [Peer.setEndpoint, if_pos haddr]
      exact hd.shutdown hget _
    . rw [Peer.setEndpoint, if_neg haddr]
      exact hd.of_sameEndpoints (.setPeer hget rfl)

theorem ConnectedSockets.connectEndpoint (hd : ConnectedSockets d) (id : PeerId)
    (peerAddr : IpAddr) (env : Env)
    : ConnectedSockets (d.connectEndpoint id peerAddr env) := by
  unfold Device.connectEndpoint
  split
  . exact hd
  . next p hget =>
    split
    . next addr hconn haddr _ =>
      intro cid c hc hopen
      simp only [setPeer, Arena.get_alloc] at hc
      change (d.setPeer id (p.setConn d.connArena.size)).endpointOf c.peer = _
      rw [endpointOf_setPeer hget]
      split at hc
      . next hcid =>
        cases hc
        rw [if_pos rfl, hcid]
        simp [Peer.setConn, haddr]
      . have hendpoint := hd cid c hc hopen
        rw [if_neg]
        . exact hendpoint
        . intro hpeer
          rw [hpeer, endpointOf, hget, Option.map_some, Option.some.injEq] at hendpoint
          simp [hendpoint] at hconn
    . exact hd

theorem ConnectedSockets.removePeer (hd : ConnectedSockets d) (pubKey : FixedBytes 32)
    : ConnectedSockets (d.removePeer pubKey) := by
  unfold Device.removePeer
  split
  . exact hd
  . split
    . exact hd
    . exact hd.shutdownEndpoint _

theorem sameEndpoints_setKey (C : Primitives) (d : Device) (privateKey : FixedBytes 32) (env : Env)
    : SameEndpoints d (d.setKey C privateKey env) := by
  constructor
  . unfold setKey
    dsimp only
    split <;> rfl
  . intro id endpoint h
    rw [← h]
    exact map_get_setKey C d privateKey env id Peer.endpoint fun _ _ => rfl

variable {C : Primitives} {env : Env} {outputs : List Output}

theorem ConnectedSockets.updatePeer {pubKey : FixedBytes 32} {remove : Bool}
    {endpoint : Option SocketAddr} {allowedIps : List AllowedIP} {keepalive : Option UInt16}
    {presharedKey : Option (FixedBytes 32)} (hd : ConnectedSockets d)
    (h : d.updatePeer C pubKey remove endpoint allowedIps keepalive presharedKey env = some d')
    : ConnectedSockets d' := by
  cases updatePeer_cases h with
  | remove _ hdevice =>
    rw [hdevice]
    exact hd.removePeer pubKey
  | add _ _ _ _ _ _ _ _ _ _ _ _ hdevice =>
    rw [hdevice]
    refine hd.of_sameEndpoints ⟨rfl, ?_⟩
    intro id endpoint hid
    rw [endpointOf, get_addPeer, if_neg]
    . exact hid
    . intro hsize
      simp [endpointOf, hsize, Arena.get_size] at hid

theorem ConnectedSockets.touches {Q : PeerId → Prop} (hd : ConnectedSockets d)
    (h : Touches Q d d')
    : ConnectedSockets d' := by
  induction h with
  | refl => exact hd
  | setLimiter _ ref rl ih => exact ih.setLimiter ref rl
  | setPeer _ hget hsame ih => exact ih.of_sameEndpoints (.setPeer hget hsame.endpoint)
  | shutdownEndpoint _ id ih => exact ih.shutdownEndpoint id
  | setEndpoint _ id addr ih => exact ih.setEndpoint id addr
  | connectEndpoint _ _ peerAddr env ih => exact ih.connectEndpoint _ peerAddr env
  | listen _ _ _ _ ih => exact ih

theorem ConnectedSockets.step {e : Event} (hd : ConnectedSockets d)
    (h : (machine C).step d e = some (d', outputs))
    : ConnectedSockets d' := by
  cases he : e.isConfig with
  | false => exact hd.touches (touches_of_step (Q := fun _ => True) h he fun _ _ => trivial)
  | true =>
    cases configCase_of_step h he with
    | updatePeer _ _ _ _ _ _ _ _ hupdate _ => exact hd.updatePeer hupdate
    | clearPeers _ hdevice _ =>
      rw [hdevice]
      exact hd
    | setKey privateKey env _ hdevice _ =>
      rw [hdevice]
      exact hd.of_sameEndpoints (sameEndpoints_setKey C d privateKey env)
    | openListenSocket port assigned _ hdevice _ =>
      rw [hdevice]
      exact hd.touches (touches_openListenSocket (Q := fun _ => True) d port assigned)
    | setFwmark _ _ hdevice _ =>
      rw [hdevice]
      exact hd

variable {nextIndex : IndexLfsr} {config : DeviceConfig} {paymentConfig : Payment.PaymentConfig}
  {ts : List (Transition Device Event Output)}

theorem connectedSockets_new (nextIndex : IndexLfsr) (config : DeviceConfig)
    (paymentConfig : Payment.PaymentConfig)
    : ConnectedSockets (new nextIndex config paymentConfig) := by
  intro cid c hget
  simp [new, Arena.get_empty] at hget

theorem connectedSockets_of_run (hrun : (machine C).Run (new nextIndex config paymentConfig) ts d)
    : ConnectedSockets d :=
  hrun.invariant ConnectedSockets (connectedSockets_new nextIndex config paymentConfig)
    (fun _ _ _ _ hd h => hd.step h)

theorem connectedSockets_before_of_run
    (hrun : (machine C).Run (new nextIndex config paymentConfig) ts d)
    {t : Transition Device Event Output} (ht : t ∈ ts)
    : ConnectedSockets t.before :=
  hrun.invariant_before ConnectedSockets (connectedSockets_new nextIndex config paymentConfig)
    (fun _ _ _ _ hd h => hd.step h) ht

end Device
