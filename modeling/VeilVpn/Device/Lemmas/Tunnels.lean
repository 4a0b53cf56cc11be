import VeilVpn.Device.Lemmas.Endpoint
import VeilVpn.Noise.Lemmas.Index

namespace Device

def Effect.handed : Effect → Option Bytes
  | .encapsulateTun packet => some packet
  | .signal _ packet _ _ _ => some packet
  | _ => none

def handed (effects : List Effect) : List Bytes :=
  effects.filterMap Effect.handed

@[simp]
theorem handed_nil : handed [] = [] := rfl

@[simp]
theorem handed_append (effects effects' : List Effect)
    : handed (effects ++ effects') = handed effects ++ handed effects' := by
  simp [handed]

theorem handed_of_sends {effects : List Effect} (h : ∀ f ∈ effects, f.isSend) : handed effects = [] := by
  rw [handed, List.filterMap_eq_nil_iff]
  intro f hf
  have := h f hf
  cases f <;> simp [Effect.isSend, Effect.handed] at this ⊢

/--
By calls to its tunnel and without a change of its index, `p` becomes `p'`. The tunnel is handed the
packets in order.
-/
structure Peer.Takes (C : Primitives) (p : Peer) (packets : List Bytes) (p' : Peer) : Prop where
  index : p'.index = p.index
  run : ∃ ts, (Noise.Tunn.machine C.noise).Run p.tunnel ts p'.tunnel
    ∧ ts.filterMap (·.event.given) = packets

namespace Peer.Takes

variable {C : Primitives} {p p' p'' : Peer} {packets packets' : List Bytes}

theorem of_tunnel_eq (hindex : p'.index = p.index) (htunnel : p'.tunnel = p.tunnel)
    : p.Takes C [] p' := by
  refine ⟨hindex, [], ?_, rfl⟩
  rw [htunnel]
  exact Machine.Run.nil

theorem refl (p : Peer) : p.Takes C [] p :=
  of_tunnel_eq rfl rfl

theorem trans (h : p.Takes C packets p') (h' : p'.Takes C packets' p'')
    : p.Takes C (packets ++ packets') p'' := by
  obtain ⟨ts, hrun, rfl⟩ := h.run
  obtain ⟨ts', hrun', rfl⟩ := h'.run
  exact ⟨h'.index.trans h.index, ts ++ ts', hrun.append hrun', List.filterMap_append⟩

theorem of_call {c : Noise.Call} {result : Noise.TunnResult}
    (h : p.tunnel.call C.noise c = some (p'.tunnel, result)) (hindex : p'.index = p.index)
    : p.Takes C c.given.toList p' := by
  have hstep : (Noise.Tunn.machine C.noise).step p.tunnel c = some (p'.tunnel, [result]) := by
    simp [Noise.Tunn.machine, h]
  refine ⟨hindex, _, Machine.Run.single hstep, ?_⟩
  cases hgiven : c.given <;> simp [hgiven]

end Peer.Takes

structure Peer.Keeps (C : Primitives) (p : Peer) (packets : List Bytes) (p' : Peer) : Prop
    extends p.Takes C packets p' where
  params : p'.tunnel.handshake.params = p.tunnel.handshake.params

namespace Peer.Keeps

variable {C : Primitives} {p p' p'' : Peer} {packets packets' : List Bytes}

theorem of_tunnel_eq (hindex : p'.index = p.index) (htunnel : p'.tunnel = p.tunnel)
    : p.Keeps C [] p' :=
  ⟨.of_tunnel_eq hindex htunnel, by rw [htunnel]⟩

theorem refl (p : Peer) : p.Keeps C [] p :=
  of_tunnel_eq rfl rfl

theorem trans (h : p.Keeps C packets p') (h' : p'.Keeps C packets' p'')
    : p.Keeps C (packets ++ packets') p'' :=
  ⟨h.toTakes.trans h'.toTakes, h'.params.trans h.params⟩

theorem of_call {c : Noise.Call} {result : Noise.TunnResult}
    (h : p.tunnel.call C.noise c = some (p'.tunnel, result)) (hindex : p'.index = p.index)
    (hoperation : ∀ staticPrivate staticPublic ref,
      c.operation ≠ .setStaticPrivate staticPrivate staticPublic ref)
    : p.Keeps C c.given.toList p' :=
  ⟨.of_call h hindex, Noise.Tunn.params_of_call h hoperation⟩

theorem encapsulate {packet : Bytes} {dstLen : Nat} {now : Instant} {ephemeral : FixedBytes 32}
    {tunnel : Noise.Tunn} {result : Noise.TunnResult}
    (h : p.tunnel.encapsulate C.noise packet dstLen now ephemeral = some (tunnel, result))
    : p.Keeps C [packet] { p with tunnel } :=
  of_call (c := ⟨.encapsulate packet, dstLen, now, ephemeral⟩) h rfl (by simp)

end Peer.Keeps

section Handlers

variable {C : Primitives} {d d' : Device} {p p' : Peer} {sock : Socket} {env : Env}
  {effects : List Effect}

theorem enforceQuota_keeps {packet : Bytes} {verdict : Verdict}
    (h : enforceQuota d p packet = (p', verdict))
    : p.Keeps C [] p' := by
  have hsame := enforceQuota_sameButState h
  refine .of_tunnel_eq (by rw [hsame]) ?_
  unfold enforceQuota at h
  split at h
  . split at h
    . cases h
      rfl
    . split at h
      . cases h
        rfl
      . split at h <;>
        . cases h
          rfl
  . cases h
    rfl

theorem checkAndRecordNonce_keeps {nonce : FixedBytes 32} {fresh : Bool}
    (h : p.checkAndRecordNonce nonce = (p', fresh))
    : p.Keeps C [] p' := by
  unfold Peer.checkAndRecordNonce at h
  split at h <;>
  . cases h
    exact .of_tunnel_eq rfl rfl

theorem sendSignal_keeps {signal : Signal} {srcIp dstIp : Ipv4Addr} {addr : SocketAddr}
    (h : sendSignal C p signal srcIp dstIp sock addr env = some (p', effects))
    : p.Keeps C (handed effects) p' := by
  unfold sendSignal at h
  split at h
  . simp at h
  . split at h
    . simp at h
    . next hencapsulate =>
      cases h
      exact .encapsulate hencapsulate

theorem sendPaymentRequired_keeps {addr : SocketAddr}
    (h : sendPaymentRequired C d p sock addr env = some (p', effects))
    : p.Keeps C (handed effects) p' := by
  unfold sendPaymentRequired at h
  split at h
  . cases h
    exact .refl p
  . split at h
    . cases h
      exact .refl p
    . exact sendSignal_keeps h

theorem acceptPayment_keeps {submit : Payment.PaymentSubmit} {addr : SocketAddr}
    (h : acceptPayment C d p submit sock addr env = some (p', effects))
    : p.Keeps C (handed effects) p' := by
  have hcredit : p.Keeps C [] (p.credit d.paymentConfig.quotaBytes) := .of_tunnel_eq rfl rfl
  unfold acceptPayment at h
  dsimp only at h
  split at h
  . cases h
    exact hcredit
  . split at h
    . simp at h
    . next hsend =>
      cases h
      exact hcredit.trans (sendSignal_keeps hsend)

theorem handlePaymentSubmit_keeps {payload : Bytes} {addr : SocketAddr}
    (h : handlePaymentSubmit C d p payload sock addr env = some (p', effects))
    : p.Keeps C (handed effects) p' := by
  unfold handlePaymentSubmit at h
  split at h
  . cases h
    exact .refl p
  . split at h
    . cases h
      exact .refl p
    . split at h
      . cases h
        exact .refl p
      . split at h
        . cases h
          exact .refl p
        . split at h
          . next hnonce =>
            cases h
            exact checkAndRecordNonce_keeps hnonce
          . next recorded hnonce =>
            have hrecorded : p.Keeps C [] recorded := checkAndRecordNonce_keeps hnonce
            split at h
            . cases h
              exact hrecorded
            . split at h
              . cases h
                exact hrecorded
              . split at h
                . exact hrecorded.trans (acceptPayment_keeps h)
                . split at h
                  . cases h
                    exact hrecorded
                  . split at h
                    . exact hrecorded.trans (acceptPayment_keeps h)
                    . cases h
                      exact hrecorded

theorem handlePaymentSignalClient_keeps {payload : Bytes} {addr : SocketAddr}
    (h : handlePaymentSignalClient C d p payload sock addr env = some (p', effects))
    : p.Keeps C (handed effects) p' := by
  cases handlePaymentSignalClient_cases h with
  | silent _ hpeer heffects =>
    rw [hpeer, heffects]
    exact .refl p
  | signed _ _ auth sends _ _ _ heffects hsends =>
    have hhanded : handed effects = handed sends := by
      rw [heffects]
      rfl
    rw [hhanded]
    rcases hsends with ⟨_, rfl, rfl⟩ | ⟨_, _, _, hsend⟩
    . exact .refl p'
    . exact sendSignal_keeps hsend

theorem handleResult_keeps {result : Noise.TunnResult} {dest addr : Option SocketAddr}
    {afterErr flow : Flow}
    (h : handleResult C d p result sock dest addr afterErr env = some (p', effects, flow))
    : p.Keeps C (handed effects) p' := by
  cases handleResult_cases h with
  | idle _ hpeer heffects =>
    rw [hpeer, handed_of_sends heffects]
    exact .refl p
  | ignored _ _ _ _ _ hpeer heffects =>
    rw [hpeer, heffects]
    exact .refl p
  | submit _ _ _ _ _ _ _ _ _ hhandle => exact handlePaymentSubmit_keeps hhandle
  | request _ _ _ _ _ _ _ _ _ hhandle => exact handlePaymentSignalClient_keeps hhandle
  | refused _ _ _ _ hpeer heffects =>
    rw [hpeer, heffects]
    exact .refl p
  | blocked _ _ _ _ hverdict heffects =>
    rw [heffects]
    exact enforceQuota_keeps hverdict
  | exhausted _ _ _ _ _ _ hverdict _ hsend =>
    exact (enforceQuota_keeps hverdict).trans (sendPaymentRequired_keeps hsend)
  | exhaustedV6 _ _ _ _ hverdict heffects =>
    rw [heffects]
    exact enforceQuota_keeps hverdict
  | forwarded _ _ _ _ hverdict heffects =>
    rw [heffects]
    exact enforceQuota_keeps hverdict

theorem outbound_keeps {src : Bytes} (h : outbound C d p src env = some (p', effects))
    : p.Keeps C (handed effects) p' := by
  cases outbound_cases h with
  | blocked hverdict heffects =>
    rw [heffects]
    exact enforceQuota_keeps hverdict
  | exhausted _ _ hverdict _ hsend =>
    exact (enforceQuota_keeps hverdict).trans (sendPaymentRequired_keeps hsend)
  | exhaustedSilent hverdict _ heffects =>
    rw [heffects]
    exact enforceQuota_keeps hverdict
  | forwarded p₁ tunnel result sends hverdict hencapsulate hpeer hsends heffects =>
    have hhanded : handed effects = [src] := by
      rw [heffects, ← List.singleton_append, handed_append, handed_of_sends hsends]
      rfl
    rw [hpeer, hhanded]
    exact (enforceQuota_keeps hverdict).trans (.encapsulate hencapsulate)

theorem sendQueuedPacket_keeps {dstLen : Nat} {now : Instant} {ephemeral : FixedBytes 32}
    {tunnel : Noise.Tunn} {result : Noise.TunnResult} (rl : Noise.RateLimiter)
    (h : p.tunnel.sendQueuedPacket C.noise dstLen now ephemeral = some (tunnel, result))
    : p.Keeps C [] { p with tunnel } := by
  let c : Noise.Call := ⟨.decapsulate rl none [], dstLen, now, ephemeral⟩
  have hcall : p.tunnel.call C.noise c = some (tunnel, result) := by
    simp [c, Noise.Tunn.call, Noise.Tunn.decapsulate, h]
  have hkeeps : p.Keeps C c.given.toList { p with tunnel } := .of_call hcall rfl (by simp [c])
  exact hkeeps

theorem flushQueue.go_keeps {dest : Option SocketAddr} {fuel : Nat}
    (h : flushQueue.go C sock dest env fuel p = some (p', effects))
    : p.Keeps C [] p' := by
  let rl := Noise.RateLimiter.new C.noise env.nonce Noise.peerHandshakeRateLimit env.limiterNonceKey
    env.limiterSecretKey env.now
  induction fuel generalizing p effects with
  | zero =>
    simp only [go, Option.some.injEq, Prod.mk.injEq] at h
    rw [h.1]
    exact .refl p'
  | succ fuel ih =>
    simp only [go] at h
    split at h
    . simp at h
    . next hsend =>
      split at h
      . simp at h
      . next hrest =>
        cases h
        exact (sendQueuedPacket_keeps rl hsend).trans (ih hrest)
    . next hsend =>
      cases h
      exact sendQueuedPacket_keeps rl hsend

theorem Flushes.keeps {dest : Option SocketAddr} {flushed : List Effect}
    (h : Flushes C sock dest env p p' flushed)
    : p.Keeps C [] p' := by
  rcases h with ⟨rfl, _⟩ | h
  . exact .refl p'
  . exact flushQueue.go_keeps h

theorem Inbound.From.keeps {i : Inbound} {c : Noise.Call} (h : i.From C d p)
    (hcall : p.tunnel.call C.noise c = some (i.peer.tunnel, i.result))
    (hoperation : ∀ staticPrivate staticPublic ref,
      c.operation ≠ .setStaticPrivate staticPrivate staticPublic ref)
    : p.Keeps C [] i.peer := by
  obtain ⟨c', hcall', hgiven⟩ := h.call
  have htakes : p.Takes C c'.given.toList i.peer := .of_call hcall' (by rw [h.peer])
  rw [hgiven] at htakes
  exact ⟨htakes, Noise.Tunn.params_of_call hcall hoperation⟩

end Handlers

section Step

variable {C : Primitives} {d d' d'' : Device} {outputs : List Output}

variable (C) in
def Peer.Fresh (p : Peer) : Prop :=
  ∃ staticPrivate peerStaticPublic presharedKey keepalive ref stamper now,
    p.tunnel = .new C.noise staticPrivate peerStaticPublic presharedKey keepalive p.index ref true
      stamper now

variable (C) in
/--
What becomes of a peer: it does not exist, or it makes calls to its tunnel, the first time after it was
created.
-/
inductive PeerStep : Option Peer → List Bytes → Option Peer → Prop where
  | absent : PeerStep none [] none
  | created {p₀ p : Peer} {packets : List Bytes} (hfresh : p₀.Fresh C) (htakes : p₀.Takes C packets p)
    : PeerStep none packets (some p)
  | takes {p p' : Peer} {packets : List Bytes} (htakes : p.Takes C packets p')
    : PeerStep (some p) packets (some p')

theorem PeerStep.refl (o : Option Peer) : PeerStep C o [] o := by
  cases o with
  | none => exact .absent
  | some p => exact .takes (.refl p)

theorem PeerStep.trans {o o' o'' : Option Peer} {packets packets' : List Bytes}
    (h : PeerStep C o packets o') (h' : PeerStep C o' packets' o'')
    : PeerStep C o (packets ++ packets') o'' := by
  cases h with
  | absent => exact h'
  | created hfresh htakes =>
    cases h' with
    | takes htakes' => exact .created hfresh (htakes.trans htakes')
  | takes htakes =>
    cases h' with
    | takes htakes' => exact .takes (htakes.trans htakes')

variable (C) in
def Serves (d : Device) (outputs : List Output) (d' : Device) : Prop :=
  ∀ id, PeerStep C (d.peerArena.get id) (handed (effectsOf id outputs)) (d'.peerArena.get id)

theorem Serves.trans {outputs' : List Output} (h : Serves C d outputs d')
    (h' : Serves C d' outputs' d'')
    : Serves C d (outputs ++ outputs') d'' := by
  intro id
  rw [effectsOf_append, handed_append]
  exact (h id).trans (h' id)

theorem Serves.of_handed_nil (h : Serves C d [] d')
    (houtputs : ∀ id, handed (effectsOf id outputs) = [])
    : Serves C d outputs d' := by
  intro id
  rw [houtputs id]
  exact h id

theorem handed_effectsOf_of_sends (h : ∀ o ∈ outputs, o.effect.isSend) (id : PeerId)
    : handed (effectsOf id outputs) = [] := by
  apply handed_of_sends
  intro f hf
  exact h _ (mem_effectsOf.mp hf)

variable (C) in
inductive PeerKept : Option Peer → List Bytes → Option Peer → Prop where
  | absent : PeerKept none [] none
  | keeps {p p' : Peer} {packets : List Bytes} (hkeeps : p.Keeps C packets p')
    : PeerKept (some p) packets (some p')

theorem PeerKept.refl (o : Option Peer) : PeerKept C o [] o := by
  cases o with
  | none => exact .absent
  | some p => exact .keeps (.refl p)

theorem PeerKept.trans {o o' o'' : Option Peer} {packets packets' : List Bytes}
    (h : PeerKept C o packets o') (h' : PeerKept C o' packets' o'')
    : PeerKept C o (packets ++ packets') o'' := by
  cases h with
  | absent => exact h'
  | keeps hkeeps =>
    cases h' with
    | keeps hkeeps' => exact .keeps (hkeeps.trans hkeeps')

theorem PeerKept.peerStep {o o' : Option Peer} {packets : List Bytes} (h : PeerKept C o packets o')
    : PeerStep C o packets o' := by
  cases h with
  | absent => exact .absent
  | keeps hkeeps => exact .takes hkeeps.toTakes

variable (C) in
def Handles (d : Device) (outputs : List Output) (d' : Device) : Prop :=
  ∀ id, PeerKept C (d.peerArena.get id) (handed (effectsOf id outputs)) (d'.peerArena.get id)

theorem Handles.serves (h : Handles C d outputs d') : Serves C d outputs d' :=
  fun id => (h id).peerStep

theorem Handles.of_handed_nil (h : Handles C d [] d')
    (houtputs : ∀ id, handed (effectsOf id outputs) = [])
    : Handles C d outputs d' := by
  intro id
  rw [houtputs id]
  exact h id

theorem handles_of_coreOf_eq (h : ∀ id, d'.coreOf id = d.coreOf id) : Handles C d [] d' := by
  intro id
  have hcore := h id
  unfold coreOf at hcore
  cases hget : d.peerArena.get id with
  | none =>
    rw [hget, Option.map_none, Option.map_eq_none_iff] at hcore
    rw [hcore]
    exact .absent
  | some p =>
    rw [hget, Option.map_some, Option.map_eq_some_iff] at hcore
    obtain ⟨p', hget', hcore⟩ := hcore
    have hindex : p'.core.index = p.core.index := by rw [hcore]
    have htunnel : p'.core.tunnel = p.core.tunnel := by rw [hcore]
    rw [hget']
    exact .keeps (.of_tunnel_eq hindex htunnel)

theorem Handles.of_sameCores_after (h : Handles C d outputs d') (hcores : SameCores d' d'')
    : Handles C d outputs d'' := by
  intro id
  have hkept := (h id).trans (handles_of_coreOf_eq (C := C) hcores.core id)
  rwa [effectsOf_nil, handed_nil, List.append_nil] at hkept

theorem handles_setPeer {id : PeerId} {p p' : Peer} {effects : List Effect}
    (hget : d.peerArena.get id = some p) (h : p.Keeps C (handed effects) p')
    : Handles C d (outputsFor id effects) (d.setPeer id p') := by
  intro j
  simp only [Device.setPeer, Arena.get_set_of_get hget, effectsOf_outputsFor]
  split
  . next heq =>
    rw [heq, hget]
    exact .keeps h
  . exact .refl _

theorem handles_finishInbound {i : Inbound} {p : Peer} {sock : Socket}
    {dest addr : Option SocketAddr} {afterErr : Flow} {env : Env} {finished : Bool}
    (hfrom : i.From C d p) (hkeeps : p.Keeps C [] i.peer)
    (h : finishInbound C i sock dest addr afterErr env = some (d', outputs, finished))
    : Handles C d outputs d' := by
  obtain ⟨p', effects, _, p'', flushed, hresult, hflush, rfl, rfl⟩ := finishInbound_eq_some h
  obtain ⟨ref, rl', hdevice⟩ := hfrom.device
  have hall : p.Keeps C (handed (effects ++ flushed)) p'' := by
    rw [handed_append, handed_of_sends hflush.isSend]
    exact (hkeeps.trans (handleResult_keeps hresult)).trans hflush.keeps
  rw [hdevice]
  exact handles_setPeer (d := d.setLimiter ref rl') hfrom.get hall

theorem HandlerCase.handles {e : Event} (h : HandlerCase C d e d' outputs)
    : Handles C d outputs d' := by
  cases h with
  | idle _ _ hdevice hsend =>
    refine Handles.of_handed_nil ?_ (handed_effectsOf_of_sends hsend)
    rcases hdevice with rfl | ⟨ref, rl, rfl⟩
    . exact handles_of_coreOf_eq fun _ => rfl
    . exact handles_of_coreOf_eq (sameCores_setLimiter d ref rl).core
  | inbound i p _ _ _ _ env d₁ _ c _ _ _ hfrom hcall hoperation hfinish hdevice =>
    have hhandles := handles_finishInbound hfrom (hfrom.keeps hcall hoperation) hfinish
    rcases hdevice with rfl | ⟨addr, rfl | rfl⟩
    . exact hhandles
    . exact hhandles.of_sameCores_after (sameCores_setEndpoint d₁ i.id addr)
    . exact hhandles.of_sameCores_after ((sameCores_setEndpoint d₁ i.id addr).trans
        (sameCores_connectEndpoint _ i.id addr.ip env))
  | outbound id p p' src env effects _ _ hget hresult hdevice houtputs =>
    rw [hdevice, houtputs]
    exact handles_setPeer hget (outbound_keeps hresult)
  | timer id p env rl rl' tunnel result d₁ _ hget htimers hset hdevice hsend =>
    refine Handles.of_handed_nil ?_ (handed_effectsOf_of_sends hsend)
    have hkeeps : p.Keeps C [] { p with tunnel } :=
      .of_call (c := ⟨.updateTimers rl env.later, maxUdpSize, env.now, env.ephemeral 0⟩)
        (congrArg (Option.map Prod.snd) htimers) rfl (by simp)
    have hhandles : Handles C d [] d₁ := by
      rw [hset]
      exact @handles_setPeer C (d.setLimiter _ rl') id p _ [] hget hkeeps
    rcases hdevice with rfl | rfl
    . exact hhandles
    . exact hhandles.of_sameCores_after (sameCores_shutdownEndpoint d₁ id)

theorem handles_of_step {e : Event} (h : (machine C).step d e = some (d', outputs))
    (hkey : ∀ privateKey env, e ≠ .setKey privateKey env)
    (hadd : ∀ pubKey endpoint allowedIps keepalive presharedKey env,
      e ≠ .updatePeer pubKey false endpoint allowedIps keepalive presharedKey env)
    : Handles C d outputs d' := by
  cases he : e.isConfig with
  | false => exact (handlerCase_of_step h he).handles
  | true =>
    cases configCase_of_step h he with
    | updatePeer pubKey remove endpoint allowedIps keepalive presharedKey env hevent hupdate houtputs =>
      cases remove with
      | false => exact absurd hevent (hadd pubKey endpoint allowedIps keepalive presharedKey env)
      | true =>
        rw [updatePeer, if_pos rfl, Option.some.injEq] at hupdate
        rw [← hupdate, houtputs]
        exact handles_of_coreOf_eq (coreOf_removePeer d pubKey)
    | clearPeers _ hdevice houtputs =>
      rw [hdevice, houtputs]
      exact handles_of_coreOf_eq fun _ => rfl
    | setKey privateKey env hevent _ _ => exact absurd hevent (hkey privateKey env)
    | openListenSocket port assigned _ hdevice houtputs =>
      rw [hdevice, houtputs]
      exact handles_of_coreOf_eq (coreOf_openListenSocket d port assigned)
    | setFwmark _ _ hdevice houtputs =>
      rw [hdevice, houtputs]
      exact handles_of_coreOf_eq fun _ => rfl

theorem serves_updatePeer {pubKey : FixedBytes 32} {endpoint : Option SocketAddr}
    {allowedIps : List AllowedIP} {keepalive : Option UInt16}
    {presharedKey : Option (FixedBytes 32)} {env : Env}
    (h : d.updatePeer C pubKey false endpoint allowedIps keepalive presharedKey env = some d')
    : Serves C d [] d' := by
  cases updatePeer_cases h with
  | remove hremove _ => cases hremove
  | add lfsr index privateKey publicKey limiter stamper p _ _ _ _ hpeer hdevice =>
    intro id
    rw [hdevice, get_addPeer]
    split
    . next hid =>
      rw [hid, Arena.get_size]
      have hfresh : p.Fresh C := by
        rw [hpeer]
        exact ⟨_, _, _, _, _, _, _, rfl⟩
      exact .created hfresh (.refl p)
    . exact .refl _

theorem serves_setKey (d : Device) (privateKey : FixedBytes 32) (env : Env)
    : Serves C d [] (d.setKey C privateKey env) := by
  intro id
  obtain ⟨f, hget, hf⟩ := get_setKey C d privateKey env id
  rw [hget]
  cases d.peerArena.get id with
  | none => exact .absent
  | some p =>
    refine .takes ?_
    obtain ⟨hsame, heq | ⟨publicKey, ref, hset⟩⟩ := hf p
    . rw [heq]
      exact .refl p
    . let c : Noise.Call := ⟨.setStaticPrivate privateKey publicKey ref, 0, env.now, env.nonce⟩
      have hcall : p.tunnel.call C.noise c = some ((f p).tunnel, .done) := by
        simp [c, Noise.Tunn.call, hset]
      exact .of_call (c := c) hcall (by rw [hsame])

theorem serves_of_step {e : Event} (h : (machine C).step d e = some (d', outputs))
    : Serves C d outputs d' := by
  by_cases hkey : ∃ privateKey env, e = .setKey privateKey env
  . obtain ⟨privateKey, env, rfl⟩ := hkey
    cases h
    refine (serves_setKey d privateKey env).of_handed_nil ?_
    intro id
    split <;> rfl
  . by_cases hadd : ∃ pubKey endpoint allowedIps keepalive presharedKey env,
        e = .updatePeer pubKey false endpoint allowedIps keepalive presharedKey env
    . obtain ⟨pubKey, endpoint, allowedIps, keepalive, presharedKey, env, rfl⟩ := hadd
      simp only [machine, step] at h
      split at h
      . simp at h
      . next hupdate =>
        cases h
        exact serves_updatePeer hupdate
    . simp only [not_exists] at hkey hadd
      exact (handles_of_step h hkey hadd).serves

theorem serves_of_run {ts : List (Transition Device Event Output)}
    (hrun : (machine C).Run d ts d')
    : Serves C d (Machine.outputs ts) d' := by
  induction hrun with
  | nil => exact fun id => .refl _
  | snoc _ hstep ih =>
    rw [Machine.outputs_append, Machine.outputs_singleton]
    exact ih.trans (serves_of_step hstep)

/--
In a run of a new device, the tunnel of each peer makes a run from a new tunnel, in which it is handed
the packets that the device hands to that peer.
-/
theorem tunnel_of_run {ts : List (Transition Device Event Output)} {nextIndex : IndexLfsr}
    {config : DeviceConfig} {paymentConfig : Payment.PaymentConfig}
    (hrun : (machine C).Run (new nextIndex config paymentConfig) ts d) {id : PeerId} {p : Peer}
    (hget : d.peerArena.get id = some p)
    : ∃ p₀ : Peer, p₀.Fresh C ∧ p₀.Takes C (handed (effectsOf id (Machine.outputs ts))) p := by
  have hstep := serves_of_run hrun id
  rw [hget, new, Arena.get_empty] at hstep
  generalize handed (effectsOf id (Machine.outputs ts)) = packets at hstep ⊢
  cases hstep with
  | created hfresh htakes => exact ⟨_, hfresh, htakes⟩

end Step

end Device
