import VeilVpn.Device.Lemmas.Metering
import VeilVpn.Device.Lemmas.Ready

namespace Device

section

variable {C : Primitives} {d d' : Device} {e : Event} {outputs : List Output} {id : PeerId}

def BlockedIfEmpty (d : Device) (id : PeerId) : Prop :=
  (d.quotaOf id).remainingBytes = 0 → (d.quotaOf id).blocked = true

variable (C) in
/--
The packet that the quota of a peer has to allow in an event.
-/
def charged (d : Device) (e : Event) : Option (PeerId × Bytes) :=
  match incoming C d e, e with
  | some i, _ =>
    match i.result with
    | .writeToTunnelV4 packet srcIp =>
      if !Payment.isPaymentSignal packet && i.peer.isAllowedIp (.v4 srcIp) then
        some (i.id, packet)
      else
        none
    | .writeToTunnelV6 packet srcIp =>
      if i.peer.isAllowedIp (.v6 srcIp) then some (i.id, packet) else none
    | _ => none
  | none, .iface src _ =>
    (Noise.Tunn.dstAddress src.val >>= d.peersByIp.find).map fun id => (id, src.val)
  | none, _ => none

section Forwarded

variable {p p' : Peer} {sock : Socket} {env : Env} {effects : List Effect} {flow : Flow}

theorem forwardedBytes_sendPaymentRequired {addr : SocketAddr}
    (h : sendPaymentRequired C d p sock addr env = some (p', effects))
    : forwardedBytes effects = 0 := by
  obtain ⟨_, rfl | ⟨_, _, _, rfl⟩⟩ := sendPaymentRequired_eq_some h <;> rfl

theorem forwardedBytes_handlePaymentSubmit {payload : Bytes} {addr : SocketAddr}
    (h : handlePaymentSubmit C d p payload sock addr env = some (p', effects))
    : forwardedBytes effects = 0 := by
  cases handlePaymentSubmit_cases h with
  | unchanged _ _ heffects =>
    subst heffects
    rfl
  | rejected _ _ _ _ _ heffects =>
    subst heffects
    rfl
  | accepted _ _ _ _ _ _ _ _ heffects =>
    rcases heffects with rfl | ⟨_, _, _, _, _, rfl, _⟩ <;> rfl

theorem forwardedBytes_handlePaymentSignalClient {payload : Bytes} {addr : SocketAddr}
    (h : handlePaymentSignalClient C d p payload sock addr env = some (p', effects))
    : forwardedBytes effects = 0 := by
  obtain ⟨_, heffects⟩ := handlePaymentSignalClient_eq_some h
  rcases heffects with rfl | ⟨_, rfl⟩ | ⟨_, _, _, _, rfl⟩ <;> rfl

theorem forwardedBytes_handleResult {result : Noise.TunnResult} {dest addr : Option SocketAddr}
    {afterErr : Flow}
    (h : handleResult C d p result sock dest addr afterErr env = some (p', effects, flow))
    : forwardedBytes effects = 0
        ∨
      ∃ packet ip, IsData packet ip result ∧ p.isAllowedIp ip = true
        ∧ forwardedBytes effects = packet.length := by
  cases handleResult_cases h with
  | idle _ _ hsends => exact .inl (uncharged_of_isSend hsends).forwardedBytes
  | submit _ _ _ _ _ _ _ _ _ hhandle => exact .inl (forwardedBytes_handlePaymentSubmit hhandle)
  | request _ _ _ _ _ _ _ _ _ hhandle =>
    exact .inl (forwardedBytes_handlePaymentSignalClient hhandle)
  | exhausted _ _ _ _ _ _ _ _ hsend => exact .inl (forwardedBytes_sendPaymentRequired hsend)
  | forwarded packet ip hdata hallowed _ heffects =>
    refine .inr ⟨packet, ip, hdata, hallowed, ?_⟩
    simp [heffects, forwardedBytes, Effect.forwarded]
  | ignored _ _ _ _ _ _ heffects => exact .inl (by rw [heffects]; rfl)
  | refused _ _ _ _ _ heffects => exact .inl (by rw [heffects]; rfl)
  | blocked _ _ _ _ _ heffects => exact .inl (by rw [heffects]; rfl)
  | exhaustedV6 _ _ _ _ _ heffects => exact .inl (by rw [heffects]; rfl)

theorem forwardedBytes_outbound {src : Bytes} (h : outbound C d p src env = some (p', effects))
    : forwardedBytes effects = 0 ∨ forwardedBytes effects = src.length := by
  cases outbound_cases h with
  | blocked _ heffects => exact .inl (by rw [heffects]; rfl)
  | exhausted _ _ _ _ hsend => exact .inl (forwardedBytes_sendPaymentRequired hsend)
  | exhaustedSilent _ _ heffects => exact .inl (by rw [heffects]; rfl)
  | forwarded _ _ _ _ _ _ _ hsends heffects =>
    right
    have hforwarded := (uncharged_of_isSend hsends).forwardedBytes
    simpa [heffects, forwardedBytes, Effect.forwarded] using hforwarded

theorem forwardedBytes_of_step (h : (machine C).step d e = some (d', outputs))
    : forwardedBytes (effectsOf id outputs) = 0
        ∨
      ∃ packet, charged C d e = some (id, packet)
        ∧ forwardedBytes (effectsOf id outputs) = packet.length := by
  cases step_cases h with
  | quiet _ _ _ _ houtputs =>
    left
    apply (uncharged_of_isSend _).forwardedBytes
    intro f hf
    rcases houtputs _ (mem_effectsOf.mp hf) with hsend | ⟨hauto, _⟩
    . exact hsend
    . simp at hauto
  | inbound i p p' sock dest addr afterErr flow env effects flushed hincoming _ _ _ _ hresult _ _
      hflushed houtputs =>
    rw [houtputs, effectsOf_outputsFor]
    split
    . next hid =>
      subst hid
      rw [forwardedBytes_append, (uncharged_of_isSend hflushed).forwardedBytes, Nat.add_zero]
      rcases forwardedBytes_handleResult hresult with hzero | ⟨packet, ip, hdata, hallowed, hforwarded⟩
      . exact .inl hzero
      . refine .inr ⟨packet, ?_, hforwarded⟩
        generalize hi : i.result = result at hdata
        cases hdata with
        | v4 srcIp hsignal => simp [charged, hincoming, hi, hsignal, hallowed]
        | v6 srcIp => simp [charged, hincoming, hi, hallowed]
    . exact .inl rfl
  | outbound id' p p' src env effects hevent hfind _ hresult _ _ houtputs =>
    rw [houtputs, effectsOf_outputsFor]
    split
    . next hid =>
      subst hid hevent
      rcases forwardedBytes_outbound hresult with hzero | hforwarded
      . exact .inl hzero
      . exact .inr ⟨src.val, by simp only [charged, incoming, hfind]; rfl, hforwarded⟩
    . exact .inl rfl

end Forwarded

/--
A transition does not leave a peer with a quota that is empty but not blocked: no packet for it has
exactly the size of what remains of the quota, and no payment results in an empty quota.
-/
structure NoExactFit (C : Primitives) (id : PeerId) (t : Transition Device Event Output)
    : Prop where
  charged : ∀ packet, charged C t.before t.event = some (id, packet) →
    packet.length = (t.before.quotaOf id).remainingBytes.toNat →
    (t.before.quotaOf id).remainingBytes = 0
  submitted : ∀ submit, submitted C t.before t.event = some (id, submit) →
    (t.before.quotaOf id).remainingBytes + t.before.paymentConfig.quotaBytes ≠ 0

theorem BlockedIfEmpty.step (hd : IsServer d) (hempty : BlockedIfEmpty d id)
    (h : (machine C).step d e = some (d', outputs)) (hfit : NoExactFit C id ⟨d, e, outputs, d'⟩)
    : BlockedIfEmpty d' id := by
  have hstep := hd.quotaStep h id
  have hpaid : ∀ submit ∈ credits (effectsOf id outputs), ∃ env,
      e.env = some env ∧ submitted C d e = some (id, submit) ∧ paid C d env submit = true :=
    fun _ hmem => hd.paid_of_credit h hmem
  unfold BlockedIfEmpty at *
  generalize d'.quotaOf id = q' at *
  cases hstep with
  | idle => exact hempty
  | forward bytes q' _ hconsume hforwarded =>
    intro hzero
    have hremaining := Payment.BandwidthQuota.toNat_remainingBytes_consume hconsume
    have hnonzero := (Payment.BandwidthQuota.consume_eq_true hconsume).2.1
    rw [hzero, UInt64.toNat_zero, Nat.zero_add] at hremaining
    rw [hremaining] at hforwarded
    rcases forwardedBytes_of_step h with hnone | ⟨packet, hcharged, hlen⟩
    . rw [hnone] at hforwarded
      exact absurd (UInt64.toNat_inj.mp hforwarded.symm) hnonzero
    . rw [hlen] at hforwarded
      exact absurd (hfit.charged packet hcharged hforwarded) hnonzero
  | exhaust bytes q' _ hconsume =>
    intro hzero
    rcases Payment.BandwidthQuota.consume_eq_false hconsume with ⟨_, rfl⟩ | ⟨_, _, rfl⟩
    . exact hempty hzero
    . rfl
  | reject nonce => exact hempty
  | credit submit _ _ _ hcredits =>
    intro hzero
    obtain ⟨_, _, hsubmitted, _⟩ := hpaid submit (by simp [hcredits])
    exact absurd hzero (hfit.submitted submit hsubmitted)

theorem requestCount_step (hd : IsServer d) (hempty : BlockedIfEmpty d id)
    (h : (machine C).step d e = some (d', outputs)) (hcredits : credits (effectsOf id outputs) = [])
    : requestCount (effectsOf id outputs) + ((d.quotaOf id).blocked.toNat)
        ≤ (d'.quotaOf id).blocked.toNat := by
  have hstep := hd.quotaStep h id
  unfold BlockedIfEmpty at *
  generalize d'.quotaOf id = q' at *
  cases hstep with
  | idle heffects => simp [heffects.requestCount]
  | forward bytes q' hblocked hconsume _ hrequests =>
    simp only [Payment.BandwidthQuota.isBlocked] at hblocked
    simp [hrequests, hblocked]
  | exhaust bytes q' hblocked hconsume _ hrequests =>
    simp only [Payment.BandwidthQuota.isBlocked] at hblocked
    rcases Payment.BandwidthQuota.consume_eq_false hconsume with ⟨hzero, rfl⟩ | ⟨_, _, rfl⟩
    . simp [hempty hzero] at hblocked
    . simpa [hblocked] using hrequests
  | reject nonce _ heffects =>
    simp [heffects.requestCount, Payment.BandwidthQuota.checkAndRecordNonce]
  | credit submit _ _ _ hcredits' => simp [hcredits'] at hcredits

variable {ts : List (Transition Device Event Output)}

theorem requestCount_run (hd : IsServer d) (hempty : BlockedIfEmpty d id)
    (hrun : (machine C).Run d ts d') (hfit : ∀ t ∈ ts, NoExactFit C id t)
    (hcredits : credits (effectsOf id (Machine.outputs ts)) = [])
    : IsServer d' ∧ BlockedIfEmpty d' id ∧
        requestCount (effectsOf id (Machine.outputs ts)) + (d.quotaOf id).blocked.toNat
          ≤ (d'.quotaOf id).blocked.toNat := by
  induction hrun with
  | nil =>
    refine ⟨hd, hempty, ?_⟩
    simp [requestCount]
  | @snoc ts s s' e os hrun h ih =>
    simp only [Machine.outputs_append, Machine.outputs_singleton, effectsOf_append, credits_append,
      List.append_eq_nil_iff] at hcredits
    obtain ⟨hs, hsempty, hle⟩ := ih (fun t ht => hfit t (List.mem_append_left _ ht)) hcredits.1
    have hlast := hfit _ (List.mem_append_right _ List.mem_cons_self)
    refine ⟨hs.step h, hsempty.step hs h hlast, ?_⟩
    have hstep := requestCount_step hs hsempty h hcredits.2
    simp only [Machine.outputs_append, Machine.outputs_singleton, effectsOf_append,
      requestCount_append]
    omega

variable {nextIndex : IndexLfsr} {config : DeviceConfig} {paymentConfig : Payment.PaymentConfig}

theorem blockedIfEmpty_of_run (hserver : paymentConfig.isServer = true)
    (hrun : (machine C).Run (new nextIndex config paymentConfig) ts d)
    (hfit : ∀ t ∈ ts, NoExactFit C id t)
    : BlockedIfEmpty d id := by
  apply hrun.invariant_of_mem (fun d => BlockedIfEmpty d id)
  . intro hzero
    rw [quotaOf_new] at hzero
    simp [Payment.BandwidthQuota.new, Payment.defaultQuotaBytes] at hzero
  . intro t ht hempty h
    exact hempty.step (isServer_before_of_run hserver hrun ht) h (hfit t ht)

/--
In every run of a server in which no transition leaves a peer with an empty quota that is not
blocked, the peer is asked at most once for a payment as long as it is not credited.
-/
theorem server_requestCount_le_one (hserver : paymentConfig.isServer = true)
    (hrun : (machine C).Run (new nextIndex config paymentConfig) ts d)
    (hfit : ∀ t ∈ ts, NoExactFit C id t)
    : ∀ before between after,
        ts = before ++ between ++ after
          →
        credits (effectsOf id (Machine.outputs between)) = []
          →
        requestCount (effectsOf id (Machine.outputs between)) ≤ 1 := by
  intro before between after hts hcredits
  subst hts
  obtain ⟨d₂, hrun, _⟩ := hrun.of_append
  obtain ⟨d₁, hbefore, hbetween⟩ := hrun.of_append
  have hempty : BlockedIfEmpty d₁ id := by
    apply blockedIfEmpty_of_run hserver hbefore
    intro t ht
    apply hfit
    simp [ht]
  have hle := (requestCount_run (isServer_of_run hserver hbefore) hempty hbetween
    (fun t ht => hfit t (by simp [ht])) hcredits).2.2
  have := Bool.toNat_le (d₂.quotaOf id).blocked
  omega

end

/--
320 packets use up the quota of the client exactly. It is then asked for a payment for each further
packet.
-/
theorem exists_requested_twice
    : ∃ ts d, (machine Sample.primitives).Run Sample.server ts d
        ∧
      credits (effectsOf 0 (Machine.outputs ts)) = []
        ∧
      requestCount (effectsOf 0 (Machine.outputs ts)) = 2 := by
  obtain ⟨ts, d, p, q, hrun, hready, hunblocked, hremaining, hrequests, hcredits⟩ :=
    Sample.exists_ready Sample.clientAddr (by decide +kernel) 320 (by omega)
  have hdst := Sample.dstAddress_tunPacket 0 (by omega)
  generalize Sample.tunPacket 0 (by omega) = src at hdst
  have hzero : q.remainingBytes = 0 := by
    apply UInt64.toNat_inj.mp
    rw [UInt64.toNat_zero]
    omega
  -- An empty quota is not blocked by further packets
  have hconsume : q.consume (UInt64.ofNat src.val.length) = (q, false) := by
    simp [Payment.BandwidthQuota.consume, hzero]
  obtain ⟨d₁, p₁, outputs₁, hstep₁, hready, hrequests₁, hcredits₁⟩ :=
    hready.ask (C := Sample.primitives) hunblocked hdst hconsume Sample.env
  obtain ⟨d₂, p₂, outputs₂, hstep₂, hready, hrequests₂, hcredits₂⟩ :=
    hready.ask (C := Sample.primitives) hunblocked hdst hconsume Sample.env
  refine ⟨_, d₂, (hrun.snoc hstep₁).snoc hstep₂, ?_, ?_⟩
  . simp only [Machine.outputs_append, Machine.outputs_singleton, effectsOf_append, credits_append,
      hcredits, hcredits₁, hcredits₂, List.append_nil]
  . simp only [Machine.outputs_append, Machine.outputs_singleton, effectsOf_append,
      requestCount_append, hrequests, hrequests₁, hrequests₂]

theorem noExactFit_of_iface {C : Primitives} {id : PeerId}
    {t : Transition Device Event Output} {src : Received} {env : Env}
    (hevent : t.event = .iface src env)
    (hne : src.val.length ≠ (t.before.quotaOf id).remainingBytes.toNat)
    : NoExactFit C id t := by
  constructor
  . intro packet hcharged hlen
    rw [hevent] at hcharged
    obtain ⟨_, _, heq⟩ := Option.map_eq_some_iff.mp hcharged
    cases heq
    exact absurd hlen hne
  . intro submit hsubmitted
    rw [hevent] at hsubmitted
    cases hsubmitted

/--
319 packets leave 32768 bytes of the quota, for which the next one is too long.
-/
theorem server_requestCount_le_one_exhausted
    : ∃ ts d, (machine Sample.primitives).Run Sample.server ts d
        ∧ requestCount (effectsOf 0 (Machine.outputs ts)) = 1
        ∧
      ∀ before between after,
        ts = before ++ between ++ after
          →
        credits (effectsOf 0 (Machine.outputs between)) = []
          →
        requestCount (effectsOf 0 (Machine.outputs between)) ≤ 1 := by
  obtain ⟨ts, d, hrun, h⟩ := Machine.Run.exists_of_exec (machine Sample.primitives) Sample.server
    (Sample.connected Sample.clientAddr)
    (fun ts d => Sample.isReady Sample.clientAddr ts d && ts.all fun t =>
      (charged Sample.primitives t.before t.event).isNone
        && (submitted Sample.primitives t.before t.event).isNone)
    (by decide +kernel)
  rw [Bool.and_eq_true, List.all_eq_true] at h
  obtain ⟨p, q, hready, hunblocked, hquota, hrequests, _⟩ := Sample.ready_of_isReady h.1
  have hlen := Sample.length_tunPacket 32748 (by omega)
  have hdst := Sample.dstAddress_tunPacket 32748 (by omega)
  generalize Sample.tunPacket 32748 (by omega) = src at hlen hdst
  obtain ⟨ts', d₁, p₁, q₁, hrun', hready₁, hunblocked₁, hremaining, hrequests', _, hevents⟩ :=
    hready.forward_many (C := Sample.primitives) hunblocked hdst (by omega) (by omega) Sample.env 319
      (by omega)
  have hlen' := Sample.length_tunPacket 32749 (by omega)
  have hdst' := Sample.dstAddress_tunPacket 32749 (by omega)
  generalize Sample.tunPacket 32749 (by omega) = last at hlen' hdst'
  have hlt : q₁.remainingBytes < UInt64.ofNat last.val.length := by
    rw [UInt64.lt_iff_toNat_lt, Ready.toNat_length]
    omega
  have hzero : q₁.remainingBytes ≠ 0 := by
    intro hzero
    rw [hzero, UInt64.toNat_zero] at hremaining
    omega
  obtain ⟨q₂, hconsume, _⟩ := Payment.BandwidthQuota.consume_of_lt hzero hlt
  obtain ⟨d₂, p₂, outputs, hstep, _, hrequests₂, _⟩ :=
    hready₁.ask (C := Sample.primitives) hunblocked₁ hdst' hconsume Sample.env
  have hall := (hrun.append hrun').snoc hstep
  refine ⟨_, d₂, hall, ?_, server_requestCount_le_one rfl hall ?_⟩
  . simp only [Machine.outputs_append, Machine.outputs_singleton, effectsOf_append,
      requestCount_append, hrequests, hrequests', hrequests₂]
  . intro t ht
    rw [List.mem_append, List.mem_append, List.mem_singleton] at ht
    rcases ht with (hmem | hmem) | rfl
    . have hnone := h.2 t hmem
      rw [Bool.and_eq_true, Option.isNone_iff_eq_none, Option.isNone_iff_eq_none] at hnone
      constructor
      . intro packet hcharged
        rw [hnone.1] at hcharged
        cases hcharged
      . intro submit hsubmitted
        rw [hnone.2] at hsubmitted
        cases hsubmitted
    . obtain ⟨hevent, hmore⟩ := hevents t hmem
      exact noExactFit_of_iface hevent (by omega)
    . refine noExactFit_of_iface rfl ?_
      dsimp only
      rw [hready₁.quotaOf_eq]
      omega

end Device
