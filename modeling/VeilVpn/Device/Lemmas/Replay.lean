import VeilVpn.Device.Lemmas.Metering

namespace Device

section

variable {C : Primitives} {d : Device} {p p' : Peer} {q : Payment.BandwidthQuota} {payload : Bytes}
  {sock : Socket} {addr : SocketAddr} {env : Env} {effects : List Effect}

theorem checkAndRecordNonce_of_mem (hq : p.quota = some q) {nonce : FixedBytes 32}
    (hmem : nonce ∈ q.usedNonces)
    : p.checkAndRecordNonce nonce = (p, false) := by
  simp only [Peer.checkAndRecordNonce, hq, Payment.BandwidthQuota.checkAndRecordNonce,
    Finset.insert_eq_of_mem hmem]
  simp [hmem, ← hq]

theorem checkAndRecordNonce_snd (hq : p.quota = some q) (nonce : FixedBytes 32)
    : (p.checkAndRecordNonce nonce).2 = false ↔ nonce ∈ q.usedNonces := by
  simp [Peer.checkAndRecordNonce, hq, Payment.BandwidthQuota.checkAndRecordNonce]

theorem handlePaymentSubmit_of_replay (hq : p.quota = some q) {submit : Payment.PaymentSubmit}
    (hdecode : Payment.PaymentSubmit.decode payload = some submit)
    (hmem : submit.nonce ∈ q.usedNonces)
    : handlePaymentSubmit C d p payload sock addr env = some (p, []) := by
  unfold handlePaymentSubmit
  split
  . rfl
  . simp only [hdecode]
    split
    . rfl
    . split
      . rfl
      . rw [checkAndRecordNonce_of_mem hq hmem]

theorem IsServer.usedNonces_subset {d d' : Device} {ts : List (Transition Device Event Output)}
    (hd : IsServer d) (hrun : (machine C).Run d ts d') (id : PeerId)
    : IsServer d' ∧ (d.quotaOf id).usedNonces ⊆ (d'.quotaOf id).usedNonces := by
  apply hrun.invariant fun d' => IsServer d' ∧ (d.quotaOf id).usedNonces ⊆ (d'.quotaOf id).usedNonces
  . exact ⟨hd, by rfl⟩
  . rintro d₁ e d₂ os ⟨hd₁, hsubset⟩ hstep
    exact ⟨hd₁.step hstep, hsubset.trans (hd₁.quotaStep hstep id).usedNonces_subset⟩

variable (C) in
/--
Every payment with the nonce is refused as a replay, whichever payload it comes in and whatever the
settlement service would answer.
-/
def Refuses (d : Device) (id : PeerId) (nonce : FixedBytes 32) : Prop :=
  ∀ p payload submit sock addr env,
    d.peerArena.get id = some p →
      Payment.PaymentSubmit.decode payload = some submit →
        submit.nonce = nonce → handlePaymentSubmit C d p payload sock addr env = some (p, [])

theorem IsServer.refuses (hd : IsServer d) {id : PeerId} {nonce : FixedBytes 32}
    (hmem : nonce ∈ (d.quotaOf id).usedNonces)
    : Refuses C d id nonce := by
  intro p payload submit sock addr env hget hdecode hnonce
  apply handlePaymentSubmit_of_replay (hd.accountOf_eq hget) hdecode
  rw [hnonce]
  exact hmem

variable (C) in
/--
The peer object refuses the nonce in every continuation of a run of a server that has led to its quota.
-/
def RefusedWhileAlive (quota : Option Payment.BandwidthQuota) (nonce : FixedBytes 32) : Prop :=
  ∀ nextIndex config paymentConfig ts d p us d' id,
    paymentConfig.isServer = true →
      (machine C).Run (new nextIndex config paymentConfig) ts d →
        d.peerArena.get id = some p →
          p.quota = quota →
            (machine C).Run d us d' → Refuses C d' id nonce

theorem refusedWhileAlive_of_mem {q : Payment.BandwidthQuota} {nonce : FixedBytes 32}
    (hmem : nonce ∈ q.usedNonces)
    : RefusedWhileAlive C (some q) nonce := by
  intro nextIndex config paymentConfig ts d p us d' id hserver hrun hget hquota hlater
  have hd := isServer_of_run hserver hrun
  obtain ⟨hd', hsubset⟩ := hd.usedNonces_subset hlater id
  rw [hd.accountOf_eq hget, Option.some.injEq] at hquota
  rw [hquota] at hsubset
  exact hd'.refuses (hsubset hmem)

/--
A payment that is not credited leaves the counters of the quota as they were. It leaves the nonces as
well if it is rejected no later than at the check for replays. Otherwise its nonce is recorded, and
refused for as long as the peer object lives.
-/
theorem handlePaymentSubmit_not_credited (hq : p.quota = some q)
    (h : handlePaymentSubmit C d p payload sock addr env = some (p', effects))
    (hnot : credits effects = [])
    : (p'.quota = some q ∧
        ∀ submit, Payment.PaymentSubmit.decode payload = some submit → Addressed d submit →
          submit.nonce ∈ q.usedNonces)
        ∨
      ∃ submit,
        Payment.PaymentSubmit.decode payload = some submit
          ∧
        Addressed d submit
          ∧
        submit.nonce ∉ q.usedNonces
          ∧
        ¬(Signed C d submit ∧ (d.settlementClient = false ∨ Settled d env submit))
          ∧
        p'.quota = some { q with usedNonces := insert submit.nonce q.usedNonces }
          ∧
        RefusedWhileAlive C p'.quota submit.nonce := by
  cases handlePaymentSubmit_cases h with
  | unchanged hreason hpeer _ =>
    left
    subst hpeer
    refine ⟨hq, ?_⟩
    intro submit hdecode haddressed
    rw [← checkAndRecordNonce_snd hq]
    exact hreason submit hdecode haddressed
  | rejected submit hdecode haddressed hfresh hreason _ =>
    right
    simp only [Peer.checkAndRecordNonce, hq, Payment.BandwidthQuota.checkAndRecordNonce,
      Prod.mk.injEq, decide_eq_true_eq] at hfresh
    obtain ⟨rfl, hnonce⟩ := hfresh
    refine ⟨submit, hdecode, haddressed, hnonce, hreason, rfl, ?_⟩
    apply refusedWhileAlive_of_mem
    exact Finset.mem_insert_self submit.nonce q.usedNonces
  | accepted submit _ _ _ _ _ _ _ heffects =>
    rcases heffects with rfl | ⟨_, _, _, _, _, rfl, _⟩ <;> simp [credits, Effect.credited] at hnot

variable {nextIndex : IndexLfsr} {config : DeviceConfig} {paymentConfig : Payment.PaymentConfig}
  {ts : List (Transition Device Event Output)}

/--
No peer object is credited more than once for the same nonce, in all of the life of the server.
-/
theorem server_credits_once (hserver : paymentConfig.isServer = true)
    (hrun : (machine C).Run (new nextIndex config paymentConfig) ts d) (id : PeerId)
    (nonce : FixedBytes 32)
    : (credits (effectsOf id (Machine.outputs ts))).countP (·.nonce == nonce) ≤ 1 := by
  have hnodup := nodup_credits hserver hrun id
  rw [List.nodup_iff_count_le_one] at hnodup
  have hcount := hnodup nonce
  rw [List.count, List.countP_map] at hcount
  exact hcount

end

namespace Sample

def offline : Env :=
  { env with settle := fun _ => .error (.http "operation timed out") }

def paymentPayload : Bytes :=
  (Payment.extractSignalPayload (paymentPacket (key 5))).getD []

/--
The client pays, is removed and added again, and pays once more with the same authorization.
-/
def paymentTwice : List Event :=
  setup ++ [
    sendPacket 0 (paymentPacket (key 5)) length_paymentPacket_five_le,
    .updatePeer (key 2) true none [] none none env,
    .updatePeer (key 2) false none [⟨.v4 clientIp, 32, IpAddr.le_width_v4 clientIp⟩] none none env,
    .udp clientAddr (handshakeInit (key 2)) env,
    .udp clientAddr
      (dataDatagram 0xd7fffe01 0 (paymentPacket (key 5)) length_paymentPacket_five_le) env
  ]

end Sample

/--
The settlement service can not be reached when the client pays. When it can be reached again, the
same payment is no longer credited, although it would have been credited before.
-/
theorem exists_payment_lost
    : ∃ ts d, (machine Sample.primitives).Run Sample.server ts d ∧
        ∃ p p₁, d.peerArena.get 0 = some p
          ∧
        handlePaymentSubmit Sample.primitives d p Sample.paymentPayload .udp4 Sample.clientAddr
          Sample.offline = some (p₁, [])
          ∧
        p₁.quota ≠ p.quota
          ∧
        (∃ p₂ effects, handlePaymentSubmit Sample.primitives d p Sample.paymentPayload .udp4
          Sample.clientAddr Sample.env = some (p₂, effects) ∧ (credits effects).length = 1)
          ∧
        ∃ p₂, handlePaymentSubmit Sample.primitives d p₁ Sample.paymentPayload .udp4
          Sample.clientAddr Sample.env = some (p₂, []) := by
  let pay := fun d p env => handlePaymentSubmit Sample.primitives d p Sample.paymentPayload .udp4
    Sample.clientAddr env
  obtain ⟨ts, d, hrun, hpay⟩ := Machine.Run.exists_of_exec (machine Sample.primitives)
    Sample.server Sample.setup
    (fun _ d => (d.peerArena.get 0).any fun p => (pay d p Sample.offline).any fun first =>
      first.2.isEmpty && first.1.quota ≠ p.quota
        && (pay d p Sample.env).any (fun second => (credits second.2).length = 1)
        && (pay d first.1 Sample.env).any (fun second => second.2.isEmpty))
    (by decide +kernel)
  simp only [Option.any_eq_true, Bool.and_eq_true, List.isEmpty_iff, decide_eq_true_eq] at hpay
  obtain ⟨p, hp, ⟨p₁, _⟩, hfirst, ⟨⟨rfl, hquota⟩, ⟨p₂, effects⟩, hbefore, hcredit⟩, ⟨p₃, _⟩, hafter,
    rfl⟩ := hpay
  exact ⟨ts, d, hrun, p, p₁, hp, hfirst, hquota, ⟨p₂, effects, hbefore, hcredit⟩, p₃, hafter⟩

theorem handlePaymentSubmit_not_credited_offline
    : ∃ d p p' q, p.quota = some q
        ∧
      handlePaymentSubmit Sample.primitives d p Sample.paymentPayload .udp4 Sample.clientAddr
        Sample.offline = some (p', [])
        ∧
      ∃ nonces, p'.quota = some { q with usedNonces := nonces } := by
  obtain ⟨_, d, _, hpay⟩ := Machine.Run.exists_of_exec (machine Sample.primitives)
    Sample.server Sample.setup
    (fun _ d => (d.peerArena.get 0).any fun p => p.quota.isSome
      && (handlePaymentSubmit Sample.primitives d p Sample.paymentPayload .udp4 Sample.clientAddr
        Sample.offline).any fun r => r.2.isEmpty)
    (by decide +kernel)
  simp only [Option.any_eq_true, Bool.and_eq_true, List.isEmpty_iff, Option.isSome_iff_exists]
    at hpay
  obtain ⟨p, _, ⟨q, hq⟩, ⟨p', _⟩, hpay, rfl⟩ := hpay
  refine ⟨d, p, p', q, hq, hpay, ?_⟩
  rcases handlePaymentSubmit_not_credited hq hpay rfl with ⟨hsame, _⟩ | ⟨_, _, _, _, _, hinsert, _⟩
  . exact ⟨_, hsame⟩
  . exact ⟨_, hinsert⟩

/--
The server credits the client twice for one authorization.
-/
theorem exists_authorization_credited_twice
    : ∃ ts d, (machine Sample.primitives).Run Sample.server ts d ∧
        ∃ sender nonce,
          ((Machine.outputs ts).filterMap (·.effect.credited)).countP
            (fun submit => submit.from = sender ∧ submit.nonce = nonce) = 2 := by
  obtain ⟨ts, d, hrun, hcount⟩ := Machine.Run.exists_of_exec (machine Sample.primitives)
    Sample.server Sample.paymentTwice
    (fun ts _ => ((Machine.outputs ts).filterMap (·.effect.credited)).countP
      (fun submit => submit.from = .ofBytes 20 (Sample.key 2).val ∧ submit.nonce = Sample.key 5)
        = 2)
    (by decide +kernel)
  exact ⟨ts, d, hrun, _, _, by simpa using hcount⟩

theorem server_credits_once_paymentTwice
    : ∃ ts d, (machine Sample.primitives).Run Sample.server ts d ∧
        (credits (effectsOf 1 (Machine.outputs ts))).length = 1 ∧
        (credits (effectsOf 1 (Machine.outputs ts))).countP (·.nonce == Sample.key 5) ≤ 1 := by
  obtain ⟨ts, d, hrun, hlength⟩ := Machine.Run.exists_of_exec (machine Sample.primitives)
    Sample.server Sample.paymentTwice
    (fun ts _ => (credits (effectsOf 1 (Machine.outputs ts))).length = 1) (by decide +kernel)
  exact ⟨ts, d, hrun, by simpa using hlength, server_credits_once rfl hrun 1 (Sample.key 5)⟩

end Device
