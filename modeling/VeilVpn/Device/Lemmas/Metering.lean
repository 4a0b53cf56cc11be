import VeilVpn.Ledger
import VeilVpn.Payment.Lemmas.Quota
import VeilVpn.Device.Lemmas.Roles

namespace Device

section

variable {C : Primitives} {d d' : Device} {e : Event} {outputs : List Output}

variable (C) in
def submitted (d : Device) (e : Event) : Option (PeerId × Payment.PaymentSubmit) :=
  match incoming C d e with
  | none => none
  | some i => (submitOf i.result).map fun submit => (i.id, submit)

variable (C) in
/--
The payment is to the server, high enough, signed by its sender and settled.
-/
def paid (d : Device) (env : Env) (submit : Payment.PaymentSubmit) : Bool :=
  match d.paymentWallet with
  | none => false
  | some wallet =>
    submit.to = wallet.ethereumAddress
      && d.paymentConfig.amountPerQuota ≤ submit.value
      && Payment.verifyAuthorization C.payment d.paymentConfig.gatewayDomain submit.signed
        = some submit.from
      && match
          env.settle (Payment.buildSettleRequest d.paymentConfig submit wallet.ethereumAddress)
        with
        | .ok resp => resp.success
        | .error _ => false

theorem paid_of_settled {env : Env} {submit : Payment.PaymentSubmit}
    (haddressed : Addressed d submit) (hsigned : Signed C d submit)
    (hsettled : Settled d env submit)
    : paid C d env submit = true := by
  obtain ⟨wallet, hwallet, hto, hvalue⟩ := haddressed
  obtain ⟨wallet', resp, hwallet', hsettle, hsuccess⟩ := hsettled
  rw [hwallet, Option.some.injEq] at hwallet'
  subst hwallet'
  have hverify : Payment.verifyAuthorization C.payment d.paymentConfig.gatewayDomain submit.signed
      = some submit.from := hsigned
  simp [paid, hwallet, hto, hvalue, hverify, hsettle, hsuccess]

theorem mem_credits {effects : List Effect} {submit : Payment.PaymentSubmit}
    : submit ∈ credits effects ↔ .credit submit ∈ effects := by
  simp only [credits, List.mem_filterMap]
  constructor
  . rintro ⟨f, hf, hcredited⟩
    cases f with
    | credit submit' =>
      simp only [Effect.credited, Option.some.injEq] at hcredited
      rwa [hcredited] at hf
    | _ => simp [Effect.credited] at hcredited
  . intro hmem
    exact ⟨_, hmem, rfl⟩

theorem credits_eq_nil_of_isPlain {effects : List Effect} (h : ∀ f ∈ effects, f.isPlain)
    : credits effects = [] := by
  rw [credits, List.filterMap_eq_nil_iff]
  intro f hf
  have hplain := h f hf
  simp only [Effect.isPlain, Bool.and_eq_true] at hplain
  simpa using hplain.1

theorem SignalCase.submitOf_of_credit {p p' : Peer} {result : Noise.TunnResult} {sock : Socket}
    {env : Env} {effects : List Effect} {submit : Payment.PaymentSubmit}
    (h : SignalCase C d p result sock env p' effects) (hmem : submit ∈ credits effects)
    : submitOf result = some submit ∧ Addressed d submit ∧ Signed C d submit
        ∧ (d.settlementClient = false ∨ Settled d env submit) := by
  cases h with
  | plain _ _ heffects => simp [credits_eq_nil_of_isPlain heffects] at hmem
  | submit _ _ payload addr _ hsubmit _ hhandle =>
    cases handlePaymentSubmit_cases hhandle with
    | unchanged _ _ heffects => simp [heffects, credits] at hmem
    | rejected _ _ _ _ _ heffects => simp [heffects, credits] at hmem
    | accepted submit' _ hdecode haddressed _ hsigned hsettled _ heffects =>
      have hcredits : credits effects = [submit'] := by
        rcases heffects with rfl | ⟨_, _, _, _, _, rfl, _⟩ <;> rfl
      rw [hcredits, List.mem_singleton] at hmem
      subst hmem
      rw [hsubmit]
      exact ⟨hdecode, haddressed, hsigned, hsettled⟩
  | request _ _ payload addr _ _ _ hhandle =>
    obtain ⟨_, heffects⟩ := handlePaymentSignalClient_eq_some hhandle
    have hcredits : credits effects = [] := by
      rcases heffects with rfl | ⟨_, rfl⟩ | ⟨_, _, _, _, rfl⟩ <;> rfl
    simp [hcredits] at hmem

theorem IsServer.paid_of_credit (hd : IsServer d) (h : (machine C).step d e = some (d', outputs))
    {id : PeerId} {submit : Payment.PaymentSubmit}
    (hmem : submit ∈ credits (effectsOf id outputs))
    : ∃ env, e.env = some env ∧ submitted C d e = some (id, submit) ∧ paid C d env submit = true
    := by
  cases step_cases h with
  | quiet _ _ _ _ houtputs =>
    rw [mem_credits, mem_effectsOf] at hmem
    rcases houtputs _ hmem with hsend | ⟨hauto, _⟩
    . simp [Effect.isSend] at hsend
    . simp at hauto
  | inbound i p p' sock dest addr afterErr flow env effects flushed hincoming henv _ hget _ hresult
      _ _ hflushed houtputs =>
    rw [houtputs, effectsOf_outputsFor] at hmem
    split at hmem
    . next hid =>
      subst hid
      rw [credits_append, (uncharged_of_isSend hflushed).credits, List.append_nil] at hmem
      obtain ⟨hsubmit, haddressed, hsigned, hsettled⟩ :=
        (signalCase_of_handleResult hresult).submitOf_of_credit hmem
      refine ⟨env, henv, ?_, ?_⟩
      . simp [submitted, hincoming, hsubmit]
      . apply paid_of_settled haddressed hsigned
        rcases hsettled with hclient | hsettled
        . obtain ⟨wallet, hwallet, _⟩ := haddressed
          rw [hd.settlementClient (by simp [hwallet])] at hclient
          simp at hclient
        . exact hsettled
    . simp [credits] at hmem
  | outbound _ _ _ _ _ effects _ _ _ hresult _ _ houtputs =>
    rw [houtputs, effectsOf_outputsFor] at hmem
    split at hmem
    . simp [credits_eq_nil_of_isPlain (outbound_isPlain hresult)] at hmem
    . simp [credits] at hmem

theorem QuotaStep.usedNonces_subset {quotaBytes : UInt64} {q q' : Payment.BandwidthQuota}
    {effects : List Effect} (h : QuotaStep quotaBytes q effects q')
    : q.usedNonces ⊆ q'.usedNonces := by
  cases h with
  | idle => rfl
  | forward _ _ _ hconsume => rw [Payment.BandwidthQuota.usedNonces_consume hconsume]
  | exhaust _ _ _ hconsume => rw [Payment.BandwidthQuota.usedNonces_consume hconsume]
  | reject nonce => exact Finset.subset_insert nonce q.usedNonces
  | credit submit => exact Finset.subset_insert submit.nonce q.usedNonces

/--
The ledger that a server keeps for a peer.
-/
structure Follows (paymentConfig : Payment.PaymentConfig) (id : PeerId) (d : Device)
    (l : Ledger (FixedBytes 32)) : Prop where
  isServer : IsServer d
  config : d.paymentConfig = paymentConfig
  balance : (d.quotaOf id).remainingBytes.toNat + l.spent ≤ l.granted
  redeemed : l.redeemed ⊆ (d.quotaOf id).usedNonces

structure Books (quotaBytes : UInt64) (id : PeerId) (t : Transition Device Event Output)
    (u : Transition (Ledger (FixedBytes 32)) (Ledger.Action (FixedBytes 32)) Unit) : Prop where
  spent : forwardedBytes (effectsOf id t.outputs) = u.event.spent
  voucher : (credits (effectsOf id t.outputs)).map (·.nonce) = u.event.voucher.toList
  granted : u.event.granted = quotaBytes.toNat * (credits (effectsOf id t.outputs)).length

variable {paymentConfig : Payment.PaymentConfig} {id : PeerId}

theorem Follows.step {l : Ledger (FixedBytes 32)} (hl : Follows paymentConfig id d l)
    (h : (machine C).step d e = some (d', outputs))
    : ∃ a os l',
        (Ledger.machine (FixedBytes 32)).step l a = some (l', os)
          ∧
        Follows paymentConfig id d' l'
          ∧
        Books paymentConfig.quotaBytes id ⟨d, e, outputs, d'⟩ ⟨l, a, os, l'⟩ := by
  have hd' := hl.isServer.step h
  have hconfig : d'.paymentConfig = paymentConfig := by
    rw [paymentConfig_of_step h, hl.config]
  have hbalance := hl.balance
  have hredeemed := hl.redeemed
  have hstep := hl.isServer.quotaStep h id
  rw [hl.config] at hstep
  have hnonces := hstep.usedNonces_subset
  -- The balance may only shrink as long as nothing is spent or redeemed
  have hidle : (d'.quotaOf id).remainingBytes.toNat ≤ (d.quotaOf id).remainingBytes.toNat →
      Follows paymentConfig id d' l := by
    intro hremaining
    refine ⟨hd', hconfig, ?_, hredeemed.trans hnonces⟩
    omega
  generalize hafter : d'.quotaOf id = q' at *
  cases hstep with
  | idle heffects =>
    refine ⟨.idle, [], l, rfl, hidle (Nat.le_refl _), ?_⟩
    obtain ⟨hforwarded, _, hcredits⟩ := heffects
    exact ⟨hforwarded, by rw [hcredits]; rfl, by rw [hcredits]; rfl⟩
  | forward bytes q' _ hconsume hforwarded _ hcredits =>
    have hremaining := Payment.BandwidthQuota.toNat_remainingBytes_consume hconsume
    have hspend : l.spent + bytes.toNat ≤ l.granted := by omega
    refine ⟨.spend bytes.toNat, [], _, by simp only [Ledger.machine, Ledger.step, hspend]; rfl,
      ⟨hd', hconfig, ?_, ?_⟩, ?_⟩
    . rw [hafter]
      dsimp only
      omega
    . rw [hafter]
      exact hredeemed.trans hnonces
    . exact ⟨hforwarded, by rw [hcredits]; rfl, by rw [hcredits]; rfl⟩
  | exhaust bytes q' _ hconsume hforwarded _ hcredits =>
    refine ⟨.idle, [], l, rfl, hidle ?_, ?_⟩
    . exact Payment.BandwidthQuota.toNat_remainingBytes_consume_le hconsume
    . exact ⟨hforwarded, by rw [hcredits]; rfl, by rw [hcredits]; rfl⟩
  | reject nonce _ heffects =>
    refine ⟨.idle, [], l, rfl, hidle (Nat.le_refl _), ?_⟩
    obtain ⟨hforwarded, _, hcredits⟩ := heffects
    exact ⟨hforwarded, by rw [hcredits]; rfl, by rw [hcredits]; rfl⟩
  | credit submit hfresh hforwarded _ hcredits =>
    have hnot : submit.nonce ∉ l.redeemed := fun hmem => hfresh (hredeemed hmem)
    refine ⟨.redeem submit.nonce paymentConfig.quotaBytes.toNat, [], _,
      by simp only [Ledger.machine, Ledger.step, hnot]; rfl, ⟨hd', hconfig, ?_, ?_⟩, ?_⟩
    . rw [hafter]
      have hcredit := Payment.BandwidthQuota.toNat_remainingBytes_credit_le
        ((d.quotaOf id).checkAndRecordNonce submit.nonce).1 paymentConfig.quotaBytes
      have hsame : ((d.quotaOf id).checkAndRecordNonce submit.nonce).1.remainingBytes
          = (d.quotaOf id).remainingBytes := rfl
      rw [hsame] at hcredit
      dsimp only
      omega
    . rw [hafter]
      exact Finset.insert_subset_insert _ hredeemed
    . exact ⟨hforwarded, by rw [hcredits]; rfl, by rw [hcredits]; simp [Ledger.Action.granted]⟩

variable {nextIndex : IndexLfsr} {config : DeviceConfig}
  {ts : List (Transition Device Event Output)}

theorem quotaOf_new (nextIndex : IndexLfsr) (config : DeviceConfig)
    (paymentConfig : Payment.PaymentConfig) (id : PeerId)
    : (new nextIndex config paymentConfig).quotaOf id = .new Payment.defaultQuotaBytes := by
  simp [quotaOf, accountOf, new, Arena.get_empty]

/--
Every run of a server is a run of the ledger of each of its peers.
-/
theorem exists_ledger_of_run (hserver : paymentConfig.isServer = true)
    (hrun : (machine C).Run (new nextIndex config paymentConfig) ts d) (id : PeerId)
    : ∃ us l,
        (Ledger.machine (FixedBytes 32)).Run (.new Payment.defaultQuotaBytes.toNat) us l
          ∧
        Follows paymentConfig id d l
          ∧
        List.Forall₂ (Books paymentConfig.quotaBytes id) ts us := by
  apply hrun.simulate (Follows paymentConfig id) (Books paymentConfig.quotaBytes id)
  . refine ⟨isServer_new nextIndex config hserver, rfl, ?_, ?_⟩
    . rw [quotaOf_new]
      apply Nat.le_refl
    . apply Finset.empty_subset
  . intro d e d' outputs l hl h
    exact hl.step h

theorem totals_of_books {quotaBytes : UInt64}
    {us : List (Transition (Ledger (FixedBytes 32)) (Ledger.Action (FixedBytes 32)) Unit)}
    (h : List.Forall₂ (Books quotaBytes id) ts us)
    : forwardedBytes (effectsOf id (Machine.outputs ts)) = Ledger.spentIn us
        ∧
      (credits (effectsOf id (Machine.outputs ts))).map (·.nonce) = Ledger.vouchersIn us
        ∧
      Ledger.grantedIn us
        = quotaBytes.toNat * (credits (effectsOf id (Machine.outputs ts))).length := by
  induction h with
  | nil => exact ⟨rfl, rfl, rfl⟩
  | @cons t u ts us hbooks _ ih =>
    obtain ⟨hspent, hvoucher, hgranted⟩ := hbooks
    obtain ⟨ihspent, ihvoucher, ihgranted⟩ := ih
    have houtputs : Machine.outputs (t :: ts) = t.outputs ++ Machine.outputs ts := rfl
    have hvouchers : Ledger.vouchersIn (u :: us)
        = u.event.voucher.toList ++ Ledger.vouchersIn us := by
      simp only [Ledger.vouchersIn, List.filterMap_cons]
      cases u.event.voucher <;> rfl
    rw [houtputs, effectsOf_append, forwardedBytes_append, credits_append, List.map_append,
      hvouchers, hspent, hvoucher, ihspent, ihvoucher, List.length_append, Nat.mul_add, ← hgranted,
      ← ihgranted]
    exact ⟨rfl, rfl, rfl⟩

variable (C) in
def paidNonce (id : PeerId) (t : Transition Device Event Output) : Option (FixedBytes 32) :=
  match submitted C t.before t.event, t.event.env with
  | some (id', submit), some env =>
    if id' = id ∧ paid C t.before env submit then some submit.nonce else none
  | _, _ => none

variable (C) in
def paidNonces (id : PeerId) (ts : List (Transition Device Event Output))
    : Finset (FixedBytes 32) :=
  (ts.filterMap (paidNonce C id)).toFinset

theorem nonce_mem_paidNonces (hserver : paymentConfig.isServer = true)
    (hrun : (machine C).Run (new nextIndex config paymentConfig) ts d)
    {submit : Payment.PaymentSubmit}
    (hmem : submit ∈ credits (effectsOf id (Machine.outputs ts)))
    : submit.nonce ∈ paidNonces C id ts := by
  rw [mem_credits, mem_effectsOf, Machine.outputs, List.mem_flatMap] at hmem
  obtain ⟨t, ht, hmem⟩ := hmem
  rw [← mem_effectsOf, ← mem_credits] at hmem
  obtain ⟨env, henv, hsubmitted, hpaid⟩ :=
    (isServer_before_of_run hserver hrun ht).paid_of_credit (hrun.step_of_mem ht) hmem
  rw [paidNonces, List.mem_toFinset, List.mem_filterMap]
  exact ⟨t, ht, by simp [paidNonce, hsubmitted, henv, hpaid]⟩

theorem nodup_credits (hserver : paymentConfig.isServer = true)
    (hrun : (machine C).Run (new nextIndex config paymentConfig) ts d) (id : PeerId)
    : ((credits (effectsOf id (Machine.outputs ts))).map (·.nonce)).Nodup := by
  obtain ⟨us, l, hledger, _, hbooks⟩ := exists_ledger_of_run hserver hrun id
  rw [(totals_of_books hbooks).2.1]
  exact (Ledger.nodup_vouchers_of_run hledger).1

theorem length_credits_le (hserver : paymentConfig.isServer = true)
    (hrun : (machine C).Run (new nextIndex config paymentConfig) ts d) (id : PeerId)
    : (credits (effectsOf id (Machine.outputs ts))).length ≤ (paidNonces C id ts).card := by
  have hnodup := nodup_credits hserver hrun id
  rw [← List.length_map (·.nonce), ← List.toFinset_card_of_nodup hnodup]
  apply Finset.card_le_card
  intro nonce hmem
  rw [List.mem_toFinset, List.mem_map] at hmem
  obtain ⟨submit, hsubmit, rfl⟩ := hmem
  exact nonce_mem_paidNonces hserver hrun hsubmit

theorem forwardedBytes_le (hserver : paymentConfig.isServer = true)
    (hrun : (machine C).Run (new nextIndex config paymentConfig) ts d) (id : PeerId)
    : forwardedBytes (effectsOf id (Machine.outputs ts))
        ≤ Payment.defaultQuotaBytes.toNat
          + paymentConfig.quotaBytes.toNat * (paidNonces C id ts).card := by
  obtain ⟨us, l, hledger, _, hbooks⟩ := exists_ledger_of_run hserver hrun id
  obtain ⟨hspent, _, hgranted⟩ := totals_of_books hbooks
  obtain ⟨htotalSpent, htotalGranted⟩ := Ledger.totals_of_run hledger
  have hcredits := Nat.mul_le_mul_left paymentConfig.quotaBytes.toNat
    (length_credits_le hserver hrun id)
  have hle := l.spent_le
  simp only [Ledger.new] at htotalSpent htotalGranted
  omega

theorem remaining_add_total_eq (hserver : paymentConfig.isServer = true)
    (hrun : (machine C).Run (new nextIndex config paymentConfig) ts d) (id : PeerId)
    (hlt : Payment.defaultQuotaBytes.toNat + paymentConfig.quotaBytes.toNat
      * (credits (effectsOf id (Machine.outputs ts))).length < 2 ^ 64)
    : (d.quotaOf id).remainingBytes.toNat + (d.quotaOf id).totalConsumed.toNat
        =
      Payment.defaultQuotaBytes.toNat + paymentConfig.quotaBytes.toNat
        * (credits (effectsOf id (Machine.outputs ts))).length := by
  induction hrun with
  | nil =>
    rw [quotaOf_new]
    rfl
  | @snoc ts d d' e outputs hrun h ih =>
    have hd := isServer_of_run hserver hrun
    have hstep := hd.quotaStep h id
    rw [paymentConfig_of_run hrun] at hstep
    simp only [Machine.outputs_append, Machine.outputs_singleton, effectsOf_append, credits_append,
      List.length_append, Nat.mul_add] at hlt ⊢
    specialize ih (by omega)
    generalize hafter : d'.quotaOf id = q' at *
    cases hstep with
    | idle heffects =>
      rw [heffects.credits]
      simpa using ih
    | forward bytes q' _ hconsume _ _ hcredits =>
      rw [hcredits, Payment.BandwidthQuota.remaining_add_total_consume hconsume]
      . simpa using ih
      . omega
    | exhaust bytes q' _ hconsume _ _ hcredits =>
      rw [hcredits, Payment.BandwidthQuota.remaining_add_total_consume hconsume]
      . simpa using ih
      . omega
    | reject nonce _ heffects =>
      rw [heffects.credits]
      simpa [Payment.BandwidthQuota.checkAndRecordNonce] using ih
    | credit submit _ _ _ hcredits =>
      rw [hcredits] at hlt ⊢
      rw [Payment.BandwidthQuota.remaining_add_total_credit]
      . simp only [Payment.BandwidthQuota.checkAndRecordNonce, List.length_singleton, Nat.mul_one]
        omega
      . simp only [Payment.BandwidthQuota.checkAndRecordNonce]
        simp only [List.length_singleton, Nat.mul_one] at hlt
        omega

theorem remainingBytes_eq_zero_of_blocked (hserver : paymentConfig.isServer = true)
    (hrun : (machine C).Run (new nextIndex config paymentConfig) ts d) (id : PeerId)
    (hblocked : (d.quotaOf id).blocked = true)
    : (d.quotaOf id).remainingBytes = 0 := by
  induction hrun with
  | nil =>
    rw [quotaOf_new] at hblocked
    simp [Payment.BandwidthQuota.new] at hblocked
  | @snoc ts d d' e outputs hrun h ih =>
    have hstep := (isServer_of_run hserver hrun).quotaStep h id
    generalize hafter : d'.quotaOf id = q' at *
    cases hstep with
    | idle => exact ih hblocked
    | forward bytes q' hnot hconsume =>
      obtain ⟨_, _, rfl⟩ := Payment.BandwidthQuota.consume_eq_true hconsume
      simp only [Payment.BandwidthQuota.isBlocked] at hnot
      simp [hnot] at hblocked
    | exhaust bytes q' hnot hconsume =>
      rcases Payment.BandwidthQuota.consume_eq_false hconsume with ⟨hzero, rfl⟩ | ⟨_, _, rfl⟩
      . exact hzero
      . rfl
    | reject nonce => exact ih hblocked
    | credit submit => simp [Payment.BandwidthQuota.credit] at hblocked

/--
Metering. In every run of a server, the bytes that are forwarded for a peer in both directions do
not exceed the default quota plus one quota for each nonce that the peer has paid for. The counters
of the peer account for exactly what was granted to it, as long as that fits into 64 bits, and a
blocked peer has nothing left.
-/
theorem server_metering (hserver : paymentConfig.isServer = true)
    (hrun : (machine C).Run (new nextIndex config paymentConfig) ts d) (id : PeerId)
    : forwardedBytes (effectsOf id (Machine.outputs ts))
        ≤ Payment.defaultQuotaBytes.toNat
          + paymentConfig.quotaBytes.toNat * (paidNonces C id ts).card
        ∧
      ∀ p, d.peerArena.get id = some p → ∃ q, p.quota = some q ∧
        (q.blocked = true → q.remainingBytes = 0)
          ∧
        (Payment.defaultQuotaBytes.toNat + paymentConfig.quotaBytes.toNat
            * (credits (effectsOf id (Machine.outputs ts))).length < 2 ^ 64
          →
        q.remainingBytes.toNat + q.totalConsumed.toNat
          =
        Payment.defaultQuotaBytes.toNat + paymentConfig.quotaBytes.toNat
          * (credits (effectsOf id (Machine.outputs ts))).length) := by
  constructor
  . exact forwardedBytes_le hserver hrun id
  . intro p hp
    refine ⟨d.quotaOf id, (isServer_of_run hserver hrun).accountOf_eq hp, ?_, ?_⟩
    . exact remainingBytes_eq_zero_of_blocked hserver hrun id
    . exact remaining_add_total_eq hserver hrun id

end

namespace Sample

def dataPacket : Bytes :=
  Payment.signalPacket clientIp (.new 8 8 8 8) []

theorem length_dataPacket_le : dataPacket.length ≤ 65503 := by
  decide +kernel

def paymentPacket (nonce : FixedBytes 32) : Bytes :=
  Payment.signalPacket clientIp Payment.paymentGatewayIp <|
    Payment.PaymentSubmit.encode {
      «from» := .ofBytes 20 (key 2).val
      «to» := .ofBytes 20 (key 1).val
      value := 10000
      validAfter := 0
      validBefore := 345600
      nonce := nonce
      v := 27
      r := key 2
      s := .zero 32
    }

theorem length_paymentPacket_le (nonce : FixedBytes 32)
    : (paymentPacket nonce).length ≤ 65503 := by
  simp [paymentPacket, Payment.signalPacket, Payment.ipHeaderStart, Payment.PaymentSubmit.encode,
    Payment.encodeTlv]

theorem length_paymentPacket_five_le : (paymentPacket (key 5)).length ≤ 65503 :=
  length_paymentPacket_le _

def dataAndPayment : List Event :=
  setup ++ [
    sendPacket 0 dataPacket length_dataPacket_le,
    sendPacket 1 (paymentPacket (key 5)) length_paymentPacket_five_le
  ]

end Sample

theorem server_metering_dataAndPayment
    : ∃ ts d, (machine Sample.primitives).Run Sample.server ts d
        ∧
      (forwardedBytes (effectsOf 0 (Machine.outputs ts)) = 28
        ∧ (credits (effectsOf 0 (Machine.outputs ts))).length = 1)
        ∧
      forwardedBytes (effectsOf 0 (Machine.outputs ts))
        ≤ Payment.defaultQuotaBytes.toNat + Sample.serverConfig.quotaBytes.toNat
          * (paidNonces Sample.primitives 0 ts).card := by
  obtain ⟨ts, d, hrun, htotals⟩ := Machine.Run.exists_of_exec (machine Sample.primitives)
    Sample.server Sample.dataAndPayment
    (fun ts _ => forwardedBytes (effectsOf 0 (Machine.outputs ts)) = 28
      ∧ (credits (effectsOf 0 (Machine.outputs ts))).length = 1) (by decide +kernel)
  exact ⟨ts, d, hrun, by simpa using htotals, (server_metering rfl hrun 0).1⟩

end Device
