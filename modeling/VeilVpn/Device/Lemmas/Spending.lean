import Mathlib.Algebra.BigOperators.Group.List.Basic
import VeilVpn.Device.Lemmas.Roles

namespace Device

def Effect.signed : Effect → Option Payment.TransferAuthorization
  | .sign auth => some auth
  | _ => none

def signed (outputs : List Output) : List Payment.TransferAuthorization :=
  outputs.filterMap fun o => o.effect.signed

theorem signed_outputsFor (id : PeerId) (effects : List Effect)
    : signed (outputsFor id effects) = effects.filterMap Effect.signed := by
  simp [signed, outputsFor, List.filterMap_map]

theorem filterMap_signed_of_isPlain {effects : List Effect} (h : ∀ f ∈ effects, f.isPlain)
    : effects.filterMap Effect.signed = [] := by
  rw [List.filterMap_eq_nil_iff]
  intro f hf
  have := h f hf
  cases f <;> simp [Effect.isPlain, Effect.usesWallet, Effect.signed] at this ⊢

variable (C : Primitives)

def requested (d : Device) (e : Event) : Option Payment.PaymentRequired :=
  (incoming C d e).bind fun i => requestOf i.result

/--
The terms on which a node with the given configuration would agree to pay.
-/
structure Terms (config : Payment.PaymentConfig) (e : Event) (req : Payment.PaymentRequired) : Prop
    where
  chainId : req.chainId = config.chainId
  usdcContract : req.usdcContract = config.usdcContract
  amountUsdc : req.amountUsdc ≤ config.amountPerQuota
  deadline : ∀ env, e.env = some env → env.systemTime.asSecs ≤ req.deadline.toNat

structure Answers (auth : Payment.TransferAuthorization) (req : Payment.PaymentRequired) : Prop where
  value : auth.value = req.amountUsdc
  recipient : auth.to = req.recipient
  nonce : auth.nonce = req.nonce

inductive SpendCase (d : Device) (e : Event) (outputs : List Output) : Prop where
  | silent (hreason : requested C d e = none ∨ d.paymentWallet = none) (hsigned : signed outputs = [])
  | signs (req : Payment.PaymentRequired) (auth : Payment.TransferAuthorization)
    (hrequest : requested C d e = some req) (hwallet : d.paymentWallet.isSome)
    (hsigned : signed outputs = [auth]) (hanswers : Answers auth req)

variable {C} {d d' : Device} {e : Event} {outputs : List Output}

theorem SubmitCase.filterMap_signed {p p' : Peer} {payload : Bytes} {env : Env}
    {effects : List Effect} (h : SubmitCase C d p payload env p' effects)
    : effects.filterMap Effect.signed = [] := by
  cases h with
  | unchanged _ _ heffects => simp [heffects]
  | rejected _ _ _ _ _ heffects => simp [heffects]
  | accepted _ _ _ _ _ _ _ _ heffects =>
    rcases heffects with rfl | ⟨_, _, _, _, _, rfl, _⟩ <;> rfl

theorem spendCase_of_clientCase {p p' : Peer} {payload : Bytes} {sock : Socket} {addr : SocketAddr}
    {env : Env} {effects : List Effect} (h : ClientCase C d p payload sock addr env p' effects)
    (hrequest : requested C d e = Payment.PaymentRequired.decode payload)
    (hsigned : signed outputs = effects.filterMap Effect.signed)
    : SpendCase C d e outputs := by
  cases h with
  | silent hreason _ heffects =>
    refine .silent ?_ (by rw [hsigned, heffects]; rfl)
    rw [hrequest]
    exact hreason.symm
  | signed wallet req auth sends hwallet hdecode hauth heffects hsends =>
    have hsends : sends.filterMap Effect.signed = [] := by
      rcases hsends with ⟨_, _, rfl⟩ | ⟨_, _, _, hsend⟩
      . rfl
      . obtain ⟨_, _, _, rfl, _⟩ := sendSignal_eq_some hsend
        rfl
    refine .signs req auth (hrequest.trans hdecode) (by simp [hwallet]) ?_ ?_
    . rw [hsigned, heffects]
      simp [Effect.signed, hsends]
    . rw [hauth]
      exact ⟨rfl, rfl, rfl⟩

theorem spendCase_of_step (h : (machine C).step d e = some (d', outputs))
    : SpendCase C d e outputs := by
  cases step_cases h with
  | quiet hincoming _ _ _ houtputs =>
    refine .silent (.inl (by simp [requested, hincoming])) ?_
    rw [signed, List.filterMap_eq_nil_iff]
    intro o ho
    rcases houtputs o ho with hsend | ⟨rfl, _⟩
    . cases hf : o.effect <;> simp [hf, Effect.isSend, Effect.signed] at hsend ⊢
    . rfl
  | inbound i _ _ _ _ _ _ _ _ effects flushed hincoming _ _ _ _ hresult _ _ hflushed houtputs =>
    have hrequest : requested C d e = requestOf i.result := by
      rw [requested, hincoming, Option.bind_some]
    have hsigned : signed outputs = effects.filterMap Effect.signed := by
      rw [houtputs, signed_outputsFor, List.filterMap_append,
        filterMap_signed_of_isPlain fun f hf => isPlain_of_isSend (hflushed f hf), List.append_nil]
    cases signalCase_of_handleResult hresult with
    | plain _ hnone heffects =>
      exact .silent (.inl (hrequest.trans hnone)) (hsigned.trans (filterMap_signed_of_isPlain heffects))
    | submit _ _ _ _ _ _ hnone hhandle =>
      exact .silent (.inl (hrequest.trans hnone))
        (hsigned.trans (handlePaymentSubmit_cases hhandle).filterMap_signed)
    | request _ _ _ _ _ _ hdecode hhandle =>
      exact spendCase_of_clientCase (handlePaymentSignalClient_cases hhandle) (hrequest.trans hdecode)
        hsigned
  | outbound id _ _ src env effects hevent _ _ hresult _ _ houtputs =>
    refine .silent (.inl ?_) ?_
    . rw [hevent]
      rfl
    . rw [houtputs, signed_outputsFor]
      exact filterMap_signed_of_isPlain (outbound_isPlain hresult)

theorem SpendCase.terms_iff {config : Payment.PaymentConfig} (h : SpendCase C d e outputs)
    : (∀ auth ∈ signed outputs, ∃ req,
        requested C d e = some req ∧ Answers auth req ∧ Terms config e req)
        ↔
      ∀ req, requested C d e = some req → d.paymentWallet.isSome → Terms config e req := by
  cases h with
  | silent hreason hsigned =>
    rw [hsigned]
    refine iff_of_true (by simp) ?_
    intro req hrequest hwallet
    rcases hreason with hnone | hnone
    . simp [hrequest] at hnone
    . simp [hnone] at hwallet
  | signs req auth hrequest hwallet hsigned hanswers =>
    rw [hsigned, hrequest]
    simp [hwallet, hanswers]

theorem SpendCase.value_le {config : Payment.PaymentConfig} (h : SpendCase C d e outputs)
    (hterms : ∀ req, requested C d e = some req → d.paymentWallet.isSome → Terms config e req)
    : ((signed outputs).map (·.value.toNat)).sum
        ≤
      config.amountPerQuota.toNat * (requested C d e).toList.length := by
  cases h with
  | silent _ hsigned => simp [hsigned]
  | signs req auth hrequest hwallet hsigned hanswers =>
    have hamount := (hterms req hrequest hwallet).amountUsdc
    rw [← hanswers.value, UInt64.le_iff_toNat_le] at hamount
    simpa [hsigned, hrequest] using hamount

def totalSigned (ts : List (Transition Device Event Output)) : Nat :=
  (ts.map fun t => ((signed t.outputs).map (·.value.toNat)).sum).sum

variable (C) in
def received (ts : List (Transition Device Event Output)) : List Payment.PaymentRequired :=
  ts.flatMap fun t => (requested C t.before t.event).toList

theorem totalSigned_le {config : Payment.PaymentConfig} {start : Device}
    {ts : List (Transition Device Event Output)} (hrun : (machine C).Run start ts d)
    (hterms : ∀ t ∈ ts, ∀ req, requested C t.before t.event = some req →
      t.before.paymentWallet.isSome → Terms config t.event req)
    : totalSigned ts ≤ config.amountPerQuota.toNat * (received C ts).length := by
  induction hrun with
  | nil => simp [totalSigned, received]
  | @snoc us d d' e os _ hstep ih =>
    have hlast := (spendCase_of_step hstep).value_le
      (hterms _ (List.mem_append_right _ List.mem_cons_self))
    have hsofar := ih fun t ht => hterms t (List.mem_append_left _ ht)
    simp only [totalSigned, received, List.map_append, List.sum_append, List.flatMap_append,
      List.length_append, List.map_cons, List.map_nil, List.sum_cons, List.sum_nil,
      List.flatMap_cons, List.flatMap_nil, List.append_nil, Nat.add_zero, Nat.mul_add] at hsofar ⊢
    exact Nat.add_le_add hsofar hlast

/--
Every authorization that a node signs is on its own terms exactly if all requests that reach it are
within them, and then the number of requests bounds what it spends.
-/
theorem spending_on_terms_iff {nextIndex : IndexLfsr} {config : DeviceConfig}
    {paymentConfig : Payment.PaymentConfig} {ts : List (Transition Device Event Output)}
    (hrun : (machine C).Run (new nextIndex config paymentConfig) ts d)
    : ((∀ t ∈ ts, ∀ auth ∈ signed t.outputs, ∃ req,
        requested C t.before t.event = some req
          ∧ Answers auth req ∧ Terms t.before.paymentConfig t.event req)
        ↔
      ∀ t ∈ ts, ∀ req, requested C t.before t.event = some req →
        t.before.paymentWallet.isSome → Terms paymentConfig t.event req)
        ∧
      ((∀ t ∈ ts, ∀ req, requested C t.before t.event = some req →
        t.before.paymentWallet.isSome → Terms paymentConfig t.event req) →
          totalSigned ts ≤ paymentConfig.amountPerQuota.toNat * (received C ts).length) := by
  refine ⟨?_, totalSigned_le hrun⟩
  refine forall₂_congr ?_
  intro t ht
  obtain ⟨⟨us, _, hbefore⟩, hstep⟩ := hrun.exists_run_before t ht
  rw [paymentConfig_of_run hbefore]
  exact (spendCase_of_step hstep).terms_iff

namespace Sample

def clientConfig : Payment.PaymentConfig :=
  { serverConfig with isServer := false }

/--
A node that is not a server. To try it out, its peer is set up like the client of the server.
-/
def client : Device :=
  new { initial := 1, lfsr := 1, mask := 1 } { useConnectedSocket := false } clientConfig

def fairRequest : Bytes :=
  Payment.signalPacket Payment.paymentGatewayIp (.new 10 0 0 1) <|
    Payment.PaymentRequired.encode {
      amountUsdc := 10000
      nonce := key 4
      recipient := .ofBytes 20 (key 2).val
      deadline := 300
      chainId := 5042002
      usdcContract := .zero 20
    }

def isFair (t : Transition Device Event Output) : Bool :=
  match requested primitives t.before t.event with
  | some req =>
    decide (req.chainId = clientConfig.chainId ∧ req.usdcContract = clientConfig.usdcContract
      ∧ req.amountUsdc ≤ clientConfig.amountPerQuota)
      && t.event.env.all fun env => env.systemTime.asSecs ≤ req.deadline.toNat
  | none => true

theorem terms_of_isFair {t : Transition Device Event Output} (h : isFair t = true)
    {req : Payment.PaymentRequired} (hrequest : requested primitives t.before t.event = some req)
    : Terms clientConfig t.event req := by
  simp only [isFair, hrequest, Bool.and_eq_true, decide_eq_true_eq] at h
  refine ⟨h.1.1, h.1.2.1, h.1.2.2, ?_⟩
  intro env henv
  simpa [henv] using h.2

end Sample

/--
A node that is not a server signs a payment of 1 USDC, a hundred times what it is configured to pay for
a quota, on a request whose deadline has passed.
-/
theorem exists_overspends
    : ∃ ts d, (machine Sample.primitives).Run Sample.client ts d
        ∧
      (∃ t ∈ ts, ∃ auth ∈ signed t.outputs, ∀ req,
        requested Sample.primitives t.before t.event = some req →
        ¬Terms t.before.paymentConfig t.event req)
        ∧
      Sample.clientConfig.amountPerQuota.toNat * (received Sample.primitives ts).length
        < totalSigned ts := by
  obtain ⟨ts, d, hrun, h⟩ := Machine.Run.exists_of_exec (machine Sample.primitives) Sample.client
    Sample.forgery
    (fun ts _ => (ts.any fun t => !(signed t.outputs).isEmpty
        && (requested Sample.primitives t.before t.event).all fun req =>
          t.before.paymentConfig.amountPerQuota < req.amountUsdc)
      && Sample.clientConfig.amountPerQuota.toNat * (received Sample.primitives ts).length
        < totalSigned ts)
    (by decide +kernel)
  simp only [Bool.and_eq_true, List.any_eq_true, decide_eq_true_eq] at h
  obtain ⟨⟨t, ht, hsigned, hamount⟩, htotal⟩ := h
  refine ⟨ts, d, hrun, ⟨t, ht, ?_⟩, htotal⟩
  obtain ⟨auth, hauth⟩ := List.exists_mem_of_ne_nil _ (by simpa using hsigned)
  refine ⟨auth, hauth, ?_⟩
  intro req hrequest hterms
  rw [hrequest, Option.all_some, decide_eq_true_eq] at hamount
  exact absurd hterms.amountUsdc (UInt64.not_le.mpr hamount)

theorem spending_on_terms_fairRequest
    : ∃ ts d, (machine Sample.primitives).Run Sample.client ts d
        ∧
      (received Sample.primitives ts).length = 1
        ∧
      totalSigned ts = 10000
        ∧
      totalSigned ts
        ≤ Sample.clientConfig.amountPerQuota.toNat * (received Sample.primitives ts).length := by
  obtain ⟨ts, d, hrun, h⟩ := Machine.Run.exists_of_exec (machine Sample.primitives) Sample.client
    (Sample.setup ++ [Sample.sendPacket 0 Sample.fairRequest (by decide +kernel)])
    (fun ts _ => ts.all Sample.isFair && (received Sample.primitives ts).length = 1
      && totalSigned ts = 10000)
    (by decide +kernel)
  simp only [Bool.and_eq_true, List.all_eq_true, decide_eq_true_eq] at h
  obtain ⟨⟨hfair, hreceived⟩, htotal⟩ := h
  refine ⟨ts, d, hrun, hreceived, htotal, (spending_on_terms_iff hrun).2 ?_⟩
  intro t ht req hrequest _
  exact Sample.terms_of_isFair (hfair t ht) hrequest

end Device
