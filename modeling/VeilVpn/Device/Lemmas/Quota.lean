import VeilVpn.Device.Lemmas.Handlers
import VeilVpn.Device.Lemmas.Payment

namespace Device

/--
The number of bytes that are forwarded for a peer, in either direction.
-/
def Effect.forwarded : Effect → Nat
  | .writeTun packet => packet.length
  | .encapsulateTun packet => packet.length
  | _ => 0

def Effect.isRequest : Effect → Bool
  | .signal (.paymentRequired _) _ _ _ _ => true
  | _ => false

def Effect.credited : Effect → Option Payment.PaymentSubmit
  | .credit submit => some submit
  | _ => none

def forwardedBytes (effects : List Effect) : Nat :=
  (effects.map Effect.forwarded).sum

def requestCount (effects : List Effect) : Nat :=
  effects.countP Effect.isRequest

def credits (effects : List Effect) : List Payment.PaymentSubmit :=
  effects.filterMap Effect.credited

@[simp]
theorem forwardedBytes_append (xs ys : List Effect)
    : forwardedBytes (xs ++ ys) = forwardedBytes xs + forwardedBytes ys := by
  simp [forwardedBytes]

@[simp]
theorem requestCount_append (xs ys : List Effect)
    : requestCount (xs ++ ys) = requestCount xs + requestCount ys := by
  simp [requestCount]

@[simp]
theorem credits_append (xs ys : List Effect) : credits (xs ++ ys) = credits xs ++ credits ys := by
  simp [credits]

structure Uncharged (effects : List Effect) : Prop where
  forwardedBytes : forwardedBytes effects = 0
  requestCount : requestCount effects = 0
  credits : credits effects = []

theorem uncharged_nil : Uncharged [] := ⟨rfl, rfl, rfl⟩

theorem uncharged_of_isSend {effects : List Effect} (h : ∀ f ∈ effects, f.isSend)
    : Uncharged effects := by
  induction effects with
  | nil => exact uncharged_nil
  | cons f fs ih =>
    obtain ⟨hforwarded, hrequests, hcredits⟩ := ih (fun g hg => h g (List.mem_cons_of_mem f hg))
    have hf := h f List.mem_cons_self
    cases f with
    | send sock addr datagram =>
      refine ⟨?_, ?_, ?_⟩
      . simpa [Device.forwardedBytes, Effect.forwarded] using hforwarded
      . simpa [Device.requestCount, Effect.isRequest] using hrequests
      . simpa [Device.credits, Effect.credited] using hcredits
    | _ => simp [Effect.isSend] at hf

/--
How the quota of a peer changes in a step with certain effects.
-/
inductive QuotaStep (quotaBytes : UInt64) (q : Payment.BandwidthQuota) (effects : List Effect)
    : Payment.BandwidthQuota → Prop where
  | idle (heffects : Uncharged effects) : QuotaStep quotaBytes q effects q
  | forward (bytes : UInt64) (q' : Payment.BandwidthQuota)
    (hblocked : q.isBlocked = false) (hconsume : q.consume bytes = (q', true))
    (hforwarded : forwardedBytes effects = bytes.toNat)
    (hrequests : requestCount effects = 0) (hcredits : credits effects = [])
    : QuotaStep quotaBytes q effects q'
  | exhaust (bytes : UInt64) (q' : Payment.BandwidthQuota)
    (hblocked : q.isBlocked = false) (hconsume : q.consume bytes = (q', false))
    (hforwarded : forwardedBytes effects = 0)
    (hrequests : requestCount effects ≤ 1) (hcredits : credits effects = [])
    : QuotaStep quotaBytes q effects q'
  | reject (nonce : FixedBytes 32) (hfresh : nonce ∉ q.usedNonces) (heffects : Uncharged effects)
    : QuotaStep quotaBytes q effects (q.checkAndRecordNonce nonce).1
  | credit (submit : Payment.PaymentSubmit) (hfresh : submit.nonce ∉ q.usedNonces)
    (hforwarded : forwardedBytes effects = 0) (hrequests : requestCount effects = 0)
    (hcredits : credits effects = [submit])
    : QuotaStep quotaBytes q effects ((q.checkAndRecordNonce submit.nonce).1.credit quotaBytes)

theorem QuotaStep.append_sends {quotaBytes : UInt64} {q q' : Payment.BandwidthQuota}
    {effects flushed : List Effect} (h : QuotaStep quotaBytes q effects q')
    (hflushed : ∀ f ∈ flushed, f.isSend)
    : QuotaStep quotaBytes q (effects ++ flushed) q' := by
  obtain ⟨hforwarded', hrequests', hcredits'⟩ := uncharged_of_isSend hflushed
  cases h with
  | idle heffects =>
    obtain ⟨hforwarded, hrequests, hcredits⟩ := heffects
    exact .idle ⟨by simp [*], by simp [*], by simp [*]⟩
  | forward bytes q' hblocked hconsume hforwarded hrequests hcredits =>
    exact .forward bytes q' hblocked hconsume (by simp [*]) (by simp [*]) (by simp [*])
  | exhaust bytes q' hblocked hconsume hforwarded hrequests hcredits =>
    exact .exhaust bytes q' hblocked hconsume (by simp [*]) (by simp [*]) (by simp [*])
  | reject nonce hfresh heffects =>
    obtain ⟨hforwarded, hrequests, hcredits⟩ := heffects
    exact .reject nonce hfresh ⟨by simp [*], by simp [*], by simp [*]⟩
  | credit submit hfresh hforwarded hrequests hcredits =>
    exact .credit submit hfresh (by simp [*]) (by simp [*]) (by simp [*])

variable {C : Primitives} {d : Device} {p p' : Peer} {q : Payment.BandwidthQuota} {sock : Socket}
  {env : Env} {effects : List Effect} {flow : Flow}

section EnforceQuota

variable {packet : Bytes} (hserver : d.paymentConfig.isServer = true) (hq : p.quota = some q)

include hserver hq

theorem enforceQuota_eq_blocked (h : enforceQuota d p packet = (p', .blocked))
    : p' = p ∧ q.isBlocked = true := by
  simp only [enforceQuota, hserver, if_true, hq] at h
  split at h
  . next hblocked =>
    cases h
    exact ⟨rfl, hblocked⟩
  . split at h <;> simp at h

theorem enforceQuota_eq_exhausted (h : enforceQuota d p packet = (p', .exhausted))
    : ∃ q', q.isBlocked = false ∧ q.consume (UInt64.ofNat packet.length) = (q', false)
        ∧ p' = { p with quota := some q' } := by
  simp only [enforceQuota, hserver, if_true, hq] at h
  split at h
  . simp at h
  . next hblocked =>
    split at h
    . simp at h
    . next q' hconsume =>
      cases h
      exact ⟨q', by simpa using hblocked, hconsume, rfl⟩

theorem enforceQuota_eq_forward (h : enforceQuota d p packet = (p', .forward))
    : ∃ q', q.isBlocked = false ∧ q.consume (UInt64.ofNat packet.length) = (q', true)
        ∧ p' = { p with quota := some q' } := by
  simp only [enforceQuota, hserver, if_true, hq] at h
  split at h
  . simp at h
  . next hblocked =>
    split at h
    . next q' hconsume =>
      cases h
      exact ⟨q', by simpa using hblocked, hconsume, rfl⟩
    . simp at h

end EnforceQuota

def Meters (d : Device) (p : Peer) (q : Payment.BandwidthQuota) (effects : List Effect) (p' : Peer)
    : Prop :=
  p'.allowedIps = p.allowedIps ∧
    ∃ q', p'.quota = some q' ∧ QuotaStep d.paymentConfig.quotaBytes q effects q'

theorem meters_of_sameButTunnel (hq : p.quota = some q) (hsame : p.SameButTunnel p')
    (heffects : Uncharged effects)
    : Meters d p q effects p' :=
  ⟨hsame.allowedIps, q, by rw [hsame.quota, hq], .idle heffects⟩

theorem meters_of_forward {packet : Bytes} (hserver : d.paymentConfig.isServer = true)
    (hq : p.quota = some q) (hlen : packet.length < 2 ^ 17)
    (h : enforceQuota d p packet = (p', .forward)) {p'' : Peer} (hsame : p'.SameButTunnel p'')
    (hforwarded : forwardedBytes effects = packet.length) (hrequests : requestCount effects = 0)
    (hcredits : credits effects = [])
    : Meters d p q effects p'' := by
  obtain ⟨q', hblocked, hconsume, rfl⟩ := enforceQuota_eq_forward hserver hq h
  refine ⟨hsame.allowedIps, q', hsame.quota, .forward _ q' hblocked hconsume ?_ hrequests hcredits⟩
  rw [hforwarded, UInt64.toNat_ofNat_of_lt']
  exact Nat.lt_trans hlen (by decide)

theorem meters_of_exhausted {packet : Bytes} (hserver : d.paymentConfig.isServer = true)
    (hq : p.quota = some q) (h : enforceQuota d p packet = (p', .exhausted)) {p'' : Peer}
    (hsame : p'.SameButTunnel p'') (hforwarded : forwardedBytes effects = 0)
    (hrequests : requestCount effects ≤ 1) (hcredits : credits effects = [])
    : Meters d p q effects p'' := by
  obtain ⟨q', hblocked, hconsume, rfl⟩ := enforceQuota_eq_exhausted hserver hq h
  exact ⟨hsame.allowedIps, q', hsame.quota,
    .exhaust _ q' hblocked hconsume hforwarded hrequests hcredits⟩

theorem meters_of_sendPaymentRequired {packet : Bytes} {addr : SocketAddr}
    (hserver : d.paymentConfig.isServer = true) (hq : p.quota = some q)
    (h : enforceQuota d p packet = (p', .exhausted)) {p'' : Peer}
    (hsend : sendPaymentRequired C d p' sock addr env = some (p'', effects))
    : Meters d p q effects p'' := by
  obtain ⟨hsame, heffects⟩ := sendPaymentRequired_eq_some hsend
  rcases heffects with rfl | ⟨msg, packet, result, rfl⟩
  . exact meters_of_exhausted hserver hq h hsame rfl (Nat.zero_le _) rfl
  . exact meters_of_exhausted hserver hq h hsame rfl (Nat.le_refl _) rfl

theorem handlePaymentSubmit_meters {payload : Bytes} {addr : SocketAddr} (hq : p.quota = some q)
    (h : handlePaymentSubmit C d p payload sock addr env = some (p', effects))
    : Meters d p q effects p' := by
  have hrecord : ∀ {nonce : FixedBytes 32} {recorded : Peer},
      p.checkAndRecordNonce nonce = (recorded, true) →
        nonce ∉ q.usedNonces ∧ recorded = { p with quota := some (q.checkAndRecordNonce nonce).1 }
      := by
    intro nonce recorded hrecord
    simp only [Peer.checkAndRecordNonce, hq, Payment.BandwidthQuota.checkAndRecordNonce,
      Prod.mk.injEq, decide_eq_true_eq] at hrecord
    exact ⟨hrecord.2, hrecord.1.symm⟩
  cases handlePaymentSubmit_cases h with
  | unchanged _ hpeer heffects =>
    subst hpeer heffects
    exact meters_of_sameButTunnel hq (.refl p') uncharged_nil
  | rejected submit _ _ hfresh _ heffects =>
    subst heffects
    obtain ⟨hnot, rfl⟩ := hrecord hfresh
    exact ⟨rfl, _, rfl, .reject submit.nonce hnot uncharged_nil⟩
  | accepted submit recorded _ _ hfresh _ _ hpeer heffects =>
    obtain ⟨hnot, rfl⟩ := hrecord hfresh
    refine ⟨hpeer.allowedIps, _, hpeer.quota, .credit submit hnot ?_ ?_ ?_⟩ <;>
    . rcases heffects with rfl | ⟨_, _, _, _, _, rfl, _⟩ <;> rfl

theorem handlePaymentSignalClient_meters {payload : Bytes} {addr : SocketAddr} (hq : p.quota = some q)
    (h : handlePaymentSignalClient C d p payload sock addr env = some (p', effects))
    : Meters d p q effects p' := by
  obtain ⟨hsame, heffects⟩ := handlePaymentSignalClient_eq_some h
  refine meters_of_sameButTunnel hq hsame ?_
  rcases heffects with rfl | ⟨_, rfl⟩ | ⟨_, _, _, _, rfl⟩
  all_goals exact ⟨rfl, rfl, rfl⟩

theorem handleResult_meters {result : Noise.TunnResult} {dest addr : Option SocketAddr}
    {afterErr : Flow} (hserver : d.paymentConfig.isServer = true) (hq : p.quota = some q)
    (hlen : ∀ packet, result.packet = some packet → packet.length < 2 ^ 17)
    (h : handleResult C d p result sock dest addr afterErr env = some (p', effects, flow))
    : Meters d p q effects p' := by
  cases handleResult_cases h with
  | idle _ hpeer heffects =>
    subst hpeer
    exact meters_of_sameButTunnel hq (.refl p') (uncharged_of_isSend heffects)
  | ignored _ _ _ _ _ hpeer heffects =>
    subst hpeer heffects
    exact meters_of_sameButTunnel hq (.refl p') uncharged_nil
  | submit _ _ _ _ _ _ _ _ _ hhandle => exact handlePaymentSubmit_meters hq hhandle
  | request _ _ _ _ _ _ _ _ _ hhandle => exact handlePaymentSignalClient_meters hq hhandle
  | refused _ _ _ _ hpeer heffects =>
    subst hpeer heffects
    exact meters_of_sameButTunnel hq (.refl p') uncharged_nil
  | blocked _ _ _ _ hverdict heffects =>
    subst heffects
    obtain ⟨rfl, _⟩ := enforceQuota_eq_blocked hserver hq hverdict
    exact meters_of_sameButTunnel hq (.refl p') uncharged_nil
  | exhausted _ _ _ _ _ _ hverdict _ hsend =>
    exact meters_of_sendPaymentRequired hserver hq hverdict hsend
  | exhaustedV6 _ _ _ _ hverdict heffects =>
    subst heffects
    exact meters_of_exhausted hserver hq hverdict (.refl p') rfl (Nat.zero_le _) rfl
  | forwarded packet _ hdata _ hverdict heffects =>
    subst heffects
    exact meters_of_forward hserver hq (hlen packet hdata.packet) hverdict (.refl p') (by rfl) rfl rfl

theorem outbound_meters {src : Bytes} (hserver : d.paymentConfig.isServer = true)
    (hq : p.quota = some q) (hlen : src.length < 2 ^ 17)
    (h : outbound C d p src env = some (p', effects))
    : Meters d p q effects p' := by
  cases outbound_cases h with
  | blocked hverdict heffects =>
    subst heffects
    obtain ⟨rfl, _⟩ := enforceQuota_eq_blocked hserver hq hverdict
    exact meters_of_sameButTunnel hq (.refl p') uncharged_nil
  | exhausted _ _ hverdict _ hsend => exact meters_of_sendPaymentRequired hserver hq hverdict hsend
  | exhaustedSilent hverdict _ heffects =>
    subst heffects
    exact meters_of_exhausted hserver hq hverdict (.refl p') rfl (Nat.zero_le _) rfl
  | forwarded p₁ tunnel _ sends hverdict _ hpeer hsends heffects =>
    subst hpeer heffects
    obtain ⟨hforwarded, hrequests, hcredits⟩ := uncharged_of_isSend hsends
    refine meters_of_forward hserver hq hlen hverdict (.of_tunnel p₁ tunnel) ?_ ?_ ?_
    . simpa [forwardedBytes, Effect.forwarded] using hforwarded
    . simpa [requestCount, Effect.isRequest] using hrequests
    . simpa [credits, Effect.credited] using hcredits

end Device
