import VeilVpn.Payment.Impl.Quota

namespace Payment
namespace BandwidthQuota

variable {q q' : BandwidthQuota} {bytes : UInt64}

theorem consume_eq_true (h : q.consume bytes = (q', true))
    : bytes ≤ q.remainingBytes
        ∧
      q.remainingBytes ≠ 0
        ∧
      q' = { q with
        remainingBytes := q.remainingBytes - bytes
        totalConsumed := q.totalConsumed + bytes } := by
  unfold consume at h
  split at h
  . simp at h
  . next hzero =>
    split at h
    . simp at h
    . next hlt =>
      cases h
      refine ⟨?_, hzero, rfl⟩
      apply UInt64.not_lt.mp
      exact hlt

theorem consume_eq_false (h : q.consume bytes = (q', false))
    : (q.remainingBytes = 0 ∧ q' = q)
        ∨
      (q.remainingBytes ≠ 0 ∧ q.remainingBytes < bytes ∧
        q' = { q with
          remainingBytes := 0
          totalConsumed := q.totalConsumed + q.remainingBytes
          blocked := true }) := by
  unfold consume at h
  split at h
  . next hzero =>
    cases h
    exact .inl ⟨hzero, rfl⟩
  . next hzero =>
    split at h
    . next hlt =>
      cases h
      exact .inr ⟨hzero, hlt, rfl⟩
    . simp at h

theorem consume_of_le (hzero : q.remainingBytes ≠ 0) (hle : bytes ≤ q.remainingBytes)
    : ∃ q', q.consume bytes = (q', true) ∧ q'.blocked = q.blocked := by
  unfold consume
  rw [if_neg hzero, if_neg (UInt64.not_lt.mpr hle)]
  exact ⟨_, rfl, rfl⟩

theorem consume_of_lt (hzero : q.remainingBytes ≠ 0) (hlt : q.remainingBytes < bytes)
    : ∃ q', q.consume bytes = (q', false) ∧ q'.blocked = true := by
  unfold consume
  rw [if_neg hzero, if_pos hlt]
  exact ⟨_, rfl, rfl⟩

theorem toNat_remainingBytes_consume (h : q.consume bytes = (q', true))
    : q'.remainingBytes.toNat + bytes.toNat = q.remainingBytes.toNat := by
  obtain ⟨hle, _, rfl⟩ := consume_eq_true h
  dsimp only
  rw [UInt64.toNat_sub_of_le _ _ hle]
  have := UInt64.le_iff_toNat_le.mp hle
  omega

theorem toNat_remainingBytes_consume_le {allowed : Bool} (h : q.consume bytes = (q', allowed))
    : q'.remainingBytes.toNat ≤ q.remainingBytes.toNat := by
  cases allowed with
  | true =>
    have := toNat_remainingBytes_consume h
    omega
  | false =>
    rcases consume_eq_false h with ⟨_, rfl⟩ | ⟨_, _, rfl⟩
    . apply Nat.le_refl
    . apply Nat.zero_le

theorem usedNonces_consume {allowed : Bool} (h : q.consume bytes = (q', allowed))
    : q'.usedNonces = q.usedNonces := by
  cases allowed with
  | true =>
    obtain ⟨_, _, rfl⟩ := consume_eq_true h
    rfl
  | false => rcases consume_eq_false h with ⟨_, rfl⟩ | ⟨_, _, rfl⟩ <;> rfl

theorem remaining_add_total_consume {allowed : Bool} (h : q.consume bytes = (q', allowed))
    (hlt : q.remainingBytes.toNat + q.totalConsumed.toNat < 2 ^ 64)
    : q'.remainingBytes.toNat + q'.totalConsumed.toNat
        =
      q.remainingBytes.toNat + q.totalConsumed.toNat := by
  cases allowed with
  | true =>
    have hremaining := toNat_remainingBytes_consume h
    obtain ⟨_, _, rfl⟩ := consume_eq_true h
    simp only [UInt64.toNat_add] at *
    omega
  | false =>
    rcases consume_eq_false h with ⟨_, rfl⟩ | ⟨_, _, rfl⟩
    . rfl
    . simp only [UInt64.toNat_add, UInt64.toNat_zero]
      omega

theorem toNat_remainingBytes_credit_le (q : BandwidthQuota) (bytes : UInt64)
    : (q.credit bytes).remainingBytes.toNat ≤ q.remainingBytes.toNat + bytes.toNat := by
  simp only [credit, UInt64.toNat_add]
  apply Nat.mod_le

theorem remaining_add_total_credit
    (hlt : q.remainingBytes.toNat + q.totalConsumed.toNat + bytes.toNat < 2 ^ 64)
    : (q.credit bytes).remainingBytes.toNat + (q.credit bytes).totalConsumed.toNat
        =
      q.remainingBytes.toNat + q.totalConsumed.toNat + bytes.toNat := by
  simp only [credit, UInt64.toNat_add]
  rw [Nat.mod_eq_of_lt (by omega)]
  omega

end BandwidthQuota
end Payment
