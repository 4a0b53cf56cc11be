import VeilVpn.Payment.Impl.Authorization

namespace Payment

/--
What the signature scheme promises: the signer can be recovered from a signature.
-/
def Primitives.RecoversSigner (K : Primitives) : Prop :=
  ∀ key digest recoveryId r s, K.signPrehashRecoverable key digest = (recoveryId, r, s) →
    recoveryId ≤ 3 ∧ K.recoverFromPrehash digest recoveryId r s = some (K.computeAddress key)

theorem recoverAddress_signDigest {K : Primitives} (hrecovers : K.RecoversSigner)
    {key digest : FixedBytes 32} {v : UInt8} {r s : FixedBytes 32}
    (hsign : (PaymentWallet.fromWireguardKey K key).signDigest K digest = (v, r, s))
    : PaymentWallet.recoverAddress K digest v r s
        =
      some (PaymentWallet.fromWireguardKey K key).ethereumAddress := by
  obtain ⟨⟨recoveryId, r', s'⟩, hsignature⟩ :
      ∃ signature, K.signPrehashRecoverable (K.deriveSigningKey key) digest = signature := ⟨_, rfl⟩
  obtain ⟨hle, hrecover⟩ := hrecovers _ _ _ _ _ hsignature
  simp only [PaymentWallet.signDigest, PaymentWallet.fromWireguardKey, hsignature, Prod.mk.injEq]
    at hsign
  obtain ⟨rfl, rfl, rfl⟩ := hsign
  have hle : recoveryId.toNat ≤ 3 := UInt8.le_iff_toNat_le.mp hle
  have hv : (recoveryId + 27).toNat = recoveryId.toNat + 27 := by
    rw [UInt8.toNat_add]
    exact Nat.mod_eq_of_lt (by simp; omega)
  have hrange : ¬(recoveryId + 27 < 27 ∨ 30 < recoveryId + 27) := by
    simp only [UInt8.lt_iff_toNat_lt, hv]
    simp
    omega
  rw [PaymentWallet.recoverAddress, if_neg hrange, UInt8.add_sub_cancel]
  exact hrecover

end Payment
