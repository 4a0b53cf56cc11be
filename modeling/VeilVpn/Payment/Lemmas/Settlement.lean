import VeilVpn.Payment.Impl.Settlement

namespace Payment

/--
The request asks for the settlement of this authorization, for its own value and its own recipient.
-/
structure SettleRequest.Names (req : SettleRequest) (signed : SignedAuthorization) : Prop where
  «from» : req.paymentPayload.payload.authorization.from = "0x" ++ Hex.encode signed.auth.from.val
  «to» : req.paymentPayload.payload.authorization.to = "0x" ++ Hex.encode signed.auth.to.val
  value : req.paymentPayload.payload.authorization.value = toString signed.auth.value
  validAfter : req.paymentPayload.payload.authorization.validAfter = toString signed.auth.validAfter
  validBefore :
    req.paymentPayload.payload.authorization.validBefore = toString signed.auth.validBefore
  nonce : req.paymentPayload.payload.authorization.nonce = "0x" ++ Hex.encode signed.auth.nonce.val
  signature : req.paymentPayload.payload.signature
    = "0x" ++ Hex.encode (signed.r.val ++ signed.s.val ++ [signed.v])
  accepted : req.paymentPayload.accepted = req.paymentRequirements
  amount : req.paymentRequirements.amount = req.paymentPayload.payload.authorization.value
  payTo : req.paymentRequirements.payTo = req.paymentPayload.payload.authorization.to

theorem names_buildSettleRequest (config : PaymentConfig) {submit : PaymentSubmit}
    {serverAddress : FixedBytes 20} (hto : submit.to = serverAddress)
    : (buildSettleRequest config submit serverAddress).Names submit.signed := by
  subst hto
  constructor <;> rfl

theorem val_eq_of_hex {n : Nat} {a b : FixedBytes n} {s : String} (ha : s = "0x" ++ Hex.encode a.val)
    (hb : s = "0x" ++ Hex.encode b.val)
    : a = b := by
  rw [ha, String.append_right_inj] at hb
  exact FixedBytes.ext (Hex.encode_injective hb)

theorem eq_of_toString {a b : UInt64} {s : String} (ha : s = toString a) (hb : s = toString b)
    : a = b := by
  have hrepr : a.toNat.repr = b.toNat.repr := ha.symm.trans hb
  have hdigits := congrArg (fun s => Nat.ofDigitChars 10 s.toList 0) hrepr
  simp only [Nat.toList_repr, Nat.ofDigitChars_ten_toDigits] at hdigits
  exact UInt64.toNat_inj.mp hdigits

theorem SettleRequest.Names.unique {req : SettleRequest} {a b : SignedAuthorization}
    (ha : req.Names a) (hb : req.Names b)
    : a = b := by
  have hsignature : a.r = b.r ∧ a.s = b.s ∧ a.v = b.v := by
    have heq := ha.signature.symm.trans hb.signature
    rw [String.append_right_inj] at heq
    have hbytes := Hex.encode_injective heq
    obtain ⟨hrs, hv⟩ := List.append_inj' hbytes rfl
    obtain ⟨hr, hs⟩ := List.append_inj hrs (by simp)
    exact ⟨FixedBytes.ext hr, FixedBytes.ext hs, List.singleton_inj.mp hv⟩
  obtain ⟨⟨_, _, _, _, _, _⟩, _, _, _⟩ := a
  obtain ⟨⟨_, _, _, _, _, _⟩, _, _, _⟩ := b
  obtain ⟨rfl, rfl, rfl⟩ := hsignature
  obtain rfl := val_eq_of_hex ha.from hb.from
  obtain rfl := val_eq_of_hex ha.to hb.to
  obtain rfl := val_eq_of_hex ha.nonce hb.nonce
  obtain rfl := eq_of_toString ha.value hb.value
  obtain rfl := eq_of_toString ha.validAfter hb.validAfter
  obtain rfl := eq_of_toString ha.validBefore hb.validBefore
  rfl

end Payment
