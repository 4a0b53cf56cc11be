import VeilVpn.Payment.Lemmas.Protocol

namespace Payment

/--
The type of a message and the least length of its payload, with its encoder and its decoder. The
second decoder indexes the bytes as the source does and is `none` where this panics.
-/
structure Codec (M : Type) where
  msgType : UInt8
  payloadLen : Nat
  encode : M → Bytes
  decode : Bytes → Option M
  decodeIndexed : Bytes → Option (Option M)

def declaredLen (data : Bytes) : Nat :=
  (data.slice 1 3).beNat

structure Codec.Lawful {M : Type} (c : Codec M) : Prop where
  decode_encode : ∀ m rest, c.decode (c.encode m ++ rest) = some m
  inBounds : ∀ data, c.decodeIndexed data = some (c.decode data)
  wellFormed : ∀ data m, c.decode data = some m →
    data.head? = some c.msgType ∧ c.payloadLen ≤ declaredLen data ∧ 3 + declaredLen data ≤ data.length
  encode_decode : ∀ data m, c.decode data = some m → data.length = 3 + c.payloadLen → c.encode m = data

section Tlv

variable {msgType : UInt8} {minLen : Nat} {data : Bytes}

theorem decodeTlv_eq_some {payload : { payload : Bytes // minLen ≤ payload.length }}
    (h : decodeTlv msgType minLen data = some payload)
    : data.head? = some msgType
        ∧
      minLen ≤ declaredLen data
        ∧
      3 + declaredLen data ≤ data.length
        ∧
      payload.val = data.drop 3 := by
  unfold decodeTlv at h
  dsimp only at h
  split at h
  . simp at h
  . next hhead =>
    split at h
    . simp at h
    . next hlen =>
      cases h
      rw [not_or, Decidable.not_not] at hhead
      unfold declaredLen
      exact ⟨hhead.2, by omega, by omega, rfl⟩

theorem encodeTlv_decodeTlv {p : Bytes} {hp : minLen ≤ p.length}
    (h : decodeTlv msgType minLen data = some ⟨p, hp⟩) (hlen : data.length = 3 + minLen)
    : encodeTlv msgType (p.slice 0 minLen) = data := by
  obtain ⟨hhead, hmin, hle, hpayload⟩ := decodeTlv_eq_some h
  dsimp only at hpayload
  have hall : p.slice 0 minLen = data.drop 3 := by
    rw [Bytes.slice, List.drop_zero, List.take_of_length_le, hpayload]
    rw [hpayload, List.length_drop]
    omega
  have hdeclared : (data.slice 1 3).beNat = (data.drop 3).length := by
    rw [List.length_drop]
    unfold declaredLen at hmin hle
    omega
  have hbytes : Bytes.beBytes 2 (data.slice 1 3).beNat = data.slice 1 3 := by
    have hlength : (data.slice 1 3).length = 2 := Bytes.length_slice data 1 3 (by omega)
    have hbe := Bytes.beBytes_beNat (data.slice 1 3)
    rwa [hlength] at hbe
  rw [hall, encodeTlv, ← hdeclared, hbytes]
  cases data with
  | nil => simp at hhead
  | cons first rest =>
    rw [List.head?_cons, Option.some.injEq] at hhead
    rw [hhead]
    simp only [Bytes.slice, List.drop_succ_cons, List.drop_zero, Nat.reduceSub]
    rw [List.take_append_drop]

def decodeTlvIndexed (msgType : UInt8) (minLen : Nat) (data : Bytes) : Option (Option Bytes) :=
  if data.length < 3 then
    some none
  else do
    let first ← data[0]?
    if first ≠ msgType then
      some none
    else
      let hi ← data[1]?
      let lo ← data[2]?
      let len := Bytes.beNat [hi, lo]
      if data.length < 3 + len ∨ len < minLen then
        some none
      else
        let p ← if 3 ≤ data.length then some (data.drop 3) else none
        some (some p)

theorem decodeTlvIndexed_eq (msgType : UInt8) (minLen : Nat) (data : Bytes)
    : decodeTlvIndexed msgType minLen data
        =
      some ((decodeTlv msgType minLen data).map Subtype.val) := by
  unfold decodeTlvIndexed decodeTlv
  by_cases hshort : data.length < 3
  . rw [if_pos hshort, if_pos (.inl hshort)]
    rfl
  . rw [if_neg hshort]
    obtain ⟨first, hi, lo, rest, rfl⟩ : ∃ first hi lo rest, data = first :: hi :: lo :: rest := by
      rcases data with _ | ⟨first, _ | ⟨hi, _ | ⟨lo, rest⟩⟩⟩
      . simp at hshort
      . simp at hshort
      . simp at hshort
      . exact ⟨first, hi, lo, rest, rfl⟩
    have hslice : [hi, lo] = Bytes.slice (first :: hi :: lo :: rest) 1 3 := rfl
    by_cases hfirst : first = msgType
    . subst hfirst
      have hhead : ¬((first :: hi :: lo :: rest).length < 3
          ∨ (first :: hi :: lo :: rest).head? ≠ some first) := by
        simp
      rw [if_neg hhead]
      simp only [List.getElem?_cons_zero, List.getElem?_cons_succ, Option.bind_eq_bind,
        Option.bind_some, ne_eq, not_true_eq_false, if_false, hslice, if_pos (Nat.not_lt.mp hshort)]
      split <;> rfl
    . simp [hfirst]

def decodeFields {M : Type} (fields : Bytes → Option M) (payload : Option (Option Bytes))
    : Option (Option M) :=
  match payload with
  | none => none
  | some none => some none
  | some (some p) => (fields p).map some

end Tlv

def u64Indexed (b : Bytes) (start : Nat) : Option UInt64 :=
  (FixedBytes.index b start 8).map fun field => UInt64.ofNat field.val.beNat

theorem u64Indexed_of_le {b : Bytes} {start : Nat} (h : start + 8 ≤ b.length)
    : u64Indexed b start = some (u64Be b start) := by
  rw [u64Indexed, FixedBytes.index_of_le h, Option.map_some, FixedBytes.val_slice, u64Be]

theorem beBytes_u64Be {b : Bytes} {start : Nat} (h : start + 8 ≤ b.length)
    : Bytes.beBytes 8 (u64Be b start).toNat = b.slice start (start + 8) := by
  have hlen : (b.slice start (start + 8)).length = 8 := by
    rw [Bytes.length_slice b start (start + 8) h]
    omega
  have hlt : (b.slice start (start + 8)).beNat < 2 ^ 64 := by
    have hlt := Bytes.beNat_lt (b.slice start (start + 8))
    rw [hlen] at hlt
    omega
  have hbe := Bytes.beBytes_beNat (b.slice start (start + 8))
  rw [hlen] at hbe
  rw [u64Be, UInt64.toNat_ofNat', Nat.mod_eq_of_lt hlt, hbe]

namespace PaymentRequired

def decodeIndexed (data : Bytes) : Option (Option PaymentRequired) :=
  decodeFields
    (fun p => do
      let amountUsdc ← u64Indexed p 0
      let nonce ← FixedBytes.index p 8 32
      let recipient ← FixedBytes.index p 40 20
      let deadline ← u64Indexed p 60
      let chainId ← u64Indexed p 68
      let usdcContract ← FixedBytes.index p 76 20
      return { amountUsdc, nonce, recipient, deadline, chainId, usdcContract })
    (decodeTlvIndexed msgPaymentRequired 96 data)

theorem decodeIndexed_eq (data : Bytes) : decodeIndexed data = some (decode data) := by
  unfold decodeIndexed decode
  rw [decodeTlvIndexed_eq]
  cases decodeTlv msgPaymentRequired 96 data with
  | none => rfl
  | some payload =>
    obtain ⟨p, hp⟩ := payload
    simp only [decodeFields, Option.map_some]
    rw [u64Indexed_of_le (by omega), u64Indexed_of_le (by omega), u64Indexed_of_le (by omega),
      FixedBytes.index_of_le (by omega), FixedBytes.index_of_le (by omega),
      FixedBytes.index_of_le (by omega)]
    rfl

theorem encode_decode {data : Bytes} {m : PaymentRequired} (h : decode data = some m)
    (hlen : data.length = 3 + 96)
    : m.encode = data := by
  unfold decode at h
  split at h
  . simp at h
  . next p hp hdecode =>
    cases h
    refine Eq.trans (congrArg (encodeTlv msgPaymentRequired) ?_) (encodeTlv_decodeTlv hdecode hlen)
    dsimp only
    rw [beBytes_u64Be (by omega), beBytes_u64Be (by omega), beBytes_u64Be (by omega),
      FixedBytes.val_slice, FixedBytes.val_slice, FixedBytes.val_slice]
    simp (disch := omega) only [Bytes.slice_append_slice]

end PaymentRequired

namespace PaymentSubmit

def decodeIndexed (data : Bytes) : Option (Option PaymentSubmit) :=
  decodeFields
    (fun p => do
      let «from» ← FixedBytes.index p 0 20
      let «to» ← FixedBytes.index p 20 20
      let value ← u64Indexed p 40
      let validAfter ← u64Indexed p 48
      let validBefore ← u64Indexed p 56
      let nonce ← FixedBytes.index p 64 32
      let v ← p[96]?
      let r ← FixedBytes.index p 97 32
      let s ← FixedBytes.index p 129 32
      return { «from», «to», value, validAfter, validBefore, nonce, v, r, s })
    (decodeTlvIndexed msgPaymentSubmit 161 data)

theorem decodeIndexed_eq (data : Bytes) : decodeIndexed data = some (decode data) := by
  unfold decodeIndexed decode
  rw [decodeTlvIndexed_eq]
  cases decodeTlv msgPaymentSubmit 161 data with
  | none => rfl
  | some payload =>
    obtain ⟨p, hp⟩ := payload
    simp only [decodeFields, Option.map_some]
    rw [u64Indexed_of_le (by omega), u64Indexed_of_le (by omega), u64Indexed_of_le (by omega),
      FixedBytes.index_of_le (by omega), FixedBytes.index_of_le (by omega),
      FixedBytes.index_of_le (by omega), FixedBytes.index_of_le (by omega),
      FixedBytes.index_of_le (by omega), List.getElem?_eq_getElem (by omega)]
    rfl

theorem encode_decode {data : Bytes} {m : PaymentSubmit} (h : decode data = some m)
    (hlen : data.length = 3 + 161)
    : m.encode = data := by
  unfold decode at h
  split at h
  . simp at h
  . next p hp hdecode =>
    cases h
    refine Eq.trans (congrArg (encodeTlv msgPaymentSubmit) ?_) (encodeTlv_decodeTlv hdecode hlen)
    dsimp only
    have hv : [p[96]] = p.slice 96 97 := by
      rw [Bytes.slice, List.drop_eq_getElem_cons (by omega)]
      rfl
    rw [beBytes_u64Be (by omega), beBytes_u64Be (by omega), beBytes_u64Be (by omega),
      FixedBytes.val_slice, FixedBytes.val_slice, FixedBytes.val_slice, FixedBytes.val_slice,
      FixedBytes.val_slice, hv]
    simp (disch := omega) only [Bytes.slice_append_slice]

end PaymentSubmit

namespace PaymentAccepted

def decodeIndexed (data : Bytes) : Option (Option PaymentAccepted) :=
  decodeFields
    (fun _ => do
      let newQuotaBytes ← u64Indexed data 3
      return { newQuotaBytes })
    (decodeTlvIndexed msgPaymentAccepted 8 data)

theorem decodeIndexed_eq (data : Bytes) : decodeIndexed data = some (decode data) := by
  unfold decodeIndexed decode
  rw [decodeTlvIndexed_eq]
  cases hdecode : decodeTlv msgPaymentAccepted 8 data with
  | none => rfl
  | some payload =>
    obtain ⟨_, _, hle, hpayload⟩ := decodeTlv_eq_some hdecode
    have hp := payload.property
    rw [hpayload, List.length_drop] at hp
    simp only [decodeFields, Option.map_some]
    rw [u64Indexed_of_le (by omega), hpayload]
    simp only [u64Be, Bytes.slice, List.drop_drop]
    rfl

theorem encode_decode {data : Bytes} {m : PaymentAccepted} (h : decode data = some m)
    (hlen : data.length = 3 + 8)
    : m.encode = data := by
  unfold decode at h
  split at h
  . simp at h
  . next p hp hdecode =>
    cases h
    refine Eq.trans (congrArg (encodeTlv msgPaymentAccepted) ?_) (encodeTlv_decodeTlv hdecode hlen)
    exact beBytes_u64Be hp

end PaymentAccepted

section Lawful

theorem Codec.Lawful.of_decodeTlv {M : Type} {c : Codec M}
    (hencode : ∀ m rest, c.decode (c.encode m ++ rest) = some m)
    (hbounds : ∀ data, c.decodeIndexed data = some (c.decode data))
    (hnone : ∀ data, decodeTlv c.msgType c.payloadLen data = none → c.decode data = none)
    (hdecode : ∀ data m, c.decode data = some m → data.length = 3 + c.payloadLen →
      c.encode m = data)
    : c.Lawful where
  decode_encode := hencode
  inBounds := hbounds
  wellFormed := by
    intro data m h
    cases htlv : decodeTlv c.msgType c.payloadLen data with
    | none =>
      rw [hnone data htlv] at h
      cases h
    | some payload =>
      obtain ⟨hhead, hmin, hle, _⟩ := decodeTlv_eq_some htlv
      exact ⟨hhead, hmin, hle⟩
  encode_decode := hdecode

def PaymentRequired.codec : Codec PaymentRequired :=
  ⟨msgPaymentRequired, 96, encode, decode, decodeIndexed⟩

theorem PaymentRequired.lawful : codec.Lawful :=
  .of_decodeTlv decode_encode_append decodeIndexed_eq
    (fun data (h : decodeTlv msgPaymentRequired 96 data = none) => by simp [codec, decode, h])
    (fun _ _ h hlen => encode_decode h hlen)

def PaymentSubmit.codec : Codec PaymentSubmit :=
  ⟨msgPaymentSubmit, 161, encode, decode, decodeIndexed⟩

theorem PaymentSubmit.lawful : codec.Lawful :=
  .of_decodeTlv decode_encode_append decodeIndexed_eq
    (fun data (h : decodeTlv msgPaymentSubmit 161 data = none) => by simp [codec, decode, h])
    (fun _ _ h hlen => encode_decode h hlen)

def PaymentAccepted.codec : Codec PaymentAccepted :=
  ⟨msgPaymentAccepted, 8, encode, decode, decodeIndexed⟩

theorem PaymentAccepted.lawful : codec.Lawful :=
  .of_decodeTlv decode_encode_append decodeIndexed_eq
    (fun data (h : decodeTlv msgPaymentAccepted 8 data = none) => by simp [codec, decode, h])
    (fun _ _ h hlen => encode_decode h hlen)

theorem Codec.Lawful.disjoint {M N : Type} {c : Codec M} {c' : Codec N} (h : c.Lawful) (h' : c'.Lawful)
    (hne : c.msgType ≠ c'.msgType) (data : Bytes)
    : c.decode data = none ∨ c'.decode data = none := by
  cases hdecode : c.decode data with
  | none => exact .inl rfl
  | some m =>
    cases hdecode' : c'.decode data with
    | none => exact .inr rfl
    | some m' =>
      have hhead := (h.wellFormed data m hdecode).1
      rw [(h'.wellFormed data m' hdecode').1, Option.some.injEq] at hhead
      exact absurd hhead.symm hne

theorem message_format
    : PaymentRequired.codec.Lawful
        ∧
      PaymentSubmit.codec.Lawful
        ∧
      PaymentAccepted.codec.Lawful
        ∧
      ∀ data,
        (PaymentRequired.decode data = none ∨ PaymentSubmit.decode data = none)
          ∧
        (PaymentRequired.decode data = none ∨ PaymentAccepted.decode data = none)
          ∧
        (PaymentSubmit.decode data = none ∨ PaymentAccepted.decode data = none) := by
  refine ⟨PaymentRequired.lawful, PaymentSubmit.lawful, PaymentAccepted.lawful, ?_⟩
  intro data
  exact ⟨PaymentRequired.lawful.disjoint PaymentSubmit.lawful (by decide) data,
    PaymentRequired.lawful.disjoint PaymentAccepted.lawful (by decide) data,
    PaymentSubmit.lawful.disjoint PaymentAccepted.lawful (by decide) data⟩

end Lawful

end Payment
