import VeilVpn.Payment.Impl.Protocol

namespace Payment

@[simp]
theorem ofNat_beNat_beBytes (v : UInt64) : UInt64.ofNat (Bytes.beBytes 8 v.toNat).beNat = v := by
  rw [Bytes.beNat_beBytes]
  apply UInt64.toNat_inj.mp
  simp

theorem decodeTlv_encodeTlv (msgType : UInt8) (minLen : Nat) (payload rest : Bytes)
    (hlen : payload.length < 2 ^ 16) (hmin : minLen ≤ payload.length)
    : decodeTlv msgType minLen (encodeTlv msgType payload ++ rest)
        =
      some ⟨payload ++ rest, by rw [List.length_append]; omega⟩ := by
  have hdrop : (encodeTlv msgType payload ++ rest).drop 3 = payload ++ rest := by
    simp [encodeTlv]
  have hbe : (Bytes.slice (encodeTlv msgType payload ++ rest) 1 3).beNat = payload.length := by
    have hslice : Bytes.slice (encodeTlv msgType payload ++ rest) 1 3
        = Bytes.beBytes 2 payload.length := by
      simp [Bytes.slice, encodeTlv]
    rw [hslice, Bytes.beNat_beBytes]
    omega
  have hlength : (encodeTlv msgType payload ++ rest).length = 3 + payload.length + rest.length := by
    simp only [encodeTlv, List.length_cons, List.length_append, Bytes.length_beBytes]
    omega
  have hhead : (encodeTlv msgType payload ++ rest).head? = some msgType := rfl
  unfold decodeTlv
  rw [if_neg (by rw [hlength, hhead]; simp; omega)]
  dsimp only
  rw [dif_neg (by rw [hbe, hlength]; omega)]
  simp only [hdrop]

theorem PaymentRequired.decode_encode_append (m : PaymentRequired) (rest : Bytes)
    : decode (m.encode ++ rest) = some m := by
  unfold decode encode
  rw [decodeTlv_encodeTlv _ _ _ _ (by simp) (by simp)]
  simp [FixedBytes.slice, u64Be, Bytes.slice, List.drop_append, List.drop_of_length_le]
  rfl

theorem PaymentRequired.decode_encode (m : PaymentRequired) : decode m.encode = some m := by
  have happend := m.decode_encode_append []
  rwa [List.append_nil] at happend

theorem PaymentSubmit.decode_encode_append (m : PaymentSubmit) (rest : Bytes)
    : decode (m.encode ++ rest) = some m := by
  unfold decode encode
  rw [decodeTlv_encodeTlv _ _ _ _ (by simp) (by simp)]
  simp [FixedBytes.slice, u64Be, Bytes.slice, List.drop_append, List.drop_of_length_le]
  rfl

theorem PaymentSubmit.decode_encode (m : PaymentSubmit) : decode m.encode = some m := by
  have happend := m.decode_encode_append []
  rwa [List.append_nil] at happend

theorem PaymentAccepted.decode_encode_append (m : PaymentAccepted) (rest : Bytes)
    : decode (m.encode ++ rest) = some m := by
  unfold decode encode
  rw [decodeTlv_encodeTlv _ _ _ _ (by simp) (by simp)]
  simp [u64Be, Bytes.slice]

section SignalPacket

variable (srcIp dstIp : Ipv4Addr) (payload : Bytes)

theorem length_signalPacket : (signalPacket srcIp dstIp payload).length = 28 + payload.length := by
  simp only [signalPacket, ipHeaderStart, List.length_append, List.length_cons, List.length_nil,
    Bytes.length_beBytes, FixedBytes.length_val]
  omega

theorem srcIpv4_signalPacket : srcIpv4 (signalPacket srcIp dstIp payload) = some srcIp := by
  unfold srcIpv4
  rw [dif_neg (by rw [length_signalPacket]; omega)]
  simp only [FixedBytes.slice, signalPacket, ipHeaderStart]
  simp [List.drop_append, List.drop_of_length_le]
  rfl

theorem dstIpv4_signalPacket : dstIpv4 (signalPacket srcIp dstIp payload) = some dstIp := by
  unfold dstIpv4
  rw [dif_neg (by rw [length_signalPacket]; omega)]
  simp only [FixedBytes.slice, signalPacket, ipHeaderStart]
  simp [List.drop_append, List.drop_of_length_le]
  rfl

theorem isPaymentSignal_signalPacket
    : isPaymentSignal (signalPacket srcIp dstIp payload)
        =
      (decide (srcIp = paymentGatewayIp) || decide (dstIp = paymentGatewayIp)) := by
  have hversion : (0x45 : UInt8) >>> 4 = 4 := by decide
  unfold isPaymentSignal
  rw [dif_neg (by rw [length_signalPacket]; omega)]
  rw [if_neg (by simp [signalPacket, ipHeaderStart, hversion])]
  rw [srcIpv4_signalPacket, dstIpv4_signalPacket]
  simp

theorem extractSignalPayload_signalPacket (hlen : 28 + payload.length ≤ 65535)
    : extractSignalPayload (signalPacket srcIp dstIp payload) = some payload := by
  have hudp : (Bytes.slice (signalPacket srcIp dstIp payload) 24 26).beNat = 8 + payload.length := by
    have hslice : Bytes.slice (signalPacket srcIp dstIp payload) 24 26
        = Bytes.beBytes 2 (8 + payload.length) := by
      simp [Bytes.slice, signalPacket, ipHeaderStart, List.drop_append, List.drop_of_length_le]
    rw [hslice, Bytes.beNat_beBytes]
    omega
  have hpayload : Bytes.slice (signalPacket srcIp dstIp payload) 28 (20 + (8 + payload.length))
      = payload := by
    have hdrop : (signalPacket srcIp dstIp payload).drop 28 = payload := by
      simp [signalPacket, ipHeaderStart, List.drop_append, List.drop_of_length_le]
    rw [Bytes.slice, hdrop, List.take_of_length_le]
    omega
  have hlength := length_signalPacket srcIp dstIp payload
  have hfirst (h : 0 < (signalPacket srcIp dstIp payload).length)
      : (signalPacket srcIp dstIp payload)[0] = 0x45 := rfl
  have hprotocol (h : 9 < (signalPacket srcIp dstIp payload).length)
      : (signalPacket srcIp dstIp payload)[9] = 17 := rfl
  have hihl : ((0x45 : UInt8) &&& 0x0f).toNat * 4 = 20 := by decide
  unfold extractSignalPayload
  rw [dif_neg (by omega)]
  simp only [hfirst, hihl, hprotocol, ne_eq, not_true_eq_false, if_false, hudp, hpayload]
  rw [if_neg (by omega), if_neg (by omega)]

end SignalPacket

section Extraction

def headerLen (packet : Bytes) : Nat :=
  (packet.headD 0 &&& 0x0f).toNat * 4

def udpDestination (packet : Bytes) : Nat :=
  (packet.slice (headerLen packet + 2) (headerLen packet + 4)).beNat

def udpLength (packet : Bytes) : Nat :=
  (packet.slice (headerLen packet + 4) (headerLen packet + 6)).beNat

/--
A UDP header and a UDP length that fit behind the IPv4 header.
-/
structure HasUdp (packet : Bytes) : Prop where
  protocol : packet[9]? = some (17 : UInt8)
  header : headerLen packet + 8 ≤ packet.length
  udpLength_ge : 8 ≤ udpLength packet
  udpLength_le : headerLen packet + udpLength packet ≤ packet.length

structure IsSignal (packet payload : Bytes) : Prop where
  version : packet.head?.map (fun first : UInt8 => first >>> 4) = some 4
  headerLen_ge : 20 ≤ headerLen packet
  headerLen_le : headerLen packet ≤ packet.length
  protocol : packet[9]? = some (17 : UInt8)
  destination : udpDestination packet = paymentPort
  udpLength_ge : 8 ≤ udpLength packet
  udpLength_le : headerLen packet + udpLength packet ≤ packet.length
  payload_eq : payload = packet.slice (headerLen packet + 8) (headerLen packet + udpLength packet)

/--
`extractSignalPayload` with an index that panics.
-/
def extractSignalPayloadIndexed (packet : Bytes) : Option (Option Bytes) :=
  if packet.length < 20 then
    some none
  else do
    let first : UInt8 ← packet[0]?
    let ihl := (first &&& 0x0f).toNat * 4
    let protocol : UInt8 ← packet[9]?
    if protocol ≠ 17 then
      some none
    else if packet.length < ihl + 8 then
      some none
    else do
      let hi : UInt8 ← packet[ihl + 4]?
      let lo : UInt8 ← packet[ihl + 5]?
      let udpLen := Bytes.beNat [hi, lo]
      if udpLen < 8 ∨ packet.length < ihl + udpLen then
        some none
      else
        (packet.index (ihl + 8) (ihl + udpLen)).map some

variable {packet payload : Bytes}

theorem slice_pair {start : Nat} (h : start + 1 < packet.length)
    : packet.slice start (start + 2) = [packet[start], packet[start + 1]] := by
  rw [Bytes.slice, Nat.add_sub_cancel_left, List.drop_eq_getElem_cons (by omega),
    List.drop_eq_getElem_cons h]
  rfl

theorem extractSignalPayload_eq (h : 20 ≤ packet.length)
    : extractSignalPayload packet =
        if packet[9]? ≠ some (17 : UInt8) then
          none
        else if packet.length < headerLen packet + 8 then
          none
        else if udpLength packet < 8 ∨ packet.length < headerLen packet + udpLength packet then
          none
        else
          some (packet.slice (headerLen packet + 8) (headerLen packet + udpLength packet)) := by
  cases packet with
  | nil => simp at h
  | cons first rest =>
    unfold extractSignalPayload
    rw [dif_neg (Nat.not_lt_of_le h)]
    rw [List.getElem?_eq_getElem (by omega)]
    simp only [List.getElem_cons_zero, ne_eq, Option.some.injEq]
    rfl

theorem extractSignalPayload_eq_some_iff (h : 20 ≤ packet.length)
    : extractSignalPayload packet = some payload
        ↔
      HasUdp packet
        ∧ payload = packet.slice (headerLen packet + 8) (headerLen packet + udpLength packet) := by
  rw [extractSignalPayload_eq h]
  constructor
  . intro hsome
    split at hsome
    . simp at hsome
    . next hprotocol =>
      split at hsome
      . simp at hsome
      . next hheader =>
        split at hsome
        . simp at hsome
        . next hudp =>
          rw [not_or] at hudp
          exact ⟨⟨Decidable.not_not.mp hprotocol, Nat.le_of_not_lt hheader, Nat.le_of_not_lt hudp.1,
            Nat.le_of_not_lt hudp.2⟩, (Option.some.inj hsome).symm⟩
  . rintro ⟨hudp, rfl⟩
    have hge := hudp.udpLength_ge
    have hle := hudp.udpLength_le
    rw [if_neg (not_not_intro hudp.protocol), if_neg (Nat.not_lt_of_le hudp.header),
      if_neg (by omega)]

theorem extractSignalPayloadIndexed_eq (packet : Bytes)
    : extractSignalPayloadIndexed packet = some (extractSignalPayload packet) := by
  unfold extractSignalPayloadIndexed extractSignalPayload
  split
  . rfl
  . next hlen =>
    rw [List.getElem?_eq_getElem (by omega), List.getElem?_eq_getElem (by omega)]
    simp only [Option.bind_eq_bind, Option.bind_some]
    split
    . rfl
    . split
      . rfl
      . next hheader =>
        rw [List.getElem?_eq_getElem (by omega), List.getElem?_eq_getElem (by omega)]
        rw [slice_pair (by omega)]
        simp only [Option.bind_some]
        split
        . rfl
        . next hudp =>
          rw [Bytes.index_of_le (by omega) (by omega), Option.map_some]

theorem length_of_isPaymentSignal (h : isPaymentSignal packet = true)
    : 20 ≤ packet.length ∧ packet.head?.map (fun first : UInt8 => first >>> 4) = some 4 := by
  unfold isPaymentSignal at h
  split at h
  . simp at h
  . next hlen =>
    split at h
    . simp at h
    . next hversion =>
      refine ⟨Nat.le_of_not_lt hlen, ?_⟩
      rw [List.head?_eq_getElem?, List.getElem?_eq_getElem (by omega), Option.map_some,
        Decidable.not_not.mp hversion]

/--
The payload that is extracted is the one of a signal exactly if the two checks that are not made hold
as well. No index is out of bounds.
-/
theorem extractSignalPayload_isSignal_iff (packet : Bytes)
    : extractSignalPayloadIndexed packet = some (extractSignalPayload packet)
        ∧
      (isPaymentSignal packet = true →
        ((∀ payload, extractSignalPayload packet = some payload ↔ IsSignal packet payload)
          ↔
        (HasUdp packet → 20 ≤ headerLen packet ∧ udpDestination packet = paymentPort))) := by
  refine ⟨extractSignalPayloadIndexed_eq packet, ?_⟩
  intro hsignal
  obtain ⟨hlen, hversion⟩ := length_of_isPaymentSignal hsignal
  constructor
  . intro h hudp
    have hextract := (extractSignalPayload_eq_some_iff hlen).mpr ⟨hudp, rfl⟩
    have hsignal := (h _).mp hextract
    exact ⟨hsignal.headerLen_ge, hsignal.destination⟩
  . intro h payload
    rw [extractSignalPayload_eq_some_iff hlen]
    constructor
    . rintro ⟨hudp, rfl⟩
      obtain ⟨hge, hdestination⟩ := h hudp
      have hheader := hudp.header
      exact ⟨hversion, hge, by omega, hudp.protocol, hdestination, hudp.udpLength_ge,
        hudp.udpLength_le, rfl⟩
    . intro hsignal
      have hge := hsignal.udpLength_ge
      have hle := hsignal.udpLength_le
      exact ⟨⟨hsignal.protocol, by omega, hge, hle⟩, hsignal.payload_eq⟩

namespace Sample

/--
A UDP packet to the gateway with one byte of payload. The header has the length `ihl`, if it is not
shorter than the fields that are always there.
-/
def toGateway (ihl port : UInt8) : Bytes :=
  [0x40 ||| ihl, 0, 0, 29, 0, 20, 0x40, 0, 64, 17, 0, 0, 0, 0, 0, 0] ++ paymentGatewayIp.val
    ++ [0x1b, 0xa6, 0x1b, port, 0, 9, 0, 0, 1]

end Sample

open Sample in
theorem extractSignalPayload_isSignal_iff_toGateway
    : isPaymentSignal (toGateway 5 0xa6) = true ∧ IsSignal (toGateway 5 0xa6) [1] := by
  have hsignal : isPaymentSignal (toGateway 5 0xa6) = true := by decide
  have hiff := ((extractSignalPayload_isSignal_iff (toGateway 5 0xa6)).2 hsignal).mpr
    fun _ => by decide
  exact ⟨hsignal, (hiff [1]).mp (by decide)⟩

open Sample in
/--
Without an IPv4 header behind which the UDP header begins, the bytes of the IPv4 header are taken for
one. A packet to another port is taken for a signal.
-/
theorem exists_extracted_unchecked
    : (isPaymentSignal (toGateway 0 0xa6) = true
          ∧ extractSignalPayload (toGateway 0 0xa6) = some ((toGateway 0 0xa6).slice 8 20)
          ∧ ¬IsSignal (toGateway 0 0xa6) ((toGateway 0 0xa6).slice 8 20))
        ∧
      (isPaymentSignal (toGateway 5 0) = true
          ∧ extractSignalPayload (toGateway 5 0) = some [1]
          ∧ ¬IsSignal (toGateway 5 0) [1]) := by
  refine ⟨⟨by decide, by decide, ?_⟩, by decide, by decide, ?_⟩
  . intro h
    exact absurd h.headerLen_ge (by decide)
  . intro h
    exact absurd h.destination (by decide)

end Extraction

end Payment
