import VeilVpn.Noise.Lemmas.Handshake
import VeilVpn.Noise.Lemmas.Tunn
import VeilVpn.Noise.Lemmas.Window

namespace Noise

variable {P : Primitives}

theorem ReceivingKeyCounterValidator.exists_markDidReceive {v : ReceivingKeyCounterValidator}
    {counter : UInt64} (hcounter : counter.toNat + 1024 < 2 ^ 64)
    (h : v.willAccept counter = .ok ())
    : ∃ v', v.markDidReceive counter = (v', .ok ()) := by
  have hbits : (counter + nBits).toNat = counter.toNat + 1024 := toNat_add_nBits hcounter
  unfold willAccept at h
  unfold markDidReceive
  simp only [UInt64.lt_iff_toNat_lt, UInt64.le_iff_toNat_le, hbits] at h ⊢
  split at h
  . next hnext =>
    rw [if_neg (by omega)]
    split
    . exact ⟨_, rfl⟩
    . rw [if_neg (by omega)]
      exact ⟨_, rfl⟩
  . next hnext =>
    split at h
    . simp at h
    . next hold =>
      rw [if_neg hold]
      split
      . exact ⟨_, rfl⟩
      . rw [if_pos (by omega)]
        split at h
        . next hbit =>
          rw [Bool.not_eq_true'] at hbit
          rw [hbit]
          exact ⟨_, rfl⟩
        . simp at h

namespace Session

variable {s s' : Session} {src : Bytes} {dstLen : Nat}

/--
The next packet that `s` seals is one that `s'` accepts.
-/
structure Feeds (s s' : Session) : Prop where
  index : s'.receivingIndex = s.sendingIndex
  key : s'.receiver = s.sender
  counter : s.sendingKeyCounter.toNat + 1024 < 2 ^ 64
  fresh : s'.receivingCounterQuickCheck s.sendingKeyCounter = .ok ()

instance (s s' : Session) : Decidable (s.Feeds s') :=
  decidable_of_iff
    (s'.receivingIndex = s.sendingIndex ∧ s'.receiver = s.sender
      ∧ s.sendingKeyCounter.toNat + 1024 < 2 ^ 64
      ∧ s'.receivingCounterQuickCheck s.sendingKeyCounter = .ok ())
    ⟨fun ⟨index, key, counter, fresh⟩ => ⟨index, key, counter, fresh⟩,
      fun h => ⟨h.index, h.key, h.counter, h.fresh⟩⟩

variable (P) in
def sealData (s : Session) (src : Bytes) : PacketData where
  receiverIdx := s.sendingIndex
  counter := s.sendingKeyCounter
  encryptedEncapsulatedPacket :=
    P.chacha20Poly1305Seal s.sender (counterNonce s.sendingKeyCounter) src []

theorem parseIncomingPacket_sealPacket (s : Session) (src : Bytes)
    : parseIncomingPacket (s.sealPacket P src) = .ok (.packetData (s.sealData P src)) := by
  have hparse := parseIncomingPacket_packetData (s.sealData P src) (by simp [sealData, P.length_seal])
  unfold sealPacket
  exact hparse

theorem length_sealPacket (s : Session) (src : Bytes)
    : (s.sealPacket P src).length = src.length + dataOverheadSz := by
  simp only [sealPacket, List.length_append, Bytes.length_leBytes, P.length_seal, dataOverheadSz]
  omega

theorem Feeds.receivePacketData (h : s.Feeds s') (hP : P.Lawful) (hlen : src.length + 16 ≤ dstLen)
    : ∃ v, s'.receivePacketData P (s.sealData P src) dstLen
        = some ({ s' with receivingKeyCounter := v }, .ok src) := by
  obtain ⟨v, hmark⟩ := ReceivingKeyCounterValidator.exists_markDidReceive h.counter h.fresh
  refine ⟨{ v with receiveCnt := v.receiveCnt + 1 }, ?_⟩
  unfold Session.receivePacketData
  rw [if_neg (by rw [sealData, P.length_seal]; omega), if_neg (by rw [h.index]; simp [sealData])]
  simp only [sealData, h.fresh, h.key, hP.open_seal, receivingCounterMark, hmark]

end Session

namespace Tunn

variable {s s' : Session} {t : Tunn} {src : Bytes} {dstLen : Nat}

theorem handleVerifiedPacket_sealData (hP : P.Lawful)
    (hslot : t.sessions (slot s.sendingIndex.toNat) = some s') (hfeeds : s.Feeds s')
    {addr : Ipv4Addr} (hheader : ipHeader src = some (src.length, .v4 addr))
    (hlen : src.length + 16 ≤ dstLen) (now : Instant) (ephemeral : FixedBytes 32)
    : ∃ t',
        t.handleVerifiedPacket P (.packetData (s.sealData P src)) dstLen now ephemeral
          = some (t', .writeToTunnelV4 src addr)
          ∧
        t'.currentSession.isSome := by
  obtain ⟨v, hreceive⟩ := hfeeds.receivePacketData hP hlen
  have hslot' : t.sessions (slot (s.sealData P src).receiverIdx.toNat) = some s' := hslot
  have hsrc : src.isEmpty = false := by
    cases src with
    | nil => simp [ipHeader] at hheader
    | cons => rfl
  have hhandle : ∃ t', t.handleVerifiedPacket P (.packetData (s.sealData P src)) dstLen now ephemeral
      = some (t', .writeToTunnelV4 src addr) := by
    simp only [handleVerifiedPacket, handleData, hslot', hreceive, validateDecapsulatedPacket, hsrc,
      hheader, Nat.lt_irrefl, if_false, Bool.false_eq_true, Option.map_some, unwrapResult,
      List.take_length]
    exact ⟨_, rfl⟩
  obtain ⟨t', hhandle⟩ := hhandle
  exact ⟨t', hhandle, (handleVerifiedPacket_packet hhandle rfl).2⟩

end Tunn

end Noise
