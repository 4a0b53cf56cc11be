import VeilVpn.Noise.Impl.Packet

namespace Noise

theorem u32Le_append (pre post : Bytes) (v : UInt32) {start : Nat} (hpre : pre.length = start)
    : u32Le (pre ++ (Bytes.leBytes 4 v.toNat ++ post)) start = v := by
  unfold u32Le
  rw [Bytes.slice_append pre _ post hpre (by simp), Bytes.leNat_leBytes]
  apply UInt32.toNat_inj.mp
  have hlt := v.toNat_lt
  simp only [UInt32.toNat_ofNat']
  omega

theorem parseIncomingPacket_handshakeInit (p : HandshakeInit) (macs : FixedBytes 32)
    : parseIncomingPacket
        (Bytes.leBytes 4 handshakeInitType ++ Bytes.leBytes 4 p.senderIdx.toNat
          ++ p.unencryptedEphemeral.val ++ p.encryptedStatic.val ++ p.encryptedTimestamp.val
          ++ macs.val)
        =
      .ok (.handshakeInit p) := by
  simp [parseIncomingPacket, handshakeInitSz, handshakeInitType, Bytes.slice, Bytes.leNat_leBytes,
    FixedBytes.slice, List.drop_append, List.drop_of_length_le, u32Le_append]
  rfl

theorem parseIncomingPacket_handshakeResponse (p : HandshakeResponse) (macs : FixedBytes 32)
    : parseIncomingPacket
        (Bytes.leBytes 4 handshakeRespType ++ Bytes.leBytes 4 p.senderIdx.toNat
          ++ Bytes.leBytes 4 p.receiverIdx.toNat ++ p.unencryptedEphemeral.val
          ++ p.encryptedNothing.val ++ macs.val)
        =
      .ok (.handshakeResponse p) := by
  have hreceiver := u32Le_append (Bytes.leBytes 4 handshakeRespType
    ++ Bytes.leBytes 4 p.senderIdx.toNat) (p.unencryptedEphemeral.val ++ (p.encryptedNothing.val
    ++ macs.val)) p.receiverIdx (by simp; rfl)
  simp only [List.append_assoc, handshakeRespType] at hreceiver
  simp [parseIncomingPacket, handshakeInitSz, handshakeInitType, handshakeRespSz, handshakeRespType,
    Bytes.slice, Bytes.leNat_leBytes, FixedBytes.slice, List.drop_append, List.drop_of_length_le,
    u32Le_append, hreceiver]
  rfl

theorem parseIncomingPacket_packetData (p : PacketData)
    (hlen : 16 ≤ p.encryptedEncapsulatedPacket.length)
    : parseIncomingPacket
        (Bytes.leBytes 4 dataType ++ Bytes.leBytes 4 p.receiverIdx.toNat
          ++ Bytes.leBytes 8 p.counter.toNat ++ p.encryptedEncapsulatedPacket)
        =
      .ok (.packetData p) := by
  have hle : 32 ≤ 4 + (4 + (8 + p.encryptedEncapsulatedPacket.length)) := by omega
  simp [parseIncomingPacket, handshakeInitType, handshakeRespType, cookieReplyType, dataType,
    dataOverheadSz, Bytes.slice, Bytes.leNat_leBytes, List.drop_append, List.drop_of_length_le,
    u32Le_append, hle]

theorem parseIncomingPacket_packetCookieReply (p : PacketCookieReply)
    : parseIncomingPacket
        (Bytes.leBytes 4 cookieReplyType ++ Bytes.leBytes 4 p.receiverIdx.toNat ++ p.nonce.val
          ++ p.encryptedCookie.val)
        =
      .ok (.packetCookieReply p) := by
  simp [parseIncomingPacket, handshakeInitSz, handshakeInitType, handshakeRespSz, handshakeRespType,
    cookieReplySz, cookieReplyType, Bytes.slice, Bytes.leNat_leBytes, FixedBytes.slice,
    List.drop_append, List.drop_of_length_le, List.take_of_length_le, u32Le_append]
  rfl

section Indexed

def u32Indexed (src : Bytes) (start : Nat) : Option UInt32 :=
  (FixedBytes.index src start 4).map fun field => UInt32.ofNat field.val.leNat

theorem u32Indexed_of_le {src : Bytes} {start : Nat} (h : start + 4 ≤ src.length)
    : u32Indexed src start = some (u32Le src start) := by
  rw [u32Indexed, FixedBytes.index_of_le h, Option.map_some, FixedBytes.val_slice, u32Le]

/--
The parser with the indexing of the source, `none` where this panics.
-/
def parseIncomingPacketIndexed (src : Bytes) : Option (Except WireGuardError Packet) :=
  if src.length < 4 then
    some (.error .invalidPacket)
  else do
    let type ← FixedBytes.index src 0 4
    let packetType := type.val.leNat
    if packetType = handshakeInitType ∧ src.length = handshakeInitSz then
      let senderIdx ← u32Indexed src 4
      let unencryptedEphemeral ← FixedBytes.index src 8 32
      let encryptedStatic ← FixedBytes.index src 40 48
      let encryptedTimestamp ← FixedBytes.index src 88 28
      return .ok <|
        .handshakeInit { senderIdx, unencryptedEphemeral, encryptedStatic, encryptedTimestamp }
    else if packetType = handshakeRespType ∧ src.length = handshakeRespSz then
      let senderIdx ← u32Indexed src 4
      let receiverIdx ← u32Indexed src 8
      let unencryptedEphemeral ← FixedBytes.index src 12 32
      let encryptedNothing ← FixedBytes.index src 44 16
      return .ok <|
        .handshakeResponse { senderIdx, receiverIdx, unencryptedEphemeral, encryptedNothing }
    else if packetType = cookieReplyType ∧ src.length = cookieReplySz then
      let receiverIdx ← u32Indexed src 4
      let nonce ← FixedBytes.index src 8 24
      let encryptedCookie ← FixedBytes.index src 32 32
      return .ok <| .packetCookieReply { receiverIdx, nonce, encryptedCookie }
    else if packetType = dataType ∧ dataOverheadSz ≤ src.length then
      let receiverIdx ← u32Indexed src 4
      let counter ← FixedBytes.index src 8 8
      let encryptedEncapsulatedPacket ← if 16 ≤ src.length then some (src.drop 16) else none
      return .ok <| .packetData {
        receiverIdx
        counter := UInt64.ofNat counter.val.leNat
        encryptedEncapsulatedPacket
      }
    else
      return .error .invalidPacket

theorem parseIncomingPacketIndexed_eq (src : Bytes)
    : parseIncomingPacketIndexed src = some (parseIncomingPacket src) := by
  unfold parseIncomingPacketIndexed parseIncomingPacket
  by_cases hshort : src.length < 4
  . rw [if_pos hshort, if_pos hshort]
  . rw [if_neg hshort, if_neg hshort, FixedBytes.index_of_le (by omega)]
    simp only [Option.bind_eq_bind, Option.bind_some, FixedBytes.val_slice]
    split
    . next h =>
      have hlen : src.length = 148 := h.2
      rw [u32Indexed_of_le (by omega), FixedBytes.index_of_le (by omega),
        FixedBytes.index_of_le (by omega), FixedBytes.index_of_le (by omega)]
      rfl
    . split
      . next h =>
        have hlen : src.length = 92 := h.2
        rw [u32Indexed_of_le (by omega), u32Indexed_of_le (by omega),
          FixedBytes.index_of_le (by omega), FixedBytes.index_of_le (by omega)]
        rfl
      . split
        . next h =>
          have hlen : src.length = 64 := h.2
          rw [u32Indexed_of_le (by omega), FixedBytes.index_of_le (by omega),
            FixedBytes.index_of_le (by omega)]
          rfl
        . split
          . next h =>
            have hlen : 32 ≤ src.length := h.2
            rw [u32Indexed_of_le (by omega), FixedBytes.index_of_le (by omega)]
            simp only [Option.bind_some, FixedBytes.val_slice]
            rw [if_pos (by omega)]
            rfl
          . rfl

end Indexed

section Kinds

inductive PacketKind where
  | handshakeInit
  | handshakeResponse
  | packetCookieReply
  | packetData

def Packet.kind : Packet → PacketKind
  | .handshakeInit _ => .handshakeInit
  | .handshakeResponse _ => .handshakeResponse
  | .packetCookieReply _ => .packetCookieReply
  | .packetData _ => .packetData

/--
The type and the length with which a message is taken for one of this kind.
-/
def PacketKind.Matches (kind : PacketKind) (src : Bytes) : Prop :=
  match kind with
  | .handshakeInit => (src.slice 0 4).leNat = handshakeInitType ∧ src.length = handshakeInitSz
  | .handshakeResponse => (src.slice 0 4).leNat = handshakeRespType ∧ src.length = handshakeRespSz
  | .packetCookieReply => (src.slice 0 4).leNat = cookieReplyType ∧ src.length = cookieReplySz
  | .packetData => (src.slice 0 4).leNat = dataType ∧ dataOverheadSz ≤ src.length

variable {src : Bytes} {kind kind' : PacketKind}

theorem PacketKind.Matches.unique (h : kind.Matches src) (h' : kind'.Matches src)
    : kind = kind' := by
  cases kind <;> cases kind' <;> first
    | rfl
    | (have htype := h.1.symm.trans h'.1
       contradiction)

theorem matches_of_parseIncomingPacket {packet : Packet}
    (h : parseIncomingPacket src = .ok packet)
    : packet.kind.Matches src := by
  unfold parseIncomingPacket at h
  dsimp only at h
  split at h
  . simp at h
  . split at h
    . next hinit =>
      cases h
      exact hinit
    . split at h
      . next hresp =>
        cases h
        exact hresp
      . split at h
        . next hcookie =>
          cases h
          exact hcookie
        . split at h
          . next hdata =>
            cases h
            exact hdata
          . simp at h

theorem PacketKind.Matches.length_le (h : kind.Matches src) : 32 ≤ src.length := by
  cases kind with
  | handshakeInit => simp [h.2, handshakeInitSz]
  | handshakeResponse => simp [h.2, handshakeRespSz]
  | packetCookieReply => simp [h.2, cookieReplySz]
  | packetData => exact h.2

theorem PacketKind.Matches.parse (h : kind.Matches src)
    : ∃ packet, parseIncomingPacket src = .ok packet ∧ packet.kind = kind := by
  have hlen := h.length_le
  have hok : ∃ packet, parseIncomingPacket src = .ok packet := by
    unfold parseIncomingPacket
    rw [if_neg (by omega)]
    dsimp only
    split
    . exact ⟨_, rfl⟩
    . split
      . exact ⟨_, rfl⟩
      . split
        . exact ⟨_, rfl⟩
        . split
          . exact ⟨_, rfl⟩
          . cases kind <;> contradiction
  obtain ⟨packet, hpacket⟩ := hok
  exact ⟨packet, hpacket, (matches_of_parseIncomingPacket hpacket).unique h⟩

end Kinds

end Noise
