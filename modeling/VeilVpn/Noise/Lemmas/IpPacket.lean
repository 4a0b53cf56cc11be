import VeilVpn.Noise.Lemmas.Tunn

namespace Noise

namespace Tunn

def ipVersion (packet : Bytes) : Option UInt8 :=
  packet.head?.map fun first : UInt8 => first >>> 4

/--
`p` is the IPv4 packet at the start of `b`, from the address `a`.
-/
structure WholeV4 (b p : Bytes) (a : Ipv4Addr) : Prop where
  start : p <+: b
  length : ipv4MinHeaderSize ≤ p.length
  version : ipVersion p = some 4
  totalLength : (p.slice 2 4).beNat = p.length
  source : p.slice 12 16 = a.val

structure WholeV6 (b p : Bytes) (a : Ipv6Addr) : Prop where
  start : p <+: b
  length : ipv6MinHeaderSize ≤ p.length
  version : ipVersion p = some 6
  payloadLength : (p.slice 4 6).beNat = p.length - ipv6MinHeaderSize
  source : p.slice 8 24 = a.val

/--
A packet that is handed to the TUN interface is a whole one.
-/
def DeliversWhole (b : Bytes) : TunnResult → Prop
  | .writeToTunnelV4 p a => WholeV4 b p a
  | .writeToTunnelV6 p a => WholeV6 b p a
  | _ => True

/--
The header of an IPv4 packet that gives a total length without room for the header itself.
-/
def ShorterThanHeader (b : Bytes) : Prop :=
  ipVersion b = some 4 ∧ ipv4MinHeaderSize ≤ b.length ∧ (b.slice 2 4).beNat < ipv4MinHeaderSize

/--
`validateDecapsulatedPacket` with an index that panics.
-/
def validateDecapsulatedPacketIndexed (t : Tunn) (packet : Bytes) : Option (Tunn × TunnResult) :=
  if packet.length = 0 then
    some (t, .done)
  else do
    let first : UInt8 ← packet[0]?
    let header ←
      if first >>> 4 = 4 ∧ ipv4MinHeaderSize ≤ packet.length then do
        let len ← FixedBytes.index packet 2 2
        let addr ← FixedBytes.index packet 12 4
        some (some (len.val.beNat, IpAddr.v4 addr))
      else if first >>> 4 = 6 ∧ ipv6MinHeaderSize ≤ packet.length then do
        let len ← FixedBytes.index packet 4 2
        let addr ← FixedBytes.index packet 8 16
        some (some (len.val.beNat + ipv6MinHeaderSize, IpAddr.v6 addr))
      else
        some none
    match header with
    | none => some (t, .err .invalidPacket)
    | some (computedLen, srcIpAddress) =>
      if packet.length < computedLen then
        some (t, .err .invalidPacket)
      else do
        let truncated ← packet.index 0 computedLen
        let t := t.timerTick .timeLastDataPacketReceived
        let t := { t with rxBytes := t.rxBytes + computedLen }
        match srcIpAddress with
        | .v4 addr => some (t, .writeToTunnelV4 truncated addr)
        | .v6 addr => some (t, .writeToTunnelV6 truncated addr)

variable {t t' : Tunn} {b p : Bytes} {len : Nat}

theorem ipVersion_of_isPrefix (h : p <+: b) (hne : p ≠ []) : ipVersion p = ipVersion b := by
  obtain ⟨rest, rfl⟩ := h
  unfold ipVersion
  rw [List.head?_append_of_ne_nil _ hne]

theorem wholeV4_iff {a : Ipv4Addr} (hversion : ipVersion b = some 4)
    (hlen : (b.slice 2 4).beNat = len) (hle : len ≤ b.length) (ha : b.slice 12 16 = a.val)
    : WholeV4 b (b.take len) a ↔ ipv4MinHeaderSize ≤ len := by
  constructor
  . intro h
    have hlength := h.length
    rwa [List.length_take_of_le hle] at hlength
  . intro hheader
    unfold ipv4MinHeaderSize at hheader
    have hlength : (b.take len).length = len := List.length_take_of_le hle
    have hne : b.take len ≠ [] := List.ne_nil_of_length_pos (by omega)
    refine ⟨List.take_prefix _ _, ?_, ?_, ?_, ?_⟩
    . rw [hlength]
      exact hheader
    . rw [ipVersion_of_isPrefix (List.take_prefix _ _) hne, hversion]
    . rw [Bytes.slice_take b (by omega), hlen, hlength]
    . rw [Bytes.slice_take b (by omega), ha]

theorem wholeV6 {a : Ipv6Addr} (hversion : ipVersion b = some 6)
    (hlen : (b.slice 4 6).beNat + ipv6MinHeaderSize = len) (hle : len ≤ b.length)
    (ha : b.slice 8 24 = a.val)
    : WholeV6 b (b.take len) a := by
  unfold ipv6MinHeaderSize at hlen
  have hlength : (b.take len).length = len := List.length_take_of_le hle
  have hne : b.take len ≠ [] := List.ne_nil_of_length_pos (by omega)
  refine ⟨List.take_prefix _ _, ?_, ?_, ?_, ?_⟩
  . rw [hlength, ipv6MinHeaderSize]
    omega
  . rw [ipVersion_of_isPrefix (List.take_prefix _ _) hne, hversion]
  . rw [Bytes.slice_take b (by omega), hlength, ipv6MinHeaderSize]
    omega
  . rw [Bytes.slice_take b (by omega), ha]

inductive HeaderCase (b : Bytes) : Option (Nat × IpAddr) → Prop where
  | v4 (a : Ipv4Addr)
    (hversion : ipVersion b = some 4)
    (hb : ipv4MinHeaderSize ≤ b.length)
    (ha : b.slice 12 16 = a.val)
    : HeaderCase b (some ((b.slice 2 4).beNat, .v4 a))
  | v6 (a : Ipv6Addr)
    (hversion : ipVersion b = some 6)
    (ha : b.slice 8 24 = a.val)
    : HeaderCase b (some ((b.slice 4 6).beNat + ipv6MinHeaderSize, .v6 a))
  | invalid
    (h : ¬(ipVersion b = some 4 ∧ ipv4MinHeaderSize ≤ b.length))
    : HeaderCase b none

theorem ipHeader_cases (b : Bytes) : HeaderCase b (ipHeader b) := by
  unfold ipHeader
  split
  . exact .invalid (by simp [ipVersion])
  . next first rest =>
    split
    . next h => exact .v4 _ (congrArg some h.1) h.2 rfl
    . next h =>
      split
      . next h => exact .v6 _ (congrArg some h.1) rfl
      . exact .invalid (by simpa [ipVersion] using h)

theorem validateDecapsulatedPacketIndexed_eq (t : Tunn) (packet : Bytes)
    : validateDecapsulatedPacketIndexed t packet = some (t.validateDecapsulatedPacket packet) := by
  have hcut : ∀ {len : Nat}, ¬packet.length < len → packet.index 0 len = some (packet.take len) := by
    intro len hle
    rw [Bytes.index_of_le (Nat.zero_le _) (Nat.le_of_not_lt hle), Bytes.slice_zero]
  cases packet with
  | nil => rfl
  | cons first rest =>
    unfold validateDecapsulatedPacketIndexed validateDecapsulatedPacket ipHeader
    rw [if_neg (by simp), if_neg (by simp)]
    simp only [List.getElem?_cons_zero, Option.bind_eq_bind, Option.bind_some]
    split
    . next h =>
      have hlen := h.2
      unfold ipv4MinHeaderSize at hlen
      rw [FixedBytes.index_of_le (by omega), FixedBytes.index_of_le (by omega)]
      simp only [Option.bind_some, FixedBytes.val_slice]
      split
      . rfl
      . next hle =>
        rw [hcut hle]
        rfl
    . split
      . next h =>
        have hlen := h.2
        unfold ipv6MinHeaderSize at hlen
        rw [FixedBytes.index_of_le (by omega), FixedBytes.index_of_le (by omega)]
        simp only [Option.bind_some, FixedBytes.val_slice]
        split
        . rfl
        . next hle =>
          rw [hcut hle]
          rfl
      . rfl

theorem not_shorterThanHeader_of_version (h : ipVersion b = some 6) : ¬ShorterThanHeader b := by
  rintro ⟨hversion, _⟩
  simp [h] at hversion

/--
What the tunnel hands to the TUN interface is a whole packet, unless its header gives a length in
which the header itself does not fit. No index is out of bounds.
-/
theorem deliversWhole_iff (t : Tunn) (b : Bytes)
    : t.validateDecapsulatedPacketIndexed b = some (t.validateDecapsulatedPacket b)
        ∧
      (DeliversWhole b (t.validateDecapsulatedPacket b).2 ↔ ¬ShorterThanHeader b) := by
  refine ⟨validateDecapsulatedPacketIndexed_eq t b, ?_⟩
  unfold validateDecapsulatedPacket
  split
  . next hempty =>
    rw [List.isEmpty_iff] at hempty
    subst hempty
    simp [DeliversWhole, ShorterThanHeader, ipVersion]
  . generalize hheader : ipHeader b = header
    cases hheader ▸ ipHeader_cases b with
    | invalid h => exact ⟨fun _ hshort => h ⟨hshort.1, hshort.2.1⟩, fun _ => trivial⟩
    | v4 a hversion hb ha =>
      dsimp only
      split
      . next hlong =>
        refine ⟨fun _ hshort => ?_, fun _ => trivial⟩
        have hlt := hshort.2.2
        omega
      . next hlong =>
        change WholeV4 b (b.take _) a ↔ _
        rw [wholeV4_iff hversion rfl (Nat.le_of_not_lt hlong) ha]
        refine ⟨fun hle hshort => Nat.not_lt_of_le hle hshort.2.2, ?_⟩
        intro hnot
        apply Nat.le_of_not_lt
        exact fun hlt => hnot ⟨hversion, hb, hlt⟩
    | v6 a hversion ha =>
      dsimp only
      split
      . exact ⟨fun _ => not_shorterThanHeader_of_version hversion, fun _ => trivial⟩
      . next hlong =>
        exact ⟨fun _ => not_shorterThanHeader_of_version hversion,
          fun _ => wholeV6 hversion rfl (Nat.le_of_not_lt hlong) ha⟩

/--
An IPv4 packet with the total length zero is handed to the TUN interface as an empty packet.
-/
theorem exists_delivered_without_header
    : (∀ t : Tunn,
        (t.validateDecapsulatedPacket (0x45 :: List.replicate 19 0)).2 = .writeToTunnelV4 [] (.zero 4))
        ∧
      ¬WholeV4 (0x45 :: List.replicate 19 0) [] (.zero 4) := by
  refine ⟨fun _ => rfl, ?_⟩
  intro h
  have hlength := h.length
  simp [ipv4MinHeaderSize] at hlength

end Tunn

end Noise
