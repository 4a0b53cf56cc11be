import VeilVpn.OnesComplement
import VeilVpn.Payment.Lemmas.Protocol

namespace Payment

open OnesComplement (Same words)

section Fold

theorem toNat_shiftRight_16 (sum : UInt32) : (sum >>> 16).toNat = sum.toNat / (0xFFFF + 1) := by
  simp [Nat.shiftRight_eq_div_pow]

theorem toNat_foldCarry (sum : UInt32)
    : (foldCarry sum).toNat = sum.toNat % (0xFFFF + 1) + sum.toNat / (0xFFFF + 1) := by
  have hlt := sum.toNat_lt
  have hlow : sum.toNat &&& 0xFFFF = sum.toNat % 2 ^ 16 := Nat.and_two_pow_sub_one_eq_mod _ 16
  simp only [foldCarry, UInt32.toNat_add, UInt32.toNat_and, toNat_shiftRight_16, UInt32.reduceToNat,
    hlow]
  omega

theorem shiftRight_eq_zero_iff (sum : UInt32) : sum >>> 16 = 0 ↔ sum.toNat ≤ 0xFFFF := by
  rw [← UInt32.toNat_inj, toNat_shiftRight_16, UInt32.toNat_zero]
  omega

theorem same_iterate_foldCarry (sum : UInt32) (k : Nat)
    : Same 0xFFFF (foldCarry^[k] sum).toNat sum.toNat := by
  induction k with
  | zero => exact .refl _ _
  | succ k ih =>
    rw [Function.iterate_succ_apply', toNat_foldCarry]
    exact (OnesComplement.same_carry _ _).trans ih

/--
The carries of the first round are at most one, which the second brings back.
-/
theorem exists_rounds (sum : UInt32)
    : ∃ k ≤ 2, (∀ j < k, (foldCarry^[j] sum) >>> 16 ≠ 0) ∧ (foldCarry^[k] sum) >>> 16 = 0 := by
  simp only [ne_eq, shiftRight_eq_zero_iff]
  by_cases hnone : sum.toNat ≤ 0xFFFF
  . exact ⟨0, by omega, by omega, hnone⟩
  by_cases hone : (foldCarry sum).toNat ≤ 0xFFFF
  . refine ⟨1, by omega, ?_, hone⟩
    intro j hj
    have hzero : j = 0 := by omega
    rw [hzero]
    exact hnone
  . refine ⟨2, by omega, ?_, ?_⟩
    . intro j hj
      have hj : j = 0 ∨ j = 1 := by omega
      rcases hj with rfl | rfl
      . exact hnone
      . exact hone
    . have hlt := sum.toNat_lt
      have htwo : foldCarry^[2] sum = foldCarry (foldCarry sum) := rfl
      rw [toNat_foldCarry] at hone
      rw [htwo, toNat_foldCarry, toNat_foldCarry]
      omega

theorem foldLoop_ends (sum : UInt32)
    : ∃ k ≤ 2, (∀ j < k, (foldCarry^[j] sum) >>> 16 ≠ 0)
        ∧
      (foldCarry^[k] sum) >>> 16 = 0
        ∧
      ∀ fuel, 2 ≤ fuel →
        whileLoop (fun sum : UInt32 => sum >>> 16 ≠ 0) foldCarry fuel sum = foldCarry^[k] sum := by
  obtain ⟨k, hk, hrounds, hend⟩ := exists_rounds sum
  refine ⟨k, hk, hrounds, hend, ?_⟩
  intro fuel hfuel
  apply whileLoop_eq_iterate
  . exact fun j hj => decide_eq_true (hrounds j hj)
  . exact decide_eq_false (not_not_intro hend)
  . omega

end Fold

section Sum

/--
The sum of a header with all carries brought back, which the checksum is the complement of.
-/
def foldedSum (header : Bytes) : UInt32 :=
  whileLoop (fun sum : UInt32 => sum >>> 16 ≠ 0) foldCarry (2 ^ 32) (sumWords 0 header)

theorem foldedSum_spec (header : Bytes)
    : (foldedSum header).toNat ≤ 0xFFFF
        ∧
      Same 0xFFFF (foldedSum header).toNat (sumWords 0 header).toNat := by
  obtain ⟨k, _, _, hend, hloop⟩ := foldLoop_ends (sumWords 0 header)
  have hfolded : foldedSum header = foldCarry^[k] (sumWords 0 header) := hloop _ (by decide)
  rw [hfolded]
  exact ⟨(shiftRight_eq_zero_iff _).mp hend, same_iterate_foldCarry _ k⟩

theorem toNat_sumWords {sum : UInt32} {b : Bytes} (hlt : sum.toNat + (words b).sum < 2 ^ 32)
    : (sumWords sum b).toNat = sum.toNat + (words b).sum := by
  fun_induction sumWords sum b with
  | case1 => rfl
  | case2 sum hi =>
    have hhi := hi.toNat_lt
    simp only [words, List.sum_cons, List.sum_nil] at hlt ⊢
    simp only [UInt32.toNat_add, UInt32.toNat_mul, UInt8.toNat_toUInt32, UInt32.reduceToNat]
    omega
  | case3 sum hi lo rest ih =>
    have hhi := hi.toNat_lt
    have hlo := lo.toNat_lt
    simp only [words, List.sum_cons] at hlt ⊢
    have hword : (sum + (hi.toUInt32 * 256 + lo.toUInt32)).toNat
        = sum.toNat + (hi.toNat * 256 + lo.toNat) := by
      simp only [UInt32.toNat_add, UInt32.toNat_mul, UInt8.toNat_toUInt32, UInt32.reduceToNat]
      omega
    rw [ih (by omega), hword]
    omega

/--
Below this length the words cannot sum up to more than the register of the sum has.
-/
theorem same_foldedSum {b : Bytes} (hlen : b.length < 2 ^ 17)
    : Same 0xFFFF (foldedSum b).toNat (words b).sum := by
  have hle := OnesComplement.sum_words_le b
  have hsum : (sumWords 0 b).toNat = (words b).sum := by
    rw [toNat_sumWords, UInt32.toNat_zero, Nat.zero_add]
    rw [UInt32.toNat_zero]
    omega
  rw [← hsum]
  exact (foldedSum_spec b).2

theorem toNat_ipChecksum (b : Bytes) : (ipChecksum b).toNat = 0xFFFF - (foldedSum b).toNat := by
  have hle := (foldedSum_spec b).1
  have hfolded : ipChecksum b = ~~~(foldedSum b).toUInt16 := rfl
  rw [hfolded, UInt16.toNat_not, UInt32.toNat_toUInt16, Nat.mod_eq_of_lt (by omega)]
  rfl

theorem same_stored {pre post : Bytes} (hpre : pre.length % 2 = 0)
    (hlen : (pre ++ ([0, 0] ++ post)).length < 2 ^ 17)
    : Same 0xFFFF
        (words (pre ++ (Bytes.beBytes 2 (ipChecksum (pre ++ ([0, 0] ++ post))).toNat ++ post))).sum
        0xFFFF := by
  have hsame := (same_foldedSum hlen).complement (foldedSum_spec _).1
  have hwords : ∀ v < 2 ^ 16, words (pre ++ (Bytes.beBytes 2 v ++ post))
      = words pre ++ ([v] ++ words post) := by
    intro v hv
    rw [OnesComplement.words_append _ _ hpre,
      OnesComplement.words_append _ _ (by rw [Bytes.length_beBytes]),
      OnesComplement.words_beBytes hv]
  have hzero : words (pre ++ ([0, 0] ++ post)) = words pre ++ ([0] ++ words post) :=
    hwords 0 (by decide)
  have hsum : ∀ v, (words pre ++ ([v] ++ words post)).sum
      = (words pre ++ ([0] ++ words post)).sum + v := by
    intro v
    simp only [List.sum_append, List.sum_cons, List.sum_nil]
    omega
  rw [← toNat_ipChecksum, hzero] at hsame
  rw [hwords _ (UInt16.toNat_lt _), hsum]
  exact hsame

theorem foldedSum_stored {pre post : Bytes} (hpre : pre.length % 2 = 0)
    (hlen : (pre ++ ([0, 0] ++ post)).length < 2 ^ 17) {stored : Bytes}
    (hstored : stored
      = pre ++ (Bytes.beBytes 2 (ipChecksum (pre ++ ([0, 0] ++ post))).toNat ++ post))
    : (foldedSum stored).toNat = 0xFFFF ∧ OnesComplement.sum 0xFFFF (words stored) = 0xFFFF := by
  have hsame := same_stored hpre hlen
  rw [← hstored] at hsame
  have hlen : stored.length < 2 ^ 17 := by
    rw [hstored]
    simp only [List.length_append, List.length_cons, List.length_nil, Bytes.length_beBytes] at hlen ⊢
    omega
  constructor
  . exact ((same_foldedSum hlen).trans hsame).eq_of_le (foldedSum_spec _).1 (Nat.le_refl _)
  . exact OnesComplement.sum_eq (fun _ hw => OnesComplement.le_of_mem_words hw) (Nat.le_refl _) hsame

end Sum

section Header

theorem length_ipHeaderStart (totalLen : Nat) : (ipHeaderStart totalLen).length = 10 := by
  simp only [ipHeaderStart, List.length_append, List.length_cons, List.length_nil,
    Bytes.length_beBytes]

theorem take_signalPacket (srcIp dstIp : Ipv4Addr) (payload : Bytes)
    : (signalPacket srcIp dstIp payload).take 20
        =
      ipHeaderStart (20 + (8 + payload.length))
        ++ (Bytes.beBytes 2
            (ipChecksum (ipHeaderStart (20 + (8 + payload.length))
              ++ ([0, 0] ++ (srcIp.val ++ dstIp.val)))).toNat
          ++ (srcIp.val ++ dstIp.val)) := by
  simp [signalPacket, List.take_append, List.take_of_length_le, length_ipHeaderStart]

end Header

/--
The words of the header of every signal packet sum up to all ones, which is what a receiver checks.
So does any header whose checksum was stored in a field of zeros, and the carries are brought back
after two rounds at most.
-/
theorem checksum_verifies
    : (∀ (srcIp dstIp : Ipv4Addr) (payload : Bytes), payload.length ≤ 65507 →
        ∃ packet, buildSignalPacket srcIp dstIp payload = some packet
          ∧
        OnesComplement.sum 0xFFFF (words (packet.take 20)) = 0xFFFF)
        ∧
      (∀ (h : Bytes) (i : Nat), h.length < 2 ^ 17 → i % 2 = 0 → h.slice i (i + 2) = [0, 0] →
        ∀ stored, stored = h.take i ++ (Bytes.beBytes 2 (ipChecksum h).toNat ++ h.drop (i + 2)) →
          (foldedSum stored).toNat = 0xFFFF
            ∧
          OnesComplement.sum 0xFFFF (words stored) = 0xFFFF)
        ∧
      ∀ sum : UInt32,
        ∃ k ≤ 2, (∀ j < k, (foldCarry^[j] sum) >>> 16 ≠ 0)
          ∧
        (foldCarry^[k] sum) >>> 16 = 0
          ∧
        ∀ fuel, 2 ≤ fuel →
          whileLoop (fun sum : UInt32 => sum >>> 16 ≠ 0) foldCarry fuel sum = foldCarry^[k] sum := by
  refine ⟨?_, ?_, foldLoop_ends⟩
  . intro srcIp dstIp payload hlen
    refine ⟨signalPacket srcIp dstIp payload, if_pos (by omega), ?_⟩
    exact (foldedSum_stored (by rw [length_ipHeaderStart]) (by simp [length_ipHeaderStart])
      (take_signalPacket srcIp dstIp payload)).2
  . intro h i hlen hi hslice stored hstored
    have hle : i + 2 ≤ h.length := by
      have hlength := congrArg List.length hslice
      simp only [Bytes.slice, List.length_drop, List.length_take, List.length_cons,
        List.length_nil] at hlength
      omega
    have hsplit : h = h.take i ++ ([0, 0] ++ h.drop (i + 2)) := by
      rw [← hslice]
      exact (Bytes.take_append_slice_append_drop h (by omega)).symm
    have hpre : (h.take i).length % 2 = 0 := by
      rw [List.length_take]
      omega
    rw [hsplit] at hlen
    nth_rewrite 2 [hsplit] at hstored
    exact foldedSum_stored hpre hlen hstored

end Payment
