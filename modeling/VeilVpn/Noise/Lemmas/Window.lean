import VeilVpn.Noise.Impl.Session
import VeilVpn.Window

namespace Noise

namespace ReceivingKeyCounterValidator

variable {v v' : ReceivingKeyCounterValidator} {idx counter : UInt64}

section Bits

theorem toNat_bitOf (idx : UInt64) : (bitOf idx).toNat = idx.toNat % 64 := by
  simp [bitOf, nBits, wordSize, nWords]

theorem bitOf_lt (idx : UInt64) : (bitOf idx).toNat < 64 := by
  rw [toNat_bitOf]
  omega

theorem wordOf_eq (idx : UInt64) : wordOf idx = Fin.ofNat 16 (idx.toNat % 1024 / 64) := by
  simp [wordOf, nBits, wordSize, nWords]

def wordBit (word : UInt64) (i : Nat) : Bool :=
  word.toBitVec.getLsbD i

theorem and_one_eq_iff (word : UInt64) {bit : UInt64} (hbit : bit.toNat < 64)
    : (word >>> bit) &&& 1 = 1 ↔ wordBit word bit.toNat = true := by
  have hmod : bit.toNat % 64 = bit.toNat := Nat.mod_eq_of_lt hbit
  rw [← UInt64.toNat_inj]
  simp [wordBit, hmod, BitVec.getLsbD, Nat.testBit_eq_decide_div_mod_eq,
    Nat.shiftRight_eq_div_pow, Nat.and_one_is_mod]

theorem wordBit_or (word : UInt64) {bit : UInt64} (hbit : bit.toNat < 64) {i : Nat} (hi : i < 64)
    : wordBit (word ||| (1 <<< bit)) i = (decide (i = bit.toNat) || wordBit word i) := by
  have hmod : bit.toNat % 64 = bit.toNat := Nat.mod_eq_of_lt hbit
  simp only [wordBit, UInt64.toBitVec_or, UInt64.toBitVec_shiftLeft, BitVec.getLsbD_or]
  simp [hmod, hi]
  grind

theorem wordBit_and_not (word : UInt64) {bit : UInt64} (hbit : bit.toNat < 64) {i : Nat}
    (hi : i < 64)
    : wordBit (word &&& ~~~(1 <<< bit)) i = (!decide (i = bit.toNat) && wordBit word i) := by
  have hmod : bit.toNat % 64 = bit.toNat := Nat.mod_eq_of_lt hbit
  simp only [wordBit, UInt64.toBitVec_and, UInt64.toBitVec_not, UInt64.toBitVec_shiftLeft,
    BitVec.getLsbD_and]
  simp [hmod, hi]
  grind

def bitAt (v : ReceivingKeyCounterValidator) (c : Nat) : Bool :=
  wordBit (v.bitmap (Fin.ofNat 16 (c % 1024 / 64))) (c % 64)

theorem checkBit_eq (v : ReceivingKeyCounterValidator) (idx : UInt64)
    : v.checkBit idx = v.bitAt idx.toNat := by
  rw [Bool.eq_iff_iff]
  simp only [checkBit, decide_eq_true_eq, bitAt]
  rw [and_one_eq_iff _ (bitOf_lt idx), toNat_bitOf, wordOf_eq]

theorem ofNat_word_inj {c c' : Nat}
    : Fin.ofNat 16 (c % 1024 / 64) = Fin.ofNat 16 (c' % 1024 / 64)
        ↔
      c % 1024 / 64 = c' % 1024 / 64 := by
  simp only [Fin.ext_iff, Fin.val_ofNat]
  omega

theorem mod_eq_iff {c c' : Nat}
    : c % 1024 = c' % 1024 ↔ c % 1024 / 64 = c' % 1024 / 64 ∧ c % 64 = c' % 64 := by
  omega

theorem bitAt_update (c : Nat) (word : UInt64)
    : bitAt { v with bitmap := Function.update v.bitmap (wordOf idx) word } c
        =
      if c % 1024 / 64 = idx.toNat % 1024 / 64 then wordBit word (c % 64) else v.bitAt c := by
  simp only [bitAt, wordOf_eq, Function.update_apply, ofNat_word_inj]
  split <;> rfl

theorem bitAt_setBit (v : ReceivingKeyCounterValidator) (idx : UInt64) (c : Nat)
    : (v.setBit idx).bitAt c = (decide (c % 1024 = idx.toNat % 1024) || v.bitAt c) := by
  simp only [setBit, bitAt_update, mod_eq_iff]
  split
  . next hword =>
    rw [wordBit_or _ (bitOf_lt idx) (Nat.mod_lt c (by omega)), toNat_bitOf, wordOf_eq, ← hword]
    simp [bitAt]
  . next hword => simp [hword]

theorem bitAt_clearBit (v : ReceivingKeyCounterValidator) (idx : UInt64) (c : Nat)
    : (v.clearBit idx).bitAt c = (!decide (c % 1024 = idx.toNat % 1024) && v.bitAt c) := by
  simp only [clearBit, bitAt_update, mod_eq_iff]
  split
  . next hword =>
    rw [wordBit_and_not _ (bitOf_lt idx) (Nat.mod_lt c (by omega)), toNat_bitOf, wordOf_eq, ← hword]
    simp [bitAt]
  . next hword => simp [hword]

theorem bitAt_clearWord (v : ReceivingKeyCounterValidator) (idx : UInt64) (c : Nat)
    : (v.clearWord idx).bitAt c
        = (!decide (c % 1024 / 64 = idx.toNat % 1024 / 64) && v.bitAt c) := by
  simp only [clearWord, bitAt_update]
  split
  . next hword => simp [hword, wordBit]
  . next hword => simp [hword]

end Bits

section Clear

structure Cleared (v : ReceivingKeyCounterValidator) (start stop : Nat)
    (v' : ReceivingKeyCounterValidator) : Prop where
  next : v'.next = v.next
  bit : ∀ c, v'.bitAt c = true ↔
    v.bitAt c = true ∧ ∀ i, start ≤ i → i < stop → c % 1024 ≠ i % 1024

variable {start stop : Nat}

theorem cleared_self (v : ReceivingKeyCounterValidator) (start : Nat) : Cleared v start start v where
  next := rfl
  bit := by
    intro c
    constructor
    . intro h
      exact ⟨h, fun i hle hlt => by omega⟩
    . exact And.left

theorem Cleared.clearBit (h : Cleared v start idx.toNat v') (hstart : start ≤ idx.toNat)
    : Cleared v start (idx.toNat + 1) (v'.clearBit idx) where
  next := h.next
  bit := by
    intro c
    rw [bitAt_clearBit, Bool.and_eq_true, h.bit]
    simp only [Bool.not_eq_true', decide_eq_false_iff_not]
    constructor
    . rintro ⟨hne, hbit, hclear⟩
      refine ⟨hbit, ?_⟩
      intro i hle hlt
      rcases Nat.lt_succ_iff_lt_or_eq.mp hlt with hlt | rfl
      . exact hclear i hle hlt
      . exact hne
    . rintro ⟨hbit, hclear⟩
      exact ⟨hclear _ hstart (by omega), hbit, fun i hle hlt => hclear i hle (by omega)⟩

theorem Cleared.clearWord (h : Cleared v start idx.toNat v') (hstart : start ≤ idx.toNat)
    (haligned : idx.toNat % 64 = 0)
    : Cleared v start (idx.toNat + 64) (v'.clearWord idx) where
  next := h.next
  bit := by
    intro c
    rw [bitAt_clearWord, Bool.and_eq_true, h.bit]
    simp only [Bool.not_eq_true', decide_eq_false_iff_not]
    constructor
    . rintro ⟨hne, hbit, hclear⟩
      refine ⟨hbit, ?_⟩
      intro i hle hlt
      by_cases hi : i < idx.toNat
      . exact hclear i hle hi
      . omega
    . rintro ⟨hbit, hclear⟩
      refine ⟨?_, hbit, fun i hle hlt => hclear i hle (by omega)⟩
      -- The counter of the word that shares its bit with `c`
      have hne := hclear (idx.toNat + c % 64) (by omega) (by omega)
      omega

/--
The state of the loops in `clearSkipped`: the bits from `v.next` to `i` are cleared.
-/
structure Clearing (v : ReceivingKeyCounterValidator) (counter : UInt64)
    (s : ReceivingKeyCounterValidator × UInt64) : Prop where
  le : v.next.toNat ≤ s.2.toNat
  ge : s.2.toNat ≤ counter.toNat
  cleared : Cleared v v.next.toNat s.2.toNat s.1

variable {s : ReceivingKeyCounterValidator × UInt64}

theorem toNat_add_of_lt {a b : UInt64} (h : a.toNat + b.toNat < 2 ^ 64)
    : (a + b).toNat = a.toNat + b.toNat := by
  rw [UInt64.toNat_add, Nat.mod_eq_of_lt h]

theorem Clearing.clearBit (h : Clearing v counter s) (hlt : s.2 < counter)
    : Clearing v counter (s.1.clearBit s.2, s.2 + 1) := by
  have hlt : s.2.toNat < counter.toNat := hlt
  have hcounter := counter.toNat_lt
  have hadd : (s.2 + 1).toNat = s.2.toNat + 1 := toNat_add_of_lt (by simp; omega)
  refine ⟨?_, ?_, ?_⟩
  . rw [hadd]
    have := h.le
    omega
  . rw [hadd]
    omega
  . rw [hadd]
    exact h.cleared.clearBit h.le

theorem and_mask_of_aligned {a : UInt64} (h : a.toNat % 64 = 0) : a &&& (0 - wordSize) = a := by
  apply UInt64.toNat_inj.mp
  obtain ⟨k, hk⟩ := Nat.dvd_of_mod_eq_zero h
  have hlt := a.toNat_lt
  have hmask : (0 - wordSize).toNat = 2 ^ 6 * (2 ^ 58 - 1) := by decide
  rw [UInt64.toNat_and, hmask, hk]
  apply Nat.eq_of_testBit_eq
  intro i
  have hpow : 64 * k = 2 ^ 6 * k := by omega
  rw [hpow, Nat.testBit_and, Nat.testBit_two_pow_mul, Nat.testBit_two_pow_mul,
    Nat.testBit_two_pow_sub_one]
  by_cases hi : i - 6 < 58
  . simp only [hi, decide_true, Bool.and_true]
    cases decide (6 ≤ i) <;> simp
  . have hk : k < 2 ^ (i - 6) := Nat.lt_of_lt_of_le (by omega : k < 2 ^ 58)
      (Nat.pow_le_pow_right (by omega) (by omega))
    simp [Nat.testBit_lt_two_pow hk]

theorem Clearing.clearWord (h : Clearing v counter s) (hcounter : counter.toNat + 64 < 2 ^ 64)
    (haligned : s.2.toNat % 64 = 0) (hlt : s.2 + wordSize < counter)
    : Clearing v counter (s.1.clearWord s.2, (s.2 + wordSize) &&& (0 - wordSize))
        ∧
      ((s.2 + wordSize) &&& (0 - wordSize)).toNat = s.2.toNat + 64 := by
  have hge := h.ge
  have hadd : (s.2 + wordSize).toNat = s.2.toNat + 64 :=
    toNat_add_of_lt (by simp [wordSize]; omega)
  have hmask : (s.2 + wordSize) &&& (0 - wordSize) = s.2 + wordSize :=
    and_mask_of_aligned (by omega)
  have hlt : (s.2 + wordSize).toNat < counter.toNat := hlt
  rw [hmask]
  refine ⟨⟨?_, ?_, ?_⟩, hadd⟩
  . rw [hadd]
    have := h.le
    omega
  . exact Nat.le_of_lt hlt
  . rw [hadd]
    exact h.cleared.clearWord h.le haligned

theorem clearing_whileLoop_clearBit (cond : ReceivingKeyCounterValidator × UInt64 → Bool)
    {fuel : Nat} (hcond : ∀ s, cond s = true → s.2 < counter) (hfuel : 2 ^ 64 ≤ fuel) (h : Clearing v counter s)
    : Clearing v counter (whileLoop cond (fun s => (s.1.clearBit s.2, s.2 + 1)) fuel s)
        ∧
      cond (whileLoop cond (fun s => (s.1.clearBit s.2, s.2 + 1)) fuel s) = false := by
  have hcounter := counter.toNat_lt
  apply whileLoop_spec (Clearing v counter) (fun s => counter.toNat - s.2.toNat)
  . intro s hs htrue
    have hlt := hcond s htrue
    have hs' := hs.clearBit hlt
    have hlt : s.2.toNat < counter.toNat := hlt
    have hadd : (s.2 + 1).toNat = s.2.toNat + 1 := toNat_add_of_lt (by simp; omega)
    refine ⟨hs', ?_⟩
    dsimp only
    omega
  . omega
  . exact h

theorem clearing_whileLoop_clearWord {fuel : Nat} (hfuel : 2 ^ 64 ≤ fuel)
    (hcounter : counter.toNat + 64 < 2 ^ 64) (h : Clearing v counter s)
    (haligned : s.2.toNat % 64 = 0 ∨ s.2.toNat = counter.toNat)
    : Clearing v counter (whileLoop (fun s => decide (s.2 + wordSize < counter))
        (fun s => (s.1.clearWord s.2, (s.2 + wordSize) &&& (0 - wordSize))) fuel s) := by
  refine (whileLoop_spec
    (fun s : ReceivingKeyCounterValidator × UInt64 =>
      Clearing v counter s ∧ (s.2.toNat % 64 = 0 ∨ s.2.toNat = counter.toNat))
    (fun s => counter.toNat - s.2.toNat) ?_ (by omega) ⟨h, haligned⟩).1.1
  intro s ⟨hs, haligned⟩ htrue
  have hlt : s.2 + wordSize < counter := of_decide_eq_true htrue
  have hlt' : (s.2 + wordSize).toNat < counter.toNat := hlt
  have hge := hs.ge
  have hadd : (s.2 + wordSize).toNat = s.2.toNat + 64 :=
    toNat_add_of_lt (by simp [wordSize]; omega)
  obtain ⟨hs', hnext⟩ := hs.clearWord hcounter (by omega) hlt
  refine ⟨⟨hs', .inl ?_⟩, ?_⟩
  . dsimp only
    omega
  . dsimp only
    omega

theorem clearing_aligned (h : Clearing v counter s)
    (hcond : (decide (s.2 % wordSize ≠ 0) && decide (s.2 < counter)) = false)
    : s.2.toNat % 64 = 0 ∨ s.2.toNat = counter.toNat := by
  rw [Bool.and_eq_false_iff] at hcond
  rcases hcond with hmod | hlt
  . have hmod : s.2 % wordSize = 0 := by simpa using hmod
    have hnat := congrArg UInt64.toNat hmod
    exact .inl (by simpa [wordSize] using hnat)
  . have hle : counter.toNat ≤ s.2.toNat := UInt64.not_lt.mp (of_decide_eq_false hlt)
    exact .inr (Nat.le_antisymm h.ge hle)

theorem clearSkipped_eq (v : ReceivingKeyCounterValidator) (counter : UInt64)
    : ∃ fuel, 2 ^ 64 ≤ fuel
        ∧
      v.clearSkipped counter
        =
      (whileLoop (fun s => decide (s.2 < counter)) (fun s => (s.1.clearBit s.2, s.2 + 1)) fuel
        (whileLoop (fun s => decide (s.2 + wordSize < counter))
          (fun s => (s.1.clearWord s.2, (s.2 + wordSize) &&& (0 - wordSize))) fuel
          (whileLoop (fun s => decide (s.2 % wordSize ≠ 0) && decide (s.2 < counter))
            (fun s => (s.1.clearBit s.2, s.2 + 1)) fuel (v, v.next)))).1 := by
  obtain ⟨fuel, hfuel⟩ : ∃ fuel, fuel = 2 ^ 64 := ⟨_, rfl⟩
  refine ⟨fuel, Nat.le_of_eq hfuel.symm, ?_⟩
  unfold clearSkipped
  rw [← hfuel]

theorem cleared_clearSkipped (hle : v.next.toNat ≤ counter.toNat)
    (hcounter : counter.toNat + 64 < 2 ^ 64)
    : Cleared v v.next.toNat counter.toNat (v.clearSkipped counter) := by
  obtain ⟨fuel, hfuel, heq⟩ := clearSkipped_eq v counter
  rw [heq]
  obtain ⟨h₁, hcond₁⟩ := clearing_whileLoop_clearBit
    (fun s => decide (s.2 % wordSize ≠ 0) && decide (s.2 < counter)) (by simp) hfuel
    (s := (v, v.next)) ⟨Nat.le_refl _, hle, cleared_self v _⟩
  have haligned := clearing_aligned h₁ hcond₁
  have h₂ := clearing_whileLoop_clearWord hfuel hcounter h₁ haligned
  obtain ⟨h₃, hcond₃⟩ := clearing_whileLoop_clearBit (fun s => decide (s.2 < counter)) (by simp)
    hfuel h₂
  have hge := h₃.ge
  have hle : counter.toNat ≤ _ := UInt64.not_lt.mp (of_decide_eq_false hcond₃)
  rw [Nat.le_antisymm hle hge]
  exact h₃.cleared

end Clear

section Mark

/--
The counters in `seen` were received.
-/
def Represents (v : ReceivingKeyCounterValidator) (seen : Set Nat) : Prop :=
  Window.Represents 1024 v.next.toNat v.bitAt seen

variable {seen : Set Nat}

theorem represents_default : default.Represents ∅ :=
  Window.represents_empty 1024 _

theorem Represents.of_receiveCnt (h : v.Represents seen) (receiveCnt : UInt64)
    : Represents { v with receiveCnt } seen :=
  h

theorem bitAt_zero (c : Nat) : bitAt { v with bitmap := fun _ => 0 } c = false := by
  simp [bitAt, wordBit]

theorem exists_mod_eq (start c : Nat) : ∃ i, start ≤ i ∧ i < start + 1024 ∧ c % 1024 = i % 1024 :=
  ⟨start + (c % 1024 + 1024 - start % 1024) % 1024, by omega, by omega, by omega⟩

theorem toNat_add_nBits (h : counter.toNat + 1024 < 2 ^ 64)
    : (counter + nBits).toNat = counter.toNat + 1024 :=
  toNat_add_of_lt h

def skipTo (v : ReceivingKeyCounterValidator) (counter : UInt64) : ReceivingKeyCounterValidator :=
  if nBits ≤ counter - v.next then
    { v with bitmap := fun _ => 0 }
  else
    v.clearSkipped counter

theorem cleared_skipTo (hlt : v.next.toNat < counter.toNat)
    (hcounter : counter.toNat + 1024 < 2 ^ 64)
    : Cleared v v.next.toNat counter.toNat (v.skipTo counter) := by
  have hsub : (counter - v.next).toNat = counter.toNat - v.next.toNat :=
    UInt64.toNat_sub_of_le _ _ (Nat.le_of_lt hlt)
  unfold skipTo
  split
  . next hfar =>
    have hfar : 1024 ≤ (counter - v.next).toNat := hfar
    refine ⟨rfl, ?_⟩
    intro c
    obtain ⟨i, hle, hlt, heq⟩ := exists_mod_eq v.next.toNat c
    constructor
    . intro hbit
      rw [bitAt_zero] at hbit
      contradiction
    . intro ⟨_, hclear⟩
      exact absurd heq (hclear i hle (by omega))
  . exact cleared_clearSkipped (Nat.le_of_lt hlt) (by omega)

theorem Represents.skip (h : v.Represents seen) (hlt : v.next.toNat < counter.toNat)
    (hcounter : counter.toNat + 1024 < 2 ^ 64)
    : Represents { (v.skipTo counter).setBit counter with next := counter + 1 }
        (insert counter.toNat seen) := by
  have hcleared := cleared_skipTo hlt hcounter
  have hnext : (counter + 1).toNat = counter.toNat + 1 := toNat_add_of_lt (by simp; omega)
  have hbit (c : Nat) : bitAt { (v.skipTo counter).setBit counter with next := counter + 1 } c
      = (decide (c % 1024 = counter.toNat % 1024) || (v.skipTo counter).bitAt c) :=
    bitAt_setBit _ _ _
  unfold Represents
  rw [hnext]
  apply h.advance (Nat.le_of_lt hlt)
  . rw [hbit]
    simp
  . intro i hle hlt hwindow
    rw [hbit, Bool.or_eq_false_iff, decide_eq_false_iff_not, Bool.eq_false_iff, Ne, hcleared.bit]
    refine ⟨by omega, ?_⟩
    intro ⟨_, hclear⟩
    exact hclear i hle hlt rfl
  . intro i hi hwindow
    rw [hbit, Bool.eq_iff_iff, Bool.or_eq_true, decide_eq_true_eq, hcleared.bit]
    constructor
    . rintro (heq | hbit)
      . omega
      . exact hbit.1
    . intro hbit
      exact .inr ⟨hbit, fun j hle hlt => by omega⟩

theorem Represents.receive_next (h : v.Represents seen)
    (hcounter : v.next.toNat + 1024 < 2 ^ 64)
    : Represents { v.setBit v.next with next := v.next + 1 } (insert v.next.toNat seen) := by
  have hnext : (v.next + 1).toNat = v.next.toNat + 1 := toNat_add_of_lt (by simp; omega)
  have hbit (c : Nat) : bitAt { v.setBit v.next with next := v.next + 1 } c
      = (decide (c % 1024 = v.next.toNat % 1024) || v.bitAt c) :=
    bitAt_setBit _ _ _
  unfold Represents
  rw [hnext]
  apply h.advance (Nat.le_refl _)
  . rw [hbit]
    simp
  . intro i hle hlt
    omega
  . intro i hi hwindow
    rw [hbit]
    simp only [Bool.or_eq_right_iff_imp, decide_eq_true_eq]
    omega

theorem Represents.receive_old (h : v.Represents seen) (hlt : counter.toNat < v.next.toNat)
    (hwindow : v.next.toNat ≤ counter.toNat + 1024)
    : (v.setBit counter).Represents (insert counter.toNat seen) := by
  apply h.fill hlt
  . rw [bitAt_setBit]
    simp
  . intro i hne hi hle
    rw [bitAt_setBit]
    simp only [Bool.or_eq_right_iff_imp, decide_eq_true_eq]
    omega

/--
A counter is accepted exactly if it was not seen and is not too far back.
-/
def Fresh (v : ReceivingKeyCounterValidator) (seen : Set Nat) (c : Nat) : Prop :=
  v.next.toNat ≤ c + 1024 ∧ c ∉ seen

theorem Represents.markDidReceive (h : v.Represents seen) (hcounter : counter.toNat + 1024 < 2 ^ 64)
    : (v.Fresh seen counter.toNat
        ∧ ∃ v', v.markDidReceive counter = (v', .ok ()) ∧ v'.Represents (insert counter.toNat seen))
        ∨
      (¬v.Fresh seen counter.toNat ∧ ∃ e, v.markDidReceive counter = (v, .error e)) := by
  have hadd := toNat_add_nBits hcounter
  have hnotMem (hle : v.next.toNat ≤ counter.toNat) : counter.toNat ∉ seen :=
    fun hmem => absurd (h.lt_next _ hmem) (Nat.not_lt.mpr hle)
  unfold ReceivingKeyCounterValidator.markDidReceive
  split
  . next hback =>
    have hback : (counter + nBits).toNat < v.next.toNat := hback
    exact .inr ⟨fun hfresh => by have := hfresh.1; omega, _, rfl⟩
  . next hback =>
    have hwindow : v.next.toNat ≤ (counter + nBits).toNat := UInt64.not_lt.mp hback
    rw [hadd] at hwindow
    split
    . next heq =>
      subst heq
      exact .inl ⟨⟨hwindow, hnotMem (Nat.le_refl _)⟩, _, rfl, h.receive_next hcounter⟩
    . next hne =>
      split
      . next hlt =>
        have hlt : counter.toNat < v.next.toNat := hlt
        have hiff := h.bit_iff _ hlt hwindow
        rw [checkBit_eq]
        split
        . next hbit =>
          exact .inr ⟨fun hfresh => hfresh.2 (hiff.mp hbit), _, rfl⟩
        . next hbit =>
          exact .inl ⟨⟨hwindow, fun hmem => hbit (hiff.mpr hmem)⟩, _, rfl,
            h.receive_old hlt hwindow⟩
      . next hnotLt =>
        have hle : v.next.toNat ≤ counter.toNat := UInt64.not_lt.mp hnotLt
        have hlt : v.next.toNat < counter.toNat :=
          Nat.lt_of_le_of_ne hle fun heq => hne (UInt64.toNat_inj.mp heq.symm)
        exact .inl ⟨⟨hwindow, hnotMem hle⟩, _, rfl, h.skip hlt hcounter⟩

end Mark

end ReceivingKeyCounterValidator

end Noise
