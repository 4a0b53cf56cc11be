import Mathlib.Tactic.NormNum.Prime
import VeilVpn.ShiftRegister
import VeilVpn.Device.Impl.Device

namespace Device

section Step

def lfsrStep (x : UInt32) : UInt32 :=
  (x >>> 1) ^^^ ((0 - (x &&& 1)) &&& 0xd80000)

theorem IndexLfsr.next_eq_some {l l' : IndexLfsr} {index : UInt32} (h : l.next = some (l', index))
    : l' = { l with lfsr := lfsrStep l.lfsr }
        ∧
      index = (l.lfsr - 1) ^^^ l.mask
        ∧
      lfsrStep l.lfsr ≠ l.initial := by
  unfold IndexLfsr.next at h
  dsimp only at h
  split at h
  . simp at h
  . next hne =>
    cases h
    exact ⟨rfl, rfl, hne⟩

theorem toNat_lfsrStep (x : UInt32)
    : (lfsrStep x).toNat = ShiftRegister.step 0xd80000 x.toNat := by
  have hbit : x &&& 1 = if x.toNat.testBit 0 then 1 else 0 := by
    apply UInt32.toNat_inj.mp
    rw [UInt32.toNat_and, UInt32.toNat_one, Nat.and_one_is_mod, Nat.testBit_zero]
    rcases Nat.mod_two_eq_zero_or_one x.toNat with heven | hodd
    . simp [heven]
    . simp [hodd]
  rw [lfsrStep, hbit, ShiftRegister.step]
  cases x.toNat.testBit 0 <;> simp [Nat.shiftRight_eq_div_pow]

theorem RandomIndex.toNat_pos (x : RandomIndex) : 0 < x.val.toNat :=
  UInt32.lt_iff_toNat_lt.mp x.property.1

theorem RandomIndex.toNat_lt (x : RandomIndex) : x.val.toNat < 2 ^ 24 := by
  have hle := UInt32.le_iff_toNat_le.mp x.property.2
  simp only [UInt32.reduceToNat] at hle
  omega

theorem lfsrStep_mem (x : RandomIndex) : 0 < lfsrStep x.val ∧ lfsrStep x.val ≤ 0xffffff := by
  have hlt : ShiftRegister.step 0xd80000 x.val.toNat < 2 ^ 24 :=
    ShiftRegister.step_lt (by decide) x.toNat_lt
  rw [UInt32.lt_iff_toNat_lt, UInt32.le_iff_toNat_le, toNat_lfsrStep]
  refine ⟨ShiftRegister.step_pos (n := 23) (by decide) x.toNat_lt x.toNat_pos, ?_⟩
  simp only [UInt32.reduceToNat]
  omega

def RandomIndex.next (x : RandomIndex) : RandomIndex :=
  ⟨lfsrStep x.val, lfsrStep_mem x⟩

theorem RandomIndex.toNat_injective
    : Function.Injective fun x : RandomIndex => x.val.toNat := by
  intro x y h
  exact Subtype.ext (UInt32.toNat_inj.mp h)

theorem RandomIndex.toNat_next (x : RandomIndex)
    : x.next.val.toNat = ShiftRegister.step 0xd80000 x.val.toNat :=
  toNat_lfsrStep x.val

theorem RandomIndex.next_injective : Function.Injective RandomIndex.next := by
  intro x y h
  have h := congrArg (fun z : RandomIndex => z.val.toNat) h
  rw [x.toNat_next, y.toNat_next] at h
  exact RandomIndex.toNat_injective
    (ShiftRegister.step_injOn (n := 23) (by decide) x.toNat_lt y.toNat_lt h)

/--
The index that is handed out when the register has the value `x`.
-/
def RandomIndex.index (x mask : RandomIndex) : UInt32 :=
  (x.val - 1) ^^^ mask.val

theorem RandomIndex.toNat_index_lt (x mask : RandomIndex) : (x.index mask).toNat < 2 ^ 24 := by
  have hlt := x.toNat_lt
  have hone : 1 ≤ x.val := by
    rw [UInt32.le_iff_toNat_le, UInt32.toNat_one]
    exact x.toNat_pos
  rw [RandomIndex.index, UInt32.toNat_xor]
  refine Nat.xor_lt_two_pow ?_ mask.toNat_lt
  rw [UInt32.toNat_sub_of_le _ _ hone, UInt32.toNat_one]
  omega

theorem RandomIndex.index_injective (mask : RandomIndex)
    : Function.Injective fun x : RandomIndex => x.index mask := by
  intro x y h
  apply Subtype.ext
  have h : x.val - 1 = y.val - 1 := by
    have hxor := congrArg (· ^^^ mask.val) h
    simpa only [RandomIndex.index, UInt32.xor_assoc, UInt32.xor_self, UInt32.xor_zero] using hxor
  rw [← UInt32.sub_add_cancel x.val 1, h, UInt32.sub_add_cancel]

end Step

section Period

theorem primitive_lfsr : ShiftRegister.Primitive 0xd80000 23 [3, 3, 5, 7, 13, 17, 241] where
  lt := by decide
  high := by decide
  prod := by decide
  prime := by norm_num
  period := by decide +kernel
  minimal := by decide +kernel

theorem RandomIndex.toNat_iterate_next (x : RandomIndex) (k : Nat)
    : (RandomIndex.next^[k] x).val.toNat = (ShiftRegister.step 0xd80000)^[k] x.val.toNat := by
  have hsemiconj : Function.Semiconj (fun x : RandomIndex => x.val.toNat) RandomIndex.next
      (ShiftRegister.step 0xd80000) := RandomIndex.toNat_next
  exact hsemiconj.iterate_right k x

theorem RandomIndex.minimalPeriod_next (x : RandomIndex)
    : Function.minimalPeriod RandomIndex.next x = 2 ^ 24 - 1 := by
  rw [← primitive_lfsr.minimalPeriod_step x.toNat_pos x.toNat_lt,
    Function.minimalPeriod_eq_minimalPeriod_iff]
  intro k
  unfold Function.IsPeriodicPt Function.IsFixedPt
  rw [← x.toNat_iterate_next]
  exact RandomIndex.toNat_injective.eq_iff.symm

theorem RandomIndex.iterate_next_eq_iff (x : RandomIndex) (k : Nat)
    : RandomIndex.next^[k] x = x ↔ 2 ^ 24 - 1 ∣ k := by
  rw [← x.minimalPeriod_next]
  exact Function.isPeriodicPt_iff_minimalPeriod_dvd

end Period

section Calls

/--
The register after `k` calls of `next`, if none of them failed.
-/
def IndexLfsr.calls (l : IndexLfsr) : Nat → Option IndexLfsr
  | 0 => some l
  | k + 1 => (l.calls k).bind fun l => l.next.map Prod.fst

theorem IndexLfsr.next_eq (l : IndexLfsr)
    : l.next.map Prod.fst
        =
      if lfsrStep l.lfsr = l.initial then none else some { l with lfsr := lfsrStep l.lfsr } := by
  unfold IndexLfsr.next lfsrStep
  dsimp only
  split <;> rfl

variable (seed : RandomIndex) (mask : UInt32)

theorem IndexLfsr.next_iterate (k : Nat)
    : (IndexLfsr.mk seed.val (RandomIndex.next^[k] seed).val mask).next.map Prod.fst
        =
      if 2 ^ 24 - 1 ∣ k + 1 then
        none
      else
        some ⟨seed.val, (RandomIndex.next^[k + 1] seed).val, mask⟩ := by
  have hstep : lfsrStep (RandomIndex.next^[k] seed).val = (RandomIndex.next^[k + 1] seed).val := by
    rw [Function.iterate_succ_apply']
    rfl
  rw [IndexLfsr.next_eq]
  dsimp only
  simp only [hstep, ← seed.iterate_next_eq_iff, Subtype.ext_iff]

theorem IndexLfsr.calls_of_le {k : Nat} (hk : k ≤ 2 ^ 24 - 2)
    : (IndexLfsr.mk seed.val seed.val mask).calls k
        =
      some ⟨seed.val, (RandomIndex.next^[k] seed).val, mask⟩ := by
  induction k with
  | zero => rfl
  | succ k ih =>
    have hndvd : ¬ 2 ^ 24 - 1 ∣ k + 1 := by
      intro hdvd
      have hle := Nat.le_of_dvd (by omega) hdvd
      omega
    rw [IndexLfsr.calls, ih (by omega), Option.bind_some, IndexLfsr.next_iterate, if_neg hndvd]

theorem IndexLfsr.calls_of_lt {k : Nat} (hk : 2 ^ 24 - 2 < k)
    : (IndexLfsr.mk seed.val seed.val mask).calls k = none := by
  induction k, hk using Nat.le_induction with
  | base =>
    rw [IndexLfsr.calls, IndexLfsr.calls_of_le seed mask (Nat.le_refl _), Option.bind_some,
      IndexLfsr.next_iterate, if_pos (by decide)]
  | succ k _ ih =>
    rw [IndexLfsr.calls, ih]
    rfl

theorem IndexLfsr.calls_isSome_iff (k : Nat)
    : ((IndexLfsr.mk seed.val seed.val mask).calls k).isSome ↔ k ≤ 2 ^ 24 - 2 := by
  rcases Nat.lt_or_ge (2 ^ 24 - 2) k with hlt | hle
  . rw [IndexLfsr.calls_of_lt seed mask hlt]
    simp only [Option.isSome_none, Bool.false_eq_true, false_iff]
    omega
  . rw [IndexLfsr.calls_of_le seed mask hle]
    simp only [Option.isSome_some, true_iff]
    exact hle

/--
The calls fail only when the register has gone through all the nonzero values, and none of them
finds it at zero.
-/
theorem IndexLfsr.capacity
    : Function.minimalPeriod RandomIndex.next seed = 2 ^ 24 - 1
        ∧
      (∀ k, ((IndexLfsr.mk seed.val seed.val mask).calls k).isSome ↔ k ≤ 2 ^ 24 - 2)
        ∧
      ∀ k l, (IndexLfsr.mk seed.val seed.val mask).calls k = some l →
        0 < l.lfsr ∧ (l.next = none ↔ k = 2 ^ 24 - 2) := by
  refine ⟨seed.minimalPeriod_next, IndexLfsr.calls_isSome_iff seed mask, ?_⟩
  intro k l hl
  have hle : k ≤ 2 ^ 24 - 2 := by
    rw [← IndexLfsr.calls_isSome_iff seed mask, hl]
    rfl
  have hnext : l.next.isSome ↔ k + 1 ≤ 2 ^ 24 - 2 := by
    rw [← IndexLfsr.calls_isSome_iff seed mask, IndexLfsr.calls, hl, Option.bind_some,
      Option.isSome_map]
  rw [IndexLfsr.calls_of_le seed mask hle] at hl
  cases hl
  refine ⟨(RandomIndex.next^[k] seed).property.1, ?_⟩
  rw [← Option.not_isSome_iff_eq_none, hnext]
  omega

end Calls

end Device
