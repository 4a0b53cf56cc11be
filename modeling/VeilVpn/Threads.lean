import Mathlib.Algebra.BigOperators.Group.Finset.Basic
import Mathlib.Algebra.Order.BigOperators.Group.Finset
import Mathlib.Data.Fintype.BigOperators

/-!
This module contains what is needed to count the threads of a program by the places they have come to,
and the words of a mutex and of a readers-writer lock that such threads share.
-/

namespace Threads

variable {ι γ : Type} [Fintype ι]

def count (p : γ → Bool) (place : ι → γ) : Nat :=
  ∑ i, (p (place i)).toNat

theorem toNat_le_count (p : γ → Bool) (place : ι → γ) (i : ι)
    : (p (place i)).toNat ≤ count p place := by
  unfold count
  exact Finset.single_le_sum (f := fun i => (p (place i)).toNat) (fun _ _ => Nat.zero_le _)
    (Finset.mem_univ i)

theorem one_le_count {p : γ → Bool} {place : ι → γ} {i : ι} (h : p (place i) = true)
    : 1 ≤ count p place := by
  have hle := toNat_le_count p place i
  rw [h] at hle
  exact hle

theorem exists_of_count_ne_zero {p : γ → Bool} {place : ι → γ} (h : count p place ≠ 0)
    : ∃ i, p (place i) = true := by
  by_contra hnone
  apply h
  unfold count
  apply Finset.sum_eq_zero
  intro i _
  rw [Bool.toNat_eq_zero]
  by_contra hi
  exact hnone ⟨i, by simpa using hi⟩

theorem eq_true_of_toNat_eq_count {p : γ → Bool} {place : ι → γ} {b : Bool}
    (h : b.toNat = count p place) {i : ι} (hi : p (place i) = true)
    : b = true := by
  have hcount := one_le_count hi
  rw [← h] at hcount
  exact Bool.toNat_eq_one.mp (le_antisymm (Bool.toNat_le b) hcount)

theorem exists_of_toNat_eq_count {p : γ → Bool} {place : ι → γ} {b : Bool}
    (h : b.toNat = count p place) (hb : b = true)
    : ∃ i, p (place i) = true := by
  apply exists_of_count_ne_zero
  rw [← h, hb]
  decide

variable [DecidableEq ι]

theorem eq_of_count_le_one {p : γ → Bool} {place : ι → γ} (hle : count p place ≤ 1) {i j : ι}
    (hi : p (place i) = true) (hj : p (place j) = true)
    : i = j := by
  by_contra hne
  unfold count at hle
  rw [← Finset.add_sum_erase _ _ (Finset.mem_univ i), hi] at hle
  have hmem : j ∈ Finset.univ.erase i := Finset.mem_erase.mpr ⟨Ne.symm hne, Finset.mem_univ j⟩
  have hpos : (p (place j)).toNat ≤ ∑ k ∈ Finset.univ.erase i, (p (place k)).toNat :=
    Finset.single_le_sum (f := fun k => (p (place k)).toNat) (fun _ _ => Nat.zero_le _) hmem
  rw [hj] at hpos
  simp only [Bool.toNat_true] at hle hpos
  omega

theorem eq_of_toNat_eq_count {p : γ → Bool} {place : ι → γ} {b : Bool} (h : b.toNat = count p place)
    {i j : ι} (hi : p (place i) = true) (hj : p (place j) = true)
    : i = j :=
  eq_of_count_le_one (h ▸ Bool.toNat_le b) hi hj

theorem sum_update (weight : γ → Nat) (place : ι → γ) (i : ι) (new : γ)
    : ∑ j, weight (Function.update place i new j) + weight (place i)
        =
      ∑ j, weight (place j) + weight new := by
  rw [← Finset.add_sum_erase _ _ (Finset.mem_univ i),
    ← Finset.add_sum_erase _ (fun j => weight (place j)) (Finset.mem_univ i), Function.update_self]
  have hrest : ∑ j ∈ Finset.univ.erase i, weight (Function.update place i new j)
      = ∑ j ∈ Finset.univ.erase i, weight (place j) := by
    apply Finset.sum_congr rfl
    intro j hj
    rw [Function.update_of_ne (Finset.ne_of_mem_erase hj)]
  omega

theorem count_update (p : γ → Bool) (place : ι → γ) (i : ι) (new : γ)
    : count p (Function.update place i new) + (p (place i)).toNat
        =
      count p place + (p new).toNat :=
  sum_update (fun q => (p q).toNat) place i new

end Threads

/--
The word of a readers-writer lock. A writer first claims the lock, after which no more readers are let
in, and then waits until the readers that are left are gone.
-/
structure RawRwLock where
  readers : Nat
  writer : Bool
  deriving DecidableEq, Repr

namespace RawRwLock

def new : RawRwLock where
  readers := 0
  writer := false

def lockShared (l : RawRwLock) : Option RawRwLock :=
  if l.writer then none else some { l with readers := l.readers + 1 }

theorem lockShared_eq_some_iff {l l' : RawRwLock}
    : l.lockShared = some l' ↔ l.writer = false ∧ l' = { l with readers := l.readers + 1 } := by
  rw [lockShared, Option.ite_none_left_eq_some, Bool.not_eq_true, Option.some.injEq, @eq_comm _ l']

def unlockShared (l : RawRwLock) : RawRwLock :=
  { l with readers := l.readers - 1 }

def claimExclusive (l : RawRwLock) : Option RawRwLock :=
  if l.writer then none else some { l with writer := true }

theorem claimExclusive_eq_some_iff {l l' : RawRwLock}
    : l.claimExclusive = some l' ↔ l.writer = false ∧ l' = { l with writer := true } := by
  rw [claimExclusive, Option.ite_none_left_eq_some, Bool.not_eq_true, Option.some.injEq,
    @eq_comm _ l']

def unlockExclusive (l : RawRwLock) : RawRwLock :=
  { l with writer := false }

end RawRwLock
