import Mathlib.Data.Set.Insert

/-!
This module contains windows that protect against replays: of the counters that were seen, only the
highest one and a bit for each of the counters shortly below it are remembered.
-/

namespace Window

structure Represents (width next : Nat) (bit : Nat → Bool) (seen : Set Nat) : Prop where
  lt_next : ∀ c ∈ seen, c < next
  last_mem : 0 < next → next - 1 ∈ seen
  bit_iff : ∀ c, c < next → next ≤ c + width → (bit c = true ↔ c ∈ seen)

variable {width next : Nat} {bit bit' : Nat → Bool} {seen : Set Nat} {c : Nat}

theorem represents_empty (width : Nat) (bit : Nat → Bool) : Represents width 0 bit ∅ where
  lt_next := by simp
  last_mem := by simp
  bit_iff := by simp

namespace Represents

theorem advance (h : Represents width next bit seen) (hc : next ≤ c) (hnew : bit' c = true)
    (hskip : ∀ i, next ≤ i → i < c → c < i + width → bit' i = false)
    (hold : ∀ i, i < next → c < i + width → bit' i = bit i)
    : Represents width (c + 1) bit' (insert c seen) where
  lt_next := by
    intro i hi
    rcases Set.mem_insert_iff.mp hi with rfl | hi
    . omega
    . have := h.lt_next i hi
      omega
  last_mem := by
    intro _
    exact Set.mem_insert c seen
  bit_iff := by
    intro i hlt hle
    rw [Set.mem_insert_iff]
    rcases Nat.lt_trichotomy i c with hic | rfl | hci
    . by_cases hi : i < next
      . rw [hold i hi (by omega), h.bit_iff i hi (by omega)]
        simp only [Nat.ne_of_lt hic, false_or]
      . rw [hskip i (by omega) hic (by omega)]
        have hnotMem : i ∉ seen := fun hmem => hi (h.lt_next i hmem)
        simp [hnotMem, Nat.ne_of_lt hic]
    . simp [hnew]
    . omega

theorem fill (h : Represents width next bit seen) (hc : c < next) (hnew : bit' c = true)
    (hold : ∀ i, i ≠ c → i < next → next ≤ i + width → bit' i = bit i)
    : Represents width next bit' (insert c seen) where
  lt_next := by
    intro i hi
    rcases Set.mem_insert_iff.mp hi with rfl | hi
    . exact hc
    . exact h.lt_next i hi
  last_mem := by
    intro hpos
    exact Set.mem_insert_of_mem c (h.last_mem hpos)
  bit_iff := by
    intro i hlt hle
    rw [Set.mem_insert_iff]
    by_cases hic : i = c
    . simp [hic, hnew]
    . rw [hold i hic hlt hle, h.bit_iff i hlt hle]
      simp only [hic, false_or]

end Represents

def nextOf (seen : List Nat) : Nat :=
  seen.foldr (fun c n => max (c + 1) n) 0

theorem lt_nextOf {seen : List Nat} (h : c ∈ seen) : c < nextOf seen := by
  induction seen with
  | nil => simp at h
  | cons c' seen ih =>
    have hcons : nextOf (c' :: seen) = max (c' + 1) (nextOf seen) := rfl
    rcases List.mem_cons.mp h with rfl | h
    . omega
    . have := ih h
      omega

theorem nextOf_le {seen : List Nat} {n : Nat} (h : ∀ c ∈ seen, c < n) : nextOf seen ≤ n := by
  induction seen with
  | nil => exact Nat.zero_le n
  | cons c seen ih =>
    have hcons : nextOf (c :: seen) = max (c + 1) (nextOf seen) := rfl
    have hhead := h c List.mem_cons_self
    have htail := ih fun c hc => h c (List.mem_cons_of_mem _ hc)
    omega

theorem Represents.next_eq {seen : List Nat} (h : Represents width next bit {c | c ∈ seen})
    : next = nextOf seen := by
  apply Nat.le_antisymm
  . by_cases hpos : 0 < next
    . have hlast := lt_nextOf (h.last_mem hpos)
      omega
    . omega
  . exact nextOf_le h.lt_next

end Window
