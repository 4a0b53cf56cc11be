import VeilVpn.Bytes

/-!
This module contains sums of words where a carry out of the highest bit comes back in at the lowest
one, for words up to any number `m`.
-/

namespace OnesComplement

/--
Two numbers come to the same word after all carries, zero only with itself.
-/
structure Same (m a b : Nat) : Prop where
  mod : a % m = b % m
  zero : a = 0 ↔ b = 0

namespace Same

variable {m a b c : Nat}

theorem refl (m a : Nat) : Same m a a :=
  ⟨rfl, Iff.rfl⟩

theorem symm (h : Same m a b) : Same m b a :=
  ⟨h.mod.symm, h.zero.symm⟩

theorem trans (hab : Same m a b) (hbc : Same m b c) : Same m a c :=
  ⟨hab.mod.trans hbc.mod, hab.zero.trans hbc.zero⟩

theorem add_right (h : Same m a b) (c : Nat) : Same m (a + c) (b + c) where
  mod := by rw [Nat.add_mod, h.mod, ← Nat.add_mod]
  zero := by
    have hzero := h.zero
    omega

theorem eq_of_le (h : Same m a b) (ha : a ≤ m) (hb : b ≤ m) : a = b := by
  have hmod := h.mod
  have hzero := h.zero
  rcases Nat.lt_or_eq_of_le ha with ha | ha <;> rcases Nat.lt_or_eq_of_le hb with hb | hb
  . rwa [Nat.mod_eq_of_lt ha, Nat.mod_eq_of_lt hb] at hmod
  . rw [Nat.mod_eq_of_lt ha, hb, Nat.mod_self] at hmod
    omega
  . rw [Nat.mod_eq_of_lt hb, ha, Nat.mod_self] at hmod
    omega
  . rw [ha, hb]

theorem complement (h : Same m a b) (ha : a ≤ m) : Same m (b + (m - a)) m := by
  have hadd := h.symm.add_right (m - a)
  rwa [Nat.add_sub_cancel' ha] at hadd

end Same

def add (m a b : Nat) : Nat :=
  if a + b ≤ m then a + b else a + b - m

theorem add_le {m a b : Nat} (ha : a ≤ m) (hb : b ≤ m) : add m a b ≤ m := by
  unfold add
  split <;> omega

theorem same_add (m a b : Nat) : Same m (add m a b) (a + b) := by
  unfold add
  split
  . exact .refl m _
  . next hgt =>
    constructor
    . rw [← Nat.mod_eq_sub_mod (by omega)]
    . omega

def sum (m : Nat) (ws : List Nat) : Nat :=
  ws.foldl (add m) 0

theorem foldl_add_le {m a : Nat} {ws : List Nat} (hws : ∀ w ∈ ws, w ≤ m) (ha : a ≤ m)
    : ws.foldl (add m) a ≤ m := by
  induction ws generalizing a with
  | nil => exact ha
  | cons w ws ih =>
    simp only [List.forall_mem_cons] at hws
    exact ih hws.2 (add_le ha hws.1)

theorem same_foldl_add (m a : Nat) (ws : List Nat) : Same m (ws.foldl (add m) a) (a + ws.sum) := by
  induction ws generalizing a with
  | nil => exact .refl m a
  | cons w ws ih =>
    rw [List.foldl_cons, List.sum_cons, ← Nat.add_assoc]
    exact (ih _).trans ((same_add m a w).add_right _)

theorem sum_eq {m r : Nat} {ws : List Nat} (hws : ∀ w ∈ ws, w ≤ m) (hr : r ≤ m)
    (h : Same m ws.sum r)
    : sum m ws = r := by
  have hsum := same_foldl_add m 0 ws
  rw [Nat.zero_add] at hsum
  exact (hsum.trans h).eq_of_le (foldl_add_le hws (Nat.zero_le m)) hr

theorem same_carry (m s : Nat) : Same m (s % (m + 1) + s / (m + 1)) s := by
  have hdiv := Nat.div_add_mod s (m + 1)
  have hsplit : s = m * (s / (m + 1)) + (s % (m + 1) + s / (m + 1)) := by
    rw [Nat.add_mul, Nat.one_mul] at hdiv
    omega
  constructor
  . conv => rhs; rw [hsplit]
    rw [Nat.mul_add_mod]
  . constructor
    . intro hzero
      obtain ⟨hmod, hquot⟩ := Nat.add_eq_zero_iff.mp hzero
      rw [hsplit, hmod, hquot, Nat.mul_zero]
    . intro hzero
      rw [hzero, Nat.zero_mod, Nat.zero_div]

/--
The big-endian words of 16 bits, a last odd byte counts as the high byte of a word.
-/
def words : Bytes → List Nat
  | [] => []
  | [hi] => [hi.toNat * 256]
  | hi :: lo :: rest => (hi.toNat * 256 + lo.toNat) :: words rest

theorem words_append (a b : Bytes) (ha : a.length % 2 = 0) : words (a ++ b) = words a ++ words b := by
  fun_induction words a with
  | case1 => rfl
  | case2 hi => simp at ha
  | case3 hi lo rest ih =>
    have hrest : rest.length % 2 = 0 := by
      simp only [List.length_cons] at ha
      omega
    simp only [List.cons_append, words, ih hrest]

theorem le_of_mem_words {b : Bytes} {w : Nat} (hw : w ∈ words b) : w ≤ 0xFFFF := by
  fun_induction words b with
  | case1 => simp at hw
  | case2 hi =>
    have hhi := hi.toNat_lt
    simp only [List.mem_singleton] at hw
    omega
  | case3 hi lo rest ih =>
    have hhi := hi.toNat_lt
    have hlo := lo.toNat_lt
    simp only [List.mem_cons] at hw
    rcases hw with hw | hw
    . omega
    . exact ih hw

theorem sum_words_le (b : Bytes) : (words b).sum ≤ 0xFFFF * ((b.length + 1) / 2) := by
  fun_induction words b with
  | case1 => simp
  | case2 hi =>
    have hhi := hi.toNat_lt
    simp only [List.sum_cons, List.sum_nil, List.length_cons, List.length_nil]
    omega
  | case3 hi lo rest ih =>
    have hhi := hi.toNat_lt
    have hlo := lo.toNat_lt
    simp only [List.sum_cons, List.length_cons]
    omega

theorem words_beBytes {v : Nat} (hv : v < 2 ^ 16) : words (Bytes.beBytes 2 v) = [v] := by
  simp only [Bytes.beBytes, Bytes.leBytes, List.reverse_cons, List.reverse_nil, List.nil_append,
    List.singleton_append, words, UInt8.toNat_ofNat', List.cons.injEq, and_true]
  omega

end OnesComplement
