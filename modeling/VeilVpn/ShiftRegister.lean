import Mathlib.Data.List.Prime
import Mathlib.Data.Nat.Bitwise
import Mathlib.Data.Nat.Prime.Basic
import Mathlib.Dynamics.PeriodicPts.Lemmas

/-!
This module contains shift registers with linear feedback, of any width and with any feedback. The
step of a register is linear over the bits, so a value acts on the others as a polynomial in the
step. Then many steps are computed by squaring, and whether a register goes through all its values
is decided by a few of its powers.
-/

namespace Orbit

open Function

variable {α : Type} {f : α → α} {x y : α}

theorem minimalPeriod_eq_of_div_prime {n : Nat} (hperiod : IsPeriodicPt f n x)
    (hprime : ∀ p, p.Prime → p ∣ n → ¬ IsPeriodicPt f (n / p) x)
    : minimalPeriod f x = n := by
  obtain ⟨k, hk⟩ := hperiod.minimalPeriod_dvd
  by_cases hone : k = 1
  . rw [hk, hone, Nat.mul_one]
  . obtain ⟨p, hp, j, hj⟩ := Nat.exists_prime_and_dvd hone
    have hsplit : n = p * (minimalPeriod f x * j) := by
      rw [Nat.mul_left_comm, ← hj, ← hk]
    have hdiv : n / p = minimalPeriod f x * j := Nat.div_eq_of_eq_mul_right hp.pos hsplit
    have hdvd : minimalPeriod f x ∣ n / p := ⟨j, hdiv⟩
    exact absurd (isPeriodicPt_iff_minimalPeriod_dvd.mpr hdvd) (hprime p hp ⟨_, hsplit⟩)

theorem exists_iterate_eq {s : Finset α} (hs : ∀ z ∈ s, f z ∈ s) (hx : x ∈ s) (hy : y ∈ s)
    (hcard : s.card ≤ minimalPeriod f x)
    : ∃ k, f^[k] x = y := by
  have hmem : ∀ k, f^[k] x ∈ s := by
    intro k
    induction k with
    | zero => exact hx
    | succ k ih =>
      rw [iterate_succ_apply']
      exact hs _ ih
  have hsurj : Set.SurjOn (f^[·] x) (Finset.range (minimalPeriod f x)) s := by
    apply Finset.surjOn_of_injOn_of_card_le
    . exact fun k _ => hmem k
    . rw [Finset.coe_range]
      exact iterate_injOn_Iio_minimalPeriod
    . rwa [Finset.card_range]
  obtain ⟨k, _, hk⟩ := hsurj hy
  exact ⟨k, hk⟩

theorem minimalPeriod_eq_of_card {s : Finset α} (hs : ∀ z ∈ s, f z ∈ s) (hx : x ∈ s) (hy : y ∈ s)
    (hcard : minimalPeriod f x = s.card)
    : minimalPeriod f y = s.card := by
  obtain ⟨k, rfl⟩ := exists_iterate_eq hs hx hy hcard.ge
  have hpos : 0 < minimalPeriod f x := by
    rw [hcard]
    exact Finset.card_pos.mpr ⟨x, hx⟩
  rw [minimalPeriod_apply_iterate (minimalPeriod_pos_iff_mem_periodicPts.mp hpos), hcard]

end Orbit

namespace ShiftRegister

/--
The register moves one bit to the right, and the feedback is added if the bit that falls out is set.
-/
def step (feedback x : Nat) : Nat :=
  (x / 2) ^^^ (if x.testBit 0 then feedback else 0)

variable {feedback n : Nat}

theorem step_xor (x y : Nat)
    : step feedback (x ^^^ y) = step feedback x ^^^ step feedback y := by
  unfold step
  rw [Nat.xor_div_two, Nat.testBit_xor]
  cases x.testBit 0 <;> cases y.testBit 0 <;>
    simp [Nat.xor_comm, Nat.xor_left_comm]

theorem step_lt {x : Nat} (hfeedback : feedback < 2 ^ n) (hx : x < 2 ^ n)
    : step feedback x < 2 ^ n := by
  refine Nat.xor_lt_two_pow (by omega) ?_
  split <;> omega

theorem iterate_step_lt {x : Nat} (hfeedback : feedback < 2 ^ n) (hx : x < 2 ^ n) (k : Nat)
    : (step feedback)^[k] x < 2 ^ n := by
  induction k with
  | zero => exact hx
  | succ k ih =>
    rw [Function.iterate_succ_apply']
    exact step_lt hfeedback ih

theorem testBit_step {x : Nat} (hfeedback : feedback.testBit n) (hx : x < 2 ^ (n + 1))
    : (step feedback x).testBit n = x.testBit 0 := by
  have hhalf : (x / 2).testBit n = false := Nat.testBit_lt_two_pow (by omega)
  rw [step, Nat.testBit_xor, hhalf, Bool.false_xor]
  split
  . next hbit => rw [hfeedback, hbit]
  . next hbit => simpa using hbit

theorem step_injOn {x y : Nat} (hfeedback : feedback.testBit n) (hx : x < 2 ^ (n + 1))
    (hy : y < 2 ^ (n + 1)) (h : step feedback x = step feedback y)
    : x = y := by
  have hbit : x.testBit 0 = y.testBit 0 := by
    rw [← testBit_step hfeedback hx, ← testBit_step hfeedback hy, h]
  have hhalf : x / 2 = y / 2 := by
    rw [step, step, hbit] at h
    exact Nat.xor_left_injective h
  simp only [Nat.testBit_zero, decide_eq_decide] at hbit
  omega

theorem step_pos {x : Nat} (hfeedback : feedback.testBit n) (hx : x < 2 ^ (n + 1)) (hpos : 0 < x)
    : 0 < step feedback x := by
  apply Nat.pos_of_ne_zero
  intro hzero
  have hstep : step feedback x = step feedback 0 := by
    rw [hzero]
    simp [step]
  exact hpos.ne' (step_injOn hfeedback hx (Nat.two_pow_pos _) hstep)

/--
A map of registers that is linear over the bits and commutes with the step.
-/
structure Linear (feedback : Nat) (F : Nat → Nat) : Prop where
  xor : ∀ x y, F (x ^^^ y) = F x ^^^ F y
  step : ∀ x, F (step feedback x) = ShiftRegister.step feedback (F x)

namespace Linear

variable {F : Nat → Nat}

theorem zero (hF : Linear feedback F) : F 0 = 0 := by
  have h := hF.xor 0 0
  rwa [Nat.xor_self, Nat.xor_self] at h

theorem ite (hF : Linear feedback F) (b : Bool) (x : Nat)
    : F (if b then x else 0) = if b then F x else 0 := by
  cases b
  . exact hF.zero
  . rfl

theorem iterate_step (feedback k : Nat) : Linear feedback (ShiftRegister.step feedback)^[k] := by
  induction k with
  | zero => exact ⟨fun _ _ => rfl, fun _ => rfl⟩
  | succ k ih =>
    constructor
    . intro x y
      simp only [Function.iterate_succ_apply', ih.xor, step_xor]
    . intro x
      simp only [Function.iterate_succ_apply', ih.step]

end Linear

/--
The polynomial in the step whose coefficients are the lowest `n` bits of `a`, the highest of them
first, applied to `x`.
-/
def eval (feedback : Nat) : Nat → Nat → Nat → Nat
  | 0, _, _ => 0
  | n + 1, a, x => (if a.testBit n then x else 0) ^^^ eval feedback n a (step feedback x)

theorem Linear.map_eval {F : Nat → Nat} (hF : Linear feedback F) (n a x : Nat)
    : F (eval feedback n a x) = eval feedback n a (F x) := by
  induction n generalizing x with
  | zero => exact hF.zero
  | succ n ih => rw [eval, eval, hF.xor, hF.ite, ih, hF.step]

theorem linear_eval (feedback n a : Nat) : Linear feedback (eval feedback n a) := by
  constructor
  . intro x y
    induction n generalizing x y with
    | zero => simp [eval]
    | succ n ih =>
      simp only [eval, step_xor, ih]
      cases a.testBit n <;> simp [Nat.xor_assoc, Nat.xor_left_comm]
  . exact fun x => ((Linear.iterate_step feedback 1).map_eval n a x).symm

theorem eval_xor (a b x : Nat)
    : eval feedback n (a ^^^ b) x = eval feedback n a x ^^^ eval feedback n b x := by
  induction n generalizing x with
  | zero => simp [eval]
  | succ n ih =>
    simp only [eval, ih, Nat.testBit_xor]
    cases a.testBit n <;> cases b.testBit n <;>
      simp [Nat.xor_assoc, Nat.xor_left_comm]

theorem eval_zero (x : Nat) : eval feedback n 0 x = 0 := by
  induction n generalizing x with
  | zero => rfl
  | succ n ih => simp [eval, ih]

theorem eval_succ (a x : Nat)
    : eval feedback (n + 1) a x
        =
      eval feedback n (a / 2) x ^^^ (if a.testBit 0 then (step feedback)^[n] x else 0) := by
  induction n generalizing x with
  | zero => simp [eval]
  | succ n ih =>
    rw [eval, ih, eval, Nat.testBit_div_two, Function.iterate_succ_apply, Nat.xor_assoc]

theorem unit_lt (n : Nat) : 2 ^ n < 2 ^ (n + 1) :=
  Nat.pow_lt_pow_succ (by decide)

/--
The value with only the highest bit is the unit: it goes through all the single bits.
-/
theorem step_two_pow (feedback n : Nat) : step feedback (2 ^ (n + 1)) = 2 ^ n := by
  simp [step, Nat.pow_succ]

theorem iterate_step_two_pow (feedback n : Nat) : (step feedback)^[n + 1] (2 ^ n) = feedback := by
  induction n with
  | zero => simp [step]
  | succ n ih => rw [Function.iterate_succ_apply, step_two_pow, ih]

theorem eval_two_pow (a : Nat) : eval feedback (n + 1) a (2 ^ n) = a % 2 ^ (n + 1) := by
  induction n with
  | zero =>
    rcases Nat.mod_two_eq_zero_or_one a with h | h <;> simp [eval, h]
  | succ n ih =>
    rw [eval, step_two_pow, ih]
    apply Nat.eq_of_testBit_eq
    intro i
    rw [Nat.testBit_xor, Nat.testBit_mod_two_pow, Nat.testBit_mod_two_pow]
    rcases Nat.lt_trichotomy i (n + 1) with hlt | heq | hgt
    . have hne : n + 1 ≠ i := by omega
      have hlt' : i < n + 1 + 1 := by omega
      cases a.testBit (n + 1) <;> simp [hlt, hne, hlt']
    . subst heq
      cases a.testBit (n + 1) <;> simp
    . have hne : n + 1 ≠ i := by omega
      have hge : ¬ i < n + 1 := by omega
      have hge' : ¬ i < n + 1 + 1 := by omega
      cases a.testBit (n + 1) <;> simp [hge, hne, hge']

theorem eval_unit {a : Nat} (ha : a < 2 ^ (n + 1)) : eval feedback (n + 1) a (2 ^ n) = a := by
  rw [eval_two_pow, Nat.mod_eq_of_lt ha]

theorem unit_eval {x : Nat} (hx : x < 2 ^ (n + 1)) : eval feedback (n + 1) (2 ^ n) x = x := by
  calc eval feedback (n + 1) (2 ^ n) x
    _ = eval feedback (n + 1) (2 ^ n) (eval feedback (n + 1) x (2 ^ n)) := by rw [eval_unit hx]
    _ = eval feedback (n + 1) x (eval feedback (n + 1) (2 ^ n) (2 ^ n)) :=
      (linear_eval feedback (n + 1) (2 ^ n)).map_eval _ _ _
    _ = x := by rw [eval_unit (unit_lt n), eval_unit hx]

section Power

variable (hfeedback : feedback < 2 ^ (n + 1))
include hfeedback

/--
The step is a root of the polynomial that the feedback stands for.
-/
theorem iterate_step_width {x : Nat} (hx : x < 2 ^ (n + 1))
    : (step feedback)^[n + 1] x = eval feedback (n + 1) feedback x := by
  calc (step feedback)^[n + 1] x
    _ = (step feedback)^[n + 1] (eval feedback (n + 1) x (2 ^ n)) := by rw [eval_unit hx]
    _ = eval feedback (n + 1) x ((step feedback)^[n + 1] (2 ^ n)) :=
      (Linear.iterate_step feedback (n + 1)).map_eval _ _ _
    _ = eval feedback (n + 1) x (eval feedback (n + 1) feedback (2 ^ n)) := by
      rw [iterate_step_two_pow, eval_unit hfeedback]
    _ = eval feedback (n + 1) feedback (eval feedback (n + 1) x (2 ^ n)) :=
      (linear_eval feedback (n + 1) x).map_eval _ _ _
    _ = eval feedback (n + 1) feedback x := by rw [eval_unit hx]

theorem eval_step {a x : Nat} (ha : a < 2 ^ (n + 1)) (hx : x < 2 ^ (n + 1))
    : eval feedback (n + 1) (step feedback a) x
        =
      step feedback (eval feedback (n + 1) a x) := by
  have hhigh : a.testBit (n + 1) = false := Nat.testBit_lt_two_pow ha
  have hshift : eval feedback (n + 1 + 1) a x = _ := eval_succ a x
  rw [eval, hhigh, (linear_eval feedback (n + 1) a).step, iterate_step_width hfeedback hx] at hshift
  simp only [Bool.false_eq_true, ↓reduceIte, Nat.zero_xor] at hshift
  rw [hshift, step, eval_xor]
  -- What the shift loses is what the feedback adds
  cases a.testBit 0
  . simp [eval_zero]
  . rfl

theorem iterate_step_eq_eval (k : Nat) {x : Nat} (hx : x < 2 ^ (n + 1))
    : (step feedback)^[k] x = eval feedback (n + 1) ((step feedback)^[k] (2 ^ n)) x := by
  induction k with
  | zero => exact (unit_eval hx).symm
  | succ k ih =>
    rw [Function.iterate_succ_apply', Function.iterate_succ_apply',
      eval_step hfeedback (iterate_step_lt hfeedback (unit_lt n) k) hx, ih]

end Power

/--
The value after `m` steps from the unit, by squaring along the `k` lowest bits of `m`.
-/
def power (feedback n : Nat) : Nat → Nat → Nat
  | 0, _ => 2 ^ n
  | k + 1, m =>
    let half := power feedback n k (m / 2)
    let square := eval feedback (n + 1) half half
    if m.testBit 0 then step feedback square else square

theorem power_eq (hfeedback : feedback < 2 ^ (n + 1)) {k m : Nat} (hm : m < 2 ^ k)
    : power feedback n k m = (step feedback)^[m] (2 ^ n) := by
  induction k generalizing m with
  | zero =>
    have hzero : m = 0 := by simpa using hm
    rw [hzero]
    rfl
  | succ k ih =>
    have hsquare : eval feedback (n + 1) ((step feedback)^[m / 2] (2 ^ n))
          ((step feedback)^[m / 2] (2 ^ n))
        = (step feedback)^[m / 2 + m / 2] (2 ^ n) := by
      rw [Function.iterate_add_apply]
      exact (iterate_step_eq_eval hfeedback _ (iterate_step_lt hfeedback (unit_lt n) _)).symm
    simp only [power]
    rw [ih (by omega), hsquare]
    split
    . next hbit =>
      have hodd : (m / 2 + m / 2).succ = m := by
        simp only [Nat.testBit_zero, decide_eq_true_eq] at hbit
        omega
      rw [← Function.iterate_succ_apply' (step feedback), hodd]
    . next hbit =>
      have heven : m / 2 + m / 2 = m := by
        simp only [Nat.testBit_zero, decide_eq_true_eq] at hbit
        omega
      rw [heven]

/--
The register goes through all its values but zero: as many steps as there are lead from the unit
back to it, and no quotient of that number by one of its primes does.
-/
structure Primitive (feedback n : Nat) (primes : List Nat) : Prop where
  lt : feedback < 2 ^ (n + 1)
  high : feedback.testBit n
  prod : primes.prod = 2 ^ (n + 1) - 1
  prime : ∀ p ∈ primes, p.Prime
  period : power feedback n (n + 1) (2 ^ (n + 1) - 1) = 2 ^ n
  minimal : ∀ p ∈ primes, power feedback n (n + 1) ((2 ^ (n + 1) - 1) / p) ≠ 2 ^ n

namespace Primitive

variable {primes : List Nat} (h : Primitive feedback n primes)
include h

theorem isPeriodicPt_iff {m : Nat} (hm : m < 2 ^ (n + 1))
    : Function.IsPeriodicPt (step feedback) m (2 ^ n)
        ↔
      power feedback n (n + 1) m = 2 ^ n := by
  rw [power_eq h.lt hm]
  rfl

theorem minimalPeriod_unit
    : Function.minimalPeriod (step feedback) (2 ^ n) = 2 ^ (n + 1) - 1 := by
  have hpos : 0 < 2 ^ n := Nat.two_pow_pos n
  apply Orbit.minimalPeriod_eq_of_div_prime
  . exact (h.isPeriodicPt_iff (by omega)).mpr h.period
  . intro p hp hdvd hperiod
    have hmem : p ∈ primes := by
      apply mem_list_primes_of_dvd_prod hp.prime
      . exact fun q hq => (h.prime q hq).prime
      . rwa [h.prod]
    have hle := Nat.div_le_self (2 ^ (n + 1) - 1) p
    exact h.minimal p hmem ((h.isPeriodicPt_iff (by omega)).mp hperiod)

theorem minimalPeriod_step {x : Nat} (hpos : 0 < x) (hx : x < 2 ^ (n + 1))
    : Function.minimalPeriod (step feedback) x = 2 ^ (n + 1) - 1 := by
  have hcard : (Finset.Ico 1 (2 ^ (n + 1))).card = 2 ^ (n + 1) - 1 := Nat.card_Ico _ _
  rw [← hcard]
  apply Orbit.minimalPeriod_eq_of_card (x := 2 ^ n)
  . intro z hz
    rw [Finset.mem_Ico] at hz ⊢
    exact ⟨step_pos h.high hz.2 hz.1, step_lt h.lt hz.2⟩
  . exact Finset.mem_Ico.mpr ⟨Nat.two_pow_pos n, unit_lt n⟩
  . exact Finset.mem_Ico.mpr ⟨hpos, hx⟩
  . rw [hcard]
    exact h.minimalPeriod_unit

end Primitive

end ShiftRegister
