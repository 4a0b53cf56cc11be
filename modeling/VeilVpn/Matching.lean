import Mathlib.Data.Finset.Card
import Mathlib.Data.Finset.Range
import Mathlib.Data.Finset.Image
import Mathlib.Data.List.Induction
import Mathlib.Logic.Function.Basic

/-!
This module contains effects in a list that are matched with their causes: no cause has two effects,
and no effect comes before its cause.
-/

variable {α τ : Type} {effect cause : τ → Option α} {ts : List τ}

/--
The effect of the element at position `i` is due to the cause at position `origin i`.
-/
structure Matching (effect cause : τ → Option α) (ts : List τ) (origin : Nat → Nat) : Prop where
  cause : ∀ i a, ts[i]?.bind effect = some a → origin i ≤ i ∧ ts[origin i]?.bind cause = some a
  injective : ∀ i j a b, ts[i]?.bind effect = some a → ts[j]?.bind effect = some b →
    origin i = origin j → i = j

namespace Matching

theorem bind_append_of_lt {f : τ → Option α} {i : Nat} {t : τ} (h : i < ts.length)
    : (ts ++ [t])[i]?.bind f = ts[i]?.bind f := by
  rw [List.getElem?_append_left h]

theorem bind_append_length (f : τ → Option α) (ts : List τ) (t : τ)
    : (ts ++ [t])[ts.length]?.bind f = f t := by
  rw [List.getElem?_append_right (Nat.le_refl _)]
  simp

theorem lt_length {f : τ → Option α} {i : Nat} {a : α} (h : ts[i]?.bind f = some a)
    : i < ts.length := by
  obtain ⟨t, ht, _⟩ := Option.bind_eq_some_iff.mp h
  exact (List.getElem?_eq_some_iff.mp ht).1

theorem lt_or_eq_of_append {f : τ → Option α} {i : Nat} {a : α} {t : τ}
    (h : (ts ++ [t])[i]?.bind f = some a)
    : (i < ts.length ∧ ts[i]?.bind f = some a) ∨ (i = ts.length ∧ f t = some a) := by
  have hlt := lt_length h
  rw [List.length_append, List.length_singleton] at hlt
  rcases Nat.lt_or_eq_of_le (Nat.le_of_lt_succ hlt) with hlt | rfl
  . rw [bind_append_of_lt hlt] at h
    exact .inl ⟨hlt, h⟩
  . rw [bind_append_length] at h
    exact .inr ⟨rfl, h⟩

theorem snoc {origin : Nat → Nat} {t : τ} {a : α} {j : Nat}
    (h : Matching effect cause ts origin) (heffect : effect t = some a)
    (hcause : (ts ++ [t])[j]?.bind cause = some a)
    (hunused : ∀ i, ts[i]?.bind effect = some a → origin i ≠ j)
    : Matching effect cause (ts ++ [t]) (Function.update origin ts.length j) where
  cause := by
    intro i b hi
    rcases lt_or_eq_of_append hi with ⟨hlt, hi⟩ | ⟨rfl, hlast⟩
    . obtain ⟨hle, horigin⟩ := h.cause i b hi
      rw [Function.update_of_ne (Nat.ne_of_lt hlt), bind_append_of_lt (Nat.lt_of_le_of_lt hle hlt)]
      exact ⟨hle, horigin⟩
    . rw [heffect] at hlast
      cases hlast
      rw [Function.update_self]
      have hlt := lt_length hcause
      rw [List.length_append, List.length_singleton] at hlt
      exact ⟨Nat.le_of_lt_succ hlt, hcause⟩
  injective := by
    -- an old effect has another cause than the new one: either a different value or a used position
    have hnew : ∀ i b, i < ts.length → ts[i]?.bind effect = some b → origin i ≠ j := by
      rintro i b hlt hi rfl
      obtain ⟨hle, horigin⟩ := h.cause i b hi
      rw [bind_append_of_lt (Nat.lt_of_le_of_lt hle hlt), horigin, Option.some.injEq] at hcause
      subst hcause
      exact hunused i hi rfl
    intro i k b b' hi hk heq
    rcases lt_or_eq_of_append hi with ⟨hilt, hi⟩ | ⟨rfl, hi⟩ <;>
    rcases lt_or_eq_of_append hk with ⟨hklt, hk⟩ | ⟨rfl, hk⟩
    . rw [Function.update_of_ne (Nat.ne_of_lt hilt), Function.update_of_ne (Nat.ne_of_lt hklt)]
        at heq
      exact h.injective i k b b' hi hk heq
    . rw [Function.update_of_ne (Nat.ne_of_lt hilt), Function.update_self] at heq
      exact absurd heq (hnew i b hilt hi)
    . rw [Function.update_of_ne (Nat.ne_of_lt hklt), Function.update_self] at heq
      exact absurd heq.symm (hnew k b' hklt hk)
    . rfl

theorem snoc_of_none {origin : Nat → Nat} {t : τ} (h : Matching effect cause ts origin)
    (heffect : effect t = none)
    : Matching effect cause (ts ++ [t]) origin where
  cause := by
    intro i b hi
    rcases lt_or_eq_of_append hi with ⟨hlt, hi⟩ | ⟨_, hi⟩
    . obtain ⟨hle, horigin⟩ := h.cause i b hi
      rw [bind_append_of_lt (Nat.lt_of_le_of_lt hle hlt)]
      exact ⟨hle, horigin⟩
    . simp [heffect] at hi
  injective := by
    intro i k b b' hi hk
    rcases lt_or_eq_of_append hi with ⟨_, hi⟩ | ⟨_, hi⟩
    . rcases lt_or_eq_of_append hk with ⟨_, hk⟩ | ⟨_, hk⟩
      . exact h.injective i k b b' hi hk
      . simp [heffect] at hk
    . simp [heffect] at hi

variable [BEq α] [LawfulBEq α]

/--
The positions at which `f` has the value `a`.
-/
def positions (f : τ → Option α) (ts : List τ) (a : α) : Finset Nat :=
  (Finset.range ts.length).filter fun i => ts[i]?.bind f == some a

theorem mem_positions {f : τ → Option α} {a : α} {i : Nat}
    : i ∈ positions f ts a ↔ ts[i]?.bind f = some a := by
  simp only [positions, Finset.mem_filter, Finset.mem_range, beq_iff_eq, and_iff_right_iff_imp]
  exact lt_length

theorem card_positions (f : τ → Option α) (ts : List τ) (a : α)
    : (positions f ts a).card = (ts.filterMap f).count a := by
  induction ts using List.reverseRecOn with
  | nil => rfl
  | append_singleton ts t ih =>
    have hold : (Finset.range ts.length).filter (fun i => (ts ++ [t])[i]?.bind f == some a)
        = positions f ts a := by
      apply Finset.filter_congr
      intro i hi
      rw [bind_append_of_lt (Finset.mem_range.mp hi)]
    rw [List.filterMap_append, List.count_append, ← ih, positions, List.length_append,
      List.length_singleton, Finset.range_add_one, Finset.filter_insert, hold, bind_append_length]
    split
    . next hvalue =>
      rw [beq_iff_eq] at hvalue
      rw [Finset.card_insert_of_notMem]
      . simp [hvalue]
      . intro hmem
        exact Nat.lt_irrefl _ (lt_length (mem_positions.mp hmem))
    . next hvalue =>
      cases hf : f t with
      | none => simp [hf]
      | some b =>
        rw [hf, beq_iff_eq, Option.some.injEq] at hvalue
        simp [hf, hvalue]

/--
If at no point there are more effects than causes, then they can be matched.
-/
theorem exists_of_count_le
    (h : ∀ us, us <+: ts → ∀ a, (us.filterMap effect).count a ≤ (us.filterMap cause).count a)
    : ∃ origin, Matching effect cause ts origin := by
  induction ts using List.reverseRecOn with
  | nil => exact ⟨id, by simp, by simp⟩
  | append_singleton ts t ih =>
    obtain ⟨origin, hmatching⟩ := ih fun us hus => h us (hus.trans (List.prefix_append _ _))
    cases heffect : effect t with
    | none => exact ⟨origin, hmatching.snoc_of_none heffect⟩
    | some a =>
      have hcount := h (ts ++ [t]) (List.prefix_refl _) a
      have hlt : ((positions effect ts a).image origin).card < (positions cause (ts ++ [t]) a).card :=
        calc ((positions effect ts a).image origin).card
          _ ≤ (positions effect ts a).card := Finset.card_image_le
          _ < (positions effect (ts ++ [t]) a).card := by
            rw [card_positions, card_positions, List.filterMap_append, List.count_append]
            simp [heffect]
          _ ≤ (positions cause (ts ++ [t]) a).card := by
            rw [card_positions, card_positions]
            exact hcount
      obtain ⟨j, hj, hunused⟩ := Finset.exists_mem_notMem_of_card_lt_card hlt
      refine ⟨_, hmatching.snoc heffect (mem_positions.mp hj) ?_⟩
      rintro i hi rfl
      exact hunused (Finset.mem_image_of_mem origin (mem_positions.mpr hi))

end Matching
