import VeilVpn.HashMap

/-!
This module contains pools of resources that are leased to holders. No resource is ever lost or leased
to two holders.
-/

structure Pool (κ α : Type) [DecidableEq κ] [DecidableEq α] (all : HashSet α) where
  free : HashSet α
  leases : HashMap κ α
  injective : ∀ k k' a, leases.lookup k = some a → leases.lookup k' = some a → k = k'
  mem_all_iff : ∀ a, a ∈ all ↔ a ∈ free ∨ ∃ k, leases.lookup k = some a
  not_free_of_leased : ∀ k a, leases.lookup k = some a → a ∉ free

namespace Pool

variable {κ α : Type} [DecidableEq κ] [DecidableEq α] {all : HashSet α}

def new : Pool κ α all where
  free := all
  leases := ∅
  injective := by simp
  mem_all_iff := by simp
  not_free_of_leased := by simp

def lease (p : Pool κ α all) (k : κ) (a : α) (hk : p.leases.lookup k = none) (ha : a ∈ p.free)
    : Pool κ α all where
  free := p.free.erase a
  leases := p.leases.insert k a
  injective := by
    -- The resource was free, so it is not one of those that are leased already
    have hfree : ∀ k', p.leases.lookup k' ≠ some a := fun k' h => p.not_free_of_leased k' a h ha
    intro k₁ k₂ b h₁ h₂
    rw [HashMap.lookup_insert] at h₁ h₂
    split at h₁ <;> split at h₂
    . next hk₁ hk₂ => rw [hk₁, hk₂]
    . cases h₁
      exact absurd h₂ (hfree k₂)
    . cases h₂
      exact absurd h₁ (hfree k₁)
    . exact p.injective k₁ k₂ b h₁ h₂
  mem_all_iff := by
    intro b
    rw [p.mem_all_iff, Finset.mem_erase]
    by_cases hb : b = a
    . subst hb
      have hleased : ∃ k', (p.leases.insert k b).lookup k' = some b :=
        ⟨k, by rw [HashMap.lookup_insert, if_pos rfl]⟩
      simp [ha, hleased]
    . constructor
      . rintro (hfree | ⟨k', hk'⟩)
        . exact .inl ⟨hb, hfree⟩
        . refine .inr ⟨k', ?_⟩
          rw [HashMap.lookup_insert, if_neg, hk']
          rintro rfl
          simp [hk] at hk'
      . rintro (⟨_, hfree⟩ | ⟨k', hk'⟩)
        . exact .inl hfree
        . rw [HashMap.lookup_insert] at hk'
          split at hk'
          . cases hk'
            exact absurd rfl hb
          . exact .inr ⟨k', hk'⟩
  not_free_of_leased := by
    intro k' b h
    rw [HashMap.lookup_insert] at h
    rw [Finset.mem_erase]
    rintro ⟨hne, hfree⟩
    split at h
    . cases h
      exact hne rfl
    . exact p.not_free_of_leased k' b h hfree

def release (p : Pool κ α all) (k : κ) (a : α) (h : p.leases.lookup k = some a)
    : Pool κ α all where
  free := insert a p.free
  leases := p.leases.erase k
  injective := by
    intro k₁ k₂ b h₁ h₂
    rw [HashMap.lookup_erase, Option.ite_none_left_eq_some] at h₁ h₂
    exact p.injective k₁ k₂ b h₁.2 h₂.2
  mem_all_iff := by
    intro b
    rw [p.mem_all_iff, Finset.mem_insert]
    constructor
    . rintro (hfree | ⟨k', hk'⟩)
      . exact .inl (.inr hfree)
      . by_cases heq : k' = k
        . subst heq
          rw [h, Option.some.injEq] at hk'
          exact .inl (.inl hk'.symm)
        . exact .inr ⟨k', by rw [HashMap.lookup_erase, if_neg heq, hk']⟩
    . rintro ((rfl | hfree) | ⟨k', hk'⟩)
      . exact .inr ⟨k, h⟩
      . exact .inl hfree
      . rw [HashMap.lookup_erase, Option.ite_none_left_eq_some] at hk'
        exact .inr ⟨k', hk'.2⟩
  not_free_of_leased := by
    intro k' b hk'
    rw [HashMap.lookup_erase, Option.ite_none_left_eq_some] at hk'
    rw [Finset.mem_insert, not_or]
    refine ⟨?_, p.not_free_of_leased k' b hk'.2⟩
    rintro rfl
    exact hk'.1 (p.injective k' k b hk'.2 h)

end Pool
