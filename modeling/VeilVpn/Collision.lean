import Mathlib.Logic.Basic

/-!
This module contains collisions of a hash function between the inputs of two computations. Where
there is none, equal hashes can be taken apart again.
-/

variable {α β : Type} {hash : α → β} {xs ys : List α}

/--
Two different inputs, one of each computation, with the same hash.
-/
def Collision (hash : α → β) (xs ys : List α) : Prop :=
  ∃ x ∈ xs, ∃ y ∈ ys, x ≠ y ∧ hash x = hash y

namespace Collision

theorem eq_of_hash_eq (hfree : ¬Collision hash xs ys) {x y : α} (hx : x ∈ xs) (hy : y ∈ ys)
    (heq : hash x = hash y)
    : x = y := by
  apply Classical.byContradiction
  intro hne
  exact hfree ⟨x, hx, y, hy, hne, heq⟩

end Collision
