import VeilVpn.Machine

/-!
This module contains the rules with which a measure that steps of some kind decrease shows that a
machine comes to rest.
-/

namespace Machine

variable {σ ε ω : Type} {m : Machine σ ε ω} {start s : σ} {ts : List (Transition σ ε ω)}

/--
Steps that decrease a measure are taken at most as often as the measure says, in whatever order.
-/
theorem Run.length_le_of_decreasing (I : σ → Prop) (allowed : ε → Prop) (measure : σ → Nat)
    (hdecreases : ∀ s e s' os, I s → allowed e → m.step s e = some (s', os) →
      I s' ∧ measure s' < measure s)
    (hrun : m.Run start ts s) (hallowed : ∀ t ∈ ts, allowed t.event) (hstart : I start)
    : I s ∧ ts.length + measure s ≤ measure start := by
  induction hrun with
  | nil => exact ⟨hstart, by simp⟩
  | @snoc ts s s' e os _ hstep ih =>
    obtain ⟨hs, hle⟩ := ih fun t ht => hallowed t (List.mem_append_left _ ht)
    have he : allowed e := hallowed _ (List.mem_append_right _ List.mem_cons_self)
    obtain ⟨hs', hlt⟩ := hdecreases s e s' os hs he hstep
    refine ⟨hs', ?_⟩
    rw [List.length_append, List.length_singleton]
    omega

end Machine
