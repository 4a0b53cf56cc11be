import VeilVpn.Machine

/-!
This module contains queues inside of machines: when everything that enters a queue leaves it in the
order of arrival.
-/

namespace Machine

variable {σ ε ω α : Type}

/--
What has entered the queue over the transitions `ts` has left it in the same order, except for what
is still in it.
-/
def InOrder (queue : σ → List α) (entered left : Transition σ ε ω → List α)
    (ts : List (Transition σ ε ω)) (s : σ) : Prop :=
  ts.flatMap entered = ts.flatMap left ++ queue s

variable {m : Machine σ ε ω} {start s : σ} {ts : List (Transition σ ε ω)} {queue : σ → List α}
  {entered left : Transition σ ε ω → List α}

theorem inOrder_snoc_iff {t : Transition σ ε ω} (h : InOrder queue entered left ts t.before)
    : InOrder queue entered left (ts ++ [t]) t.after
        ↔
      queue t.before ++ entered t = left t ++ queue t.after := by
  unfold InOrder at *
  rw [List.flatMap_append, List.flatMap_append, List.flatMap_singleton, List.flatMap_singleton, h,
    List.append_assoc, List.append_assoc, List.append_cancel_left_eq]

theorem Run.inOrder_iff (hrun : m.Run start ts s) (hstart : queue start = [])
    : (∀ us u, us <+: ts → m.Run start us u → InOrder queue entered left us u)
        ↔
      ∀ t ∈ ts, queue t.before ++ entered t = left t ++ queue t.after := by
  constructor
  . intro h t ht
    obtain ⟨us, vs, rfl⟩ := List.append_of_mem ht
    obtain ⟨hus, hstep, _⟩ := hrun.of_append_cons
    have hbefore := h us t.before (List.prefix_append _ _) hus
    have hafter := h (us ++ [t]) t.after ⟨vs, by simp⟩ (hus.snoc hstep)
    exact (inOrder_snoc_iff hbefore).mp hafter
  . intro h us u hus hrun'
    induction hrun' with
    | nil => simp [InOrder, hstart]
    | snoc _ _ ih =>
      have hbefore := ih ((List.prefix_append _ _).trans hus)
      have hmem := hus.subset (List.mem_append_right _ List.mem_cons_self)
      exact (inOrder_snoc_iff hbefore).mpr (h _ hmem)

end Machine
