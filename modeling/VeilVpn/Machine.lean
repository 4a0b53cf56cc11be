import Mathlib.Data.List.Basic
import Mathlib.Data.List.Forall2
import Mathlib.Data.List.Induction
import Mathlib.Order.Defs.PartialOrder

/-!
This module contains machines that consume events one at a time, their finite runs and the rules
with which a property of one step is carried over to all of a run.
-/

/--
A machine with states `σ`. A step either consumes an event `ε`, goes to a new state and produces
outputs `ω`, or is impossible.
-/
structure Machine (σ ε ω : Type) where
  step : σ → ε → Option (σ × List ω)

structure Transition (σ ε ω : Type) where
  before : σ
  event : ε
  outputs : List ω
  after : σ

namespace Machine

variable {σ ε ω : Type}

/--
`m.Run start ts s` says that `m` goes from `start` to `s` by taking the transitions `ts` in order.
-/
inductive Run (m : Machine σ ε ω) (start : σ) : List (Transition σ ε ω) → σ → Prop where
  | nil : Run m start [] start
  | snoc {ts : List (Transition σ ε ω)} {s s' : σ} {e : ε} {os : List ω}
    : Run m start ts s → m.step s e = some (s', os) → Run m start (ts ++ [⟨s, e, os, s'⟩]) s'

/--
Feed a list of events into the machine.
-/
def exec (m : Machine σ ε ω) (s : σ) : List ε → Option (List (Transition σ ε ω) × σ)
  | [] => some ([], s)
  | e :: es =>
    match m.step s e with
    | none => none
    | some (s', os) =>
      match m.exec s' es with
      | none => none
      | some (ts, s'') => some (⟨s, e, os, s'⟩ :: ts, s'')

def outputs (ts : List (Transition σ ε ω)) : List ω :=
  ts.flatMap (·.outputs)

@[simp]
theorem outputs_nil : outputs ([] : List (Transition σ ε ω)) = [] := rfl

@[simp]
theorem outputs_append (ts us : List (Transition σ ε ω))
    : outputs (ts ++ us) = outputs ts ++ outputs us := by
  simp [outputs]

@[simp]
theorem outputs_singleton (t : Transition σ ε ω) : outputs [t] = t.outputs := by
  simp [outputs]

namespace Run

variable {m : Machine σ ε ω} {start s s' : σ} {ts us : List (Transition σ ε ω)}

theorem single {e : ε} {os : List ω} (h : m.step s e = some (s', os))
    : m.Run s [⟨s, e, os, s'⟩] s' := by
  simpa using Run.snoc Run.nil h

theorem append (h₁ : m.Run start ts s) (h₂ : m.Run s us s') : m.Run start (ts ++ us) s' := by
  induction h₂ with
  | nil => simpa using h₁
  | snoc _ hstep ih =>
    rw [← List.append_assoc]
    exact Run.snoc ih hstep

theorem of_exec {es : List ε} (h : m.exec s es = some (ts, s')) : m.Run s ts s' := by
  induction es generalizing s ts with
  | nil =>
    simp only [exec, Option.some.injEq, Prod.mk.injEq] at h
    obtain ⟨rfl, rfl⟩ := h
    exact Run.nil
  | cons e es ih =>
    simp only [exec] at h
    split at h
    . simp at h
    . next hstep =>
      split at h
      . simp at h
      . next hexec =>
        simp only [Option.some.injEq, Prod.mk.injEq] at h
        obtain ⟨rfl, rfl⟩ := h
        exact Run.append (Run.single hstep) (ih hexec)

/--
A run with a property that can be tested is found by feeding events into the machine.
-/
theorem exists_of_exec (m : Machine σ ε ω) (s : σ) (es : List ε)
    (P : List (Transition σ ε ω) → σ → Bool) (h : (m.exec s es).any (fun r => P r.1 r.2) = true)
    : ∃ ts s', m.Run s ts s' ∧ P ts s' = true := by
  cases hexec : m.exec s es with
  | none => simp [hexec] at h
  | some r => exact ⟨r.1, r.2, of_exec hexec, by simpa [hexec] using h⟩

/--
A property that holds at the start and is preserved by every step holds at the end of every run.
-/
theorem invariant (I : σ → Prop) (hrun : m.Run start ts s) (hstart : I start)
    (hstep : ∀ s e s' os, I s → m.step s e = some (s', os) → I s') : I s := by
  induction hrun with
  | nil => exact hstart
  | snoc _ h ih => exact hstep _ _ _ _ ih h

/--
Like `invariant`, but only the steps that the run takes have to preserve the property.
-/
theorem invariant_of_mem (I : σ → Prop) (hrun : m.Run start ts s) (hstart : I start)
    (hstep : ∀ t ∈ ts, I t.before → m.step t.before t.event = some (t.after, t.outputs) →
      I t.after)
    : I s := by
  induction hrun with
  | nil => exact hstart
  | snoc _ h ih =>
    refine hstep _ (List.mem_append_right _ List.mem_cons_self) (ih ?_) h
    intro t ht
    exact hstep t (List.mem_append_left _ ht)

theorem monotone {α : Type} [Preorder α] (f : σ → α)
    (hstep : ∀ s e s' os, m.step s e = some (s', os) → f s ≤ f s') (hrun : m.Run start ts s)
    : f start ≤ f s := by
  apply hrun.invariant (f start ≤ f ·) le_rfl
  intro s e s' os hle h
  exact le_trans hle (hstep s e s' os h)

theorem pairwise_monotone {α : Type} [Preorder α] (f : σ → α)
    (hstep : ∀ s e s' os, m.step s e = some (s', os) → f s ≤ f s') (hrun : m.Run start ts s)
    : (ts.Pairwise fun t u => f t.after ≤ f u.before) ∧ ∀ t ∈ ts, f t.after ≤ f s := by
  induction hrun with
  | nil => simp
  | @snoc ts s s' e os _ h ih =>
    have hle := hstep s e s' os h
    refine ⟨List.pairwise_append.mpr ⟨ih.1, List.pairwise_singleton _ _, ?_⟩, ?_⟩
    . intro t ht u hu
      rw [List.mem_singleton.mp hu]
      exact ih.2 t ht
    . intro t ht
      rcases List.mem_append.mp ht with ht | ht
      . exact le_trans (ih.2 t ht) hle
      . rw [List.mem_singleton.mp ht]

theorem exists_run_before (hrun : m.Run start ts s)
    : ∀ t ∈ ts,
        (∃ us, us <+: ts ∧ m.Run start us t.before)
          ∧
        m.step t.before t.event = some (t.after, t.outputs) := by
  induction hrun with
  | nil => simp
  | @snoc ts s s' e os hrun h ih =>
    intro t ht
    rcases List.mem_append.mp ht with ht | ht
    . obtain ⟨⟨us, hus, hbefore⟩, hstep⟩ := ih t ht
      exact ⟨⟨us, hus.trans (List.prefix_append _ _), hbefore⟩, hstep⟩
    . rw [List.mem_singleton] at ht
      subst ht
      exact ⟨⟨ts, List.prefix_append _ _, hrun⟩, h⟩

theorem step_of_mem (hrun : m.Run start ts s) {t : Transition σ ε ω} (ht : t ∈ ts)
    : m.step t.before t.event = some (t.after, t.outputs) :=
  (hrun.exists_run_before t ht).2

theorem invariant_before (I : σ → Prop) (hrun : m.Run start ts s) (hstart : I start)
    (hstep : ∀ s e s' os, I s → m.step s e = some (s', os) → I s')
    {t : Transition σ ε ω} (ht : t ∈ ts)
    : I t.before := by
  obtain ⟨⟨us, _, hus⟩, _⟩ := hrun.exists_run_before t ht
  exact hus.invariant I hstart hstep

theorem of_snoc {t : Transition σ ε ω} (hrun : m.Run start (ts ++ [t]) s')
    : m.Run start ts t.before
        ∧
      m.step t.before t.event = some (t.after, t.outputs)
        ∧
      t.after = s' := by
  generalize hall : ts ++ [t] = all at hrun
  cases hrun with
  | nil => simp at hall
  | snoc hrun hstep =>
    obtain ⟨rfl, hlast⟩ := List.append_inj' hall rfl
    simp only [List.cons.injEq, and_true] at hlast
    subst hlast
    exact ⟨hrun, hstep, rfl⟩

theorem of_append (hrun : m.Run start (ts ++ us) s')
    : ∃ s, m.Run start ts s ∧ m.Run s us s' := by
  induction us using List.reverseRecOn generalizing s' with
  | nil => exact ⟨s', by simpa using hrun, Run.nil⟩
  | append_singleton us t ih =>
    rw [← List.append_assoc] at hrun
    obtain ⟨hbefore, hstep, rfl⟩ := hrun.of_snoc
    obtain ⟨s, h₁, h₂⟩ := ih hbefore
    exact ⟨s, h₁, Run.snoc h₂ hstep⟩

theorem of_append_cons {t : Transition σ ε ω} (hrun : m.Run start (ts ++ t :: us) s')
    : m.Run start ts t.before
        ∧
      m.step t.before t.event = some (t.after, t.outputs)
        ∧
      m.Run t.after us s' := by
  rw [← List.singleton_append, ← List.append_assoc] at hrun
  obtain ⟨_, hrun, hafter⟩ := hrun.of_append
  obtain ⟨hbefore, hstep, rfl⟩ := hrun.of_snoc
  exact ⟨hbefore, hstep, hafter⟩

/--
If every step of `m` can be answered by a step of `n` that keeps the states related, then every run
of `m` is answered by a run of `n` that is related transition by transition.
-/
theorem simulate {σ' ε' ω' : Type} {n : Machine σ' ε' ω'} (R : σ → σ' → Prop)
    (Q : Transition σ ε ω → Transition σ' ε' ω' → Prop)
    (hstep : ∀ s e s' os u, R s u → m.step s e = some (s', os) →
      ∃ a os' u', n.step u a = some (u', os') ∧ R s' u' ∧ Q ⟨s, e, os, s'⟩ ⟨u, a, os', u'⟩)
    (hrun : m.Run start ts s) {u : σ'} (hstart : R start u)
    : ∃ us u', n.Run u us u' ∧ R s u' ∧ List.Forall₂ Q ts us := by
  induction hrun with
  | nil => exact ⟨[], u, Run.nil, hstart, List.Forall₂.nil⟩
  | snoc _ h ih =>
    obtain ⟨us, v, hus, hv, hQ⟩ := ih
    obtain ⟨a, os', v', hn, hv', hq⟩ := hstep _ _ _ _ _ hv h
    refine ⟨_, v', Run.snoc hus hn, hv', ?_⟩
    exact List.rel_append hQ (List.Forall₂.cons hq List.Forall₂.nil)

end Run

end Machine
