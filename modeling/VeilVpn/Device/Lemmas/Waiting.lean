import VeilVpn.Device.Lemmas.Lock

namespace Device

namespace Lock

open Threads

variable {ι α : Type}

/--
Whether a step ends something that a thread has begun.
-/
def Choice.finishes : Choice α → Bool
  | .run | .drop | .mutate _ => true
  | .read | .tryWriteable | .panicPrep | .panicMut _ => false

/--
A bound on the steps that a thread still needs, among `n` threads. Notifying the other threads makes each
of them look at the flag once more, which is why it is worth two steps of every thread.
-/
def Pc.weight (n : Nat) (waiting : Bool) : Pc α → Nat
  | .idle | .dead => 0
  | .held _ | .unwind => 1
  | .leave _ | .finish | .unwindRegain => 2
  | .share | .unwindWrite => 3
  | .sleep .read => if waiting then 4 else 6
  | .check .read => 5
  | .lock .read => 6
  | .notify => 2 * n + 3
  | .clear => 2 * n + 4
  | .relock => 2 * n + 5
  | .regain => 2 * n + 6
  | .written => 2 * n + 7
  | .write _ => 2 * n + 8
  | .drain _ => 2 * n + 9
  | .claim _ => 2 * n + 10
  | .release _ => 2 * n + 11
  | .prep => 2 * n + 12
  | .reshare => 2 * n + 13
  | .marked => 2 * n + 14
  | .mark => 2 * n + 15
  | .sleep .upgrade => if waiting then 2 * n + 16 else 2 * n + 18
  | .check .upgrade => 2 * n + 17
  | .unshare => 2 * n + 18
  | .lock .upgrade => 2 * n + 19

theorem Pc.weight_le (n : Nat) (waiting : Bool) (pc : Pc α) : pc.weight n waiting ≤ 2 * n + 19 := by
  unfold weight
  split <;> first | omega | (split <;> omega)

theorem Pc.weight_le_add (n : Nat) (waiting waiting' : Bool) (pc : Pc α)
    : pc.weight n waiting ≤ pc.weight n waiting' + 2 := by
  unfold weight
  split <;> first | omega | (split <;> split <;> omega)

variable [DecidableEq ι]

def Pc.cost : Pc α → Nat
  | .notify => 2
  | _ => 0

section Step

variable {l w : Lock ι α} {i : ι} {c : Choice α} {pc pc' : Pc α}

theorem Step.weight_lt (h : Step l i pc c w pc') (hfinishes : c.finishes = true) (n : Nat)
    : pc'.weight n (w.waiting i) + pc.cost * n < pc.weight n (l.waiting i) := by
  cases h with
  | read => cases hfinishes
  | tryWriteable => cases hfinishes
  | panicPrep => cases hfinishes
  | panicMut => cases hfinishes
  | @wait r => cases r <;> simp [Pc.weight, Pc.cost]
  | @wake r hwaiting => cases r <;> simp [Pc.weight, Pc.cost, hwaiting]
  | notify =>
    simp only [Pc.weight, Pc.cost]
    omega
  | _ => simp [Pc.weight, Pc.cost]

theorem Step.weight_le_of_ne (h : Step l i pc c w pc') {j : ι} (hji : j ≠ i) (n : Nat) (q : Pc α)
    : q.weight n (w.waiting j) ≤ q.weight n (l.waiting j) + pc.cost := by
  cases h with
  | notify => exact Pc.weight_le_add n _ _ q
  | wait => simp [hji]
  | _ => exact Nat.le_add_right _ _

end Step

variable [Fintype ι]

def measure (l : Lock ι α) : Nat :=
  ∑ i, (l.place i).weight (Fintype.card ι) (l.waiting i)

omit [DecidableEq ι] in
theorem measure_le (l : Lock ι α)
    : l.measure ≤ Fintype.card ι * (2 * Fintype.card ι + 19) := by
  unfold measure
  rw [← Nat.nsmul_eq_mul, ← Finset.card_univ]
  apply Finset.sum_le_card_nsmul
  intro i _
  exact Pc.weight_le _ _ _

theorem Step.measure_lt {l w : Lock ι α} {i : ι} {c : Choice α} {pc : Pc α}
    (h : Step l i (l.place i) c w pc) (hfinishes : c.finishes = true)
    : (w.goto i pc).measure < l.measure := by
  unfold measure
  rw [← Finset.add_sum_erase _ _ (Finset.mem_univ i),
    ← Finset.add_sum_erase _ (fun j => (l.place j).weight _ (l.waiting j)) (Finset.mem_univ i)]
  have hown : ((w.goto i pc).place i).weight (Fintype.card ι) ((w.goto i pc).waiting i)
      + (l.place i).cost * Fintype.card ι < (l.place i).weight (Fintype.card ι) (l.waiting i) := by
    rw [goto_place, Function.update_self, goto_waiting]
    exact h.weight_lt hfinishes (Fintype.card ι)
  have hothers : ∑ j ∈ Finset.univ.erase i,
      ((w.goto i pc).place j).weight (Fintype.card ι) ((w.goto i pc).waiting j)
        ≤ ∑ j ∈ Finset.univ.erase i,
          ((l.place j).weight (Fintype.card ι) (l.waiting j) + (l.place i).cost) := by
    apply Finset.sum_le_sum
    intro j hj
    have hji := Finset.ne_of_mem_erase hj
    rw [goto_place, h.place_eq, Function.update_of_ne hji, goto_waiting]
    exact h.weight_le_of_ne hji _ _
  rw [Finset.sum_add_distrib, Finset.sum_const, Nat.nsmul_eq_mul] at hothers
  have hcard : (Finset.univ.erase i).card ≤ Fintype.card ι := Finset.card_le_univ _
  have hcost := Nat.mul_le_mul_right (l.place i).cost hcard
  rw [Nat.mul_comm (Fintype.card ι)] at hcost
  omega

theorem measure_lt_of_step {l l' : Lock ι α} {i : ι} {c : Choice α} (h : l.step i c = some l')
    (hfinishes : c.finishes = true)
    : l'.measure < l.measure := by
  obtain ⟨w, pc, hstep, rfl⟩ := exists_step h
  exact hstep.measure_lt hfinishes

namespace Inv

variable {l : Lock ι α} {i : ι}

theorem flags_of_claims (pc : Pc α) (h : pc.claims = true) : pc.flags = true := by
  revert h
  cases pc <;> simp [Pc.claims, Pc.flags]

omit [DecidableEq ι] in
theorem writer_eq_false (hl : Inv l) (hclear : l.wantsWrite = false) : l.inner.writer = false := by
  rw [← Bool.not_eq_true]
  intro hwriter
  obtain ⟨j, hj⟩ := exists_of_toNat_eq_count hl.writer hwriter
  have hflag := eq_true_of_toNat_eq_count hl.flag (flags_of_claims _ hj)
  rw [hclear] at hflag
  cases hflag

theorem writer_eq_false_of_flags (hl : Inv l) (hi : (l.place i).flags = true)
    (hclaims : (l.place i).claims = false)
    : l.inner.writer = false := by
  rw [← Bool.not_eq_true]
  intro hwriter
  obtain ⟨j, hj⟩ := exists_of_toNat_eq_count hl.writer hwriter
  obtain rfl := eq_of_toNat_eq_count hl.flag hi (flags_of_claims _ hj)
  rw [hclaims] at hj
  cases hj

theorem isSome_run_of_locksMutex (hl : Inv l) (hi : (l.place i).locksMutex = true)
    : (l.run i).isSome := by
  have hpassed := hl.passed i
  unfold run
  cases hplace : l.place i with
  | check r => cases hflag : l.wantsWrite <;> cases r <;> rfl
  | share =>
    have hwriter := hl.writer_eq_false (hpassed (by rw [hplace, Pc.passed]))
    simp [RawRwLock.lockShared, hwriter]
  | _ => simp_all [Pc.locksMutex]

theorem eq_drain_of_flags (hl : Inv l) (hmutex : l.mutex = false) (hi : (l.place i).flags = true)
    (hpanic : (l.place i).panicked = false) (hrun : l.run i = none)
    (hwrite : ∀ v, l.place i ≠ .write v)
    : ∃ v, l.place i = .drain v := by
  have hwriter := hl.writer_eq_false_of_flags hi
  cases hplace : l.place i with
  | drain v => exact ⟨v, rfl⟩
  | _ =>
    simp_all [run, Pc.flags, Pc.claims, Pc.panicked, RawRwLock.lockShared,
      RawRwLock.claimExclusive]

/--
Where threads are when none of them can go on: those that are asleep wait for a thread that waits for the
guards of others.
-/
theorem cases_of_stuck (hl : Inv l) (hpanic : ∀ j, (l.place j).panicked = false)
    (hrun : ∀ j, l.run j = none) (hwrite : ∀ j v, l.place j ≠ .write v) (i : ι)
    : l.place i = .idle
        ∨
      (∃ v, l.place i = .held v)
        ∨
      ((l.place i).shares = false ∧ ∃ j v, l.place j = .drain v) := by
  have hunlocked : ∀ j, (l.place j).locksMutex = false := by
    intro j
    rw [← Bool.not_eq_true]
    intro hj
    have hsome := hl.isSome_run_of_locksMutex hj
    rw [hrun j] at hsome
    cases hsome
  have hmutex : l.mutex = false := by
    rw [← Bool.not_eq_true]
    intro hlocked
    obtain ⟨j, hj⟩ := exists_of_toNat_eq_count hl.mutex hlocked
    rw [hunlocked j] at hj
    cases hj
  have hdrain : ∀ j, (l.place j).flags = true → ∃ v, l.place j = .drain v := fun j hj =>
    hl.eq_drain_of_flags hmutex hj (hpanic j) (hrun j) (hwrite j)
  by_cases hi : (l.place i).flags = true
  . obtain ⟨v, hv⟩ := hdrain i hi
    exact .inr (.inr ⟨by simp [hv, Pc.shares], i, v, hv⟩)
  . have hnone := hrun i
    have hlocks := hunlocked i
    cases hplace : l.place i with
    | idle => exact .inl rfl
    | held v => exact .inr (.inl ⟨v, rfl⟩)
    | lock r => cases r <;> simp [run, hplace, hmutex] at hnone
    | sleep r =>
      have hwaiting : l.waiting i = true := by simpa [run, hplace, hmutex] using hnone
      refine .inr (.inr ⟨rfl, ?_⟩)
      rcases hl.awake i hwaiting with hflag | ⟨j, hj⟩
      . obtain ⟨j, hj⟩ := exists_of_toNat_eq_count hl.flag hflag
        exact ⟨j, hdrain j hj⟩
      . have hlocks := hunlocked j
        rw [hj] at hlocks
        cases hlocks
    | _ => simp_all [Pc.flags, Pc.locksMutex]

theorem exists_held_of_drain (hl : Inv l) (hpanic : ∀ j, (l.place j).panicked = false)
    (hrun : ∀ j, l.run j = none) (hwrite : ∀ j v, l.place j ≠ .write v) {v : α}
    (hi : l.place i = .drain v)
    : ∃ j v, l.place j = .held v := by
  have hreaders : l.inner.readers ≠ 0 := by
    have hnone := hrun i
    simpa [run, hi] using hnone
  rw [hl.readers] at hreaders
  obtain ⟨j, hj⟩ := exists_of_count_ne_zero hreaders
  rcases hl.cases_of_stuck hpanic hrun hwrite j with hidle | hheld | ⟨hshares, _⟩
  . rw [hidle] at hj
    cases hj
  . exact ⟨j, hheld⟩
  . rw [hshares] at hj
    cases hj

theorem exists_finishes (hl : Inv l) (hpanic : ∀ j, (l.place j).panicked = false)
    (hi : l.place i ≠ .idle)
    : ∃ j c, c.finishes = true ∧ (l.step j c).isSome := by
  have hdrop : ∀ j v, l.place j = .held v → ∃ j c, c.finishes = true ∧ (l.step j c).isSome :=
    fun j v hj => ⟨j, .drop, rfl, by simp [step, hj]⟩
  by_cases hrun : ∀ j, l.run j = none
  . by_cases hwrite : ∀ j v, l.place j ≠ .write v
    . rcases hl.cases_of_stuck hpanic hrun hwrite i with hidle | ⟨v, hv⟩ | ⟨_, j, v, hv⟩
      . exact absurd hidle hi
      . exact hdrop i v hv
      . obtain ⟨k, v, hk⟩ := hl.exists_held_of_drain hpanic hrun hwrite hv
        exact hdrop k v hk
    . push Not at hwrite
      obtain ⟨j, v, hv⟩ := hwrite
      exact ⟨j, .mutate id, rfl, by simp [step, hv]⟩
  . push Not at hrun
    obtain ⟨j, hj⟩ := hrun
    exact ⟨j, .run, rfl, by simpa [step] using Option.isSome_iff_ne_none.mpr hj⟩

end Inv

omit [Fintype ι] in
theorem panicked_of_step {l l' : Lock ι α} {i : ι} {c : Choice α} (h : l.step i c = some l')
    (hc : c.isPanic = false) (hl : ∀ j, (l.place j).panicked = false)
    : ∀ j, (l'.place j).panicked = false := by
  intro j
  obtain ⟨w, pc, hstep, rfl⟩ := exists_step h
  rw [goto_place, hstep.place_eq]
  by_cases hji : j = i
  . subst hji
    have hj := hl j
    rw [Function.update_self]
    generalize l.place j = pc₀ at hstep hj
    cases hstep <;> simp_all [Pc.panicked, Choice.isPanic]
  . rw [Function.update_of_ne hji]
    exact hl j

section Run

variable {userData : α} {l : Lock ι α} {ts us : List (Transition (Lock ι α) (ι × Choice α) Empty)}

omit [Fintype ι] in
theorem panicked_of_run (hrun : (machine ι α).Run (new userData) ts l)
    (hpanic : ∀ t ∈ ts, t.event.2.isPanic = false)
    : ∀ i, (l.place i).panicked = false := by
  apply hrun.invariant_of_mem (fun l => ∀ i, (l.place i).panicked = false)
  . intro i
    rfl
  . intro t ht hbefore hstep
    exact panicked_of_step (step_of_machine hstep) (hpanic t ht) hbefore

/--
No deadlock and no lost wakeup: as long as no closure has panicked, the threads end what they have begun
in a bounded number of steps in whatever order they take them, and if none of them can take another step
then all of them are done.
-/
theorem comes_to_rest (hrun : (machine ι α).Run (new userData) ts l)
    (hpanic : ∀ t ∈ ts, t.event.2.isPanic = false)
    : ∀ us l', (machine ι α).Run l us l' → (∀ u ∈ us, u.event.2.finishes = true) →
        us.length ≤ Fintype.card ι * (2 * Fintype.card ι + 19)
          ∧
        ((∀ i c, c.finishes = true → l'.step i c = none) → ∀ i, l'.place i = .idle) := by
  intro us l' hafter hfinishes
  obtain ⟨⟨hl', hpanic'⟩, hlength⟩ := hafter.length_le_of_decreasing
    (fun l => Inv l ∧ ∀ i, (l.place i).panicked = false) (fun e => e.2.finishes = true) measure
    (fun l e l' os hl he hstep => by
      have hstep := step_of_machine hstep
      refine ⟨⟨inv_step hl.1 hstep, ?_⟩, measure_lt_of_step hstep he⟩
      refine panicked_of_step hstep ?_ hl.2
      revert he
      cases e.2 <;> simp [Choice.finishes, Choice.isPanic])
    hfinishes ⟨inv_of_run hrun, panicked_of_run hrun hpanic⟩
  refine ⟨le_trans (by omega) (measure_le l), ?_⟩
  intro hstuck i
  by_contra hi
  obtain ⟨j, c, hc, hsome⟩ := hl'.exists_finishes hpanic' hi
  rw [hstuck j c hc] at hsome
  cases hsome

theorem comes_to_rest_contended
    : ∃ ts l, (machine (Fin 2) Nat).Run (new 7) ts l
        ∧
      (∀ t ∈ ts, t.event.2.isPanic = false)
        ∧
      l.place 0 = .write 7
        ∧
      l.place 1 = .sleep .read
        ∧
      ∀ us l', (machine (Fin 2) Nat).Run l us l' → (∀ u ∈ us, u.event.2.finishes = true) →
        us.length ≤ Fintype.card (Fin 2) * (2 * Fintype.card (Fin 2) + 19)
          ∧
        ((∀ i c, c.finishes = true → l'.step i c = none) → ∀ i, l'.place i = .idle) := by
  obtain ⟨ts, l, hrun, hl⟩ := Machine.Run.exists_of_exec (machine (Fin 2) Nat) (new 7) (contended 0 1)
    (fun ts l =>
      ts.all (fun t => !t.event.2.isPanic)
        && decide (l.place 0 = .write 7 ∧ l.place 1 = .sleep .read))
    (by decide +kernel)
  rw [Bool.and_eq_true, List.all_eq_true] at hl
  obtain ⟨hfirst, hsecond⟩ := of_decide_eq_true hl.2
  have hpanic : ∀ t ∈ ts, t.event.2.isPanic = false := by
    intro t ht
    simpa using hl.1 t ht
  exact ⟨ts, l, hrun, hpanic, hfirst, hsecond, comes_to_rest hrun hpanic⟩

end Run

end Lock

end Device
