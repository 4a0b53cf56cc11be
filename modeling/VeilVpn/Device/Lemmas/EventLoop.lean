import VeilVpn.Device.Lemmas.Workers

namespace Device

namespace Lock

open Threads

variable {ι α : Type} [DecidableEq ι] [Fintype ι]

theorem measure_goto (l : Lock ι α) (i : ι) (pc : Pc α)
    : (l.goto i pc).measure + (l.place i).weight (Fintype.card ι) (l.waiting i)
        =
      l.measure + pc.weight (Fintype.card ι) (l.waiting i) := by
  unfold measure
  rw [← Finset.add_sum_erase _ _ (Finset.mem_univ i),
    ← Finset.add_sum_erase _ (fun j => (l.place j).weight _ (l.waiting j)) (Finset.mem_univ i)]
  have hothers : ∑ j ∈ Finset.univ.erase i,
      ((l.goto i pc).place j).weight (Fintype.card ι) ((l.goto i pc).waiting j)
        = ∑ j ∈ Finset.univ.erase i, (l.place j).weight (Fintype.card ι) (l.waiting j) := by
    apply Finset.sum_congr rfl
    intro j hj
    rw [goto_place, Function.update_of_ne (Finset.ne_of_mem_erase hj), goto_waiting]
  rw [hothers, goto_place, Function.update_self, goto_waiting]
  omega

theorem measure_read {l l' : Lock ι α} {i : ι} (h : l.step i .read = some l')
    : l'.measure = l.measure + 6 := by
  obtain ⟨w, pc, hstep, rfl⟩ := exists_step h
  have hgoto := measure_goto w i pc
  rw [hstep.place_eq] at hgoto
  generalize l.place i = pc₀ at hstep hgoto
  cases hstep
  simpa [Pc.weight] using hgoto

theorem measure_tryWriteable {l l' : Lock ι α} {i : ι} (h : l.step i .tryWriteable = some l')
    : l'.measure = l.measure + (2 * Fintype.card ι + 18) := by
  obtain ⟨w, pc, hstep, rfl⟩ := exists_step h
  have hgoto := measure_goto w i pc
  rw [hstep.place_eq] at hgoto
  generalize l.place i = pc₀ at hstep hgoto
  cases hstep
  simp only [Pc.weight] at hgoto
  omega

end Lock

namespace Workers

variable {ι α : Type}

/--
Whether a thread takes a step on its own, without a packet, a timer or a signal for it.
-/
def Step.onItsOwn : Step α → Bool
  | .event => false
  | _ => true

/--
A bound on the steps in the loop that a thread takes on its own, among `n` threads. A thread that has
yielded does not get its guard back as long as the notice is there. What it does afterwards is paid for
by the thread that takes the notice back.
-/
def Worker.weight (n : Nat) (readable : Bool) : Worker → Nat
  | .handling => 10 * n + 29
  | .setting => 8 * n + 10
  | .cancelled => 9
  | .waiting => 8
  | .yielding | .outside => if readable then 7 else 15
  | .entering => if readable then 0 else 8
  | .exiting => 1
  | .exited => 0

theorem Worker.weight_le (n : Nat) (readable : Bool) (worker : Worker)
    : worker.weight n readable ≤ 10 * n + 29 := by
  unfold weight
  split <;> first | omega | (split <;> omega)

theorem Worker.weight_true_le (n : Nat) (readable : Bool) (worker : Worker)
    : worker.weight n true ≤ worker.weight n readable := by
  cases readable <;> cases worker <;> simp [weight]

theorem Worker.weight_false_le (n : Nat) (readable : Bool) (worker : Worker)
    : worker.weight n false ≤ worker.weight n readable + 8 := by
  cases readable <;> cases worker <;> simp [weight]

variable [DecidableEq ι] [Fintype ι]

def measure (s : Workers ι α) : Nat :=
  s.lock.measure + ∑ i, (s.worker i).weight (Fintype.card ι) s.yieldNotice.isReadable

section Measure

variable {s s' : Workers ι α} {i : ι} {e : Step α} {lock : Lock ι α} {worker : Worker}

omit [DecidableEq ι] in
theorem measure_le (s : Workers ι α)
    : s.measure ≤ Fintype.card ι * (12 * Fintype.card ι + 48) := by
  have hlock := s.lock.measure_le
  have hworkers : ∑ i, (s.worker i).weight (Fintype.card ι) s.yieldNotice.isReadable
      ≤ Fintype.card ι * (10 * Fintype.card ι + 29) := by
    rw [← Nat.nsmul_eq_mul, ← Finset.card_univ]
    exact Finset.sum_le_card_nsmul _ _ _ fun i _ => Worker.weight_le _ _ _
  calc s.measure
      ≤ Fintype.card ι * (2 * Fintype.card ι + 19) + Fintype.card ι * (10 * Fintype.card ι + 29) :=
        Nat.add_le_add hlock hworkers
    _ = Fintype.card ι * (12 * Fintype.card ι + 48) := by
      rw [← Nat.mul_add]
      congr 1
      omega

theorem measure_goto (s : Workers ι α) (i : ι) (worker : Worker)
    : (s.goto i worker).measure + (s.worker i).weight (Fintype.card ι) s.yieldNotice.isReadable
        =
      s.measure + worker.weight (Fintype.card ι) s.yieldNotice.isReadable := by
  have hsum := Threads.sum_update (Worker.weight (Fintype.card ι) s.yieldNotice.isReadable) s.worker i
    worker
  unfold measure
  rw [goto_lock, goto_worker, goto_yieldNotice]
  omega

theorem measure_lock_lt {c : Lock.Choice α} (hlock : s.lock.step i c = some lock)
    (hc : c.finishes = true)
    : ({ s with lock } : Workers ι α).measure < s.measure := by
  have hlt := Lock.measure_lt_of_step hlock hc
  unfold measure
  dsimp only
  omega

omit [DecidableEq ι] in
/--
Threads that have yielded do not come back while the notice is there.
-/
theorem measure_triggerYield_le (s : Workers ι α) : s.triggerYield.measure ≤ s.measure := by
  unfold measure
  rw [triggerYield_lock, triggerYield_worker, triggerYield_yieldNotice,
    EventFd.isReadable_triggerNotification]
  exact Nat.add_le_add_left (Finset.sum_le_sum fun i _ => Worker.weight_true_le _ _ _) _

omit [DecidableEq ι] in
theorem measure_cancelYield_le (s : Workers ι α)
    : s.cancelYield.measure ≤ s.measure + 8 * Fintype.card ι := by
  have hsum : ∑ i, (s.worker i).weight (Fintype.card ι) false
      ≤ ∑ i, ((s.worker i).weight (Fintype.card ι) s.yieldNotice.isReadable + 8) :=
    Finset.sum_le_sum fun i _ => Worker.weight_false_le _ _ _
  rw [Finset.sum_add_distrib, Finset.sum_const, Finset.card_univ, Nat.nsmul_eq_mul] at hsum
  unfold measure
  rw [cancelYield_lock, cancelYield_worker, cancelYield_yieldNotice,
    EventFd.isReadable_stopNotification]
  omega

omit [DecidableEq ι] in
@[simp]
theorem measure_triggerExit (s : Workers ι α) : s.triggerExit.measure = s.measure := by
  unfold measure
  rw [triggerExit_lock, triggerExit_worker, triggerExit_yieldNotice]

omit [DecidableEq ι] in
theorem worker_eq_entering (hs : Inv s) {v : α} (hplace : s.lock.place i = .leave v)
    : s.worker i = .entering := by
  have hallows := hs.allows i
  rw [hplace] at hallows
  revert hallows
  cases s.worker i <;> simp [Worker.allows, isHeld, upgrades, completes]

omit [DecidableEq ι] in
theorem isReadable_yieldNotice_of_passed (hs : Inv s) (hpassed : (s.lock.place i).passed = true)
    : s.yieldNotice.isReadable = false := by
  rw [← Bool.not_eq_true]
  intro hreadable
  obtain ⟨j, _, hasks⟩ := hs.yield.mp hreadable
  have hflag := Threads.eq_true_of_toNat_eq_count hs.lock.flag (flags_of_asks hasks)
  rw [hs.lock.passed i hpassed] at hflag
  cases hflag

theorem measure_goto_lt
    (hold : worker.weight (Fintype.card ι) s.yieldNotice.isReadable
      < (s.worker i).weight (Fintype.card ι) s.yieldNotice.isReadable)
    : (s.goto i worker).measure < s.measure := by
  have hgoto := measure_goto s i worker
  omega

theorem measure_lock_goto_lt {c : Lock.Choice α} (hlock : s.lock.step i c = some lock)
    (hc : c.finishes = true)
    (hold : worker.weight (Fintype.card ι) s.yieldNotice.isReadable
      ≤ (s.worker i).weight (Fintype.card ι) s.yieldNotice.isReadable)
    : (({ s with lock } : Workers ι α).goto i worker).measure < s.measure := by
  have hlt := measure_lock_lt hlock hc
  have hgoto := measure_goto { s with lock } i worker
  dsimp only at hgoto
  omega

theorem measure_call_lt {n : Nat} (hlock : lock.measure = s.lock.measure + n)
    (hold : worker.weight (Fintype.card ι) s.yieldNotice.isReadable + n
      < (s.worker i).weight (Fintype.card ι) s.yieldNotice.isReadable)
    : (({ s with lock } : Workers ι α).goto i worker).measure < s.measure := by
  have hgoto := measure_goto { s with lock } i worker
  have hmeasure : ({ s with lock } : Workers ι α).measure = s.measure + n := by
    simp only [measure, hlock]
    omega
  dsimp only at hgoto
  omega

theorem measure_lt_of_step (hs : Inv s) (h : s.step i e = some s') (he : e.onItsOwn = true)
    : s'.measure < s.measure := by
  have hcase := case_of_step h
  clear h
  cases hcase with
  | prep hlock _ => exact Nat.lt_of_le_of_lt (measure_triggerYield_le _) (measure_lock_lt hlock rfl)
  | entered hlock hplace =>
    apply measure_lock_goto_lt hlock rfl
    rw [worker_eq_entering hs hplace,
      isReadable_yieldNotice_of_passed hs (by rw [hplace, Lock.Pc.passed])]
    simp [Worker.weight]
  | run hlock _ _ => exact measure_lock_lt hlock rfl
  | enter hworker hlock =>
    apply measure_call_lt (Lock.measure_read hlock)
    rw [hworker]
    cases s.yieldNotice.isReadable <;> simp [Worker.weight]
  | yield hworker hreadable => exact measure_goto_lt (by simp [hworker, hreadable, Worker.weight])
  | exit hworker _ =>
    rw [← measure_triggerExit s]
    exact measure_goto_lt (by simp [hworker, Worker.weight])
  | event => cases he
  | apiSet hworker hlock =>
    apply measure_call_lt (Lock.measure_tryWriteable hlock)
    simp only [hworker, Worker.weight]
    omega
  | cancelYield hworker _ =>
    have hgoto := measure_goto s.cancelYield i .cancelled
    have hle := measure_cancelYield_le s
    simp only [cancelYield_worker, hworker, Worker.weight] at hgoto
    omega
  | mutate _ hlock => exact measure_lock_lt hlock rfl
  | handled hworker =>
    apply measure_goto_lt
    simp only [hworker, Worker.weight]
    omega
  | set hworker _ => exact measure_goto_lt (by simp [hworker, Worker.weight])
  | handledExit hworker =>
    rw [← measure_triggerExit s]
    exact measure_goto_lt (by simp [hworker, Worker.weight])
  | leave hworker hlock => exact measure_lock_goto_lt hlock rfl (by simp [hworker, Worker.weight])
  | exited hworker hlock => exact measure_lock_goto_lt hlock rfl (by simp [hworker, Worker.weight])

end Measure

section Progress

variable {s : Workers ι α} {i : ι}

omit [Fintype ι] in
theorem isSome_step_run (h : s.lock.run i ≠ none) : (s.step i .run).isSome := by
  simp only [step]
  unfold run
  split
  . next hnone => exact absurd hnone h
  . split <;> rfl

theorem exists_step_of_write (hs : Inv s) {v : α} (hplace : s.lock.place i = .write v)
    : (s.step i .cancelYield).isSome ∨ (s.step i (.mutate id)).isSome := by
  have hallows := hs.allows i
  rw [hplace] at hallows
  cases hworker : s.worker i with
  | setting => exact .inl (by simp [step, hworker, hplace])
  | cancelled => exact .inr (by simp [step, hworker, hplace, Lock.step])
  | _ => simp [hworker, Worker.allows, reads, isHeld] at hallows

theorem exists_step_of_held (hs : Inv s) {v : α} (hplace : s.lock.place i = .held v)
    : s.worker i = .waiting
        ∨
      (s.step i (.handled .continue)).isSome
        ∨
      (s.step i .leave).isSome := by
  have hallows := hs.allows i
  rw [hplace] at hallows
  cases hworker : s.worker i with
  | waiting => exact .inl rfl
  | handling => exact .inr (.inl (by simp [step, hworker]))
  | cancelled => exact .inr (.inl (by simp [step, hworker, hplace]))
  | yielding => exact .inr (.inr (by simp [step, hworker, hplace, Lock.step]))
  | exiting => exact .inr (.inr (by simp [step, hworker, hplace, Lock.step]))
  | _ => simp [hworker, Worker.allows, reads, upgrades] at hallows

/--
Threads that can not go on in the lock wait for a thread with a guard, or have no guard themselves.
-/
theorem cases_of_stuck (hs : Inv s) (i : ι)
    : (∃ j, (s.step j .run).isSome)
        ∨
      (∃ j, (s.step j .cancelYield).isSome ∨ (s.step j (.mutate id)).isSome)
        ∨
      s.lock.place i = .idle
        ∨
      (∃ v, s.lock.place i = .held v)
        ∨
      ((∃ j, Asks s j) ∧ ∃ j v, s.lock.place j = .held v) := by
  by_cases hrun : ∀ j, s.lock.run j = none
  . by_cases hwrite : ∀ j v, s.lock.place j ≠ .write v
    . rcases hs.lock.cases_of_stuck hs.panicked hrun hwrite i with hidle | hheld | ⟨_, j, v, hv⟩
      . exact .inr (.inr (.inl hidle))
      . exact .inr (.inr (.inr (.inl hheld)))
      . refine .inr (.inr (.inr (.inr ⟨⟨j, ?_, by rw [hv, asks]⟩, ?_⟩)))
        . have hallows := hs.allows j
          rw [hv] at hallows
          revert hallows
          cases s.worker j <;> simp [Worker.allows, reads, isHeld, completes]
        . exact hs.lock.exists_held_of_drain hs.panicked hrun hwrite hv
    . push Not at hwrite
      obtain ⟨j, v, hv⟩ := hwrite
      exact .inr (.inl ⟨j, exists_step_of_write hs hv⟩)
  . push Not at hrun
    obtain ⟨j, hj⟩ := hrun
    exact .inl ⟨j, isSome_step_run hj⟩

theorem exists_step_of_request (hs : Inv s) (hi : s.worker i = .setting ∨ s.worker i = .cancelled)
    : ∃ j e, e.onItsOwn = true ∧ (s.step j e).isSome := by
  rcases cases_of_stuck hs i with
    ⟨j, hj⟩ | ⟨j, hj | hj⟩ | hidle | ⟨v, hv⟩ | ⟨hasks, j, v, hv⟩
  . exact ⟨j, .run, rfl, hj⟩
  . exact ⟨j, .cancelYield, rfl, hj⟩
  . exact ⟨j, .mutate id, rfl, hj⟩
  . have hallows := hs.allows i
    rw [hidle] at hallows
    rcases hi with hi | hi <;> simp [hi, Worker.allows, upgrades, completes] at hallows
  . rcases exists_step_of_held hs hv with hworker | hstep | hstep
    . rcases hi with hi | hi <;> simp [hworker] at hi
    . exact ⟨i, .handled .continue, rfl, hstep⟩
    . exact ⟨i, .leave, rfl, hstep⟩
  . rcases exists_step_of_held hs hv with hworker | hstep | hstep
    . exact ⟨j, .notice .yield, rfl, by simp [step, hworker, hs.yield.mpr hasks]⟩
    . exact ⟨j, .handled .continue, rfl, hstep⟩
    . exact ⟨j, .leave, rfl, hstep⟩

theorem exists_step_of_exit (hs : Inv s) (hexit : s.exitNotice.isReadable = true)
    (hi : s.worker i ≠ .exited)
    : ∃ j e, e.onItsOwn = true ∧ (s.step j e).isSome := by
  have hheld : ∀ j v, s.lock.place j = .held v →
      ∃ j e, e.onItsOwn = true ∧ (s.step j e).isSome := by
    intro j v hv
    rcases exists_step_of_held hs hv with hworker | hstep | hstep
    . exact ⟨j, .notice .exit, rfl, by simp [step, hworker, hexit]⟩
    . exact ⟨j, .handled .continue, rfl, hstep⟩
    . exact ⟨j, .leave, rfl, hstep⟩
  rcases cases_of_stuck hs i with
    ⟨j, hj⟩ | ⟨j, hj | hj⟩ | hidle | ⟨v, hv⟩ | ⟨_, j, v, hv⟩
  . exact ⟨j, .run, rfl, hj⟩
  . exact ⟨j, .cancelYield, rfl, hj⟩
  . exact ⟨j, .mutate id, rfl, hj⟩
  . have hallows := hs.allows i
    rw [hidle] at hallows
    have hworker : s.worker i = .outside := by
      revert hallows hi
      cases s.worker i <;> simp [Worker.allows, reads, isHeld, upgrades, completes]
    exact ⟨i, .enter, rfl, by simp [step, hworker, hidle, Lock.step]⟩
  . exact hheld i v hv
  . exact hheld j v hv

omit [Fintype ι] in
theorem isReadable_exitNotice_step {s' : Workers ι α} {e : Step α} (h : s.step i e = some s')
    (hexit : s.exitNotice.isReadable = true)
    : s'.exitNotice.isReadable = true := by
  have hcase := case_of_step h
  clear h
  cases hcase with
  | exit =>
    rw [goto_exitNotice, triggerExit_exitNotice]
    exact EventFd.isReadable_triggerNotification s.exitNotice
  | handledExit =>
    rw [goto_exitNotice, triggerExit_exitNotice]
    exact EventFd.isReadable_triggerNotification s.exitNotice
  | prep =>
    rw [triggerYield_exitNotice]
    exact hexit
  | cancelYield =>
    rw [goto_exitNotice, cancelYield_exitNotice]
    exact hexit
  | _ => exact hexit

end Progress

section Run

variable {device : α} {s : Workers ι α} {ts : List (Transition (Workers ι α) (ι × Step α) Empty)}

/--
The first of two threads waits for write access while the other one waits for an event.
-/
def contended (i j : ι) : List (ι × Step Nat) :=
  [(j, .enter), (j, .run), (j, .run), (j, .run), (j, .run), (i, .enter), (i, .run), (i, .run), (i, .run),
    (i, .run), (i, .event), (i, .apiSet), (i, .run), (i, .run), (i, .run), (i, .run), (i, .run),
    (i, .run), (i, .run), (i, .run), (i, .run)]

end Run

end Workers

end Device
