import VeilVpn.Device.Impl.Workers
import VeilVpn.Device.Lemmas.Waiting

namespace Device

namespace EventFd

@[simp]
theorem isReadable_triggerNotification (fd : EventFd) : fd.triggerNotification.isReadable = true := by
  unfold triggerNotification write isReadable
  split
  . simp
  . next h =>
    rw [decide_eq_true_iff]
    omega

@[simp]
theorem isReadable_stopNotification (fd : EventFd) : fd.stopNotification.isReadable = false := rfl

end EventFd

namespace Workers

variable {ι α : Type}

def isHeld : Lock.Pc α → Bool
  | .held _ => true
  | _ => false

def reads : Lock.Pc α → Bool
  | .lock .read | .check .read | .sleep .read | .share | .leave _ => true
  | _ => false

def upgrades : Lock.Pc α → Bool
  | .lock .upgrade | .unshare | .check .upgrade | .sleep .upgrade | .mark | .marked | .reshare | .prep
  | .release _ | .claim _ | .drain _ | .write _ => true
  | _ => false

def completes : Lock.Pc α → Bool
  | .write _ | .written | .regain | .relock | .clear | .notify | .finish | .held _ => true
  | _ => false

/--
The places in the lock that a thread can be at for its place in the event loop.
-/
def Worker.allows (worker : Worker) (pc : Lock.Pc α) : Prop :=
  match worker with
  | .outside | .exited => pc = .idle
  | .entering => reads pc = true
  | .waiting | .handling | .yielding | .exiting => isHeld pc = true
  | .setting => upgrades pc = true
  | .cancelled => completes pc = true

/--
The places after a thread has told the others to yield, up to where it has write access.
-/
def asks : Lock.Pc α → Bool
  | .release _ | .claim _ | .drain _ | .write _ => true
  | _ => false

variable [DecidableEq ι]

inductive Case (s : Workers ι α) (i : ι) : Step α → Workers ι α → Prop where
  | prep {lock : Lock ι α}
    : s.lock.step i .run = some lock → s.lock.place i = .prep →
      Case s i .run { s with lock }.triggerYield
  | entered {lock : Lock ι α} {v : α}
    : s.lock.step i .run = some lock → s.lock.place i = .leave v →
      Case s i .run ({ s with lock }.goto i .waiting)
  | run {lock : Lock ι α}
    : s.lock.step i .run = some lock → s.lock.place i ≠ .prep → (∀ v, s.lock.place i ≠ .leave v) →
      Case s i .run { s with lock }
  | enter {lock : Lock ι α}
    : s.worker i = .outside → s.lock.step i .read = some lock →
      Case s i .enter ({ s with lock }.goto i .entering)
  | yield
    : s.worker i = .waiting → s.yieldNotice.isReadable = true →
      Case s i (.notice .yield) (s.goto i .yielding)
  | exit
    : s.worker i = .waiting → s.exitNotice.isReadable = true →
      Case s i (.notice .exit) (s.triggerExit.goto i .exiting)
  | event : s.worker i = .waiting → Case s i .event (s.goto i .handling)
  | apiSet {lock : Lock ι α}
    : s.worker i = .handling → s.lock.step i .tryWriteable = some lock →
      Case s i .apiSet ({ s with lock }.goto i .setting)
  | cancelYield {v : α}
    : s.worker i = .setting → s.lock.place i = .write v →
      Case s i .cancelYield (s.cancelYield.goto i .cancelled)
  | mutate {mutFunc : α → α} {lock : Lock ι α}
    : s.worker i = .cancelled → s.lock.step i (.mutate mutFunc) = some lock →
      Case s i (.mutate mutFunc) { s with lock }
  | handled : s.worker i = .handling → Case s i (.handled .continue) (s.goto i .waiting)
  | set {v : α}
    : s.worker i = .cancelled → s.lock.place i = .held v →
      Case s i (.handled .continue) (s.goto i .waiting)
  | handledExit
    : s.worker i = .handling → Case s i (.handled .exit) (s.triggerExit.goto i .exiting)
  | leave {lock : Lock ι α}
    : s.worker i = .yielding → s.lock.step i .drop = some lock →
      Case s i .leave ({ s with lock }.goto i .outside)
  | exited {lock : Lock ι α}
    : s.worker i = .exiting → s.lock.step i .drop = some lock →
      Case s i .leave ({ s with lock }.goto i .exited)

theorem case_of_run {s s' : Workers ι α} {i : ι} (h : s.run i = some s') : Case s i .run s' := by
  unfold run at h
  split at h
  . cases h
  . next lock hlock =>
    have hstep : s.lock.step i .run = some lock := by simpa [Lock.step] using hlock
    split at h
    . next hplace =>
      cases h
      exact .prep hstep hplace
    . next hplace =>
      cases h
      exact .entered hstep hplace
    . next hprep hleave =>
      cases h
      exact .run hstep hprep hleave

theorem case_of_step {s s' : Workers ι α} {i : ι} {e : Step α} (h : s.step i e = some s')
    : Case s i e s' := by
  unfold step at h
  split at h
  . exact case_of_run h
  . next hworker =>
    obtain ⟨lock, hlock, rfl⟩ := Option.map_eq_some_iff.mp h
    exact .enter hworker hlock
  . next hworker =>
    obtain ⟨hreadable, h⟩ := Option.ite_none_right_eq_some.mp h
    cases h
    exact .yield hworker hreadable
  . next hworker =>
    obtain ⟨hreadable, h⟩ := Option.ite_none_right_eq_some.mp h
    cases h
    exact .exit hworker hreadable
  . next hworker =>
    cases h
    exact .event hworker
  . next hworker =>
    obtain ⟨lock, hlock, rfl⟩ := Option.map_eq_some_iff.mp h
    exact .apiSet hworker hlock
  . next hworker =>
    split at h
    . next hplace =>
      cases h
      exact .cancelYield hworker hplace
    . cases h
  . next hworker =>
    obtain ⟨lock, hlock, rfl⟩ := Option.map_eq_some_iff.mp h
    exact .mutate hworker hlock
  . next hworker =>
    cases h
    exact .handled hworker
  . next hworker =>
    split at h
    . next hplace =>
      cases h
      exact .set hworker hplace
    . cases h
  . next hworker =>
    cases h
    exact .handledExit hworker
  . next hworker =>
    obtain ⟨lock, hlock, rfl⟩ := Option.map_eq_some_iff.mp h
    exact .leave hworker hlock
  . next hworker =>
    obtain ⟨lock, hlock, rfl⟩ := Option.map_eq_some_iff.mp h
    exact .exited hworker hlock
  . cases h

/--
A thread that has told the others to yield and has not taken that back yet.
-/
def Asks (s : Workers ι α) (i : ι) : Prop :=
  s.worker i = .setting ∧ asks (s.lock.place i) = true

variable [Fintype ι]

/--
The notice to yield is there as long as a thread needs the others to yield, and a thread that has left
the loop for good has left the notice to exit.
-/
structure Inv (s : Workers ι α) : Prop where
  lock : Lock.Inv s.lock
  panicked : ∀ i, (s.lock.place i).panicked = false
  allows : ∀ i, (s.worker i).allows (s.lock.place i)
  yield : s.yieldNotice.isReadable = true ↔ ∃ i, Asks s i
  exit : ∀ i, s.worker i = .exiting ∨ s.worker i = .exited → s.exitNotice.isReadable = true

omit [DecidableEq ι] in
theorem inv_new (device : α) : Inv (new device : Workers ι α) where
  lock := Lock.inv_new device
  panicked := fun _ => rfl
  allows := fun _ => rfl
  yield := by simp [new, Asks, EventFd.new, EventFd.isReadable]
  exit := by simp [new]

section Step

variable {l w : Lock ι α} {i : ι} {pc pc' : Lock.Pc α} {worker : Worker}

omit [Fintype ι] in
theorem allows_of_run (h : Lock.Step l i pc .run w pc') (hpanic : pc.panicked = false)
    (hleave : ∀ v, pc ≠ .leave v) (hallows : worker.allows pc)
    : worker.allows pc' := by
  cases h with
  | @wait r =>
    cases r <;> cases worker <;> simp_all [Worker.allows, reads, isHeld, upgrades, completes]
  | @wake r =>
    cases r <;> cases worker <;> simp_all [Worker.allows, reads, isHeld, upgrades, completes]
  | _ =>
    cases worker <;>
      simp_all [Worker.allows, reads, isHeld, upgrades, completes, Lock.Pc.panicked]

omit [DecidableEq ι] [Fintype ι] in
theorem flags_of_asks (h : asks pc = true) : pc.flags = true := by
  revert h
  cases pc <;> simp [asks, Lock.Pc.flags]

omit [Fintype ι] in
theorem asks_of_run (h : Lock.Step l i pc .run w pc') (hprep : pc ≠ .prep) : asks pc' = asks pc := by
  cases h <;> first | rfl | exact absurd rfl hprep

end Step

namespace Inv

variable {s s' : Workers ι α} {i : ι} {lock : Lock ι α} {c : Lock.Choice α} {worker : Worker}

/--
A step only has to be looked at for the thread that takes it.
-/
theorem move (hs : Inv s) (hlock : Lock.Inv s'.lock)
    (hpanic : ∀ j, (s'.lock.place j).panicked = false)
    (hplace : ∀ j, j ≠ i → s'.lock.place j = s.lock.place j)
    (hworker : ∀ j, j ≠ i → s'.worker j = s.worker j)
    (hallows : (s'.worker i).allows (s'.lock.place i))
    (hyield : s'.yieldNotice.isReadable = true ↔ ∃ j, Asks s' j)
    (hexit : s'.exitNotice.isReadable = true
      ∨ (s'.exitNotice = s.exitNotice ∧ s'.worker i ≠ .exiting ∧ s'.worker i ≠ .exited))
    : Inv s' where
  lock := hlock
  panicked := hpanic
  allows := by
    intro j
    by_cases hji : j = i
    . rw [hji]
      exact hallows
    . rw [hworker j hji, hplace j hji]
      exact hs.allows j
  yield := hyield
  exit := by
    intro j hj
    rcases hexit with hreadable | ⟨hsame, hexiting, hexited⟩
    . exact hreadable
    . rw [hsame]
      by_cases hji : j = i
      . subst hji
        rcases hj with hj | hj
        . exact absurd hj hexiting
        . exact absurd hj hexited
      . rw [hworker j hji] at hj
        exact hs.exit j hj

omit [Fintype ι] in
theorem exists_asks_iff (s s' : Workers ι α) (hplace : ∀ j, j ≠ i → s'.lock.place j = s.lock.place j)
    (hworker : ∀ j, j ≠ i → s'.worker j = s.worker j) (hi : Asks s' i ↔ Asks s i)
    : (∃ j, Asks s' j) ↔ ∃ j, Asks s j := by
  apply exists_congr
  intro j
  by_cases hji : j = i
  . rw [hji, hi]
  . unfold Asks
    rw [hplace j hji, hworker j hji]

theorem goto (hs : Inv s) (worker : Worker) (exitNotice : EventFd)
    (hallows : worker.allows (s.lock.place i)) (hold : ¬ Asks s i) (hnew : worker ≠ .setting)
    (hexit : exitNotice.isReadable = true
      ∨ (exitNotice = s.exitNotice ∧ worker ≠ .exiting ∧ worker ≠ .exited))
    : Inv ({ s with exitNotice }.goto i worker) := by
  have hworker : ∀ j, j ≠ i → ({ s with exitNotice }.goto i worker).worker j = s.worker j :=
    fun j hji => Function.update_of_ne hji _ _
  have hasks : ¬ Asks ({ s with exitNotice }.goto i worker) i := by
    simp [Asks, hnew]
  refine hs.move (i := i) hs.lock hs.panicked (fun _ _ => rfl) hworker ?_ ?_ ?_
  . simpa using hallows
  . exact hs.yield.trans (exists_asks_iff s ({ s with exitNotice }.goto i worker) (fun _ _ => rfl)
      hworker (iff_of_false hasks hold)).symm
  . simpa using hexit

theorem lock_goto (hs : Inv s) (hlock : s.lock.step i c = some lock) (hc : c.isPanic = false)
    (hallows : worker.allows (lock.place i)) (hold : ¬ Asks s i)
    (hnew : ¬ (worker = .setting ∧ asks (lock.place i) = true))
    (hexit : s.exitNotice.isReadable = true ∨ (worker ≠ .exiting ∧ worker ≠ .exited))
    : Inv ({ s with lock }.goto i worker) := by
  have hplace : ∀ j, j ≠ i → lock.place j = s.lock.place j :=
    fun j hji => Lock.place_of_step_of_ne hlock hji
  have hworker : ∀ j, j ≠ i → ({ s with lock }.goto i worker).worker j = s.worker j :=
    fun j hji => Function.update_of_ne hji _ _
  have hasks : ¬ Asks ({ s with lock }.goto i worker) i := by
    simpa [Asks] using hnew
  refine hs.move (i := i) (Lock.inv_step hs.lock hlock)
    (Lock.panicked_of_step hlock hc hs.panicked) hplace hworker ?_ ?_ ?_
  . simpa using hallows
  . exact hs.yield.trans (exists_asks_iff s _ hplace hworker (iff_of_false hasks hold)).symm
  . rcases hexit with hexit | hexit
    . exact .inl hexit
    . exact .inr ⟨rfl, by simpa using hexit⟩

theorem lock_step (hs : Inv s) (hlock : s.lock.step i c = some lock) (hc : c.isPanic = false)
    (hallows : (s.worker i).allows (lock.place i))
    (hasks : s.worker i = .setting → asks (lock.place i) = asks (s.lock.place i))
    : Inv { s with lock } := by
  have hplace : ∀ j, j ≠ i → lock.place j = s.lock.place j :=
    fun j hji => Lock.place_of_step_of_ne hlock hji
  have hi : Asks { s with lock } i ↔ Asks s i := by
    unfold Asks
    apply and_congr_right
    intro hworker
    rw [hasks hworker]
  have hreadable := hs.yield.trans
    (exists_asks_iff s { s with lock } hplace (fun _ _ => rfl) hi).symm
  exact {
    lock := Lock.inv_step hs.lock hlock
    panicked := Lock.panicked_of_step hlock hc hs.panicked
    allows := by
      intro j
      by_cases hji : j = i
      . rw [hji]
        exact hallows
      . rw [hplace j hji]
        exact hs.allows j
    yield := hreadable
    exit := hs.exit
  }

theorem prep (hs : Inv s) (hlock : s.lock.step i .run = some lock) (hplace : s.lock.place i = .prep)
    : Inv { s with lock }.triggerYield := by
  have hallows := hs.allows i
  rw [hplace] at hallows
  have hworker : s.worker i = .setting := by
    revert hallows
    cases s.worker i <;> simp [Worker.allows, reads, isHeld, completes]
  have hrelease : ∃ v, lock.place i = .release v := by
    obtain ⟨w, pc, hstep, rfl⟩ := Lock.exists_step hlock
    rw [hplace] at hstep
    cases hstep
    exact ⟨_, Function.update_self i _ _⟩
  obtain ⟨v, hv⟩ := hrelease
  refine hs.move (i := i) (Lock.inv_step hs.lock hlock)
    (Lock.panicked_of_step hlock rfl hs.panicked)
    (fun j hji => Lock.place_of_step_of_ne hlock hji) (fun _ _ => rfl) ?_ ?_ ?_
  . simp [triggerYield, hworker, hv, Worker.allows, upgrades]
  . refine iff_of_true (by simp [triggerYield]) ⟨i, hworker, ?_⟩
    simp [triggerYield, hv, asks]
  . exact .inr ⟨rfl, by simp [triggerYield, hworker]⟩

theorem cancelYield (hs : Inv s) {v : α} (hplace : s.lock.place i = .write v)
    : Inv (s.cancelYield.goto i .cancelled) := by
  have hothers : ∀ j, j ≠ i → (s.cancelYield.goto i .cancelled).worker j = s.worker j :=
    fun j hji => Function.update_of_ne hji _ _
  refine hs.move (i := i) hs.lock hs.panicked (fun _ _ => rfl) hothers ?_ ?_ ?_
  . simp [Workers.cancelYield, hplace, Worker.allows, completes]
  . refine iff_of_false (by simp [Workers.cancelYield]) ?_
    rintro ⟨j, hj, hasks⟩
    by_cases hji : j = i
    . simp [hji] at hj
    . have hflags : (s.lock.place j).flags = true := flags_of_asks hasks
      exact hji (Threads.eq_of_toNat_eq_count hs.lock.flag hflags (by rw [hplace, Lock.Pc.flags]))
  . exact .inr ⟨rfl, by simp⟩

end Inv

theorem inv_step {s s' : Workers ι α} {i : ι} {e : Step α} (hs : Inv s) (h : s.step i e = some s')
    : Inv s' := by
  have hcase := case_of_step h
  have hallows := hs.allows i
  have hasks : s.worker i ≠ .setting → ¬ Asks s i := fun hworker hasks => hworker hasks.1
  clear h
  cases hcase with
  | prep hlock hplace => exact hs.prep hlock hplace
  | entered hlock hplace =>
    rw [hplace] at hallows
    have hworker : s.worker i = .entering := by
      revert hallows
      cases s.worker i <;> simp [Worker.allows, isHeld, upgrades, completes]
    obtain ⟨w, pc, hstep, rfl⟩ := Lock.exists_step hlock
    rw [hplace] at hstep
    cases hstep
    exact hs.lock_goto hlock rfl (by simp [Worker.allows, isHeld]) (hasks (by simp [hworker]))
      (by simp) (by simp)
  | run hlock hprep hleave =>
    obtain ⟨w, pc, hstep, rfl⟩ := Lock.exists_step hlock
    refine hs.lock_step hlock rfl ?_ ?_
    . rw [Lock.goto_place, Function.update_self]
      exact allows_of_run hstep (hs.panicked i) hleave hallows
    . intro _
      rw [Lock.goto_place, Function.update_self]
      exact asks_of_run hstep hprep
  | enter hworker hlock =>
    obtain ⟨w, pc, hstep, rfl⟩ := Lock.exists_step hlock
    generalize s.lock.place i = pc₀ at hstep
    cases hstep
    exact hs.lock_goto hlock rfl (by simp [Worker.allows, reads]) (hasks (by simp [hworker]))
      (by simp) (by simp)
  | yield hworker _ =>
    rw [hworker] at hallows
    exact hs.goto .yielding s.exitNotice hallows (hasks (by simp [hworker])) (by simp)
      (.inr ⟨rfl, by simp⟩)
  | exit hworker _ =>
    rw [hworker] at hallows
    exact hs.goto .exiting s.exitNotice.triggerNotification hallows (hasks (by simp [hworker])) (by simp)
      (.inl (by simp))
  | event hworker =>
    rw [hworker] at hallows
    exact hs.goto .handling s.exitNotice hallows (hasks (by simp [hworker])) (by simp)
      (.inr ⟨rfl, by simp⟩)
  | apiSet hworker hlock =>
    obtain ⟨w, pc, hstep, rfl⟩ := Lock.exists_step hlock
    generalize s.lock.place i = pc₀ at hstep
    cases hstep
    exact hs.lock_goto hlock rfl (by simp [Worker.allows, upgrades])
      (hasks (by simp [hworker])) (by simp [asks]) (by simp)
  | cancelYield _ hplace => exact hs.cancelYield hplace
  | mutate hworker hlock =>
    obtain ⟨w, pc, hstep, rfl⟩ := Lock.exists_step hlock
    generalize s.lock.place i = pc₀ at hstep
    cases hstep
    exact hs.lock_step hlock rfl (by simp [hworker, Worker.allows, completes])
      (by simp [hworker])
  | handled hworker =>
    rw [hworker] at hallows
    exact hs.goto .waiting s.exitNotice hallows (hasks (by simp [hworker])) (by simp)
      (.inr ⟨rfl, by simp⟩)
  | set hworker hplace =>
    exact hs.goto .waiting s.exitNotice (by simp [hplace, Worker.allows, isHeld])
      (hasks (by simp [hworker])) (by simp) (.inr ⟨rfl, by simp⟩)
  | handledExit hworker =>
    rw [hworker] at hallows
    exact hs.goto .exiting s.exitNotice.triggerNotification hallows (hasks (by simp [hworker])) (by simp)
      (.inl (by simp))
  | leave hworker hlock =>
    obtain ⟨w, pc, hstep, rfl⟩ := Lock.exists_step hlock
    generalize s.lock.place i = pc₀ at hstep
    cases hstep
    exact hs.lock_goto hlock rfl (by simp [Worker.allows]) (hasks (by simp [hworker]))
      (by simp) (by simp)
  | exited hworker hlock =>
    obtain ⟨w, pc, hstep, rfl⟩ := Lock.exists_step hlock
    generalize s.lock.place i = pc₀ at hstep
    cases hstep
    exact hs.lock_goto hlock rfl (by simp [Worker.allows]) (hasks (by simp [hworker]))
      (by simp) (.inl (hs.exit i (.inl hworker)))

omit [Fintype ι] in
theorem step_of_machine {s s' : Workers ι α} {e : ι × Step α} {os : List Empty}
    (h : (machine ι α).step s e = some (s', os))
    : s.step e.1 e.2 = some s' := by
  obtain ⟨s'', hstep, heq⟩ := Option.map_eq_some_iff.mp h
  cases heq
  exact hstep

theorem inv_of_run {ts : List (Transition (Workers ι α) (ι × Step α) Empty)} {device : α}
    {s : Workers ι α} (hrun : (machine ι α).Run (new device) ts s)
    : Inv s := by
  apply hrun.invariant Inv (inv_new device)
  intro s e s' os hs h
  exact inv_step hs (step_of_machine h)

end Workers

end Device
