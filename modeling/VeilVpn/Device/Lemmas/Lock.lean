import VeilVpn.Device.Impl.Lock
import VeilVpn.Progress

namespace Device

namespace Lock

open Threads

variable {ι α : Type}

namespace Pc

def locksMutex : Pc α → Bool
  | .unshare | .check _ | .share | .leave _ | .mark | .marked | .clear | .notify | .finish => true
  | _ => false

def shares : Pc α → Bool
  | .lock .upgrade | .unshare | .leave _ | .held _ | .prep | .release _ | .relock | .clear | .notify
  | .finish | .unwind => true
  | _ => false

def claims : Pc α → Bool
  | .drain _ | .write _ | .written | .unwindWrite => true
  | _ => false

def writes : Pc α → Bool
  | .write _ | .written | .unwindWrite => true
  | _ => false

/--
The places between setting the flag and resetting it. Once a closure has panicked it is never reset.
-/
def flags : Pc α → Bool
  | .marked | .reshare | .prep | .release _ | .claim _ | .drain _ | .write _ | .written | .regain
  | .relock | .clear | .unwindWrite | .unwindRegain | .unwind | .dead => true
  | _ => false

def passed : Pc α → Bool
  | .share | .leave _ | .mark | .notify | .finish => true
  | _ => false

def panicked : Pc α → Bool
  | .unwindWrite | .unwindRegain | .unwind | .dead => true
  | _ => false

def sees : Pc α → Option α
  | .leave seen | .held seen | .release seen | .claim seen | .drain seen | .write seen => some seen
  | _ => none

end Pc

variable [DecidableEq ι]

inductive Step (l : Lock ι α) (i : ι) : Pc α → Choice α → Lock ι α → Pc α → Prop where
  | read : Step l i .idle .read l (.lock .read)
  | tryWriteable {v : α} : Step l i (.held v) .tryWriteable l (.lock .upgrade)
  | drop {v : α} : Step l i (.held v) .drop { l with inner := l.inner.unlockShared } .idle
  | mutate {v : α} {mutFunc : α → α}
    : Step l i (.write v) (.mutate mutFunc) { l with data := mutFunc l.data } .written
  | panicPrep : Step l i .prep .panicPrep l .unwind
  | panicMut {v : α} {changed : α → α}
    : Step l i (.write v) (.panicMut changed) { l with data := changed l.data } .unwindWrite
  | lockRead : l.mutex = false → Step l i (.lock .read) .run { l with mutex := true } (.check .read)
  | lockUpgrade : l.mutex = false → Step l i (.lock .upgrade) .run { l with mutex := true } .unshare
  | unshare
    : Step l i .unshare .run { l with inner := l.inner.unlockShared } (.check .upgrade)
  | wait {r : Request}
    : l.wantsWrite = true →
      Step l i (.check r) .run
        { l with mutex := false, waiting := Function.update l.waiting i true } (.sleep r)
  | passRead : l.wantsWrite = false → Step l i (.check .read) .run l .share
  | passUpgrade : l.wantsWrite = false → Step l i (.check .upgrade) .run l .mark
  | wake {r : Request}
    : l.waiting i = false → l.mutex = false →
      Step l i (.sleep r) .run { l with mutex := true } (.check r)
  | share {inner : RawRwLock}
    : l.inner.lockShared = some inner → Step l i .share .run { l with inner } (.leave l.data)
  | leave {v : α} : Step l i (.leave v) .run { l with mutex := false } (.held v)
  | mark : Step l i .mark .run { l with wantsWrite := true } .marked
  | marked : Step l i .marked .run { l with mutex := false } .reshare
  | reshare {inner : RawRwLock}
    : l.inner.lockShared = some inner → Step l i .reshare .run { l with inner } .prep
  | prep : Step l i .prep .run l (.release l.data)
  | release {v : α}
    : Step l i (.release v) .run { l with inner := l.inner.unlockShared } (.claim v)
  | claim {v : α} {inner : RawRwLock}
    : l.inner.claimExclusive = some inner → Step l i (.claim v) .run { l with inner } (.drain v)
  | drain {v : α} : l.inner.readers = 0 → Step l i (.drain v) .run l (.write v)
  | written : Step l i .written .run { l with inner := l.inner.unlockExclusive } .regain
  | regain {inner : RawRwLock}
    : l.inner.lockShared = some inner → Step l i .regain .run { l with inner } .relock
  | relock : l.mutex = false → Step l i .relock .run { l with mutex := true } .clear
  | clear : Step l i .clear .run { l with wantsWrite := false } .notify
  | notify : Step l i .notify .run { l with waiting := fun _ => false } .finish
  | finish : Step l i .finish .run { l with mutex := false } (.held l.data)
  | unwindWrite : Step l i .unwindWrite .run { l with inner := l.inner.unlockExclusive } .unwindRegain
  | unwindRegain {inner : RawRwLock}
    : l.inner.lockShared = some inner → Step l i .unwindRegain .run { l with inner } .unwind
  | unwind : Step l i .unwind .run { l with inner := l.inner.unlockShared } .dead

theorem exists_step_of_run {l l' : Lock ι α} {i : ι} (h : l.run i = some l')
    : ∃ w pc, Step l i (l.place i) .run w pc ∧ l' = w.goto i pc := by
  unfold run at h
  split at h <;> rename_i hplace <;> rw [hplace]
  . obtain ⟨hfree, h⟩ := Option.ite_none_left_eq_some.mp h
    cases h
    exact ⟨_, _, .lockRead (by simpa using hfree), rfl⟩
  . obtain ⟨hfree, h⟩ := Option.ite_none_left_eq_some.mp h
    cases h
    exact ⟨_, _, .lockUpgrade (by simpa using hfree), rfl⟩
  . cases h
    exact ⟨_, _, .unshare, rfl⟩
  . split at h
    . next hflag =>
      cases h
      exact ⟨_, _, .wait hflag, rfl⟩
    . next hflag =>
      rw [Bool.not_eq_true] at hflag
      split at h
      . cases h
        exact ⟨_, _, .passRead hflag, rfl⟩
      . cases h
        exact ⟨_, _, .passUpgrade hflag, rfl⟩
  . obtain ⟨hfree, h⟩ := Option.ite_none_left_eq_some.mp h
    rw [Bool.or_eq_true, not_or, Bool.not_eq_true, Bool.not_eq_true] at hfree
    cases h
    exact ⟨_, _, .wake hfree.1 hfree.2, rfl⟩
  . obtain ⟨inner, hinner, rfl⟩ := Option.map_eq_some_iff.mp h
    exact ⟨_, _, .share hinner, rfl⟩
  . cases h
    exact ⟨_, _, .leave, rfl⟩
  . cases h
    exact ⟨_, _, .mark, rfl⟩
  . cases h
    exact ⟨_, _, .marked, rfl⟩
  . obtain ⟨inner, hinner, rfl⟩ := Option.map_eq_some_iff.mp h
    exact ⟨_, _, .reshare hinner, rfl⟩
  . cases h
    exact ⟨_, _, .prep, rfl⟩
  . cases h
    exact ⟨_, _, .release, rfl⟩
  . obtain ⟨inner, hinner, rfl⟩ := Option.map_eq_some_iff.mp h
    exact ⟨_, _, .claim hinner, rfl⟩
  . obtain ⟨hzero, h⟩ := Option.ite_none_right_eq_some.mp h
    cases h
    exact ⟨_, _, .drain hzero, rfl⟩
  . cases h
    exact ⟨_, _, .written, rfl⟩
  . obtain ⟨inner, hinner, rfl⟩ := Option.map_eq_some_iff.mp h
    exact ⟨_, _, .regain hinner, rfl⟩
  . obtain ⟨hfree, h⟩ := Option.ite_none_left_eq_some.mp h
    cases h
    exact ⟨_, _, .relock (by simpa using hfree), rfl⟩
  . cases h
    exact ⟨_, _, .clear, rfl⟩
  . cases h
    exact ⟨_, _, .notify, rfl⟩
  . cases h
    exact ⟨_, _, .finish, rfl⟩
  . cases h
    exact ⟨_, _, .unwindWrite, rfl⟩
  . obtain ⟨inner, hinner, rfl⟩ := Option.map_eq_some_iff.mp h
    exact ⟨_, _, .unwindRegain hinner, rfl⟩
  . cases h
    exact ⟨_, _, .unwind, rfl⟩
  all_goals cases h

theorem exists_step {l l' : Lock ι α} {i : ι} {c : Choice α} (h : l.step i c = some l')
    : ∃ w pc, Step l i (l.place i) c w pc ∧ l' = w.goto i pc := by
  unfold step at h
  split at h
  . exact exists_step_of_run h
  all_goals
    first
    | (rename_i hplace
       rw [hplace]
       cases h
       exact ⟨_, _, by constructor, rfl⟩)
    | cases h

section Accounting

variable {l w : Lock ι α} {i : ι} {c : Choice α} {pc pc' : Pc α}

theorem Step.place_eq (h : Step l i pc c w pc') : w.place = l.place := by
  cases h <;> rfl

theorem Step.mutex (h : Step l i pc c w pc') (hheld : pc.locksMutex = true → l.mutex = true)
    : w.mutex.toNat + pc.locksMutex.toNat = l.mutex.toNat + pc'.locksMutex.toNat := by
  cases h <;> simp_all [Pc.locksMutex]

theorem Step.readers (h : Step l i pc c w pc') (hheld : pc.shares = true → 1 ≤ l.inner.readers)
    : w.inner.readers + pc.shares.toNat = l.inner.readers + pc'.shares.toNat := by
  cases h <;>
    simp_all [Pc.shares, RawRwLock.unlockShared, RawRwLock.unlockExclusive,
      RawRwLock.lockShared_eq_some_iff, RawRwLock.claimExclusive_eq_some_iff]

theorem Step.writer (h : Step l i pc c w pc') (hheld : pc.claims = true → l.inner.writer = true)
    : w.inner.writer.toNat + pc.claims.toNat = l.inner.writer.toNat + pc'.claims.toNat := by
  cases h <;>
    simp_all [Pc.claims, RawRwLock.unlockShared, RawRwLock.unlockExclusive,
      RawRwLock.lockShared_eq_some_iff, RawRwLock.claimExclusive_eq_some_iff]

theorem Step.flag (h : Step l i pc c w pc') (hset : pc.flags = true → l.wantsWrite = true)
    (hpassed : pc.passed = true → l.wantsWrite = false)
    : w.wantsWrite.toNat + pc.flags.toNat = l.wantsWrite.toNat + pc'.flags.toNat := by
  cases h <;> simp_all [Pc.flags, Pc.passed]

end Accounting

theorem place_of_step_of_ne {l l' : Lock ι α} {i j : ι} {c : Choice α} (h : l.step i c = some l')
    (hji : j ≠ i)
    : l'.place j = l.place j := by
  obtain ⟨w, pc, hstep, rfl⟩ := exists_step h
  rw [goto_place, Function.update_of_ne hji, hstep.place_eq]

variable [Fintype ι]

/--
The words that the threads share tell how many threads are where. A thread is only asleep while the flag
is set or until it is notified, and only has write access when no thread has a share of the inner lock.
-/
structure Inv (l : Lock ι α) : Prop where
  mutex : l.mutex.toNat = count Pc.locksMutex l.place
  readers : l.inner.readers = count Pc.shares l.place
  writer : l.inner.writer.toNat = count Pc.claims l.place
  flag : l.wantsWrite.toNat = count Pc.flags l.place
  passed : ∀ i, (l.place i).passed = true → l.wantsWrite = false
  drained : ∀ i, (l.place i).writes = true → l.inner.readers = 0
  seen : ∀ i v, (l.place i).sees = some v → v = l.data
  asleep : ∀ i, l.waiting i = true → ∃ r, l.place i = .sleep r
  awake : ∀ i, l.waiting i = true → l.wantsWrite = true ∨ ∃ j, l.place j = .notify

omit [DecidableEq ι] in
theorem inv_new (userData : α) : Inv (new userData : Lock ι α) where
  mutex := by simp [new, count, Pc.locksMutex]
  readers := by simp [new, count, Pc.shares, RawRwLock.new]
  writer := by simp [new, count, Pc.claims, RawRwLock.new]
  flag := by simp [new, count, Pc.flags]
  passed := by simp [new]
  drained := by simp [new, Pc.writes]
  seen := by simp [new, Pc.sees]
  asleep := by simp [new]
  awake := by simp [new]

theorem Step.eq_count_goto {l w : Lock ι α} {i : ι} {c : Choice α} {pc : Pc α}
    (h : Step l i (l.place i) c w pc) {p : Pc α → Bool} {n n' : Nat} (hn : n = count p l.place)
    (hstep : n' + (p (l.place i)).toNat = n + (p pc).toNat)
    : n' = count p (w.goto i pc).place := by
  have hcount := count_update p l.place i pc
  rw [goto_place, h.place_eq]
  omega

namespace Inv

variable {l w : Lock ι α} {i : ι} {c : Choice α} {pc : Pc α}

/--
The mutex protects the flag: what a thread has found there still holds when it acts on it.
-/
theorem passed_goto (hl : Inv l) (h : Step l i (l.place i) c w pc)
    : ∀ j, ((w.goto i pc).place j).passed = true → w.wantsWrite = false := by
  intro j hj
  rw [goto_place, h.place_eq] at hj
  by_cases hji : j = i
  . subst hji
    rw [Function.update_self] at hj
    have hpassed := hl.passed j
    generalize l.place j = pc₀ at h hpassed
    cases h with
    | passRead hclear => exact hclear
    | passUpgrade hclear => exact hclear
    | clear => rfl
    | share => exact hpassed rfl
    | notify => exact hpassed rfl
    | _ => simp [Pc.passed] at hj
  . rw [Function.update_of_ne hji] at hj
    have hclear := hl.passed j hj
    have hother : (l.place i).locksMutex = false := by
      rw [← Bool.not_eq_true]
      intro hi
      have hlocks : (l.place j).locksMutex = true := by
        revert hj
        cases l.place j <;> simp [Pc.passed, Pc.locksMutex]
      exact hji (eq_of_toNat_eq_count hl.mutex hlocks hi)
    generalize l.place i = pc₀ at h hother
    cases h <;> first | exact hclear | simp [Pc.locksMutex] at hother

/--
A thread with write access has claimed the inner lock, so that no other thread gets a share of it.
-/
theorem drained_goto (hl : Inv l) (h : Step l i (l.place i) c w pc)
    : ∀ j, ((w.goto i pc).place j).writes = true → w.inner.readers = 0 := by
  intro j hj
  rw [goto_place, h.place_eq] at hj
  by_cases hji : j = i
  . subst hji
    rw [Function.update_self] at hj
    have hdrained := hl.drained j
    generalize l.place j = pc₀ at h hdrained
    cases h with
    | drain hzero => exact hzero
    | mutate => exact hdrained rfl
    | panicMut => exact hdrained rfl
    | _ => simp [Pc.writes] at hj
  . rw [Function.update_of_ne hji] at hj
    have hzero := hl.drained j hj
    have hclaims : (l.place j).claims = true := by
      revert hj
      cases l.place j <;> simp [Pc.writes, Pc.claims]
    have hwriter := eq_true_of_toNat_eq_count hl.writer hclaims
    generalize l.place i = pc₀ at h
    cases h <;> simp_all [RawRwLock.unlockShared, RawRwLock.unlockExclusive,
      RawRwLock.lockShared_eq_some_iff, RawRwLock.claimExclusive_eq_some_iff]

/--
The value only changes under write access, while no other thread relies on it.
-/
theorem seen_goto (hl : Inv l) (h : Step l i (l.place i) c w pc)
    : ∀ j v, ((w.goto i pc).place j).sees = some v → v = w.data := by
  intro j v hj
  rw [goto_place, h.place_eq] at hj
  by_cases hji : j = i
  . subst hji
    rw [Function.update_self] at hj
    have hseen := hl.seen j
    generalize l.place j = pc₀ at h hseen
    cases h <;> simp_all [Pc.sees]
  . rw [Function.update_of_ne hji] at hj
    have hseen := hl.seen j v hj
    have hother : (l.place i).writes = false := by
      rw [← Bool.not_eq_true]
      intro hi
      have hzero := hl.drained i hi
      have hshares : (l.place j).shares = false := by
        rw [← Bool.not_eq_true]
        intro hshares
        have hpos := one_le_count hshares
        rw [← hl.readers] at hpos
        omega
      -- Without a share of the inner lock it relies on the value because it has set the flag
      have hflags : (l.place j).flags = true := by
        revert hj hshares
        cases l.place j <;> simp [Pc.sees, Pc.shares, Pc.flags]
      have hflags' : (l.place i).flags = true := by
        revert hi
        cases l.place i <;> simp [Pc.writes, Pc.flags]
      exact hji (eq_of_toNat_eq_count hl.flag hflags hflags')
    generalize l.place i = pc₀ at h hother
    cases h <;> first | exact hseen | simp [Pc.writes] at hother

theorem asleep_goto (hl : Inv l) (h : Step l i (l.place i) c w pc)
    : ∀ j, w.waiting j = true → ∃ r, (w.goto i pc).place j = .sleep r := by
  intro j hj
  rw [goto_place, h.place_eq]
  by_cases hji : j = i
  . subst hji
    rw [Function.update_self]
    have hasleep := hl.asleep j
    generalize l.place j = pc₀ at h hasleep
    cases h <;> simp_all
  . rw [Function.update_of_ne hji]
    apply hl.asleep j
    generalize l.place i = pc₀ at h
    cases h <;> simp_all

/--
A thread that resets the flag notifies all others before it unlocks the mutex.
-/
theorem awake_goto (hl : Inv l) (h : Step l i (l.place i) c w pc)
    : ∀ j, w.waiting j = true → w.wantsWrite = true ∨ ∃ k, (w.goto i pc).place k = .notify := by
  intro j hj
  rw [goto_place, h.place_eq]
  have hawake := hl.awake j
  generalize hpc₀ : l.place i = pc₀ at h
  cases h with
  | clear => exact .inr ⟨i, Function.update_self i _ _⟩
  | notify => simp at hj
  | wait hflag => exact .inl hflag
  | mark => exact .inl rfl
  | _ =>
    rcases hawake hj with hflag | ⟨k, hk⟩
    . exact .inl hflag
    . refine .inr ⟨k, ?_⟩
      rw [Function.update_of_ne, hk]
      rintro rfl
      simp [hk] at hpc₀

theorem goto (hl : Inv l) (h : Step l i (l.place i) c w pc) : Inv (w.goto i pc) where
  mutex := h.eq_count_goto hl.mutex (h.mutex (eq_true_of_toNat_eq_count hl.mutex))
  readers := h.eq_count_goto hl.readers (h.readers fun hi => hl.readers ▸ one_le_count hi)
  writer := h.eq_count_goto hl.writer (h.writer (eq_true_of_toNat_eq_count hl.writer))
  flag := h.eq_count_goto hl.flag (h.flag (eq_true_of_toNat_eq_count hl.flag) (hl.passed i))
  passed := hl.passed_goto h
  drained := hl.drained_goto h
  seen := hl.seen_goto h
  asleep := hl.asleep_goto h
  awake := hl.awake_goto h

end Inv

theorem inv_step {l l' : Lock ι α} {i : ι} {c : Choice α} (hl : Inv l) (h : l.step i c = some l')
    : Inv l' := by
  obtain ⟨w, pc, hstep, rfl⟩ := exists_step h
  exact hl.goto hstep

omit [Fintype ι] in
theorem step_of_machine {l l' : Lock ι α} {e : ι × Choice α} {os : List Empty}
    (h : (machine ι α).step l e = some (l', os))
    : l.step e.1 e.2 = some l' := by
  obtain ⟨l'', hstep, heq⟩ := Option.map_eq_some_iff.mp h
  cases heq
  exact hstep

section Run

variable {userData : α} {l : Lock ι α} {ts us : List (Transition (Lock ι α) (ι × Choice α) Empty)}
  {t : Transition (Lock ι α) (ι × Choice α) Empty}

theorem inv_of_run (hrun : (machine ι α).Run (new userData) ts l) : Inv l := by
  apply hrun.invariant Inv (inv_new userData)
  intro l e l' os hl h
  exact inv_step hl (step_of_machine h)

def Choice.isPanic : Choice α → Bool
  | .panicPrep | .panicMut _ => true
  | _ => false

def mutations (ts : List (Transition (Lock ι α) (ι × Choice α) Empty)) : List (α → α) :=
  ts.filterMap fun t =>
    match t.event.2 with
    | .mutate mutFunc => some mutFunc
    | .panicMut changed => some changed
    | _ => none

omit [Fintype ι] in
theorem data_of_run (hrun : (machine ι α).Run (new userData) ts l)
    : l.data = (mutations ts).foldl (fun data mutFunc => mutFunc data) userData := by
  induction hrun with
  | nil => rfl
  | @snoc ts l l' e os _ h ih =>
    obtain ⟨w, pc, hstep, rfl⟩ := exists_step (step_of_machine h)
    rw [mutations, List.filterMap_append, List.foldl_append, ← mutations, ← ih, goto_data]
    obtain ⟨i, c⟩ := e
    generalize l.place i = pc₀ at hstep
    cases hstep <;> rfl

/--
However the threads are interleaved, a guard shows the same value for as long as it is held, and a
closure with write access starts from the value that the first closure of its upgrade has seen, at a
time at which no other thread has a guard or is upgrading one. What is behind the lock is the result of
these closures alone.
-/
theorem upgrades_atomic (hrun : (machine ι α).Run (new userData) ts l)
    : (∀ i v, l.place i = .held v → v = l.data)
        ∧
      (∀ i v, l.place i = .write v →
        v = l.data ∧ ∀ j, j ≠ i → (l.place j).shares = false ∧ (l.place j).flags = false)
        ∧
      l.data = (mutations ts).foldl (fun data mutFunc => mutFunc data) userData := by
  have hl := inv_of_run hrun
  refine ⟨?_, ?_, data_of_run hrun⟩
  . intro i v hi
    exact hl.seen i v (by rw [hi, Pc.sees])
  . intro i v hi
    refine ⟨hl.seen i v (by rw [hi, Pc.sees]), ?_⟩
    intro j hji
    constructor
    . rw [← Bool.not_eq_true]
      intro hj
      have hpos := one_le_count hj
      rw [← hl.readers, hl.drained i (by rw [hi, Pc.writes])] at hpos
      omega
    . rw [← Bool.not_eq_true]
      intro hj
      exact hji (eq_of_toNat_eq_count hl.flag hj (by rw [hi, Pc.flags]))

/--
The first of two threads upgrades its guard while the other one waits for a guard.
-/
def contended (i j : ι) : List (ι × Choice Nat) :=
  [(i, .read), (i, .run), (i, .run), (i, .run), (i, .run), (i, .tryWriteable), (i, .run), (i, .run),
    (i, .run), (i, .run), (i, .run), (j, .read), (j, .run), (j, .run), (i, .run), (i, .run), (i, .run),
    (i, .run), (i, .run)]

theorem upgrades_atomic_contended
    : ∃ ts l, (machine (Fin 2) Nat).Run (new 7) ts l
        ∧
      l.place 0 = .write 7
        ∧
      l.place 1 = .sleep .read
        ∧
      (∀ i v, l.place i = .held v → v = l.data)
        ∧
      (∀ i v, l.place i = .write v →
        v = l.data ∧ ∀ j, j ≠ i → (l.place j).shares = false ∧ (l.place j).flags = false)
        ∧
      l.data = (mutations ts).foldl (fun data mutFunc => mutFunc data) 7 := by
  obtain ⟨ts, l, hrun, hplace⟩ := Machine.Run.exists_of_exec (machine (Fin 2) Nat) (new 7) (contended 0 1)
    (fun _ l => decide (l.place 0 = .write 7 ∧ l.place 1 = .sleep .read)) (by decide +kernel)
  obtain ⟨hfirst, hsecond⟩ := of_decide_eq_true hplace
  exact ⟨ts, l, hrun, hfirst, hsecond, upgrades_atomic hrun⟩

/--
What holds of the lock from a panic on: the thread has left the flag set, so that nobody gets past it.
-/
structure Closed (k : ι) (data : α) (l : Lock ι α) : Prop where
  inv : Inv l
  panicked : (l.place k).panicked = true
  data : l.data = data

namespace Closed

variable {data : α} {l w l' : Lock ι α} {i k : ι} {c : Choice α} {pc : Pc α}

omit [DecidableEq ι] in
theorem wantsWrite (hl : Closed k data l) : l.wantsWrite = true := by
  apply eq_true_of_toNat_eq_count hl.inv.flag (i := k)
  have hk := hl.panicked
  revert hk
  cases l.place k <;> simp [Pc.panicked, Pc.flags]

theorem panicked_or (hl : Closed k data l) (i : ι)
    : (i = k ∧ (l.place i).panicked = true)
        ∨
      ((l.place i).flags = false ∧ (l.place i).passed = false) := by
  have hflag := hl.wantsWrite
  by_cases hi : (l.place i).flags = true
  . have hk : (l.place k).flags = true := by
      have hk := hl.panicked
      revert hk
      cases l.place k <;> simp [Pc.panicked, Pc.flags]
    obtain rfl := eq_of_toNat_eq_count hl.inv.flag hi hk
    exact .inl ⟨rfl, hl.panicked⟩
  . refine .inr ⟨by simpa using hi, ?_⟩
    rw [← Bool.not_eq_true]
    intro hpassed
    rw [hl.inv.passed i hpassed] at hflag
    cases hflag

theorem goto (hl : Closed k data l) (h : Step l i (l.place i) c w pc)
    : Closed k data (w.goto i pc) := by
  have hcases := hl.panicked_or i
  refine ⟨hl.inv.goto h, ?_, ?_⟩
  . rw [goto_place, h.place_eq]
    by_cases hki : k = i
    . subst hki
      rw [Function.update_self]
      have hk := hl.panicked
      generalize l.place k = pc₀ at h hk
      cases h <;> simp_all [Pc.panicked]
    . rw [Function.update_of_ne hki]
      exact hl.panicked
  . rw [goto_data, ← hl.data]
    generalize l.place i = pc₀ at h hcases
    cases h <;> first | rfl | simp [Pc.flags, Pc.panicked] at hcases

theorem step (hl : Closed k data l) (h : l.step i c = some l') : Closed k data l' := by
  obtain ⟨w, pc, hstep, rfl⟩ := exists_step h
  exact hl.goto hstep

theorem not_write (hl : Closed k data l) (i : ι) (v : α) : l.place i ≠ .write v := by
  intro hi
  have hcases := hl.panicked_or i
  simp [hi, Pc.flags, Pc.panicked] at hcases

/--
A thread only gets a guard after it has found the flag reset or has reset it.
-/
theorem held_of_step (hl : Closed k data l) (h : l.step i c = some l') {j : ι} {v : α}
    (hj : l'.place j = .held v)
    : l.place j = .held v := by
  obtain ⟨w, pc, hstep, rfl⟩ := exists_step h
  rw [goto_place, hstep.place_eq] at hj
  by_cases hji : j = i
  . subst hji
    rw [Function.update_self] at hj
    subst hj
    have hcases := hl.panicked_or j
    generalize l.place j = pc₀ at hstep hcases
    cases hstep <;> simp [Pc.flags, Pc.passed, Pc.panicked] at hcases
  . rwa [Function.update_of_ne hji] at hj

end Closed

theorem closed_panic {l l' : Lock ι α} {i : ι} {c : Choice α} (hl : Inv l) (hpanic : c.isPanic = true)
    (h : l.step i c = some l')
    : Closed i l'.data l' := by
  refine ⟨inv_step hl h, ?_, rfl⟩
  obtain ⟨w, pc, hstep, rfl⟩ := exists_step h
  rw [goto_place, Function.update_self]
  generalize l.place i = pc₀ at hstep
  cases hstep <;> first | rfl | cases hpanic

/--
If a closure panics during an upgrade then the lock stays closed: no step from then on gives a thread a
guard or write access, and what the closure has left behind the lock never changes.
-/
theorem closed_after_panic (hrun : (machine ι α).Run (new userData) (ts ++ t :: us) l)
    (hpanic : t.event.2.isPanic = true)
    : (∀ u ∈ us, ∀ i v, u.after.place i = .held v → u.before.place i = .held v)
        ∧
      (∀ u ∈ us, ∀ i v, u.after.place i ≠ .write v)
        ∧
      (∀ u ∈ us, ∀ mutFunc, u.event.2 ≠ .mutate mutFunc)
        ∧
      l.data = t.after.data := by
  obtain ⟨hbefore, hstep, hafter⟩ := hrun.of_append_cons
  have hclosed := closed_panic (inv_of_run hbefore) hpanic (step_of_machine hstep)
  have hkeeps : ∀ l e l' os, Closed t.event.1 t.after.data l →
      (machine ι α).step l e = some (l', os) → Closed t.event.1 t.after.data l' :=
    fun _ _ _ _ hl h => hl.step (step_of_machine h)
  have hclosed_before : ∀ u ∈ us, Closed t.event.1 t.after.data u.before :=
    fun u hu => hafter.invariant_before _ hclosed hkeeps hu
  have hstep_of_mem : ∀ u ∈ us, u.before.step u.event.1 u.event.2 = some u.after :=
    fun u hu => step_of_machine (hafter.step_of_mem hu)
  refine ⟨?_, ?_, ?_, (hafter.invariant _ hclosed hkeeps).data⟩
  . intro u hu i v hi
    exact (hclosed_before u hu).held_of_step (hstep_of_mem u hu) hi
  . intro u hu
    exact ((hclosed_before u hu).step (hstep_of_mem u hu)).not_write
  . intro u hu mutFunc hmutate
    have hmutation := hstep_of_mem u hu
    rw [hmutate] at hmutation
    obtain ⟨w, pc, hstep, -⟩ := exists_step hmutation
    have hplace := (hclosed_before u hu).not_write u.event.1
    generalize u.before.place u.event.1 = pc₀ at hstep hplace
    cases hstep
    exact hplace _ rfl

/--
The first thread panics after it has changed the value.
-/
def panicking (i j : ι) : List (ι × Choice Nat) :=
  contended i j ++ [(i, .panicMut (· + 1)), (i, .run), (i, .run), (i, .run)]

theorem closed_after_panic_contended
    : ∃ ts t us l, (machine (Fin 2) Nat).Run (new 7) (ts ++ t :: us) l
        ∧
      t.event.2.isPanic = true
        ∧
      l.place 0 = .dead
        ∧
      l.place 1 = .sleep .read
        ∧
      l.data = 8
        ∧
      (∀ u ∈ us, ∀ i v, u.after.place i = .held v → u.before.place i = .held v)
        ∧
      (∀ u ∈ us, ∀ i v, u.after.place i ≠ .write v)
        ∧
      (∀ u ∈ us, ∀ mutFunc, u.event.2 ≠ .mutate mutFunc)
        ∧
      l.data = t.after.data := by
  obtain ⟨ts, l, hrun, hl⟩ := Machine.Run.exists_of_exec (machine (Fin 2) Nat) (new 7)
    (panicking 0 1)
    (fun ts l =>
      (ts.drop (contended (0 : Fin 2) 1).length).head?.any (fun t => t.event.2.isPanic)
        && decide (l.place 0 = .dead ∧ l.place 1 = .sleep .read ∧ l.data = 8))
    (by decide +kernel)
  rw [Bool.and_eq_true] at hl
  obtain ⟨hfirst, hsecond, hdata⟩ := of_decide_eq_true hl.2
  cases hdrop : ts.drop (contended (0 : Fin 2) 1).length with
  | nil => simp [hdrop] at hl
  | cons t us =>
    have ht : t.event.2.isPanic = true := by simpa [hdrop] using hl.1
    rw [← List.take_append_drop (contended (0 : Fin 2) 1).length ts, hdrop] at hrun
    exact ⟨_, t, us, l, hrun, ht, hfirst, hsecond, hdata, closed_after_panic hrun ht⟩

end Run

end Lock

end Device
