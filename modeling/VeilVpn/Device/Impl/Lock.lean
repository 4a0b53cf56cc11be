import VeilVpn.Machine
import VeilVpn.Threads

/-!
This module contains the lock around the device: a readers-writer lock with a guard for reading that
can be upgraded to write access. Each access to something that threads share is a step of its own, and
the steps of different threads can be interleaved in any way.
-/

namespace Device

namespace Lock

inductive Request where
  | read
  | upgrade
  deriving DecidableEq

/--
The place in `read` or in `try_writeable` that a thread has come to. The value a thread has seen under
the lock is only kept to state what the lock guarantees.
-/
inductive Pc (α : Type) where
  /-- The thread has no guard -/
  | idle
  /-- It waits for the mutex of the flag -/
  | lock (r : Request)
  /-- It is about to give up its share of the inner lock -/
  | unshare
  /-- It is about to look at the flag -/
  | check (r : Request)
  /-- It waits for a notification, and after that for the mutex -/
  | sleep (r : Request)
  /-- It waits for a share of the inner lock at the end of `read` -/
  | share
  /-- It is about to leave `read`, which unlocks the mutex -/
  | leave (seen : α)
  /-- It has a guard -/
  | held (seen : α)
  /-- It is about to set the flag -/
  | mark
  /-- It is about to unlock the mutex after it has set the flag -/
  | marked
  /-- It waits for a share of the inner lock -/
  | reshare
  /-- It runs `prep_func` -/
  | prep
  /-- It is about to give up its share again -/
  | release (seen : α)
  /-- It waits until it can claim the inner lock -/
  | claim (seen : α)
  /-- It has claimed the inner lock and waits for the readers that are left -/
  | drain (seen : α)
  /-- It runs `mut_func` -/
  | write (seen : α)
  /-- It is about to give up write access -/
  | written
  /-- It waits for a share of the inner lock once more -/
  | regain
  /-- It waits for the mutex of the flag to reset it -/
  | relock
  /-- It is about to reset the flag -/
  | clear
  /-- It is about to notify the other threads -/
  | notify
  /-- It is about to leave `try_writeable`, which unlocks the mutex -/
  | finish
  /-- `mut_func` has panicked, write access is given up -/
  | unwindWrite
  /-- The closure has panicked, the share of the inner lock is taken again on the way -/
  | unwindRegain
  /-- One of the closures has panicked, the guard is about to be dropped -/
  | unwind
  | dead
  deriving DecidableEq

end Lock

structure Lock (ι α : Type) where
  place : ι → Lock.Pc α
  /-- Whether the mutex around the flag is locked -/
  mutex : Bool
  wantsWrite : Bool
  /-- The threads in the queue of the condition variable -/
  waiting : ι → Bool
  inner : RawRwLock
  data : α

namespace Lock

/--
What the code around the lock makes a thread do.
-/
inductive Choice (α : Type) where
  /-- Go on with what it has begun -/
  | run
  | read
  | tryWriteable
  /-- Drop the guard -/
  | drop
  /-- Come to the end of `mut_func` -/
  | mutate (mutFunc : α → α)
  /-- Panic in `prep_func` -/
  | panicPrep
  /-- Panic in `mut_func`, which keeps what it has changed by then -/
  | panicMut (changed : α → α)

variable {ι α : Type} [DecidableEq ι]

def new (userData : α) : Lock ι α where
  place := fun _ => .idle
  mutex := false
  wantsWrite := false
  waiting := fun _ => false
  inner := .new
  data := userData

def goto (l : Lock ι α) (i : ι) (pc : Pc α) : Lock ι α :=
  { l with place := Function.update l.place i pc }

@[simp]
theorem goto_place (l : Lock ι α) (i : ι) (pc : Pc α)
    : (l.goto i pc).place = Function.update l.place i pc := rfl

@[simp]
theorem goto_mutex (l : Lock ι α) (i : ι) (pc : Pc α) : (l.goto i pc).mutex = l.mutex := rfl

@[simp]
theorem goto_wantsWrite (l : Lock ι α) (i : ι) (pc : Pc α)
    : (l.goto i pc).wantsWrite = l.wantsWrite := rfl

@[simp]
theorem goto_waiting (l : Lock ι α) (i : ι) (pc : Pc α) : (l.goto i pc).waiting = l.waiting := rfl

@[simp]
theorem goto_inner (l : Lock ι α) (i : ι) (pc : Pc α) : (l.goto i pc).inner = l.inner := rfl

@[simp]
theorem goto_data (l : Lock ι α) (i : ι) (pc : Pc α) : (l.goto i pc).data = l.data := rfl

/--
The next step of a thread inside of `read` or `try_writeable`, unless it has to wait.
-/
def run (l : Lock ι α) (i : ι) : Option (Lock ι α) :=
  match l.place i with
  | .lock .read => if l.mutex then none else some ({ l with mutex := true }.goto i (.check .read))
  | .lock .upgrade => if l.mutex then none else some ({ l with mutex := true }.goto i .unshare)
  | .unshare => some ({ l with inner := l.inner.unlockShared }.goto i (.check .upgrade))
  | .check r =>
    if l.wantsWrite then
      -- Waiting on the condition variable unlocks the mutex
      some ({ l with mutex := false, waiting := Function.update l.waiting i true }.goto i (.sleep r))
    else
      match r with
      | .read => some (l.goto i .share)
      | .upgrade => some (l.goto i .mark)
  | .sleep r =>
    -- There are no spurious wakeups
    if l.waiting i || l.mutex then none else some ({ l with mutex := true }.goto i (.check r))
  | .share => l.inner.lockShared.map fun inner => { l with inner }.goto i (.leave l.data)
  | .leave seen => some ({ l with mutex := false }.goto i (.held seen))
  | .mark => some ({ l with wantsWrite := true }.goto i .marked)
  | .marked => some ({ l with mutex := false }.goto i .reshare)
  | .reshare => l.inner.lockShared.map fun inner => { l with inner }.goto i .prep
  | .prep => some (l.goto i (.release l.data))
  | .release seen => some ({ l with inner := l.inner.unlockShared }.goto i (.claim seen))
  | .claim seen => l.inner.claimExclusive.map fun inner => { l with inner }.goto i (.drain seen)
  | .drain seen => if l.inner.readers = 0 then some (l.goto i (.write seen)) else none
  | .written => some ({ l with inner := l.inner.unlockExclusive }.goto i .regain)
  | .regain => l.inner.lockShared.map fun inner => { l with inner }.goto i .relock
  | .relock => if l.mutex then none else some ({ l with mutex := true }.goto i .clear)
  | .clear => some ({ l with wantsWrite := false }.goto i .notify)
  | .notify => some ({ l with waiting := fun _ => false }.goto i .finish)
  | .finish => some ({ l with mutex := false }.goto i (.held l.data))
  | .unwindWrite => some ({ l with inner := l.inner.unlockExclusive }.goto i .unwindRegain)
  | .unwindRegain => l.inner.lockShared.map fun inner => { l with inner }.goto i .unwind
  | .unwind => some ({ l with inner := l.inner.unlockShared }.goto i .dead)
  | .idle | .held _ | .write _ | .dead => none

def step (l : Lock ι α) (i : ι) (c : Choice α) : Option (Lock ι α) :=
  match c, l.place i with
  | .run, _ => l.run i
  | .read, .idle => some (l.goto i (.lock .read))
  | .tryWriteable, .held _ => some (l.goto i (.lock .upgrade))
  | .drop, .held _ => some ({ l with inner := l.inner.unlockShared }.goto i .idle)
  | .mutate mutFunc, .write _ => some ({ l with data := mutFunc l.data }.goto i .written)
  | .panicPrep, .prep => some (l.goto i .unwind)
  | .panicMut changed, .write _ => some ({ l with data := changed l.data }.goto i .unwindWrite)
  | _, _ => none

def machine (ι α : Type) [DecidableEq ι] : Machine (Lock ι α) (ι × Choice α) Empty where
  step l e := (l.step e.1 e.2).map fun l' => (l', [])

end Lock

end Device
