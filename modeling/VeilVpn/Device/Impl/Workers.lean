import VeilVpn.Device.Impl.Lock

/-!
This module contains the event loop that each thread of the device runs, with the lock around the device
and the two notices that all threads receive. Closures do not panic here, and other events can arrive
at any time.
-/

namespace Device

/--
The counter behind a notice, which never blocks.
-/
structure EventFd where
  counter : Nat
  deriving DecidableEq, Repr

namespace EventFd

def new : EventFd where
  counter := 0

def write (fd : EventFd) (value : Nat) : EventFd :=
  if fd.counter + value < 2 ^ 64 - 1 then { counter := fd.counter + value } else fd

def read (_ : EventFd) : EventFd :=
  { counter := 0 }

def isReadable (fd : EventFd) : Bool :=
  0 < fd.counter

/--
Trigger a notification. It stays triggered until it is stopped.
-/
def triggerNotification (fd : EventFd) : EventFd :=
  fd.write (2 ^ 64 - 1 - 1)

def stopNotification (fd : EventFd) : EventFd :=
  fd.read

end EventFd

namespace Workers

inductive Worker where
  /-- It is about to get a guard for the device -/
  | outside
  /-- It waits for the guard -/
  | entering
  /-- It waits for an event -/
  | waiting
  /-- It handles an event other than a notice -/
  | handling
  /-- It handles a request that changes the device -/
  | setting
  /-- It handles such a request and has told the other threads that they need not yield any longer -/
  | cancelled
  /-- It has been told to yield and is about to drop the guard -/
  | yielding
  /-- It has triggered the notice to exit and is about to return -/
  | exiting
  | exited
  deriving DecidableEq

inductive Action where
  | continue
  | yield
  | exit
  deriving DecidableEq

end Workers

structure Workers (ι α : Type) where
  lock : Lock ι α
  worker : ι → Workers.Worker
  yieldNotice : EventFd
  exitNotice : EventFd

namespace Workers

/--
What a thread does next, apart from what the lock makes it do.
-/
inductive Step (α : Type) where
  /-- Ask for a guard -/
  | enter
  /-- Go on inside of the lock -/
  | run
  /-- Receive the notice to yield or the one to exit -/
  | notice (action : Action)
  /-- Receive any other event -/
  | event
  /-- Call `api_set`, which asks for write access -/
  | apiSet
  /-- Start with the request, once there is write access -/
  | cancelYield
  /-- Be done with the request -/
  | mutate (mutFunc : α → α)
  /-- Return from the handler -/
  | handled (action : Action)
  /-- Leave the inner loop, which drops the guard -/
  | leave

variable {ι α : Type}

def triggerYield (s : Workers ι α) : Workers ι α :=
  { s with yieldNotice := s.yieldNotice.triggerNotification }

def cancelYield (s : Workers ι α) : Workers ι α :=
  { s with yieldNotice := s.yieldNotice.stopNotification }

def triggerExit (s : Workers ι α) : Workers ι α :=
  { s with exitNotice := s.exitNotice.triggerNotification }

section Notices

variable (s : Workers ι α)

@[simp]
theorem triggerYield_lock : s.triggerYield.lock = s.lock := by
  cases s
  rfl

@[simp]
theorem triggerYield_worker : s.triggerYield.worker = s.worker := by
  cases s
  rfl

@[simp]
theorem triggerYield_yieldNotice
    : s.triggerYield.yieldNotice = s.yieldNotice.triggerNotification := by
  simp only [triggerYield]

@[simp]
theorem triggerYield_exitNotice : s.triggerYield.exitNotice = s.exitNotice := by
  cases s
  rfl

@[simp]
theorem cancelYield_lock : s.cancelYield.lock = s.lock := by
  cases s
  rfl

@[simp]
theorem cancelYield_worker : s.cancelYield.worker = s.worker := by
  cases s
  rfl

@[simp]
theorem cancelYield_yieldNotice : s.cancelYield.yieldNotice = s.yieldNotice.stopNotification := by
  simp only [cancelYield]

@[simp]
theorem cancelYield_exitNotice : s.cancelYield.exitNotice = s.exitNotice := by
  cases s
  rfl

@[simp]
theorem triggerExit_lock : s.triggerExit.lock = s.lock := by
  cases s
  rfl

@[simp]
theorem triggerExit_worker : s.triggerExit.worker = s.worker := by
  cases s
  rfl

@[simp]
theorem triggerExit_yieldNotice : s.triggerExit.yieldNotice = s.yieldNotice := by
  cases s
  rfl

@[simp]
theorem triggerExit_exitNotice
    : s.triggerExit.exitNotice = s.exitNotice.triggerNotification := by
  simp only [triggerExit]

end Notices

variable [DecidableEq ι]

def new (device : α) : Workers ι α where
  lock := .new device
  worker := fun _ => .outside
  yieldNotice := .new
  exitNotice := .new

def goto (s : Workers ι α) (i : ι) (worker : Worker) : Workers ι α :=
  { s with worker := Function.update s.worker i worker }

@[simp]
theorem goto_worker (s : Workers ι α) (i : ι) (worker : Worker)
    : (s.goto i worker).worker = Function.update s.worker i worker := rfl

@[simp]
theorem goto_lock (s : Workers ι α) (i : ι) (worker : Worker) : (s.goto i worker).lock = s.lock := rfl

@[simp]
theorem goto_yieldNotice (s : Workers ι α) (i : ι) (worker : Worker)
    : (s.goto i worker).yieldNotice = s.yieldNotice := rfl

@[simp]
theorem goto_exitNotice (s : Workers ι α) (i : ι) (worker : Worker)
    : (s.goto i worker).exitNotice = s.exitNotice := rfl

def run (s : Workers ι α) (i : ι) : Option (Workers ι α) :=
  match s.lock.run i with
  | none => none
  | some lock =>
    match s.lock.place i with
    -- The closure that runs before the thread asks for write access
    | .prep => some { s with lock }.triggerYield
    -- The end of `read`
    | .leave _ => some ({ s with lock }.goto i .waiting)
    | _ => some { s with lock }

def step (s : Workers ι α) (i : ι) (e : Step α) : Option (Workers ι α) :=
  match e, s.worker i with
  | .run, _ => s.run i
  | .enter, .outside =>
    (s.lock.step i .read).map fun lock => { s with lock }.goto i .entering
  | .notice .yield, .waiting =>
    if s.yieldNotice.isReadable then some (s.goto i .yielding) else none
  | .notice .exit, .waiting =>
    if s.exitNotice.isReadable then some (s.triggerExit.goto i .exiting) else none
  | .event, .waiting => some (s.goto i .handling)
  | .apiSet, .handling =>
    (s.lock.step i .tryWriteable).map fun lock => { s with lock }.goto i .setting
  | .cancelYield, .setting =>
    match s.lock.place i with
    | .write _ => some (s.cancelYield.goto i .cancelled)
    | _ => none
  | .mutate mutFunc, .cancelled =>
    (s.lock.step i (.mutate mutFunc)).map fun lock => { s with lock }
  | .handled .continue, .handling => some (s.goto i .waiting)
  | .handled .continue, .cancelled =>
    match s.lock.place i with
    | .held _ => some (s.goto i .waiting)
    | _ => none
  | .handled .exit, .handling => some (s.triggerExit.goto i .exiting)
  | .leave, .yielding => (s.lock.step i .drop).map fun lock => { s with lock }.goto i .outside
  | .leave, .exiting => (s.lock.step i .drop).map fun lock => { s with lock }.goto i .exited
  | _, _ => none

def machine (ι α : Type) [DecidableEq ι] : Machine (Workers ι α) (ι × Step α) Empty where
  step s e := (s.step e.1 e.2).map fun s' => (s', [])

end Workers

end Device
