import VeilVpn.Epoll
import VeilVpn.Machine

/-!
This module contains the event queue that the threads of a device share: the table of events, the interest
list of the operating system with its pointers to them, and the sockets whose handlers are registered.
What is read through a pointer to an event that was dropped is not defined, and the machine has no step
for it.
-/

namespace Device

namespace EventPoll

abbrev EventPtr := Nat

inductive Handler where
  | notice
  | timer
  | signal
  /-- Connections to the socket of the configuration protocol -/
  | api
  /-- The connection of the configuration protocol that the device was given -/
  | apiFd
  | iface
  /-- Datagrams from anyone to a port of the device -/
  | udp (port : UInt16)
  /-- Datagrams from the endpoint of a peer -/
  | conn (peer : Nat)
  deriving DecidableEq

namespace Handler

def ownsFd : Handler → Bool
  | .api | .apiFd | .udp _ | .conn _ => true
  | .notice | .timer | .signal | .iface => false

/--
A notice is delivered to all threads, any other event to one of them.
-/
def oneshot : Handler → Bool
  | .notice => false
  | _ => true

def hangsUp : Handler → Bool
  | .apiFd | .iface | .conn _ => true
  | _ => false

end Handler

structure Event where
  fd : Fd
  handler : Handler

/--
A reference to an event that was triggered, and whether it was due to end of file conditions.
-/
structure EventGuard where
  event : EventPtr
  eof : Bool
  deriving DecidableEq

/--
The places where the device itself keeps a socket.
-/
inductive Slot (ι : Type) where
  | udp4
  | udp6
  /-- The endpoint of a peer -/
  | conn (peer : Nat)
  /-- A variable of a thread that is about to drop the socket -/
  | dropping (thread : ι)
  deriving DecidableEq

end EventPoll

structure EventPoll (ι : Type) where
  epoll : Epoll EventPoll.EventPtr
  events : List (Option EventPoll.EventPtr)
  /-- The events that were not dropped yet -/
  heap : EventPoll.EventPtr → Option EventPoll.Event
  nextPtr : EventPoll.EventPtr
  /-- The event that each thread handles -/
  guards : ι → Option EventPoll.EventGuard
  slots : EventPoll.Slot ι → Option Fd
  /-- The thread that has the table locked, and what it is about to take off the interest list -/
  deleting : Option (ι × Fd)

namespace EventPoll

variable {ι : Type}

def new : EventPoll ι where
  epoll := .new
  events := []
  heap := fun _ => none
  nextPtr := 0
  guards := fun _ => none
  slots := fun _ => none
  deleting := none

def eventAt (q : EventPoll ι) (fd : Fd) : Option EventPtr :=
  q.events[fd]?.join

def dropEvent (q : EventPoll ι) (p : EventPtr) : EventPoll ι :=
  match q.heap p with
  | none => q
  | some e =>
    { q with
      heap := Function.update q.heap p none
      epoll := if e.handler.ownsFd then q.epoll.close e.fd else q.epoll
    }

/--
Take the event for a descriptor out of the table. It is dropped before it is taken off the interest
list.
-/
def takeEvent (q : EventPoll ι) (fd : Fd) : EventPoll ι :=
  match q.eventAt fd with
  | none => q
  | some p => { q with events := q.events.set fd none }.dropEvent p

def clearEventByFd (q : EventPoll ι) (i : ι) (index : Fd) : Option (EventPoll ι) :=
  if q.deleting.isSome || q.events.length ≤ index then
    none
  else if (q.eventAt index).isSome then
    some { q.takeEvent index with deleting := some (i, index) }
  else
    some q

def insertAt (q : EventPoll ι) (index : Fd) (p : EventPtr) : EventPoll ι :=
  -- Resize the vector to be able to fit the new index
  let resized := q.events ++ List.replicate (index + 1 - q.events.length) none
  let q := { q with events := resized }
  -- Properly remove the previous event first
  let q := if (q.eventAt index).isSome then
      let q := q.takeEvent index
      { q with epoll := q.epoll.delete index }
    else
      q
  { q with events := q.events.set index (some p) }

/--
An event that the system fails to add to the interest list stays in the table.
-/
def registerEvent (q : EventPoll ι) (fd : Fd) (handler : Handler) (added : Bool)
    : Option (EventPoll ι) :=
  if q.deleting.isSome then
    none
  else
    let p := q.nextPtr
    let q := { q with heap := Function.update q.heap p (some { fd, handler }), nextPtr := p + 1 }
    let q := q.insertAt fd p
    if added then
      (q.epoll.add fd p handler.oneshot).map fun epoll => { q with epoll }
    else
      some q

variable [DecidableEq ι]

def isFree (q : EventPoll ι) (i : ι) : Bool :=
  q.deleting.all fun holder => holder.1 ≠ i

def deleteEvent (q : EventPoll ι) (i : ι) : Option (EventPoll ι) :=
  match q.deleting with
  | none => none
  | some (j, fd) =>
    if j = i then some { q with epoll := q.epoll.delete fd, deleting := none } else none

def wait (q : EventPoll ι) (i : ι) (fd : Fd) (file : Nat) : Option (EventPoll ι) :=
  if q.isFree i then
    match q.guards i, q.epoll.wait fd file with
    | none, some (epoll, p, eof) =>
      some { q with epoll, guards := Function.update q.guards i (some { event := p, eof }) }
    | _, _ => none
  else
    none

/--
What a thread does with an event at the end of its file: it exits if this is the connection that the
device was given, and cancels the event otherwise.
-/
def EventGuard.cancels (g : EventGuard) (e : Event) : Bool :=
  g.eof && e.handler ≠ .apiFd

def dropGuard (q : EventPoll ι) (i : ι) : Option (EventPoll ι) :=
  match q.guards i with
  | none => none
  | some g =>
    match q.heap g.event with
    | none => none
    | some e =>
      if g.cancels e then
        none
      else
        some { q with
          epoll := q.epoll.modify e.fd g.event e.handler.oneshot
          guards := Function.update q.guards i none
        }

def cancel (q : EventPoll ι) (i : ι) : Option (EventPoll ι) :=
  match q.guards i with
  | none => none
  | some g =>
    match q.heap g.event with
    | none => none
    | some e =>
      if g.cancels e then
        (q.clearEventByFd i e.fd).map fun q => { q with guards := Function.update q.guards i none }
      else
        none

def connectEndpoint (q : EventPoll ι) (peer : Nat) (sock clone : Fd) (added : Bool)
    : Option (EventPoll ι) := do
  if (q.slots (.conn peer)).isSome then none
  let epoll ← q.epoll.openAt sock
  let epoll ← epoll.dup sock clone
  let q := { q with epoll, slots := Function.update q.slots (.conn peer) (some clone) }
  q.registerEvent sock (.conn peer) added

/--
A thread takes the socket from where the device keeps it.
-/
def takeSlot (q : EventPoll ι) (i : ι) (slot : Slot ι) (fd : Fd) : EventPoll ι :=
  { q with slots := Function.update (Function.update q.slots slot none) (.dropping i) (some fd) }

def shutdownEndpoint (q : EventPoll ι) (i : ι) (peer : Nat) : Option (EventPoll ι) :=
  match q.isFree i, q.slots (.conn peer), q.slots (.dropping i) with
  | true, some fd, none =>
    some { q.takeSlot i (.conn peer) fd with epoll := q.epoll.shutdown fd }
  | _, _, _ => none

def closeSlot (q : EventPoll ι) (slot : Slot ι) (fd : Fd) : EventPoll ι :=
  { q with epoll := q.epoll.close fd, slots := Function.update q.slots slot none }

def dropSocket (q : EventPoll ι) (i : ι) : Option (EventPoll ι) :=
  match q.isFree i, q.slots (.dropping i) with
  | true, some fd => some (q.closeSlot (.dropping i) fd)
  | _, _ => none

def closeListener (q : EventPoll ι) (i : ι) (slot : Slot ι) : Option (EventPoll ι) :=
  match slot, q.slots slot, q.slots (.dropping i) with
  | .udp4, some fd, none | .udp6, some fd, none => (q.takeSlot i slot fd).clearEventByFd i fd
  | _, _, _ => none

def openSocket (q : EventPoll ι) (slot : Slot ι) (fd : Fd) : Option (EventPoll ι) :=
  match slot, q.slots slot with
  | .udp4, none | .udp6, none =>
    (q.epoll.openAt fd).map fun epoll =>
      { q with epoll, slots := Function.update q.slots slot (some fd) }
  | _, _ => none

/--
An error ends `open_listen_socket`, and the sockets that it has opened are dropped.
-/
def dropListener (q : EventPoll ι) (slot : Slot ι) : Option (EventPoll ι) :=
  match slot, q.slots slot with
  | .udp4, some fd | .udp6, some fd => some (q.closeSlot slot fd)
  | _, _ => none

/--
Register a handler for a clone of one of these sockets.
-/
def registerUdpHandler (q : EventPoll ι) (slot : Slot ι) (clone : Fd) (port : UInt16) (added : Bool)
    : Option (EventPoll ι) :=
  match slot, q.slots slot with
  | .udp4, some fd | .udp6, some fd =>
    (q.epoll.dup fd clone).bind fun epoll => { q with epoll }.registerEvent clone (.udp port) added
  | _, _ => none

def register (q : EventPoll ι) (fd : Fd) (handler : Handler) (added : Bool) : Option (EventPoll ι) :=
  match handler with
  | .udp _ | .conn _ => none
  | _ => (q.epoll.openAt fd).bind fun epoll => { q with epoll }.registerEvent fd handler added

/--
The interface is removed, or the other side closes the connection of the configuration protocol.
-/
def hangUp (q : EventPoll ι) (fd : Fd) : Option (EventPoll ι) :=
  match (q.eventAt fd).bind q.heap with
  | some { handler := .iface, .. } | some { handler := .apiFd, .. } =>
    some { q with epoll := q.epoll.shutdown fd }
  | _ => none

/--
What a thread, the device or the system does next. The statements of `open_listen_socket` are steps of
their own, so that each of them can be the last one before an error.
-/
inductive Act (ι : Type) where
  | wait (i : ι) (fd : Fd) (file : Nat)
  | dropGuard (i : ι)
  | cancel (i : ι)
  | deleteEvent (i : ι)
  | connectEndpoint (peer : Nat) (sock clone : Fd) (added : Bool)
  | shutdownEndpoint (i : ι) (peer : Nat)
  | dropSocket (i : ι)
  | closeListener (i : ι) (slot : Slot ι)
  | openSocket (slot : Slot ι) (fd : Fd)
  | dropListener (slot : Slot ι)
  | registerUdpHandler (slot : Slot ι) (clone : Fd) (port : UInt16) (added : Bool)
  | register (fd : Fd) (handler : Handler) (added : Bool)
  | hangUp (fd : Fd)
  deriving DecidableEq

def step (q : EventPoll ι) : Act ι → Option (EventPoll ι)
  | .wait i fd file => q.wait i fd file
  | .dropGuard i => q.dropGuard i
  | .cancel i => q.cancel i
  | .deleteEvent i => q.deleteEvent i
  | .connectEndpoint peer sock clone added => q.connectEndpoint peer sock clone added
  | .shutdownEndpoint i peer => q.shutdownEndpoint i peer
  | .dropSocket i => q.dropSocket i
  | .closeListener i slot => q.closeListener i slot
  | .openSocket slot fd => q.openSocket slot fd
  | .dropListener slot => q.dropListener slot
  | .registerUdpHandler slot clone port added => q.registerUdpHandler slot clone port added
  | .register fd handler added => q.register fd handler added
  | .hangUp fd => q.hangUp fd

def machine (ι : Type) [DecidableEq ι] : Machine (EventPoll ι) (Act ι) Empty where
  step q a := (q.step a).map fun q' => (q', [])

end EventPoll

end Device
