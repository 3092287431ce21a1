import CoreRaT.Lib.Run
import CoreRaT.Spec.EvlRing

/-!
# `CoreRaT.Spec.RingWaiters`: the threads that wait for a message

The ring of an EVL mailbox in `Mode::Local`, with the threads in `receive_impl` without a timeout.
The ring mutex is held from the first slot access to the last, but `evl_wait_event` releases it
while the thread is blocked. So a locked section is one step: a `post` with its signal, a receive up
to its first wait or its return, and what a thread does that has been woken, from the return of
`evl_wait_event` to the next wait or its return.

A signal wakes one of the threads that are blocked, and has no effect if there is none. Which one
the kernel wakes, and in which order the woken threads get the mutex, is part of the events. A
thread is known by the size of its buffer.
-/

set_option autoImplicit false

namespace CoreRaT.Spec

open CoreRaT.Lib

/-- The ring of mailbox `mailboxId`, and the buffers of the threads that wait. -/
structure RingWaiters where
  mailboxId : MailboxId
  ring : EvlRing
  /-- The threads in `evl_wait_event`. -/
  blocked : List Nat
  /-- The threads that have been woken and do not have the mutex yet. -/
  woken : List Nat

namespace RingWaiters

/-- An empty ring, and nobody waits. -/
def init (mailboxId : MailboxId) (capacity : Nat) (slotSize : UInt32) (payload : ByteMemory) :
    RingWaiters where
  mailboxId := mailboxId
  ring := .allocateRing capacity slotSize payload
  blocked := []
  woken := []

/-- `evl_signal_event`. The kernel wakes the thread at `waiter`, modulo the number of threads. -/
def signalEvent (s : RingWaiters) (waiter : Nat) : RingWaiters :=
  match s.blocked[waiter % s.blocked.length]? with
  | none => s
  | some bufferSize =>
    { s with
        blocked := s.blocked.eraseIdx (waiter % s.blocked.length)
        woken := s.woken ++ [bufferSize] }

/-- `post`. -/
def post (s : RingWaiters) (data : List UInt8) (priority : Int8) (src : MailboxId) (waiter : Nat) :
    RingWaiters :=
  match s.ring.post data priority src with
  | (true, ring) => { s with ring }.signalEvent waiter
  | (false, ring) => { s with ring }

/-- What a thread in `receive_impl` does when it has the mutex: it waits if there is no message, and
returns otherwise. -/
def receive (s : RingWaiters) (bufferSize : Nat) : RingWaiters :=
  match s.ring.receive s.mailboxId bufferSize with
  | (.nothing, _) => { s with blocked := s.blocked ++ [bufferSize] }
  | (_, ring) => { s with ring }

/-- The locked sections. -/
inductive Event
  | post (data : List UInt8) (priority : Int8) (src : MailboxId) (waiter : Nat)
  /-- A thread enters `receive_impl`. -/
  | receive (bufferSize : Nat)
  /-- The woken thread at `k` gets the mutex back. -/
  | recheck (k : Nat)

/-- One locked section. -/
def step (s : RingWaiters) : Event → RingWaiters
  | .post data priority src waiter => s.post data priority src waiter
  | .receive bufferSize => s.receive bufferSize
  | .recheck k =>
    match s.woken[k]? with
    | none => s
    | some bufferSize => { s with woken := s.woken.eraseIdx k }.receive bufferSize

end RingWaiters

end CoreRaT.Spec
