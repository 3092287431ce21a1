import CoreRaT.Spec.MailboxResources

/-!
# `CoreRaT.Spec.ReceiveImpl`: what `receive_raw_bytes` returns

`receive_raw_bytes` returns the number of the bytes of a message, or a number that is not positive.
`TimsMailbox` calls `receive_raw` for it, and `EvlMailbox` calls `receive_impl`, which is modelled
here as a whole: the datagram in `Mode::Network`, the poll of two sources in front of the ring in
`Mode::Public`, the wait for a message, and the ring read.

What the kernel answers is an argument. A wait gives up the mutex of the ring, so the answer of a
wait comes with the ring as it is when the mutex is locked again. The deadline of a call is left
out: the kernel says when it has passed. `Duration` counts nanoseconds in an `int64_t`.
-/

set_option autoImplicit false

namespace CoreRaT.Spec

open Mailbox (RawReceived)

/-- `ETIMEDOUT`. -/
def ETIMEDOUT : Int := 110

/-- `EMSGSIZE`. -/
def EMSGSIZE : Int := 90

/-- The number that `receive_raw` returns. -/
def ReceiveResult.raw : ReceiveResult → RawReceived
  | .received body metadata => .message body metadata
  | .timedOut => .failed (-ETIMEDOUT)
  | .msgSize => .failed (-EMSGSIZE)
  | .failed => .failed (-1)

/-! ### The answers of the kernel -/

/-- `oob_recvmsg` and `oob_read`. -/
inductive KernelRead
  /-- What there is to read. -/
  | data (bytes : List UInt8)
  /-- The call returns `-code`. -/
  | error (code : Nat)

/-- An event of `evl_poll`, by its descriptor. -/
inductive PollEvent
  /-- `xbuf_fd_`, with the answer of the `oob_read` from it. -/
  | xbuf (read : KernelRead)
  /-- `ring_event_fd_`. -/
  | ring
  | other

/-- `evl_poll` and `evl_timedpoll`. -/
inductive PollAnswer
  /-- The call returns the number of the events. -/
  | events (events : List PollEvent)
  /-- The call returns `-code`. -/
  | error (code : Nat)

/-- The answers for one call of `receive_impl`. -/
structure ReceiveAnswers where
  recvmsg : KernelRead
  poll : PollAnswer
  /-- `evl_wait_event` or `evl_timedwait_event`, for each wait. -/
  waits : List (Int × EvlRing)

/-! ### `EvlMailbox` -/

/-- How far a call of `receive_impl` comes. -/
inductive ImplResult
  | returned (raw : RawReceived)
  /-- The answers are used up, and the call waits. -/
  | waiting
  /-- `slot_meta_at(-1)`. -/
  | outOfBounds

/-- The members of an `EvlMailbox` that `receive_impl` reads or writes. -/
structure EvlReceiver where
  mailboxId : MailboxId
  mode : Mode
  created : Bool
  /-- `xbuf_fd_ >= 0`. -/
  xbuf : Bool
  /-- `poll_fd_ >= 0`. -/
  poll : Bool
  pollSetupDone : Bool
  ring : EvlRing
  messagesReceived : Nat

namespace EvlReceiver

/-- A return with what has been read. A message is counted. -/
def returning (m : EvlReceiver) (raw : RawReceived) : ImplResult × EvlReceiver :=
  match raw with
  | .message _ _ => (.returned raw, { m with messagesReceived := m.messagesReceived + 1 })
  | .failed _ => (.returned raw, m)

/-- `receive_oob_udp`, with the answer of `oob_recvmsg`. -/
def receiveDatagram (m : EvlReceiver) (bufferSize : Nat) (recvmsg : KernelRead) :
    ImplResult × EvlReceiver :=
  match recvmsg with
  | .error code => m.returning (.failed (-code))
  | .data bytes => m.returning (receiveOobUdp bufferSize bytes)

/-- `evl_add_pollfd`, in the first call. -/
def setupPoll (m : EvlReceiver) : EvlReceiver :=
  if m.mode = .Public ∧ m.xbuf ∧ !m.pollSetupDone then { m with pollSetupDone := true } else m

/-- The loop over the events: what it returns, if it does not come to the ring read. The metadata of
a message of the xbuf are from its header, as those of a datagram are. -/
def eventLoop (bufferSize : Nat) : List PollEvent → Option RawReceived
  | [] => none
  | .xbuf (.data bytes) :: rest =>
    match receiveOobUdp bufferSize bytes with
    | .message bytes metadata => some (.message bytes metadata)
    | .failed _ => eventLoop bufferSize rest
  | .xbuf (.error _) :: rest => eventLoop bufferSize rest
  | .ring :: _ => none
  | .other :: rest => eventLoop bufferSize rest

/-- The poll of the two sources. -/
def pollBoth (bufferSize : Nat) : PollAnswer → Option RawReceived
  | .error code =>
    some (.failed (if code = 0 ∨ -(code : Int) = -ETIMEDOUT then -ETIMEDOUT else -code))
  | .events [] => some (.failed (-ETIMEDOUT))
  | .events events => eventLoop bufferSize events

/-- How the wait in front of the ring read ends. -/
inductive Waited
  /-- With a slot in use. -/
  | inUse (ring : EvlRing)
  /-- The call returns this number. -/
  | gaveUp (code : Int) (ring : EvlRing)
  | waiting (ring : EvlRing)

/-- `while (!has_in_use_slot())`, with and without a deadline. -/
def waitLoop (timeout : Int64) (ring : EvlRing) : List (Int × EvlRing) → Waited
  | [] => if ring.hasInUseSlot then .inUse ring else .waiting ring
  | (r, ring') :: waits =>
    if ring.hasInUseSlot then .inUse ring
    else if timeout < 0 then
      if r < 0 then .gaveUp (-1) ring' else waitLoop timeout ring' waits
    else if r = -ETIMEDOUT then .gaveUp (-ETIMEDOUT) ring'
    else if r < 0 then .gaveUp r ring'
    else waitLoop timeout ring' waits

/-- The ring read. A message of no bytes is the number 0. -/
def readRing (m : EvlReceiver) (bufferSize : Nat) : ImplResult × EvlReceiver :=
  match m.ring.receive m.mailboxId bufferSize with
  | (.message bytes metadata, ring) =>
    (.returned (if bytes.length = 0 then .failed 0 else .message bytes metadata),
      { m with ring, messagesReceived := m.messagesReceived + 1 })
  | (.msgSize, ring) => (.returned (.failed (-EMSGSIZE)), { m with ring })
  | (.outOfBounds, ring) => (.outOfBounds, { m with ring })
  | (.nothing, ring) => (.waiting, { m with ring })

/-- The part of `receive_impl` from the lock of the ring on. -/
def receiveRing (m : EvlReceiver) (timeout : Int64) (bufferSize : Nat)
    (waits : List (Int × EvlRing)) : ImplResult × EvlReceiver :=
  match waitLoop timeout m.ring waits with
  | .inUse ring => readRing { m with ring } bufferSize
  | .gaveUp code ring => (.returned (.failed code), { m with ring })
  | .waiting ring => (.waiting, { m with ring })

/-- `receive_impl`. -/
def receiveImpl (m : EvlReceiver) (timeout : Int64) (bufferSize : Nat)
    (answers : ReceiveAnswers) : ImplResult × EvlReceiver :=
  if !m.created then (.returned (.failed (-1)), m)
  else if m.mode = .Network then m.receiveDatagram bufferSize answers.recvmsg
  else
    let m := m.setupPoll
    if m.mode = .Public ∧ m.poll ∧ m.pollSetupDone then
      match pollBoth bufferSize answers.poll with
      | some raw => m.returning raw
      | none => m.receiveRing timeout bufferSize answers.waits
    else m.receiveRing timeout bufferSize answers.waits

end EvlReceiver

/-! ### `clean` -/

/-- The answers for a call while nobody sends: a wait leaves the ring as it is. -/
structure QuietAnswers where
  recvmsg : KernelRead
  poll : PollAnswer
  waits : List Int

/-- The answers for a call of a mailbox with this ring. -/
def QuietAnswers.on (a : QuietAnswers) (ring : EvlRing) : ReceiveAnswers where
  recvmsg := a.recvmsg
  poll := a.poll
  waits := a.waits.map fun r => (r, ring)

namespace Mailbox

/-- `Milliseconds(10)`. -/
def cleanTimeout : Int64 := 10000000

/-- How `clean` ends. -/
inductive CleanResult
  | returned (result : Except MailboxError Unit)
  /-- A receive has gone to slot -1. -/
  | outOfBounds
deriving DecidableEq

/-- The loop of `clean`, with the answers for one receive after the other. It goes on after a
receive of at least one byte. When the answers are used up, the loop is still running. -/
def cleanLoop (bufferSize : Nat) :
    List QuietAnswers → EvlReceiver → Option (CleanResult × EvlReceiver)
  | [], _ => none
  | a :: answers, m =>
    match m.receiveImpl cleanTimeout bufferSize (a.on m.ring) with
    | (.returned (.message bytes _), m') =>
      if 0 < bytes.length then cleanLoop bufferSize answers m'
      else some (.returned (.ok ()), m')
    | (.returned (.failed _), m') => some (.returned (.ok ()), m')
    | (.waiting, _) => none
    | (.outOfBounds, m') => some (.outOfBounds, m')

/-- `Mailbox::clean`, while nobody sends. `maxMessageSize` is that of the registry. -/
def clean (running : Bool) (maxMessageSize : Nat) (answers : List QuietAnswers)
    (m : EvlReceiver) : Option (CleanResult × EvlReceiver) :=
  if !running then some (.returned (.error .NotRunning), m)
  else cleanLoop maxMessageSize answers m

end Mailbox

/-! ### `receive_any_for` over a backend -/

/-- A call of `receive_raw_bytes`, with what the kernel answers. -/
inductive RawCall
  | tims (m : TimsMailbox) (polls : Nat → Int)
  | evl (m : EvlReceiver) (answers : ReceiveAnswers)

section
variable (swapEndiannessFrom : (littleEndian : Bool) → List UInt8 → List UInt8)

/-- `receive_raw_bytes`. A call that waits, or is out of bounds, returns nothing. -/
def RawCall.receiveRawBytes (timeout : Int64) (bufferSize : Nat) : RawCall → Option RawReceived
  | .tims m polls => some (m.receiveRaw swapEndiannessFrom bufferSize polls).1.raw
  | .evl m answers =>
    match (m.receiveImpl timeout bufferSize answers).1 with
    | .returned raw => some raw
    | .waiting => none
    | .outOfBounds => none

/-- `receive_any_for` of a running mailbox: what the backend has returned, and the result. -/
def RawCall.receiveAnyFor {τ : Type} {V : τ → Type} (S : Sertial τ V)
    (defs : List (MessageDefinition τ)) (timeout : Int64) (bufferSize : Nat) (call : RawCall) :
    Option (RawReceived × Except MailboxError Unit) :=
  (call.receiveRawBytes swapEndiannessFrom timeout bufferSize).map fun raw =>
    (raw, (Mailbox.receiveAnyFor S defs true (decide (0 < timeout)) raw).1)

end

end CoreRaT.Spec
