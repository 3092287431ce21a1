import CoreRaT.Lib.Run
import CoreRaT.Spec.EvlRing

/-!
# `CoreRaT.Spec.SenderRing`: mailboxes on one ring

The ring of an EVL mailbox between the mailboxes that send to it and the calls of its owner.
`Mailbox::send` of a mailbox hands bytes to the backend, whose priority is the `send_priority` of
the configuration.

For each slot the model has the configuration of the mailbox that sent the message. The code has
not: it has the priority and the id in the slot.
-/

set_option autoImplicit false

namespace CoreRaT.Spec

open CoreRaT.Lib

/-- The fields of `MailboxConfig` that go into the configuration of the backend. -/
structure MailboxConfig where
  mailboxId : MailboxId
  maxMessageSize : Nat
  sendPriority : UInt8
deriving DecidableEq

/-- The configuration of the backend. -/
def MailboxConfig.backend (c : MailboxConfig) : TimsConfig :=
  createBackendConfig c.mailboxId c.maxMessageSize c.sendPriority

/-- A ring, and who has sent the message in each slot. -/
structure SenderRing where
  ring : EvlRing
  senders : List (Option MailboxConfig)

namespace SenderRing

/-- An empty ring. -/
def init (capacity : Nat) (slotSize : UInt32) (payload : ByteMemory) : SenderRing where
  ring := .allocateRing capacity slotSize payload
  senders := List.replicate capacity none

/-- `send` of the mailbox with the configuration `c`, with the bytes of the message. -/
def send (s : SenderRing) (c : MailboxConfig) (path : RingPath) (data : List UInt8) :
    TimsResult × SenderRing :=
  match evlSendRaw c.backend path.put s.ring data (sendPriority c.backend),
    (s.ring.chooseSlot (sendPriority c.backend)).1 with
  | (.SUCCESS, ring), some idx => (.SUCCESS, ⟨ring, s.senders.set idx (some c)⟩)
  | (result, ring), _ => (result, { s with ring })

/-- The ring read of `receive_impl`. -/
def receive (s : SenderRing) (mailboxId : MailboxId) (bufferSize : Nat) :
    EvlRing.Received × SenderRing :=
  match s.ring.receive mailboxId bufferSize, s.ring.findHighestPrioritySlot with
  | (.message bytes metadata, ring), some idx =>
    (.message bytes metadata, ⟨ring, s.senders.set idx none⟩)
  | (result, ring), _ => (result, { s with ring })

/-- The calls on one ring. -/
inductive Event
  | send (c : MailboxConfig) (path : RingPath) (data : List UInt8)
  | receive (mailboxId : MailboxId) (bufferSize : Nat)

/-- One call. -/
def step (s : SenderRing) : Event → SenderRing
  | .send c path data => (s.send c path data).2
  | .receive mailboxId bufferSize => (s.receive mailboxId bufferSize).2

end SenderRing

end CoreRaT.Spec
