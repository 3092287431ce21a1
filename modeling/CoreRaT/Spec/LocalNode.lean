import CoreRaT.Spec.EvlRing
import CoreRaT.Spec.MailboxTable

/-!
# `CoreRaT.Spec.LocalNode`: the mailboxes of a process at work

`EvlMailbox` of `ipc/evl/evl_backend.hpp` in `Mode::Local`, with all that the mailboxes of one
process share: the objects and the registry (`LocalProcess`), the configuration of each object, and
its ring. `send_raw` looks for the destination in the registry and posts into its ring, and
`receive_impl` reads the ring of its own object.

Each call holds the mutex of the ring that it works on for as long as it touches it, so a call is
one step. The objects are created and destroyed by the threads that use them: a call on an object
that does not exist changes nothing here.
-/

set_option autoImplicit false

namespace CoreRaT.Spec

/-- A process and its mailboxes in `Mode::Local`. -/
structure LocalNode where
  process : LocalProcess
  /-- `config_` of the object at an address. -/
  config : Nat → TimsConfig
  ring : Nat → EvlRing

namespace LocalNode

/-- A process that has just started. -/
def init : LocalNode where
  process := .init
  config := fun _ => ⟨0, 0, 0⟩
  ring := fun _ => .allocateRing 0 0 fun _ => 0

/-- `EvlMailbox::EvlMailbox`, at a free address. -/
def construct (s : LocalNode) (this : Nat) (config : TimsConfig) : LocalNode :=
  match s.process.mailboxes this with
  | none =>
    { s with
        process := s.process.construct this config.mailboxId
        config := Function.update s.config this config }
  | some _ => s

/-- `initialize`. `make_unique` gives a ring of zeros, which stays when `create_evl_objects`
fails. -/
def initializeMailbox (s : LocalNode) (this : Nat) (evlObjects : Bool) : TimsResult × LocalNode :=
  match s.process.mailboxes this with
  | none => (.ERROR_INIT, s)
  | some m =>
    if m.created then (.SUCCESS, s)
    else
      let (result, process) := s.process.initializeMailbox this evlObjects
      (result,
        { s with
            process
            ring := Function.update s.ring this (.ofConfig (s.config this) fun _ => 0) })

/-- `shutdown`: the mailbox leaves the registry, and `free_ring`. -/
def shutdown (s : LocalNode) (this : Nat) : LocalNode :=
  match s.process.mailboxes this with
  | none => s
  | some m =>
    if !m.created then s
    else
      { s with
          process := s.process.shutdown this
          ring := Function.update s.ring this (.allocateRing 0 0 fun _ => 0) }

/-- `EvlMailbox::~EvlMailbox`, which begins with `shutdown`. -/
def destroy (s : LocalNode) (this : Nat) : LocalNode :=
  { s.shutdown this with process := s.process.destroy this }

/-- The end of `send_raw` in `Mode::Local`: what the registry has for `dest` takes the message, if
it is an initialized mailbox with this id. -/
def postTo (dest : MailboxId) (s : LocalNode) (data : List UInt8) (priority : Int8)
    (src : MailboxId) : Bool × LocalNode :=
  match s.process.table.registryFind dest with
  | none => (false, s)
  | some target =>
    match s.process.mailboxes target with
    | none => (false, s)
    | some m =>
      if m.mailboxId ≠ dest ∨ m.created = false then (false, s)
      else
        let (ok, ring) := (s.ring target).post data priority src
        (ok, { s with ring := Function.update s.ring target ring })

/-- `send` and `send_raw`. -/
def send (s : LocalNode) (this : Nat) (dest : MailboxId) (data : List UInt8) :
    TimsResult × LocalNode :=
  match s.process.mailboxes this with
  | none => (.ERROR_NOT_INIT, s)
  | some m =>
    if !m.created then (.ERROR_NOT_INIT, s)
    else evlSendRaw (s.config this) (postTo dest) s data (sendPriority (s.config this))

/-- The ring read of `receive_impl`, or `none` if the mailbox is not initialized. -/
def receive (s : LocalNode) (this : Nat) (bufferSize : Nat) :
    Option EvlRing.Received × LocalNode :=
  match s.process.mailboxes this with
  | none => (none, s)
  | some m =>
    if !m.created then (none, s)
    else
      let (received, ring) := (s.ring this).receive (s.config this).mailboxId bufferSize
      (some received, { s with ring := Function.update s.ring this ring })

/-- The calls on the mailboxes of a process. -/
inductive Event
  | construct (this : Nat) (config : TimsConfig)
  | initializeMailbox (this : Nat) (evlObjects : Bool)
  | shutdown (this : Nat)
  | destroy (this : Nat)
  | send (this : Nat) (dest : MailboxId) (data : List UInt8)
  | receive (this : Nat) (bufferSize : Nat)

/-- One call. -/
def step (s : LocalNode) : Event → LocalNode
  | .construct this config => s.construct this config
  | .initializeMailbox this evlObjects => (s.initializeMailbox this evlObjects).2
  | .shutdown this => s.shutdown this
  | .destroy this => s.destroy this
  | .send this dest data => (s.send this dest data).2
  | .receive this bufferSize => (s.receive this bufferSize).2

end LocalNode

end CoreRaT.Spec
