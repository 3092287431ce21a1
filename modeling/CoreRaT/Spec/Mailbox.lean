import CoreRaT.Spec.EvlRing
import CoreRaT.Spec.MessageRegistry

/-!
# `CoreRaT.Spec.Mailbox`: typed messages

`Mailbox` of `ipc/mailbox.hpp` over a backend that carries bytes. `send` serializes a message twice:
`Registry::serialize` enters the type and then the size into the header of the message, and the
backend's `send` serializes it again, with both. `receive` reads a message of one type, and
`receive_any_for` lets `visit` find the type by the id in the header.

The serialization library sertial is not part of the repository. `Sertial` stands for it, with what
the code relies on as named properties. `V t` are the values of the payload type `t`.
-/

set_option autoImplicit false

namespace CoreRaT.Spec

open CoreRaT.Lib

variable {τ : Type} {V : τ → Type}

/-- `WireMessage`. -/
@[ext]
structure WireMessage (V : τ → Type) (t : τ) where
  header : WireHeader
  payload : V t

/-- `sertial::Message<WireMessage<T>>`, for each payload type. -/
structure Sertial (τ : Type) (V : τ → Type) where
  serialize : (t : τ) → WireMessage V t → List UInt8
  deserialize : (t : τ) → List UInt8 → Option (WireMessage V t)

namespace Sertial

/-- What has been serialized is read back. -/
def RoundTrip (S : Sertial τ V) : Prop :=
  ∀ (t : τ) (m : WireMessage V t), S.deserialize t (S.serialize t m) = some m

/-- The number of bytes does not depend on the header. -/
def HeaderFixed (S : Sertial τ V) : Prop :=
  ∀ (t : τ) (h h' : WireHeader) (v : V t),
    (S.serialize t ⟨h, v⟩).length = (S.serialize t ⟨h', v⟩).length

/-- The bytes begin with the header as it lies in memory. -/
def HeaderFirst (S : Sertial τ V) : Prop :=
  ∀ (t : τ) (m : WireMessage V t), sizeofWireHeader ≤ (S.serialize t m).length ∧
    WireHeader.decode (S.serialize t m) = m.header

/-- A byte sequence of a length that a message of the type can have is read as one. -/
def ReadsLengths (S : Sertial τ V) : Prop :=
  ∀ (t : τ) (m : WireMessage V t) (bytes : List UInt8),
    bytes.length = (S.serialize t m).length → (S.deserialize t bytes).isSome

end Sertial

/-! ### The registry -/

namespace MessageRegistry

variable [DecidableEq τ]

/-- `is_registered_v`. -/
def IsRegistered (defs : List (MessageDefinition τ)) (t : τ) : Prop :=
  ∃ d ∈ messageDefsTuple defs, d.payload = t

instance (defs : List (MessageDefinition τ)) (t : τ) : Decidable (IsRegistered defs t) :=
  inferInstanceAs (Decidable (∃ d ∈ messageDefsTuple defs, d.payload = t))

theorem isSome_findMessageDef {defs : List (MessageDefinition τ)} {t : τ}
    (h : IsRegistered defs t) : (findMessageDef defs t).isSome := by
  obtain ⟨d, hd, hpayload⟩ := h
  exact List.find?_isSome.mpr ⟨d, hd, by simpa using hpayload⟩

/-- `get_message_id`. Its constraint is that the type is registered. -/
def getMessageId (defs : List (MessageDefinition τ)) (t : τ) (h : IsRegistered defs t) : UInt32 :=
  ((findMessageDef defs t).get (isSome_findMessageDef h)).messageId

/-- `MessageRegistry::serialize`: the bytes, and the message as it is left. -/
def serialize (S : Sertial τ V) (defs : List (MessageDefinition τ)) {t : τ}
    (h : IsRegistered defs t) (message : WireMessage V t) : List UInt8 × WireMessage V t :=
  let message := { message with header.msgType := getMessageId defs t h }
  let result := S.serialize t message
  (result, { message with header.msgSize := UInt32.ofNat result.length })

/-- `visit_impl_helper`, on the definitions from an index on: what it returns, and the messages with
which it calls the visitor. -/
def visitImpl (S : Sertial τ V) (msgId : UInt32) (data : List UInt8) :
    List (MessageDefinition τ) → Bool × List ((t : τ) × WireMessage V t)
  | [] => (false, [])
  | d :: rest =>
    if msgId = d.messageId then
      match S.deserialize d.payload data with
      | some m => (true, [⟨d.payload, m⟩])
      | none => (false, [])
    else visitImpl S msgId data rest

/-- `visit`. -/
def visit (S : Sertial τ V) (defs : List (MessageDefinition τ)) (msgId : UInt32)
    (data : List UInt8) : Bool × List ((t : τ) × WireMessage V t) :=
  visitImpl S msgId data (messageDefsTuple defs)

end MessageRegistry

open MessageRegistry

/-! ### Sending -/

/-- `MailboxError`. -/
inductive MailboxError
  | NotInitialized
  | InvalidMessage
  | Timeout
  | QueueFull
  | QueueEmpty
  | SerializationError
  | NetworkError
  | InvalidDestination
  | AlreadyRunning
  | NotRunning
deriving DecidableEq

namespace Mailbox

/-- `corerat::serialize`, which the backend's `send` calls. A `WireMessage` has no `message_type`.
-/
def serialize (S : Sertial τ V) {t : τ} (message : WireMessage V t) :
    List UInt8 × WireMessage V t :=
  let result := S.serialize t message
  (result, { message with header.msgSize := UInt32.ofNat result.length })

/-- What a `send` has done: its result, the message as it is left, and the bytes and the destination
that the backend's `send_raw` was called with. -/
structure SendOutcome (V : τ → Type) (t : τ) where
  result : Except MailboxError Unit
  message : WireMessage V t
  handed : Option (List UInt8 × MailboxId)

variable [DecidableEq τ]

/-- `Mailbox::send`. `sendRaw` is the backend. -/
def send (S : Sertial τ V) (defs : List (MessageDefinition τ)) (running : Bool)
    (sendRaw : List UInt8 → MailboxId → TimsResult) {t : τ} (h : IsRegistered defs t)
    (message : WireMessage V t) (dest : MailboxId) : SendOutcome V t :=
  if !running then ⟨.error .NotRunning, message, none⟩
  else if dest = 0 then ⟨.error .InvalidDestination, message, none⟩
  else
    let message := (MessageRegistry.serialize S defs h message).2
    let (bytes, message) := serialize S message
    let result := if sendRaw bytes dest = .SUCCESS then .ok () else .error .NetworkError
    ⟨result, message, some (bytes, dest)⟩

/-- `send_reply` compiles for a request with the payload `q` and a reply with the payload `p`: the
definition for `q` is a request, and its reply is `p`. -/
def ReplyCompiles (defs : List (MessageDefinition τ)) (q p : τ) : Prop :=
  ∃ d, findMessageDef defs q = some d ∧ d.reply = some p

/-- `Mailbox::send_reply`. `header` is what is in the header of the new message, and `now` the
time. -/
def sendReply (S : Sertial τ V) (defs : List (MessageDefinition τ)) (running : Bool)
    (sendRaw : List UInt8 → MailboxId → TimsResult) (mailboxId : MailboxId) (header : WireHeader)
    (now : UInt64) {q p : τ} (h : IsRegistered defs p) (request : WireMessage V q) (reply : V p) :
    SendOutcome V p :=
  let message : WireMessage V p :=
    ⟨{ header with
        timestampLow := now.toUInt32
        timestampHigh := (now >>> 32).toUInt32
        src := mailboxId
        dest := request.header.src }, reply⟩
  send S defs running sendRaw h message request.header.src

/-! ### Receiving -/

/-- What the backend's `receive_raw_bytes` comes to. -/
inductive RawReceived
  /-- The bytes in the buffer, and the metadata. -/
  | message (bytes : List UInt8) (metadata : TimsMetadata)
  /-- A number that is not positive. -/
  | failed (code : Int)

/-- The source and the destination that a receive enters into the header. -/
def present (metadata : TimsMetadata) {t : τ} (m : WireMessage V t) : WireMessage V t :=
  { m with header.src := metadata.src, header.dest := metadata.dest }

/-- `Mailbox::receive`: the message, if it returns true. `try_receive` is this with no timeout. -/
def receive (S : Sertial τ V) (running : Bool) (raw : RawReceived) (t : τ) :
    Option (WireMessage V t) :=
  if !running then none
  else
    match raw with
    | .failed _ => none
    | .message bytes metadata =>
      if bytes.length = 0 then none else (S.deserialize t bytes).map (present metadata)

/-- `Mailbox::receive_any_for`: its result, and the messages that the visitor has seen. -/
def receiveAnyFor (S : Sertial τ V) (defs : List (MessageDefinition τ)) (running : Bool)
    (positiveTimeout : Bool) (raw : RawReceived) :
    Except MailboxError Unit × List ((t : τ) × WireMessage V t) :=
  if !running then (.error .NotRunning, [])
  else
    match raw with
    | .failed code =>
      (.error (if !positiveTimeout || code == -1 then .Timeout else .NetworkError), [])
    | .message bytes metadata =>
      if bytes.length < sizeofWireHeader then (.error .InvalidMessage, [])
      else
        let (success, seen) := visit S defs (WireHeader.decode bytes).msgType bytes
        (if success then .ok () else .error .InvalidMessage,
          seen.map fun m => ⟨m.1, present metadata m.2⟩)

end Mailbox

end CoreRaT.Spec
