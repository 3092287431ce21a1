import CoreRaT.Spec.TimsMailbox

/-!
# `CoreRaT.Spec.SharedMailbox`: a mailbox with a sender and a receiver

One thread calls `send_raw` and another one calls `receive_raw` on the same `TimsMailbox`. Both
write to its socket, and no lock covers the two `send_all` calls of `send_raw`. So `send_raw` is cut
in two here: `sendHeader` is the part up to its first `send_all`, and `sendBody` is the rest.
`receiveRound` is one round of the loop of `receive_raw`, in which there is at most one `send_all`.

Each `send_all` is one step. The receiver reads another stream than the one that is written, so that
its calls of `recv_all` need no steps of their own.
-/

set_option autoImplicit false

namespace CoreRaT.Spec

namespace TimsMailbox

/-- `send_raw` up to the first `send_all`: the header, or the result if the call returns. -/
def sendHeader (m : TimsMailbox) (data : List UInt8) (dest : MailboxId) :
    Except TimsResult FrameHeader × TimsMailbox :=
  if !m.isInitialized || !m.socket.isOpen then (.error .ERROR_NOT_INIT, m)
  else if data.isEmpty || m.config.maxMsgSize < data.length then (.error .ERROR_INVALID_MSG, m)
  else
    let header := makeFrame 0 dest m.config.mailboxId m.config.priority.toUInt8
      m.sequenceNumber.toUInt8 (UInt32.ofNat data.length)
    let m := { m with sequenceNumber := m.sequenceNumber + 1 }
    match m.socket.sendAll header.encode with
    | (false, s) => (.error .ERROR_SEND, { m with socket := s })
    | (true, s) => (.ok header, { m with socket := s })

/-- The rest of `send_raw`. -/
def sendBody (m : TimsMailbox) (data : List UInt8) : TimsResult × TimsMailbox :=
  match m.socket.sendAll data with
  | (false, s) => (.ERROR_SEND, { m with socket := s })
  | (true, s) => (.SUCCESS, { m with socket := s, messagesSent := m.messagesSent + 1 })

/-- The answer that a round of `receive_raw` sends, if it reads a probe. -/
def probeReply (m : TimsMailbox) (poll : Int) : Option FrameHeader :=
  if m.socket.pollIn poll ≤ 0 then none
  else
    match m.socket.recvAll sizeofFrameHeader with
    | (none, _) => none
    | (some bytes, _) =>
      let header := FrameHeader.decode bytes
      if header.type = MSG_ROUTER_GET_STATUS then some (m.statusReply header) else none

section
variable (swapEndiannessFrom : (littleEndian : Bool) → List UInt8 → List UInt8)

/-- One round of the loop of `receive_raw`. The result is `none` if the loop goes on. -/
def receiveRound (m : TimsMailbox) (bufferSize : Nat) (poll : Int) :
    Option ReceiveResult × TimsMailbox :=
  if m.socket.pollIn poll ≤ 0 then (some .timedOut, m)
  else
    match m.socket.recvAll sizeofFrameHeader with
    | (none, s) => (some .failed, { m with socket := s })
    | (some bytes, s) =>
      let header := FrameHeader.decode bytes
      if header.type = MSG_ROUTER_GET_STATUS then
        (none, { m with socket := (s.sendAll (m.statusReply header).encode).2 })
      else if header.msglen ≤ 16 then (none, { m with socket := s })
      else if bufferSize < header.bodyLen.toNat then (some .msgSize, { m with socket := s })
      else
        match s.recvAll header.bodyLen.toNat with
        | (none, s) => (some .failed, { m with socket := s })
        | (some body, s) =>
          (some (.received (convert swapEndiannessFrom header body) (metadataOf header)),
            { m with socket := s, messagesReceived := m.messagesReceived + 1 })

end

end TimsMailbox

/-- A mailbox that is used by two threads. -/
structure SharedMailbox where
  mailbox : TimsMailbox
  /-- The sender is between the two `send_all` calls for this frame. -/
  sending : Option (FrameHeader × List UInt8)
  /-- What has been sent, in order: the frames of `send_raw`, and the answers to probes. -/
  sent : List (FrameHeader × List UInt8)

namespace SharedMailbox

/-- A mailbox that is not in use. -/
def init (mailbox : TimsMailbox) : SharedMailbox := ⟨mailbox, none, []⟩

/-- What the threads do. -/
inductive Event
  /-- The sender calls `send_raw`, and comes to the end of its first `send_all`. -/
  | sendHeader (data : List UInt8) (dest : MailboxId)
  | sendBody
  /-- The receiver takes the next round of `receive_raw`. `poll` is the answer of `::poll`. -/
  | receive (bufferSize : Nat) (poll : Int)

section
variable (swapEndiannessFrom : (littleEndian : Bool) → List UInt8 → List UInt8)

/-- One step. An event that is not enabled changes nothing. -/
def step (s : SharedMailbox) : Event → SharedMailbox
  | .sendHeader data dest =>
    match s.sending with
    | some _ => s
    | none =>
      match s.mailbox.sendHeader data dest with
      | (.error _, mailbox) => { s with mailbox }
      | (.ok header, mailbox) => { s with mailbox, sending := some (header, data) }
  | .sendBody =>
    match s.sending with
    | none => s
    | some f =>
      match s.mailbox.sendBody f.2 with
      | (.SUCCESS, mailbox) => { mailbox, sending := none, sent := s.sent ++ [f] }
      | (_, mailbox) => { s with mailbox, sending := none }
  | .receive bufferSize poll =>
    if !s.mailbox.isInitialized || !s.mailbox.socket.isOpen then s
    else
      { s with
          mailbox := (s.mailbox.receiveRound swapEndiannessFrom bufferSize poll).2
          sent := s.sent ++ (s.mailbox.probeReply poll).toList.map fun reply => (reply, []) }

end

end SharedMailbox

end CoreRaT.Spec
