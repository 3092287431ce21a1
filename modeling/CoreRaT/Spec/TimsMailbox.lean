import CoreRaT.Spec.Protocol
import CoreRaT.Spec.TcpSocket

/-!
# `CoreRaT.Spec.TimsMailbox`: the client side of the router protocol

`TimsMailbox` of `src/tims_backend.cpp`: `initialize` (`initializeMailbox`), `shutdown`, `send_raw`
and `receive_raw`, over a socket with the kernel's answers made explicit (`Spec/TcpSocket.lean`).

* `initialize` gets the result of `connect` as an argument: the new socket, or `none`.
* `receive_raw` gets the answers of `::poll` as an argument, one for each round of its loop.
  Each round that goes on reads a header, so as many rounds as there are bytes in the stream
  and one more are enough; the fuel of the loop is that bound.
* `sertial::swap_endianness_from` is a library function and stays a parameter. It gets the
  byte order of the sender and the bytes of the `WireHeader`.
-/

set_option autoImplicit false

namespace CoreRaT.Spec

/-- The fields of `IpcConfig` that the TiMS backend reads. -/
structure TimsConfig where
  mailboxId : MailboxId
  maxMsgSize : Nat
  priority : UInt32

/-- `IpcResult`. -/
inductive TimsResult
  | SUCCESS
  | ERROR_INIT
  | ERROR_SEND
  | ERROR_RECEIVE
  | ERROR_TIMEOUT
  | ERROR_INVALID_MSG
  | ERROR_NOT_INIT
deriving DecidableEq

/-- What `receive_raw` tells about the frame it has delivered. -/
structure TimsMetadata where
  src : MailboxId
  dest : MailboxId
  seqNr : UInt32
  priority : UInt8
  flags : UInt8
deriving DecidableEq

/-- The ways in which `receive_raw` returns. -/
inductive ReceiveResult
  /-- The length of the body, which is in the buffer. -/
  | received (body : List UInt8) (metadata : TimsMetadata)
  /-- `-ETIMEDOUT`. -/
  | timedOut
  /-- `-EMSGSIZE`. -/
  | msgSize
  /-- `-1`: not initialized, end of stream, or a socket error. -/
  | failed
deriving DecidableEq

/-- `sizeof(WireHeader)`. -/
def sizeofWireHeader : Nat := 32

structure TimsMailbox where
  config : TimsConfig
  socket : TcpSocket
  isInitialized : Bool
  messagesSent : Nat
  messagesReceived : Nat
  sequenceNumber : UInt32

namespace TimsMailbox

/-! ### Lifecycle -/

/-- The first frame of `initialize`. -/
def watchdogFrame (config : TimsConfig) : Frame where
  header := makeFrame MSG_ROUTER_DISABLE_WATCHDOG 0 config.mailboxId config.priority.toUInt8 0 0
  body := []
  body_length := by rw [bodyLen_makeFrame _ _ _ _ _ _ (by decide)]; rfl

/-- The registration of `initialize`, `RegMsg`. -/
def regFrame (config : TimsConfig) : Frame where
  header := makeFrame MSG_ROUTER_MBX_INIT_WITH_REPLY 0 config.mailboxId config.priority.toUInt8 0
    4
  body := Lib.le32 config.mailboxId
  body_length := by rw [bodyLen_makeFrame _ _ _ _ _ _ (by decide)]; rfl

/-- The part of `initialize` behind `connect`: send the two frames and wait for the reply. -/
def handshake (config : TimsConfig) (socket : TcpSocket) : Bool × TcpSocket :=
  match socket.sendAll (watchdogFrame config).encode with
  | (false, s) => (false, s)
  | (true, s) =>
    match s.sendAll (regFrame config).encode with
    | (false, s) => (false, s)
    | (true, s) =>
      match s.recvAll sizeofFrameHeader with
      | (none, s) => (false, s)
      | (some bytes, s) => (decide ((FrameHeader.decode bytes).type = MSG_OK), s)

/-- `TimsMailbox::initialize`, where `connected` is the result of `socket_.connect`. -/
def initializeMailbox (m : TimsMailbox) (connected : Option TcpSocket) : TimsResult × TimsMailbox :=
  if m.isInitialized then (.SUCCESS, m)
  else
    match connected with
    | none => (.ERROR_INIT, { m with socket := m.socket.close })
    | some socket =>
      match handshake m.config socket with
      | (true, s) => (.SUCCESS, { m with socket := s, isInitialized := true })
      | (false, s) => (.ERROR_INIT, { m with socket := s.close })

/-- `TimsMailbox::shutdown`. -/
def shutdown (m : TimsMailbox) : TimsMailbox :=
  if m.isInitialized then { m with socket := m.socket.close, isInitialized := false } else m

/-! ### Send -/

/-- `TimsMailbox::send_raw`. The lengths are `uint32_t`, and the sequence number goes into the
header as a byte. -/
def sendRaw (m : TimsMailbox) (data : List UInt8) (dest : MailboxId) :
    TimsResult × TimsMailbox :=
  if !m.isInitialized || !m.socket.isOpen then (.ERROR_NOT_INIT, m)
  else if data.isEmpty || m.config.maxMsgSize < data.length then (.ERROR_INVALID_MSG, m)
  else
    let header := makeFrame 0 dest m.config.mailboxId m.config.priority.toUInt8
      m.sequenceNumber.toUInt8 (UInt32.ofNat data.length)
    let m := { m with sequenceNumber := m.sequenceNumber + 1 }
    match m.socket.sendAll header.encode with
    | (false, s) => (.ERROR_SEND, { m with socket := s })
    | (true, s) =>
      match s.sendAll data with
      | (false, s) => (.ERROR_SEND, { m with socket := s })
      | (true, s) => (.SUCCESS, { m with socket := s, messagesSent := m.messagesSent + 1 })

/-! ### Receive -/

section
-- `sertial::swap_endianness_from<WireHeader>`: `littleEndian` is the byte order of the sender.
variable (swapEndiannessFrom : (littleEndian : Bool) → List UInt8 → List UInt8)

/-- The body in the buffer after the byte-order conversion of `receive_raw`. -/
def convert (header : FrameHeader) (body : List UInt8) : List UInt8 :=
  if sizeofWireHeader ≤ body.length then
    swapEndiannessFrom (header.flags &&& FRAME_LE_FLAG ≠ 0) (body.take sizeofWireHeader) ++
      body.drop sizeofWireHeader
  else body

/-- The metadata that `receive_raw` takes from a header. -/
def metadataOf (header : FrameHeader) : TimsMetadata where
  src := header.src
  dest := header.dest
  seqNr := header.seqNr.toUInt32
  priority := header.priority
  flags := header.flags

/-- The answer to `MSG_ROUTER_GET_STATUS`. -/
def statusReply (m : TimsMailbox) (header : FrameHeader) : FrameHeader :=
  makeFrame MSG_OK header.src m.config.mailboxId 0 0 0

/-- The loop of `receive_raw`. -/
def receiveLoop : (fuel : Nat) → TimsMailbox → (bufferSize : Nat) → (polls : Nat → Int) →
    ReceiveResult × TimsMailbox
  | 0, m, _, _ => (.failed, m)
  | fuel + 1, m, bufferSize, polls =>
    if m.socket.pollIn (polls 0) ≤ 0 then (.timedOut, m)
    else
      match m.socket.recvAll sizeofFrameHeader with
      | (none, s) => (.failed, { m with socket := s })
      | (some bytes, s) =>
        let header := FrameHeader.decode bytes
        if header.type = MSG_ROUTER_GET_STATUS then
          -- Best effort: the result of the send is not looked at, and the loop goes on.
          let s := (s.sendAll (m.statusReply header).encode).2
          receiveLoop fuel { m with socket := s } bufferSize fun i => polls (i + 1)
        -- No body, nothing to deliver.
        else if header.msglen ≤ 16 then
          receiveLoop fuel { m with socket := s } bufferSize fun i => polls (i + 1)
        -- The body stays in the stream.
        else if bufferSize < header.bodyLen.toNat then (.msgSize, { m with socket := s })
        else
          match s.recvAll header.bodyLen.toNat with
          | (none, s) => (.failed, { m with socket := s })
          | (some body, s) =>
            (.received (convert swapEndiannessFrom header body) (metadataOf header),
              { m with socket := s, messagesReceived := m.messagesReceived + 1 })

/-- `TimsMailbox::receive_raw`. -/
def receiveRaw (m : TimsMailbox) (bufferSize : Nat) (polls : Nat → Int) :
    ReceiveResult × TimsMailbox :=
  if !m.isInitialized || !m.socket.isOpen then (.failed, m)
  else receiveLoop swapEndiannessFrom (m.socket.inbound.flatten.length + 1) m bufferSize polls

end

end TimsMailbox

end CoreRaT.Spec
