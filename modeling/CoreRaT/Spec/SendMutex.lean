import CoreRaT.Lib.LockedWriters
import CoreRaT.Spec.TcpRouter

/-!
# `CoreRaT.Spec.SendMutex`: the writers of one connection

Every thread of the router can write to a connection: its own thread sends the replies, other
connections forward data to it, and a broadcast goes to all peers. Each of these writes locks
the connection's `send_mutex_`, makes one or two `send_all` calls, and unlocks it. `WriteOp`
lists the writes. Each `::send` is one step here, so that other threads can run between the two
calls and between the sends of one call.

A failed `send_all` ends `forward`. The other writes do not look at the result and go on.
-/

set_option autoImplicit false

namespace CoreRaT.Spec

open CoreRaT.Lib

/-- What the router writes to a connection, each under its `send_mutex_`. -/
inductive WriteOp
  | forward (f : Frame)
  | sendPeerRegister (id : MailboxId)
  | sendPeerDelete (id : MailboxId)
  /-- The `MSG_ROUTER_PEER_HELLO` of `advertise_as_peer`. -/
  | hello
  /-- The reply to `MSG_ROUTER_MBX_INIT_WITH_REPLY`. -/
  | initReply (ok : Bool) (frame : FrameHeader)
  /-- The answer to a data frame without a route. -/
  | errorReply (frame : FrameHeader)

namespace WriteOp

/-- The frame that is to be sent. -/
def frame : WriteOp → Frame
  | .forward f => f
  | .sendPeerRegister id => .ofMbx MSG_ROUTER_PEER_REGISTER id
  | .sendPeerDelete id => .ofMbx MSG_ROUTER_PEER_DELETE id
  | .hello => .bare MSG_ROUTER_PEER_HELLO 0 0
  | .initReply ok h => TcpRouter.initReply ok h
  | .errorReply h => TcpRouter.errorReply h

/-- The buffers of its `send_all` calls. -/
def buffers (op : WriteOp) : List (List UInt8) :=
  match op with
  | .forward _ | .sendPeerRegister _ | .sendPeerDelete _ =>
    [op.frame.header.encode, op.frame.body]
  | .hello | .initReply _ _ | .errorReply _ => [op.frame.encode]

/-- The buffers that are still sent when a `send_all` has failed before `rest`. -/
def afterFailure (op : WriteOp) (rest : List (List UInt8)) : List (List UInt8) :=
  match op with
  | .forward _ => []
  | _ => rest

/-- The write as a whole, on a connection that nobody else writes to. -/
def perform (op : WriteOp) (c : Connection) : Connection :=
  match op with
  | .forward f => (c.forward f).2
  | .sendPeerRegister id => c.sendPeerRegister id
  | .sendPeerDelete id => c.sendPeerDelete id
  | .hello | .initReply _ _ | .errorReply _ => (c.sendAll op.frame.encode).2

end WriteOp

/-- A connection and the threads `ι` that write to it. -/
structure ConnectionWriters (ι : Type) where
  todo : ι → List WriteOp
  /-- The thread that has locked `send_mutex_`. -/
  holder : Option (LockHolder ι WriteOp UInt8)
  socket : TcpSocket

namespace ConnectionWriters

variable {ι : Type} [DecidableEq ι]

/-- The mutex is free. -/
def init (todo : ι → List WriteOp) (socket : TcpSocket) : ConnectionWriters ι :=
  ⟨todo, none, socket⟩

/-- What the threads do. -/
inductive Event (ι : Type)
  /-- Thread `i` locks the mutex for its next write. -/
  | lock (i : ι)
  /-- Thread `i` takes the next round of its `send_all` loop, or goes to the next call. -/
  | send (i : ι)
  /-- Thread `i` unlocks the mutex. -/
  | unlock (i : ι)

/-- A round of the `send_all` loop of the holder of the mutex, with `buf` left to send. -/
def sendRound (w : ConnectionWriters ι) (i : ι) (op : WriteOp) (buf : List UInt8)
    (rest : List (List UInt8)) : ConnectionWriters ι :=
  match buf with
  -- The call returns `true`, and the next one begins.
  | [] => { w with holder := some ⟨i, op, rest⟩ }
  | b :: bs =>
    match w.socket.send (b :: bs) with
    | (n, socket) =>
      if n ≤ 0 then { w with holder := some ⟨i, op, op.afterFailure rest⟩, socket }
      else { w with holder := some ⟨i, op, (b :: bs).drop n.toNat :: rest⟩, socket }

/-- One step. An event that is not enabled changes nothing. -/
def step (w : ConnectionWriters ι) : Event ι → ConnectionWriters ι
  | .lock i =>
    match w.holder, w.todo i with
    | none, op :: ops =>
      { w with todo := Function.update w.todo i ops, holder := some ⟨i, op, op.buffers⟩ }
    | _, _ => w
  | .send i =>
    match w.holder with
    | some ⟨j, op, buf :: rest⟩ => if j = i then w.sendRound j op buf rest else w
    | _ => w
  | .unlock i =>
    match w.holder with
    | some ⟨j, _, []⟩ => if j = i then { w with holder := none } else w
    | _ => w

end ConnectionWriters

end CoreRaT.Spec
