import CoreRaT.Spec.TcpRouter

/-!
# `CoreRaT.Spec.RouterThreads`: the threads of the TCP router

The router runs one thread per connection, and its own thread opens the connections. Between
two lock-protected sections, and between two sends, any other thread can run. This module
takes `handle_frame`, `advertise_as_peer`, `on_local_registered`, `on_local_deleted` and the
accept loop apart into these sections. A thread stands at a `Pc`, the next section it will
execute; `tick k` executes the next section of the thread of connection `k`.

The atomic pieces:

* each operation on `MailboxRegistry`, under its `mutex_`;
* insert, erase and snapshot of `local_mailboxes_`, under `local_mutex_`;
* the snapshot of the peer pointers and the insertion into `connections_`, under
  `connections_mutex_`;
* each frame written to a connection, under its `send_mutex_` (that the frames of several
  writers do not mix is `Proofs/Framing.lean`);
* `is_peer_` is set by the connection's own thread when it reads `MSG_ROUTER_PEER_HELLO`.

Sends succeed here, and frames fit `max_msg_size`; failing sends and oversized frames are in
`Spec/TcpRouter.lean`. So are the readers of the connections upstream: they change none of the
tables, and here nothing arrives for them. A written frame remembers the thread that wrote it.
-/

set_option autoImplicit false

namespace CoreRaT.Spec

open CoreRaT.Lib

/-- The two frames with which a router tells its peers about a local mailbox. -/
inductive Announcement
  | register
  | delete
deriving DecidableEq

/-- The frame of `send_peer_register` or of `send_peer_delete`. -/
def Announcement.frame : Announcement → MailboxId → Frame
  | .register, id => .ofMbx MSG_ROUTER_PEER_REGISTER id
  | .delete, id => .ofMbx MSG_ROUTER_PEER_DELETE id

/-- The messages with which routers talk to each other. -/
def MsgKind.isPeerProtocol : MsgKind → Bool
  | .peerHello => true
  | .peerRegister => true
  | .peerDelete => true
  | _ => false

/-- The next section that a connection thread executes. -/
inductive Pc
  /-- `run()` waits for the next frame. -/
  | loop
  /-- `advertise_as_peer`: send `MSG_ROUTER_PEER_HELLO`. -/
  | hello
  /-- `advertise_as_peer`: take `local_mailboxes_snapshot()`. -/
  | snapshot
  /-- `advertise_as_peer`: `send_peer_register` for the ids of the snapshot that are left. -/
  | advertise (ids : List MailboxId)
  /-- `MSG_ROUTER_PEER_REGISTER`: `registry_.add`. -/
  | peerAdd (id : MailboxId)
  /-- `MSG_ROUTER_PEER_DELETE`: `registry_.remove`. -/
  | peerRemove (id : MailboxId)
  /-- `MSG_ROUTER_MBX_INIT_WITH_REPLY`: `registry_.add`. -/
  | initAdd (id : MailboxId) (header : FrameHeader)
  /-- `MSG_ROUTER_MBX_INIT_WITH_REPLY`: send the reply. -/
  | initReply (id : MailboxId) (header : FrameHeader) (ok : Bool)
  /-- `on_local_registered`: insert into `local_mailboxes_`. -/
  | localInsert (id : MailboxId)
  /-- `MSG_ROUTER_MBX_DELETE`: `registry_.remove`. -/
  | deleteRemove (id : MailboxId)
  /-- `on_local_deleted`: erase from `local_mailboxes_`. -/
  | localErase (id : MailboxId)
  /-- `broadcast_to_peers`: snapshot of the peer pointers. -/
  | peersSnapshot (a : Announcement) (id : MailboxId)
  /-- `broadcast_to_peers`: send to the peers that are left. -/
  | broadcast (a : Announcement) (id : MailboxId) (peers : List ConnId)
  /-- Data routing: `registry_.find`. -/
  | find (f : Frame)
  /-- Data routing: `dest->forward`. -/
  | forward (dest : ConnId) (f : Frame)
  /-- Data routing: `forward_to_upstream`. -/
  | upstream (f : Frame)
  /-- Data routing: send `MSG_ERROR`. -/
  | replyError (header : FrameHeader)
  /-- `run()` has returned. -/
  | ended
deriving DecidableEq

/-- A frame on a connection, and the thread that wrote it. -/
structure Written where
  writer : ConnId
  frame : Frame
deriving DecidableEq

/-- The shared state of a router and the positions of its threads. -/
structure RouterThreads where
  registry : MailboxRegistry
  localMailboxes : List MailboxId
  /-- `connections_`. -/
  connections : List ConnId
  /-- `next_index_`: the connections whose thread has been started. -/
  started : Nat
  /-- The connection whose thread the router's own thread has started but not yet inserted
  into `connections_`. -/
  accepting : Option ConnId
  isPeer : ConnId → Bool
  pc : ConnId → Pc
  /-- The frames written to each connection. -/
  out : ConnId → List Written
  /-- Does `forward_to_upstream` find an open socket for this destination? -/
  upstreamOpen : MailboxId → Bool
  /-- The frames forwarded upstream. -/
  upstreamOut : List Written

namespace RouterThreads

/-- A router whose own thread has just started. -/
def init (upstreamOpen : MailboxId → Bool) : RouterThreads where
  registry := .empty
  localMailboxes := []
  connections := []
  started := 0
  accepting := none
  isPeer := fun _ => false
  pc := fun _ => .loop
  out := fun _ => []
  upstreamOpen := upstreamOpen
  upstreamOut := []

/-- Thread `k` goes to `p`. -/
def goto (s : RouterThreads) (k : ConnId) (p : Pc) : RouterThreads :=
  { s with pc := Function.update s.pc k p }

/-- Thread `k` writes a frame to connection `d`. -/
def write (s : RouterThreads) (k d : ConnId) (f : Frame) : RouterThreads :=
  { s with out := Function.update s.out d (s.out d ++ [⟨k, f⟩]) }

/-- The steps that a router can take. -/
inductive Event
  /-- The router's own thread creates a connection and starts its thread: the accept loop
  with `isPeer = false`, `connect_to_peers` with `isPeer = true`. -/
  | start (isPeer : Bool)
  /-- The router's own thread inserts the connection into `connections_`. -/
  | insert
  /-- Thread `k` reads a frame. -/
  | recv (k : ConnId) (f : Frame)
  /-- Thread `k` executes its next section. -/
  | tick (k : ConnId)
  /-- Thread `k` takes the snapshot of `local_mailboxes_`, in the order `ids`. -/
  | snapshot (k : ConnId) (ids : List MailboxId)
  /-- Thread `k` finds the end of its stream and leaves `run()`. -/
  | eof (k : ConnId)

/-- The router's own thread starts the thread of a new connection. -/
def startConnection (s : RouterThreads) (isPeer : Bool) : RouterThreads :=
  { s with
      started := s.started + 1
      accepting := some s.started
      isPeer := Function.update s.isPeer s.started isPeer
      pc := Function.update s.pc s.started (if isPeer then .hello else .loop)
      out := Function.update s.out s.started [] }

/-- Thread `k` reads `f`: where the `switch` of `handle_frame` takes it. -/
def dispatch (s : RouterThreads) (k : ConnId) (f : Frame) : RouterThreads :=
  match f.header.kind, f.mbx with
  | .peerHello, _ =>
    if s.isPeer k then s
    else { s with isPeer := Function.update s.isPeer k true }.goto k .hello
  | .peerRegister, some id => if s.isPeer k then s.goto k (.peerAdd id) else s
  | .peerDelete, some id => if s.isPeer k then s.goto k (.peerRemove id) else s
  | .mbxInit, some id => s.goto k (.initAdd id f.header)
  | .mbxDelete, some id => s.goto k (.deleteRemove id)
  | .data, _ => s.goto k (.find f)
  | _, _ => s

/-- Thread `k` executes the section it stands at. -/
def execute (s : RouterThreads) (k : ConnId) : Pc → RouterThreads
  | .hello => (s.write k k (.bare MSG_ROUTER_PEER_HELLO 0 0)).goto k .snapshot
  | .advertise (id :: ids) =>
    (s.write k k (Announcement.frame .register id)).goto k (.advertise ids)
  | .advertise [] => s.goto k .loop
  | .peerAdd id => { s with registry := (s.registry.add id k).2 }.goto k .loop
  | .peerRemove id => { s with registry := s.registry.remove id }.goto k .loop
  -- The reply is another section: from here on the mailbox is routable.
  | .initAdd id h =>
    { s with registry := (s.registry.add id k).2 }.goto k
      (.initReply id h (s.registry.add id k).1)
  | .initReply id h ok =>
    (s.write k k (TcpRouter.initReply ok h)).goto k (if ok then .localInsert id else .loop)
  | .localInsert id =>
    { s with localMailboxes := s.localMailboxes.insert id }.goto k (.peersSnapshot .register id)
  | .deleteRemove id => { s with registry := s.registry.remove id }.goto k (.localErase id)
  | .localErase id =>
    { s with localMailboxes := s.localMailboxes.filter (· ≠ id) }.goto k
      (.peersSnapshot .delete id)
  -- The pointers are taken under the lock, the sends are made without it.
  | .peersSnapshot a id => s.goto k (.broadcast a id (s.connections.filter (s.isPeer ·)))
  | .broadcast a id (p :: ps) => (s.write k p (a.frame id)).goto k (.broadcast a id ps)
  | .broadcast _ _ [] => s.goto k .loop
  | .find f =>
    match s.registry.find f.header.dest with
    | some d => s.goto k (.forward d f)
    | none => s.goto k (if s.isPeer k then .loop else .upstream f)
  | .forward d f => (s.write k d f).goto k .loop
  | .upstream f =>
    if s.upstreamOpen f.header.dest then
      { s with upstreamOut := s.upstreamOut ++ [Written.mk k f] }.goto k .loop
    else s.goto k (.replyError f.header)
  | .replyError h => (s.write k k (TcpRouter.errorReply h)).goto k .loop
  | .loop => s
  | .snapshot => s
  | .ended => s

/-- One step. An event that is not enabled changes nothing. -/
def step (s : RouterThreads) : Event → RouterThreads
  | .start isPeer =>
    match s.accepting with
    | none => s.startConnection isPeer
    | some _ => s
  | .insert =>
    match s.accepting with
    | some k => { s with connections := s.connections ++ [k], accepting := none }
    | none => s
  -- The thread of a connection runs from `start` on, whether it is in `connections_` or not.
  | .recv k f => if k < s.started ∧ s.pc k = .loop then s.dispatch k f else s
  | .tick k => s.execute k (s.pc k)
  | .snapshot k ids =>
    if s.pc k = .snapshot ∧ ids.Perm s.localMailboxes then s.goto k (.advertise ids) else s
  | .eof k =>
    if k < s.started ∧ s.pc k = .loop then
      { s with registry := s.registry.removeAll k }.goto k .ended
    else s

/-! ### Links to other routers

Some connections lead to another router. `isLink` says which.
-/

/-- The steps that are not steps of a link: the accept loop opens client connections, and a client
sends what is not of the peer protocol. -/
def clientEvent (isLink : ConnId → Bool) : Event → Bool
  | .start isPeer => !isPeer
  | .recv k f => !isLink k && !f.header.kind.isPeerProtocol
  | _ => true

/-- The frames that step `e` writes to connection `k`. -/
def sent (s : RouterThreads) (e : Event) (k : ConnId) : List Frame :=
  (((s.step e).out k).drop (s.out k).length).map (·.frame)

/-- All started operations have finished: no thread is inside a handler, and every started
connection is in `connections_`. -/
def Quiescent (s : RouterThreads) : Prop :=
  s.accepting = none ∧ ∀ k, s.pc k = .loop ∨ s.pc k = .ended

end RouterThreads

end CoreRaT.Spec
