import Mathlib.Logic.Function.Basic
import CoreRaT.Spec.Protocol
import CoreRaT.Spec.TcpSocket

/-!
# `CoreRaT.Spec.TcpRouter`: the TCP router

`router/tcp_router.cpp`: the mailbox registry, the connections, and what the router does with
a frame. Each event (a connection is accepted or opened, a frame is handled, a connection
ends, and the same for the connections upstream) is one step of the state here.
`Spec/RouterThreads.lean` takes the same code apart into the sections between which the threads
of the router can interleave.

A `Connection*` is the position of the connection in `connections_`. The vector only grows and
a `Connection` is destroyed with the router, so a position names one connection for good.

The results of the socket calls are part of the sockets (`Spec/TcpSocket.lean`), so
`handleFrame` covers every pattern of failing and short sends. `std::unordered_set` does not
fix the order of `local_mailboxes_`; the model lists the newest id first.
Log output is left out.
-/

set_option autoImplicit false

namespace CoreRaT.Spec

open CoreRaT.Lib

/-- A `Connection*`: the position of the connection in `connections_`. -/
abbrev ConnId := Nat

/-! ### `MailboxRegistry` -/

/-- `MailboxRegistry`: the routes, by mailbox id. -/
structure MailboxRegistry where
  table : MailboxId → Option ConnId

namespace MailboxRegistry

/-- The registry of a router that has just started. -/
def empty : MailboxRegistry := ⟨fun _ => none⟩

/-- `find`. -/
def find (reg : MailboxRegistry) (id : MailboxId) : Option ConnId := reg.table id

/-- `add`: `emplace` does not replace an entry that exists. -/
def add (reg : MailboxRegistry) (id : MailboxId) (con : ConnId) : Bool × MailboxRegistry :=
  match reg.table id with
  | none => (true, ⟨Function.update reg.table id (some con)⟩)
  | some _ => (false, reg)

/-- `remove`: by mailbox id alone. -/
def remove (reg : MailboxRegistry) (id : MailboxId) : MailboxRegistry :=
  ⟨Function.update reg.table id none⟩

/-- `remove_all`: every entry of one connection. -/
def removeAll (reg : MailboxRegistry) (con : ConnId) : MailboxRegistry :=
  ⟨fun id => if reg.table id = some con then none else reg.table id⟩

end MailboxRegistry

/-! ### `Connection` -/

/-- `Connection`: one per TCP connection, of a client node or of a peer router. -/
structure Connection where
  socket : TcpSocket
  isPeer : Bool
  watchdogEnabled : Bool
  /-- `run()` has returned. -/
  finished : Bool

namespace Connection

/-- A connection whose thread starts. -/
def start (socket : TcpSocket) (isPeer : Bool) : Connection where
  socket := socket
  isPeer := isPeer
  watchdogEnabled := true
  finished := false

/-- `send_all` on the connection's socket. -/
def sendAll (c : Connection) (buf : List UInt8) : Bool × Connection :=
  let (ok, s) := c.socket.sendAll buf
  (ok, { c with socket := s })

/-- `forward`: the header, and the body if the header was sent. -/
def forward (c : Connection) (f : Frame) : Bool × Connection :=
  match c.sendAll f.header.encode with
  | (true, c') => c'.sendAll f.body
  | (false, c') => (false, c')

/-- The two `send_all` calls of `send_peer_register` and `send_peer_delete`. The second one
is made whatever the first one returned. -/
def sendMbx (c : Connection) (type : Int8) (id : MailboxId) : Connection :=
  let f := Frame.ofMbx type id
  ((c.sendAll f.header.encode).2.sendAll f.body).2

/-- `send_peer_register`. -/
def sendPeerRegister (c : Connection) (id : MailboxId) : Connection :=
  c.sendMbx MSG_ROUTER_PEER_REGISTER id

/-- `send_peer_delete`. -/
def sendPeerDelete (c : Connection) (id : MailboxId) : Connection :=
  c.sendMbx MSG_ROUTER_PEER_DELETE id

/-- `advertise_as_peer`, where `ids` is `local_mailboxes_snapshot()`. -/
def advertiseAsPeer (c : Connection) (ids : List MailboxId) : Connection :=
  ids.foldl sendPeerRegister (c.sendAll (Frame.bare MSG_ROUTER_PEER_HELLO 0 0).encode).2

end Connection

/-! ### `TcpRouter` -/

/-- A connection to the router of one system. -/
structure SystemConnection where
  systemId : UInt8
  socket : TcpSocket

/-- `TcpRouter`. -/
structure TcpRouter where
  maxMsgSize : Nat
  registry : MailboxRegistry
  connections : List Connection
  localMailboxes : List MailboxId
  systemConnections : List SystemConnection
  upstreamSocket : TcpSocket

/-- A connection to another router that `run_connection_reader` reads: of a system route, or
upstream. -/
inductive Uplink
  | system (i : Nat)
  | upstream

/-- What a thread finds behind a header that it has read: the whole frame, or a stream that fails
inside the body. -/
inductive Inbound
  | whole (f : Frame)
  | torn (header : FrameHeader) (h : 0 < header.bodyLen.toNat)

/-- The header that was read. -/
def Inbound.header : Inbound → FrameHeader
  | .whole f => f.header
  | .torn h _ => h

namespace TcpRouter

/-- A router before its accept loop. The sockets to the upstream router and to the system
routes are in the state that `connect_to_upstream` and `connect_to_system_routes` left. -/
def init (maxMsgSize : Nat) (upstreamSocket : TcpSocket)
    (systemConnections : List SystemConnection) : TcpRouter where
  maxMsgSize := maxMsgSize
  registry := .empty
  connections := []
  localMailboxes := []
  systemConnections := systemConnections
  upstreamSocket := upstreamSocket

/-- `MailboxRegistry::find` of the router. -/
def find (r : TcpRouter) (id : MailboxId) : Option ConnId := r.registry.find id

/-- Is connection `k` in peer mode? -/
def isPeer (r : TcpRouter) (k : ConnId) : Bool := (r.connections[k]?.map (·.isPeer)).getD false

/-- Can connection `k` still get frames: its thread runs and its socket is open? -/
def isLive (r : TcpRouter) (k : ConnId) : Bool :=
  (r.connections[k]?.map fun c => !c.finished && c.socket.isOpen).getD false

/-- Change connection `k`. -/
def modify (r : TcpRouter) (k : ConnId) (g : Connection → Connection) : TcpRouter :=
  { r with connections := r.connections.modify k g }

/-- `broadcast_to_peers`. Each call works on a connection of its own. -/
def broadcastToPeers (r : TcpRouter) (g : Connection → Connection) : TcpRouter :=
  { r with connections := r.connections.map fun c => if c.isPeer then g c else c }

/-- `on_local_registered`. -/
def onLocalRegistered (r : TcpRouter) (id : MailboxId) : TcpRouter :=
  { r with localMailboxes := r.localMailboxes.insert id }.broadcastToPeers
    (·.sendPeerRegister id)

/-- `on_local_deleted`. -/
def onLocalDeleted (r : TcpRouter) (id : MailboxId) : TcpRouter :=
  { r with localMailboxes := r.localMailboxes.filter (· ≠ id) }.broadcastToPeers
    (·.sendPeerDelete id)

/-- `advertise_as_peer` on connection `k`. -/
def advertiseAsPeer (r : TcpRouter) (k : ConnId) : TcpRouter :=
  r.modify k (·.advertiseAsPeer r.localMailboxes)

/-- The sends of `forward_to_upstream` on the socket it chose. -/
def sendUpstream (s : TcpSocket) (f : Frame) : Bool × TcpSocket :=
  if s.isOpen then
    match s.sendAll f.header.encode with
    | (false, s') => (false, s')
    | (true, s') => if f.header.bodyLen = 0 then (true, s') else s'.sendAll f.body
  else (false, s)

/-- The system of a mailbox: `dest[31:24]`. -/
def systemOf (dest : MailboxId) : UInt8 := (dest >>> 24).toUInt8

/-- The first system connection for the system of `dest`. -/
def systemRoute (r : TcpRouter) (dest : MailboxId) : Option Nat :=
  r.systemConnections.findIdx? fun sc => sc.systemId == systemOf dest

/-- `forward_to_upstream`. A system route takes the frame even when its socket is closed;
the upstream socket is only tried without one. -/
def forwardToUpstream (r : TcpRouter) (f : Frame) : Bool × TcpRouter :=
  match r.systemRoute f.header.dest with
  | some i =>
    match r.systemConnections[i]? with
    | some sc =>
      let (ok, s) := sendUpstream sc.socket f
      (ok, { r with
              systemConnections := r.systemConnections.set i { sc with socket := s } })
    -- `systemRoute` gives a position of the list, so this case does not occur.
    | none => (false, r)
  | none =>
    let (ok, s) := sendUpstream r.upstreamSocket f
    (ok, { r with upstreamSocket := s })

/-- The reply to `MSG_ROUTER_MBX_INIT_WITH_REPLY`. -/
def initReply (ok : Bool) (frame : FrameHeader) : Frame :=
  .bare (if ok then MSG_OK else MSG_ERROR) frame.src frame.seqNr

/-- The answer to a data frame without a route. -/
def errorReply (frame : FrameHeader) : Frame := .bare MSG_ERROR frame.src frame.seqNr

/-- The `MSG_ROUTER_PEER_HELLO` case. -/
def handlePeerHello (r : TcpRouter) (k : ConnId) : TcpRouter :=
  if r.isPeer k then r
  else (r.modify k ({ · with isPeer := true })).advertiseAsPeer k

/-- The `MSG_ROUTER_PEER_REGISTER` case. -/
def handlePeerRegister (r : TcpRouter) (k : ConnId) (f : Frame) : TcpRouter :=
  if r.isPeer k then
    match f.mbx with
    | some id => { r with registry := (r.registry.add id k).2 }
    | none => r
  else r

/-- The `MSG_ROUTER_PEER_DELETE` case. -/
def handlePeerDelete (r : TcpRouter) (k : ConnId) (f : Frame) : TcpRouter :=
  if r.isPeer k then
    match f.mbx with
    | some id => { r with registry := r.registry.remove id }
    | none => r
  else r

/-- The `MSG_ROUTER_MBX_INIT_WITH_REPLY` case. -/
def handleMbxInit (r : TcpRouter) (k : ConnId) (f : Frame) : TcpRouter :=
  match f.mbx with
  | some id =>
    let (ok, registry) := r.registry.add id k
    -- The reply goes out under `send_mutex_`, before the peers are told.
    let replied := { r with registry }.modify k
      fun c => (c.sendAll (initReply ok f.header).encode).2
    if ok then replied.onLocalRegistered id else replied
  | none => r

/-- The `MSG_ROUTER_MBX_DELETE` case. -/
def handleMbxDelete (r : TcpRouter) (f : Frame) : TcpRouter :=
  match f.mbx with
  | some id => { r with registry := r.registry.remove id }.onLocalDeleted id
  | none => r

/-- The `default` case: data routing. The result of `forward` is not looked at. -/
def handleData (r : TcpRouter) (k : ConnId) (f : Frame) : TcpRouter :=
  match r.find f.header.dest with
  | some d => r.modify d fun c => (c.forward f).2
  | none =>
    -- Peer routers are excluded: they handle their own errors.
    if r.isPeer k then r
    else
      match r.forwardToUpstream f with
      | (true, r') => r'
      | (false, r') => r'.modify k fun c => (c.sendAll (errorReply f.header).encode).2

/-- The `switch` of `handle_frame`. -/
def dispatch (r : TcpRouter) (k : ConnId) (f : Frame) : TcpRouter :=
  match f.header.kind with
  | .peerHello => r.handlePeerHello k
  | .peerRegister => r.handlePeerRegister k f
  | .peerDelete => r.handlePeerDelete k f
  | .disableWatchdog => r.modify k ({ · with watchdogEnabled := false })
  | .mbxInit => r.handleMbxInit k f
  | .mbxDelete => r.handleMbxDelete f
  | .data => r.handleData k f

/-- `handle_frame` on connection `k`. An oversized frame closes the socket; a body that does
not arrive is given up. -/
def handleFrame (r : TcpRouter) (k : ConnId) (i : Inbound) : TcpRouter :=
  -- The limit is checked before the body is read.
  if r.maxMsgSize < i.header.bodyLen.toNat then
    r.modify k fun c => { c with socket := c.socket.close }
  else
    match i with
    | .whole f => r.dispatch k f
    | .torn _ _ => r

/-- The end of `run()` on connection `k`: `remove_all(this)`. -/
def endRun (r : TcpRouter) (k : ConnId) : TcpRouter :=
  { r with registry := r.registry.removeAll k }.modify k ({ · with finished := true })

/-! ### `run_connection_reader` -/

/-- Is the socket of the uplink open? -/
def uplinkIsOpen (r : TcpRouter) : Uplink → Bool
  | .system i => (r.systemConnections[i]?.map (·.socket.isOpen)).getD false
  | .upstream => r.upstreamSocket.isOpen

/-- The end of `run_connection_reader`: `socket.close()`. -/
def closeUplink (r : TcpRouter) : Uplink → TcpRouter
  | .system i =>
    { r with
        systemConnections := r.systemConnections.modify i
          fun sc => { sc with socket := sc.socket.close } }
  | .upstream => { r with upstreamSocket := r.upstreamSocket.close }

/-- A round of `run_connection_reader` behind the header. Every frame is data here, whatever its
type. A frame for an unknown mailbox is dropped. -/
def routeFromUplink (r : TcpRouter) (u : Uplink) (i : Inbound) : TcpRouter :=
  if r.maxMsgSize < i.header.bodyLen.toNat then r.closeUplink u
  else
    match i with
    | .whole f =>
      match r.find f.header.dest with
      | some d => r.modify d fun c => (c.forward f).2
      | none => r
    -- The loop breaks where `handle_frame` returns to the loop of `run()`.
    | .torn _ _ => r.closeUplink u

/-! ### Events -/

/-- What happens to the router, one event at a time. -/
inductive Event
  /-- The accept loop takes a new connection. -/
  | accept (socket : TcpSocket)
  /-- `connect_to_peers` opens a connection, which advertises at once. -/
  | connectPeer (socket : TcpSocket)
  /-- The thread of connection `k` reads a header and handles the frame. -/
  | frame (k : ConnId) (i : Inbound)
  /-- The thread of connection `k` finds the end of the stream. -/
  | eof (k : ConnId)
  /-- The reader of an uplink reads a header and routes the frame. -/
  | uplinkFrame (u : Uplink) (i : Inbound)
  /-- The reader of an uplink finds the end of the stream, or is asked to stop. -/
  | uplinkEnd (u : Uplink)

/-- One event. A connection whose thread has ended, or whose socket is closed, gets no
frames and finds no end of stream. -/
def step (r : TcpRouter) : Event → TcpRouter
  | .accept socket => { r with connections := r.connections ++ [Connection.start socket false] }
  | .connectPeer socket =>
    { r with connections := r.connections ++ [Connection.start socket true] }.advertiseAsPeer
      r.connections.length
  | .frame k i => if r.isLive k then r.handleFrame k i else r
  | .eof k => if r.isLive k then r.endRun k else r
  | .uplinkFrame u i => if r.uplinkIsOpen u then r.routeFromUplink u i else r
  | .uplinkEnd u => r.closeUplink u

/-! ### Where a router writes -/

/-- A socket that the router writes to. -/
inductive Endpoint
  | connection (k : ConnId)
  | system (i : Nat)
  | upstream
deriving DecidableEq

def socketAt (r : TcpRouter) : Endpoint → Option TcpSocket
  | .connection k => r.connections[k]?.map (·.socket)
  | .system i => r.systemConnections[i]?.map (·.socket)
  | .upstream => some r.upstreamSocket

/-- The bytes that have been written to an endpoint. -/
def writtenAt (r : TcpRouter) (p : Endpoint) : List UInt8 :=
  ((r.socketAt p).map (·.written)).getD []

/-- The endpoint that `forward_to_upstream` takes. -/
def upstreamRoute (r : TcpRouter) (dest : MailboxId) : Endpoint :=
  match r.systemRoute dest with
  | some i => .system i
  | none => .upstream

/-- The endpoint for a destination: the registry entry, the first system connection for the system
of the destination, or upstream. -/
def route (r : TcpRouter) (dest : MailboxId) : Endpoint :=
  match r.find dest with
  | some d => .connection d
  | none => r.upstreamRoute dest

end TcpRouter

end CoreRaT.Spec
