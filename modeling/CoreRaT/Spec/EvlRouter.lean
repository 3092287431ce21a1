import CoreRaT.Spec.EvlRing
import CoreRaT.Spec.TcpRouter

/-!
# `CoreRaT.Spec.EvlRouter`: the EVL router

`router/evl_router.cpp`: the TCP router once more, with a third kind of registry entry for the
mailboxes that sit behind an EVL cross-buffer (xbuf). As in `Spec/TcpRouter.lean` an event is one
step, a `Connection*` is a position, and the answers of the kernel are part of the sockets.

The `Connection` of this router has the socket, the peer flag and the send functions of the other
one, word for word, so `Connection` is used again. It has no `watchdog_enabled_`, and nothing here
touches the field.

The routing decision stands three times in the source, once for each way a message can come in.
`connectionHop`, `uplinkHop` and `xbufHop` are these three decisions, and the handlers carry them
out.

A `MailboxEntry` holds its `XbufEntry` by `shared_ptr`, and an event here leaves no other copy
behind. So the entry is part of the table, and erasing it destroys it.
-/

set_option autoImplicit false

namespace CoreRaT.Spec

open CoreRaT.Lib

/-! ### `XbufEntry` -/

/-- A descriptor of an xbuf device, from `::open` to `::close`. `::write` answers on it as
`::send` does on a socket, so it is modelled as one. -/
abbrev XbufFd := { fd : TcpSocket // fd.isOpen = true }

/-- `XbufEntry`: the in-band side of one xbuf device. Its reader thread comes with it, and only its
destructor closes `fd_`. -/
structure XbufEntry where
  mailboxId : MailboxId
  fd : XbufFd
  /-- The connection whose frame made the entry. The source does not keep it. -/
  openedBy : ConnId

namespace XbufEntry

/-- `write_body`. Its loop is the one of `send_all`. -/
def writeBody (x : XbufEntry) (body : List UInt8) : Bool × XbufEntry :=
  if x.fd.val.isOpen = false ∨ body.length = 0 then (false, x)
  else
    ((x.fd.val.sendAll body).1,
      { x with
          fd := ⟨(x.fd.val.sendAll body).2, (x.fd.val.isOpen_sendAll body).trans x.fd.property⟩ })

end XbufEntry

/-- What `::read` on an xbuf gave. Linux transfers at most `MAX_RW_COUNT` bytes in one call. No
bytes stand for a result `n ≤ 0`. -/
structure XbufRead where
  bytes : List UInt8
  length_le : bytes.length ≤ 0x7ffff000

namespace XbufRead

/-- The `WireHeader` at the start of the data. -/
def header (d : XbufRead) : WireHeader := .decode d.bytes

/-- The frame that `run_reader` forwards: a header made for the bytes, and the bytes. -/
def frame (d : XbufRead) : Frame where
  header := makeFrame 0 d.header.dest d.header.src 0 0 (.ofNat d.bytes.length)
  body := d.bytes
  body_length := by
    have hlen := d.length_le
    have hnat : (UInt32.ofNat d.bytes.length).toNat = d.bytes.length :=
      UInt32.toNat_ofNat_of_lt' (by simp only [UInt32.size]; omega)
    rw [bodyLen_makeFrame _ _ _ _ _ _ (by omega), hnat]

end XbufRead

/-! ### `MailboxRegistry` -/

/-- `MailboxEntry`, with its `MailboxKind` as the constructor. -/
inductive MailboxEntry
  | tcp (con : ConnId)
  | xbuf (x : XbufEntry)
  | peer (con : ConnId)

namespace MailboxEntry

/-- `con`, a null pointer for `Kind::Xbuf`. -/
def con : MailboxEntry → Option ConnId
  | .tcp c => some c
  | .xbuf _ => none
  | .peer c => some c

/-- The connection whose frame created the entry. -/
def creator : MailboxEntry → ConnId
  | .tcp c => c
  | .xbuf x => x.openedBy
  | .peer c => c

end MailboxEntry

/-- `MailboxRegistry` of the EVL router. -/
structure EvlRegistry where
  table : MailboxId → Option MailboxEntry

namespace EvlRegistry

/-- The registry of a router that has just started. -/
def empty : EvlRegistry := ⟨fun _ => none⟩

/-- `find`. -/
def find (reg : EvlRegistry) (id : MailboxId) : Option MailboxEntry := reg.table id

/-- `table_.emplace`: an entry that exists stays. -/
def emplace (reg : EvlRegistry) (id : MailboxId) (e : MailboxEntry) : Bool × EvlRegistry :=
  match reg.table id with
  | none => (true, ⟨Function.update reg.table id (some e)⟩)
  | some _ => (false, reg)

/-- `add_tcp`. -/
def addTcp (reg : EvlRegistry) (id : MailboxId) (c : ConnId) : Bool × EvlRegistry :=
  reg.emplace id (.tcp c)

/-- `add_xbuf`. -/
def addXbuf (reg : EvlRegistry) (id : MailboxId) (x : XbufEntry) : Bool × EvlRegistry :=
  reg.emplace id (.xbuf x)

/-- `add_peer`. -/
def addPeer (reg : EvlRegistry) (id : MailboxId) (c : ConnId) : Bool × EvlRegistry :=
  reg.emplace id (.peer c)

/-- `remove`: by mailbox id alone, whatever the kind. -/
def remove (reg : EvlRegistry) (id : MailboxId) : EvlRegistry :=
  ⟨Function.update reg.table id none⟩

/-- The predicate of `remove_all_for_con`. -/
def isOfCon (c : ConnId) : MailboxEntry → Bool
  | .tcp d => d == c
  | .xbuf _ => false
  | .peer d => d == c

/-- `remove_all_for_con`. -/
def removeAllForCon (reg : EvlRegistry) (c : ConnId) : EvlRegistry :=
  ⟨fun id => (reg.table id).filter fun e => !isOfCon c e⟩

end EvlRegistry

/-! ### `EvlRouter` -/

/-- `EvlRouter`. -/
structure EvlRouter where
  maxMsgSize : Nat
  registry : EvlRegistry
  connections : List Connection
  localMailboxes : List MailboxId
  systemConnections : List SystemConnection
  upstreamSocket : TcpSocket

namespace EvlRouter

/-- A router before its accept loop, with the sockets that `connect_to_upstream` and
`connect_to_system_routes` left. -/
def init (maxMsgSize : Nat) (upstreamSocket : TcpSocket)
    (systemConnections : List SystemConnection) : EvlRouter where
  maxMsgSize := maxMsgSize
  registry := .empty
  connections := []
  localMailboxes := []
  systemConnections := systemConnections
  upstreamSocket := upstreamSocket

/-- `MailboxRegistry::find` of the router. -/
def find (r : EvlRouter) (id : MailboxId) : Option MailboxEntry := r.registry.find id

/-- Is connection `k` in peer mode? -/
def isPeer (r : EvlRouter) (k : ConnId) : Bool := (r.connections[k]?.map (·.isPeer)).getD false

/-- Does the thread of connection `k` run? -/
def isRunning (r : EvlRouter) (k : ConnId) : Bool :=
  (r.connections[k]?.map fun c => !c.finished).getD false

/-- Can connection `k` still get frames: its thread runs and its socket is open? -/
def isLive (r : EvlRouter) (k : ConnId) : Bool :=
  (r.connections[k]?.map fun c => !c.finished && c.socket.isOpen).getD false

/-- Change connection `k`. -/
def modify (r : EvlRouter) (k : ConnId) (g : Connection → Connection) : EvlRouter :=
  { r with connections := r.connections.modify k g }

/-- `broadcast_to_peers`. -/
def broadcastToPeers (r : EvlRouter) (g : Connection → Connection) : EvlRouter :=
  { r with connections := r.connections.map fun c => if c.isPeer then g c else c }

/-- `on_local_registered`. -/
def onLocalRegistered (r : EvlRouter) (id : MailboxId) : EvlRouter :=
  { r with localMailboxes := r.localMailboxes.insert id }.broadcastToPeers
    (·.sendPeerRegister id)

/-- `on_local_deleted`. -/
def onLocalDeleted (r : EvlRouter) (id : MailboxId) : EvlRouter :=
  { r with localMailboxes := r.localMailboxes.filter (· ≠ id) }.broadcastToPeers
    (·.sendPeerDelete id)

/-- `advertise_as_peer` on connection `k`. -/
def advertiseAsPeer (r : EvlRouter) (k : ConnId) : EvlRouter :=
  r.modify k (·.advertiseAsPeer r.localMailboxes)

/-! ### Uplinks -/

/-- The first system connection for the system of `dest`. -/
def systemRoute (r : EvlRouter) (dest : MailboxId) : Option Nat :=
  r.systemConnections.findIdx? fun sc => sc.systemId == TcpRouter.systemOf dest

/-- `forward_to_upstream`. A matching system route takes the frame, open or not. -/
def forwardToUpstream (r : EvlRouter) (f : Frame) : Bool × EvlRouter :=
  match r.systemRoute f.header.dest with
  | some i =>
    match r.systemConnections[i]? with
    | some sc =>
      let (ok, s) := TcpRouter.sendUpstream sc.socket f
      (ok, { r with
              systemConnections := r.systemConnections.set i { sc with socket := s } })
    -- `systemRoute` gives a position of the list, so this case does not occur.
    | none => (false, r)
  | none =>
    let (ok, s) := TcpRouter.sendUpstream r.upstreamSocket f
    (ok, { r with upstreamSocket := s })

/-- Is the socket of the uplink open? -/
def uplinkIsOpen (r : EvlRouter) : Uplink → Bool
  | .system i => (r.systemConnections[i]?.map (·.socket.isOpen)).getD false
  | .upstream => r.upstreamSocket.isOpen

/-- The end of `run_connection_reader`: `socket.close()`. -/
def closeUplink (r : EvlRouter) : Uplink → EvlRouter
  | .system i =>
    { r with
        systemConnections := r.systemConnections.modify i
          fun sc => { sc with socket := sc.socket.close } }
  | .upstream => { r with upstreamSocket := r.upstreamSocket.close }

/-! ### Where a message goes -/

/-- The call that the router makes for a message. -/
inductive Hop
  /-- `forward` on a connection. -/
  | forward (con : ConnId) (f : Frame)
  /-- `write_body` on the xbuf entry of the mailbox. -/
  | writeBody (id : MailboxId) (body : List UInt8)
  /-- `forward_to_upstream`. -/
  | upstream (f : Frame)
  /-- None: the message is dropped. -/
  | drop

/-- The decision of `handle_frame` for a data frame on connection `k`. -/
def connectionHop (r : EvlRouter) (k : ConnId) (f : Frame) : Hop :=
  match r.find f.header.dest with
  | none => if r.isPeer k then .drop else .upstream f
  | some (.tcp d) => .forward d f
  | some (.peer d) => .forward d f
  | some (.xbuf _) => .writeBody f.header.dest f.body

/-- The decision of `run_connection_reader`. -/
def uplinkHop (r : EvlRouter) (f : Frame) : Hop :=
  match r.find f.header.dest with
  | some (.tcp d) => .forward d f
  | some (.peer d) => .forward d f
  | _ => .drop

/-- The decision of `run_reader`. Data that do not hold a `WireHeader` are skipped. -/
def xbufHop (r : EvlRouter) (d : XbufRead) : Hop :=
  if d.bytes.length < sizeofWireHeader then .drop
  else
    match r.find d.header.dest with
    | some (.tcp c) => .forward c d.frame
    | some (.peer c) => .forward c d.frame
    | _ => .drop

/-! A message for an entry of a connection goes there, whichever reader has it. -/

theorem connectionHop_of_con {r : EvlRouter} {k d : ConnId} {f : Frame}
    (h : r.find f.header.dest = some (.tcp d) ∨ r.find f.header.dest = some (.peer d)) :
    r.connectionHop k f = .forward d f := by
  rcases h with h | h <;> simp only [connectionHop, h]

theorem uplinkHop_of_con {r : EvlRouter} {d : ConnId} {f : Frame}
    (h : r.find f.header.dest = some (.tcp d) ∨ r.find f.header.dest = some (.peer d)) :
    r.uplinkHop f = .forward d f := by
  rcases h with h | h <;> simp only [uplinkHop, h]

theorem xbufHop_of_con {r : EvlRouter} {c : ConnId} {d : XbufRead}
    (hlen : sizeofWireHeader ≤ d.bytes.length)
    (h : r.find d.header.dest = some (.tcp c) ∨ r.find d.header.dest = some (.peer c)) :
    r.xbufHop d = .forward c d.frame := by
  rcases h with h | h <;> simp only [xbufHop, Nat.not_lt.mpr hlen, if_false, h]

/-- `write_body` on the entry of mailbox `id`. -/
def writeBody (r : EvlRouter) (id : MailboxId) (body : List UInt8) : Bool × EvlRouter :=
  match r.find id with
  | some (.xbuf x) =>
    let (ok, x') := x.writeBody body
    (ok, { r with registry := ⟨Function.update r.registry.table id (some (.xbuf x'))⟩ })
  -- A hop to an xbuf is only taken for an entry of that kind.
  | _ => (false, r)

/-- The answer to connection `k` for a frame that could not be delivered. -/
def sendError (r : EvlRouter) (k : ConnId) (frame : FrameHeader) : EvlRouter :=
  r.modify k fun c => (c.sendAll (TcpRouter.errorReply frame).encode).2

/-- The call of a hop. `false` is what `handle_frame` answers with `MSG_ERROR`; the result of
`forward` is not looked at, and a dropped message is not answered. -/
def perform (r : EvlRouter) : Hop → Bool × EvlRouter
  | .forward d f => (true, r.modify d fun c => (c.forward f).2)
  | .writeBody id body => r.writeBody id body
  | .upstream f => r.forwardToUpstream f
  | .drop => (true, r)

/-! ### `handle_frame` -/

/-- The `MSG_ROUTER_PEER_HELLO` case. -/
def handlePeerHello (r : EvlRouter) (k : ConnId) : EvlRouter :=
  if r.isPeer k then r
  else (r.modify k ({ · with isPeer := true })).advertiseAsPeer k

/-- The `MSG_ROUTER_PEER_REGISTER` case. -/
def handlePeerRegister (r : EvlRouter) (k : ConnId) (f : Frame) : EvlRouter :=
  if r.isPeer k then
    match f.mbx with
    | some id => { r with registry := (r.registry.addPeer id k).2 }
    | none => r
  else r

/-- The `MSG_ROUTER_PEER_DELETE` case. -/
def handlePeerDelete (r : EvlRouter) (k : ConnId) (f : Frame) : EvlRouter :=
  if r.isPeer k then
    match f.mbx with
    | some id => { r with registry := r.registry.remove id }
    | none => r
  else r

/-- The registration of a mailbox by connection `k`, and `ok`. `device` is what `::open` gives for
the path of the mailbox's xbuf, `none` for -1. -/
def registerMbx (r : EvlRouter) (k : ConnId) (id : MailboxId) (device : Option XbufFd) :
    Bool × EvlRouter :=
  let (ok, registry) :=
    match device with
    -- An entry that `add_xbuf` does not take is destroyed with its descriptor.
    | some fd => r.registry.addXbuf id ⟨id, fd, k⟩
    | none => r.registry.addTcp id k
  let added := { r with registry }
  (ok, if ok then added.onLocalRegistered id else added)

/-- The `MSG_ROUTER_MBX_INIT_WITH_REPLY` case. The reply goes out after the peers were told. -/
def handleMbxInit (r : EvlRouter) (k : ConnId) (f : Frame) (device : Option XbufFd) : EvlRouter :=
  match f.mbx with
  | some id =>
    let (ok, registered) := r.registerMbx k id device
    registered.modify k fun c => (c.sendAll (TcpRouter.initReply ok f.header).encode).2
  | none => r

/-- The `MSG_ROUTER_MBX_DELETE` case. -/
def handleMbxDelete (r : EvlRouter) (f : Frame) : EvlRouter :=
  match f.mbx with
  | some id => { r with registry := r.registry.remove id }.onLocalDeleted id
  | none => r

/-- The `default` case: data routing. -/
def handleData (r : EvlRouter) (k : ConnId) (f : Frame) : EvlRouter :=
  match r.perform (r.connectionHop k f) with
  | (true, r') => r'
  | (false, r') => r'.sendError k f.header

/-- The `switch` of `handle_frame`. -/
def dispatch (r : EvlRouter) (k : ConnId) (f : Frame) (device : Option XbufFd) : EvlRouter :=
  match f.header.kind with
  | .peerHello => r.handlePeerHello k
  | .peerRegister => r.handlePeerRegister k f
  | .peerDelete => r.handlePeerDelete k f
  -- There is no watchdog flag to clear.
  | .disableWatchdog => r
  | .mbxInit => r.handleMbxInit k f device
  | .mbxDelete => r.handleMbxDelete f
  | .data => r.handleData k f

/-- `handle_frame` on connection `k`. -/
def handleFrame (r : EvlRouter) (k : ConnId) (i : Inbound) (device : Option XbufFd) : EvlRouter :=
  if r.maxMsgSize < i.header.bodyLen.toNat then
    r.modify k fun c => { c with socket := c.socket.close }
  else
    match i with
    | .whole f => r.dispatch k f device
    | .torn _ _ => r

/-- The end of `run()` on connection `k`: `remove_all_for_con(this)`. -/
def endRun (r : EvlRouter) (k : ConnId) : EvlRouter :=
  { r with registry := r.registry.removeAllForCon k }.modify k ({ · with finished := true })

/-! ### The readers -/

/-- A round of `run_connection_reader` behind the header. -/
def routeFromUplink (r : EvlRouter) (u : Uplink) (i : Inbound) : EvlRouter :=
  if r.maxMsgSize < i.header.bodyLen.toNat then r.closeUplink u
  else
    match i with
    | .whole f => (r.perform (r.uplinkHop f)).2
    | .torn _ _ => r.closeUplink u

/-- A round of `run_reader` behind the read. -/
def routeFromXbuf (r : EvlRouter) (d : XbufRead) : EvlRouter := (r.perform (r.xbufHop d)).2

/-! ### Events -/

/-- What happens to the router, one event at a time. -/
inductive Event
  /-- The accept loop takes a new connection. -/
  | accept (socket : TcpSocket)
  /-- `connect_to_peers` opens a connection, which advertises at once. -/
  | connectPeer (socket : TcpSocket)
  /-- The thread of connection `k` reads a header and handles the frame. `device` is the xbuf
  device that a registration in it finds. -/
  | frame (k : ConnId) (i : Inbound) (device : Option XbufFd)
  /-- The thread of connection `k` finds the end of the stream. -/
  | eof (k : ConnId)
  /-- The thread of connection `k` sees that it was asked to stop. -/
  | stop (k : ConnId)
  /-- The reader of an uplink reads a header and routes the frame. -/
  | uplinkFrame (u : Uplink) (i : Inbound)
  /-- The reader of an uplink finds the end of the stream, or is asked to stop. -/
  | uplinkEnd (u : Uplink)
  /-- The reader of the xbuf of mailbox `id` reads and routes. -/
  | xbufRead (id : MailboxId) (d : XbufRead)

/-- One event. A connection whose thread has ended, or whose socket is closed, gets no
frames and finds no end of stream. -/
def step (r : EvlRouter) : Event → EvlRouter
  | .accept socket => { r with connections := r.connections ++ [Connection.start socket false] }
  | .connectPeer socket =>
    { r with connections := r.connections ++ [Connection.start socket true] }.advertiseAsPeer
      r.connections.length
  | .frame k i device => if r.isLive k then r.handleFrame k i device else r
  | .eof k => if r.isLive k then r.endRun k else r
  | .stop k => if r.isRunning k then r.endRun k else r
  | .uplinkFrame u i => if r.uplinkIsOpen u then r.routeFromUplink u i else r
  | .uplinkEnd u => r.closeUplink u
  | .xbufRead id d =>
    match r.find id with
    -- The buffer of the reader has `max_msg_size_` bytes.
    | some (.xbuf _) => if d.bytes.length ≤ r.maxMsgSize then r.routeFromXbuf d else r
    | _ => r

end EvlRouter

end CoreRaT.Spec
