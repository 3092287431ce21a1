import CoreRaT.Lib.Run
import CoreRaT.Spec.TcpRouter

/-!
# `CoreRaT.Spec.RouterNet`: TCP routers that are connected to each other

Any number of routers of `router/tcp_router.cpp`, and the connections between them. Such a
connection joins two endpoints: `connect_to_upstream`, `connect_to_system_routes` and
`connect_to_peers` open one end, and the other router accepts the other end like that of any
client. What one router writes to its end is unread until the reader at the other end takes it:
the `run()` of a connection, or the `run_connection_reader` of an uplink.

Everything else that is connected to the routers is free: it connects, sends frames of any kind
and disconnects at any time. A connection between two routers can end too.

One data frame of a client, the reply to a request, carries a mark. The code does not have it. It
tells the reply apart from other frames with the same bytes.
-/

set_option autoImplicit false

namespace CoreRaT.Spec

open CoreRaT.Lib

/-- The frames among the bytes that have been written since `before`. -/
def framesSince (before after : List UInt8) : List Frame :=
  (parseFrames (after.drop before.length).length (after.drop before.length)).getD []

namespace TcpRouter

/-- The bytes that have been written to connection `k`. -/
def writtenTo (r : TcpRouter) (k : ConnId) : List UInt8 :=
  (r.connections[k]?.map (·.socket.written)).getD []

/-! ### Endpoints that are read -/

/-- The endpoint that the reader of an uplink reads. -/
def ofUplink : Uplink → Endpoint
  | .system i => .system i
  | .upstream => .upstream

/-- Does a thread of the router read what arrives at the endpoint? -/
def reads (r : TcpRouter) : Endpoint → Bool
  | .connection k => r.isLive k
  | .system i => r.uplinkIsOpen (.system i)
  | .upstream => r.uplinkIsOpen .upstream

/-- Nothing is read at the endpoint any more. A connection that has not been accepted yet has not
ended. -/
def hasEnded (r : TcpRouter) : Endpoint → Bool
  | .connection k => (r.connections[k]?.map fun c => c.finished || !c.socket.isOpen).getD false
  | .system i => !r.uplinkIsOpen (.system i)
  | .upstream => !r.uplinkIsOpen .upstream

/-- The thread that reads the endpoint has read a frame. -/
def arrival (q : Endpoint) (f : Frame) : Event :=
  match q with
  | .connection k => .frame k (.whole f)
  | .system i => .uplinkFrame (.system i) (.whole f)
  | .upstream => .uplinkFrame .upstream (.whole f)

/-- The endpoint that the event reads. -/
def readAt : Event → Option Endpoint
  | .frame k _ => some (.connection k)
  | .uplinkFrame u _ => some (ofUplink u)
  | _ => none

/-- The endpoint that is no longer read after the event. -/
def endedBy (r : TcpRouter) : Event → Option Endpoint
  | .accept socket => if socket.isOpen then none else some (.connection r.connections.length)
  | .connectPeer socket => if socket.isOpen then none else some (.connection r.connections.length)
  | .frame k i =>
    if r.isLive k && r.maxMsgSize < i.header.bodyLen.toNat then some (.connection k) else none
  | .eof k => if r.isLive k then some (.connection k) else none
  | .uplinkFrame u i =>
    if r.uplinkIsOpen u then
      match i with
      | .whole f => if r.maxMsgSize < f.header.bodyLen.toNat then some (ofUplink u) else none
      | .torn _ _ => some (ofUplink u)
    else none
  | .uplinkEnd u => some (ofUplink u)

/-- The endpoint that a data frame from the endpoint `q` is sent on to. There is none for an
oversized frame, and for an unknown destination when the frame comes from a peer or an uplink. -/
def wayOn (r : TcpRouter) (q : Endpoint) (f : Frame) : Option Endpoint :=
  if r.maxMsgSize < f.header.bodyLen.toNat then none
  else
    match r.find f.header.dest with
    | some d => some (.connection d)
    | none =>
      match q with
      | .connection k => if r.isPeer k then none else some (r.upstreamRoute f.header.dest)
      | _ => none

end TcpRouter

open TcpRouter (Endpoint)

/-- A frame that has been written at one end of a connection between two routers, and has not been
read at the other. -/
structure Unread where
  frame : Frame
  /-- It is the reply that the run follows. -/
  isReply : Bool

/-- Routers, named by `ι`, and the connections between them. -/
structure RouterNet (ι : Type) where
  router : ι → TcpRouter
  /-- The other end of the connection at an endpoint, if that is a router's. -/
  far : ι → Endpoint → Option (ι × Endpoint)
  far_symm : ∀ {i p j q}, far i p = some (j, q) → far j q = some (i, p)
  /-- What has been written to an endpoint from the other end, and has not been read. -/
  unread : ι → Endpoint → List Unread

namespace RouterNet

variable {ι : Type} [DecidableEq ι]

/-- Router `i` takes a step. If the step handles the reply, it goes to the endpoint `way`. -/
def advance (s : RouterNet ι) (i : ι) (e : TcpRouter.Event) (way : Option Endpoint) :
    RouterNet ι :=
  { s with
      router := fun j => if j = i then (s.router i).step e else s.router j
      unread := fun j q => s.unread j q ++
        match s.far j q with
        | some (i', p) =>
          if i' = i then
            (framesSince ((s.router i).writtenAt p) (((s.router i).step e).writtenAt p)).map
              fun f => ⟨f, way == some p⟩
          else []
        | none => [] }

/-- Router `i` handles the reply, which has arrived at the endpoint `q`. -/
def handleReply (s : RouterNet ι) (i : ι) (q : Endpoint) (f : Frame) : RouterNet ι :=
  s.advance i (TcpRouter.arrival q f) ((s.router i).wayOn q f)

/-- The next frame at an endpoint has been read. -/
def dequeue (s : RouterNet ι) (j : ι) (q : Endpoint) : RouterNet ι :=
  { s with unread := fun j' q' => if j' = j ∧ q' = q then (s.unread j q).tail else s.unread j' q' }

/-- Does the event read what another router has written? -/
def readsRouter (s : RouterNet ι) (i : ι) (e : TcpRouter.Event) : Bool :=
  ((TcpRouter.readAt e).bind (s.far i)).isSome

/-- The steps of the routers. -/
inductive Event (ι : Type)
  /-- A step of router `i`, but for the frames that arrive from another router. -/
  | own (i : ι) (e : TcpRouter.Event)
  /-- Router `j` handles the next frame that has arrived from another router at the endpoint. -/
  | read (j : ι) (q : Endpoint)

/-- One step. An event that is not enabled changes nothing. -/
def step (s : RouterNet ι) : Event ι → RouterNet ι
  | .own i e => if s.readsRouter i e then s else s.advance i e none
  | .read j q =>
    match s.unread j q with
    | [] => s
    | m :: _ =>
      if (s.router j).reads q then
        if m.isReply then (s.dequeue j q).handleReply j q m.frame
        else (s.dequeue j q).advance j (TcpRouter.arrival q m.frame) none
      else s

/-- The client on connection `k` of router `i` sends the reply, and the router handles it. -/
def sendReply (s : RouterNet ι) (i : ι) (k : ConnId) (f : Frame) : RouterNet ι :=
  if (s.router i).isLive k ∧ s.far i (.connection k) = none then s.handleReply i (.connection k) f
  else s

/-- The router and the endpoint at which the event handles the reply. -/
def replyHandled (s : RouterNet ι) : Event ι → Option (ι × Endpoint × Frame)
  | .own _ _ => none
  | .read j q =>
    match s.unread j q with
    | [] => none
    | m :: _ => if (s.router j).reads q ∧ m.isReply then some (j, q, m.frame) else none

/-- The reply is on its way to an endpoint that is still read. -/
def InFlight (s : RouterNet ι) : Prop :=
  ∃ j q, ∃ m ∈ s.unread j q, m.isReply = true ∧ (s.router j).hasEnded q = false

/-- From `s` to `t`, the reply has been written to connection `k` of router `l`. -/
def WritesReply (l : ι) (k : ConnId) (reply : Frame) (s t : RouterNet ι) : Prop :=
  (t.router l).writtenAt (.connection k) =
    (s.router l).writtenAt (.connection k) ++ reply.encode

/-- Router `l` handles the reply and writes it to connection `k`. -/
def Delivers (l : ι) (k : ConnId) (reply : Frame) (s : RouterNet ι) (e : Event ι) : Prop :=
  (∃ q, s.replyHandled e = some (l, q, reply)) ∧ WritesReply l k reply s (s.step e)

/-- A step of the run hands the reply to connection `k` of router `l`. -/
def DeliveredIn (l : ι) (k : ConnId) (reply : Frame) (s : RouterNet ι) (es : List (Event ι)) :
    Prop :=
  ∃ es₁ e es₂, es = es₁ ++ e :: es₂ ∧ (runFrom step s es₁).Delivers l k reply e

end RouterNet

end CoreRaT.Spec
