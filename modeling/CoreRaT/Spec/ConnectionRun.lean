import CoreRaT.Spec.TcpRouter

/-!
# `CoreRaT.Spec.ConnectionRun`: the loop of `Connection::run`

`Spec/TcpRouter.lean` says what the router does with a frame. This module adds the loop around
it: the condition `!stop.stop_requested()`, `poll_in`, and the two `recv_all` calls that read a
frame from the bytes of the stream. A connection thread stands before the condition, before
the poll, or behind the loop. Each of its rounds, and each event of the router around it, is
one step.

The bytes that will arrive on a connection are part of its socket, in the chunks in which
`::recv` finds them. `::poll` answers what the event says; on a closed socket it answers 0.
-/

set_option autoImplicit false

namespace CoreRaT.Spec

/-- What a round of `run()` reads: the header and, inside `handle_frame`, the body. An
oversized body is not read. `none` when the stream ends before the header. -/
def TcpSocket.readInbound (s : TcpSocket) (maxMsgSize : Nat) : Option Inbound × TcpSocket :=
  match s.recvAll sizeofFrameHeader with
  | (none, s) => (none, s)
  | (some bytes, s) =>
    let header := FrameHeader.decode bytes
    -- `handle_frame` closes the socket before it reads an oversized body.
    if hbig : maxMsgSize < header.bodyLen.toNat then
      (some (.torn header (Nat.zero_lt_of_lt hbig)), s)
    else if hpos : 0 < header.bodyLen.toNat then
      match s.recvAll header.bodyLen.toNat with
      | (none, s) => (some (.torn header hpos), s)
      | (some body, s) =>
        -- `recv_all` gives as many bytes as it was asked for.
        if hlen : body.length = header.bodyLen.toNat then (some (.whole ⟨header, body, hlen⟩), s)
        else (some (.torn header hpos), s)
    else (some (.whole ⟨header, [], (Nat.eq_zero_of_not_pos hpos).symm⟩), s)

/-- Where the thread of a connection stands in `run()`. -/
inductive RunPc
  | loopCondition
  | poll
  | ended
deriving DecidableEq

/-- A router and the `run()` loops of its connections. -/
structure ConnectionRuns where
  router : TcpRouter
  pc : ConnId → RunPc
  stopRequested : ConnId → Bool
  /-- The calls of `handle_frame` that each loop has made. -/
  calls : ConnId → List Inbound

namespace ConnectionRuns

/-- A router before its first connection. -/
def init (router : TcpRouter) : ConnectionRuns where
  router := router
  pc := fun _ => .loopCondition
  stopRequested := fun _ => false
  calls := fun _ => []

/-- The steps of the router and of its connection threads. -/
inductive Event
  | accept (socket : TcpSocket)
  | connectPeer (socket : TcpSocket)
  /-- The reader of an uplink routes a frame. -/
  | uplinkFrame (u : Uplink) (i : Inbound)
  /-- The reader of an uplink ends. -/
  | uplinkEnd (u : Uplink)
  /-- `request_stop` on the thread of connection `k`. -/
  | requestStop (k : ConnId)
  /-- The thread of connection `k` evaluates its loop condition. -/
  | loopCondition (k : ConnId)
  /-- The thread of connection `k` polls, where `ready` is the answer of `::poll`, and handles a
  frame if there is one. -/
  | poll (k : ConnId) (ready : Int)

/-- Thread `k` leaves the loop. -/
def leave (s : ConnectionRuns) (k : ConnId) : ConnectionRuns :=
  { s with router := s.router.endRun k, pc := Function.update s.pc k .ended }

/-- A round of `run()` behind a successful poll, on the socket of connection `k`. -/
def round (s : ConnectionRuns) (k : ConnId) (socket : TcpSocket) : ConnectionRuns :=
  let (inbound, socket) := socket.readInbound s.router.maxMsgSize
  let read := s.router.modify k ({ · with socket := socket })
  match inbound with
  | none => { s with router := read }.leave k
  | some i =>
    { s with
        router := read.handleFrame k i
        pc := Function.update s.pc k .loopCondition
        calls := Function.update s.calls k (s.calls k ++ [i]) }

/-- One step. An event that is not enabled changes nothing. -/
def step (s : ConnectionRuns) : Event → ConnectionRuns
  | .accept socket => { s with router := s.router.step (.accept socket) }
  | .connectPeer socket => { s with router := s.router.step (.connectPeer socket) }
  | .uplinkFrame u i => { s with router := s.router.step (.uplinkFrame u i) }
  | .uplinkEnd u => { s with router := s.router.step (.uplinkEnd u) }
  | .requestStop k =>
    if k < s.router.connections.length then
      { s with stopRequested := Function.update s.stopRequested k true }
    else s
  | .loopCondition k =>
    if k < s.router.connections.length ∧ s.pc k = .loopCondition then
      if s.stopRequested k then s.leave k
      else { s with pc := Function.update s.pc k .poll }
    else s
  | .poll k ready =>
    match s.router.connections[k]? with
    | some c =>
      if s.pc k = .poll then
        -- `continue`: back to the loop condition.
        if c.socket.pollIn ready ≤ 0 then
          { s with pc := Function.update s.pc k .loopCondition }
        else s.round k c.socket
      else s
    | none => s

end ConnectionRuns

end CoreRaT.Spec
