import CoreRaT.Proofs.Router.Outcome
import CoreRaT.Spec.EvlRouter

/-!
# `CoreRaT.Proofs.Evl.Ingress`: where a message goes, by the way it came in

A message for a mailbox comes in on a connection, from an uplink or from an xbuf. `Delivered` says
what should become of it whichever way it came: it goes to the endpoint of its registry entry, or,
without an entry, upstream. The router's decision is `hop`, and `step_arrival` says that a step of
the router makes just the call of that decision. `delivered_iff` is the exact condition under which
the decision is what `Delivered` says. It is also the exact condition under which the message is
written whole to its outlet, where the socket or the xbuf there takes it: `written_iff`.

The three readers agree on `Kind::Tcp` and `Kind::Peer` entries. A message for a `Kind::Xbuf`
entry is delivered only from a connection, and only with a body. A message without an entry goes
upstream only from a client connection, and only on the one socket that `forward_to_upstream`
looks at.
-/

set_option autoImplicit false

namespace CoreRaT.Spec.EvlRouter

/-! ### Messages -/

/-- A message that has come into the router. -/
inductive Arrival
  /-- A data frame on connection `k`. -/
  | connection (k : ConnId) (f : Frame) (hdata : f.header.kind = .data)
  /-- A frame from an uplink, of whatever type. -/
  | uplink (u : Uplink) (f : Frame)
  /-- What the reader of the xbuf of mailbox `id` read, with a `WireHeader` at the start. -/
  | xbuf (id : MailboxId) (d : XbufRead) (hlen : sizeofWireHeader ≤ d.bytes.length)

namespace Arrival

/-- The mailbox the message is for. -/
def dest : Arrival → MailboxId
  | .connection _ f _ => f.header.dest
  | .uplink _ f => f.header.dest
  | .xbuf _ d _ => d.header.dest

/-- The body of the message. For an xbuf that is all that was read. -/
def body : Arrival → List UInt8
  | .connection _ f _ => f.body
  | .uplink _ f => f.body
  | .xbuf _ d _ => d.bytes

/-- The message came in on a connection. -/
def IsOnConnection : Arrival → Prop
  | .connection _ _ _ => True
  | _ => False

/-- The sender is local: a client connection or an xbuf. -/
def IsLocal (r : EvlRouter) : Arrival → Prop
  | .connection k _ _ => r.isPeer k = false
  | .uplink _ _ => False
  | .xbuf _ _ _ => True

/-- The event that brings the message in. -/
def event : Arrival → Event
  | .connection k f _ => .frame k (.whole f) none
  | .uplink u f => .uplinkFrame u (.whole f)
  | .xbuf id d _ => .xbufRead id d

/-- The reader takes the message: it is there, and the message is not oversized. -/
def IsTaken (r : EvlRouter) : Arrival → Prop
  | .connection k f _ => r.isLive k = true ∧ f.header.bodyLen.toNat ≤ r.maxMsgSize
  | .uplink u f => r.uplinkIsOpen u = true ∧ f.header.bodyLen.toNat ≤ r.maxMsgSize
  | .xbuf id d _ => (∃ x, r.find id = some (.xbuf x)) ∧ d.bytes.length ≤ r.maxMsgSize

end Arrival

/-- The router's decision for a message. -/
def hop (r : EvlRouter) : Arrival → Hop
  | .connection k f _ => r.connectionHop k f
  | .uplink _ f => r.uplinkHop f
  | .xbuf _ d _ => r.xbufHop d

/-- The answer of the router to the sender. Only `handle_frame` gives one. -/
def answer (m : Arrival) : Bool × EvlRouter → EvlRouter
  | (ok, r') =>
    match m with
    | .connection k f _ => if ok then r' else r'.sendError k f.header
    | _ => r'

/-- What the router does with a message is the call of its hop, and the answer. -/
theorem step_arrival {r : EvlRouter} {m : Arrival} (h : m.IsTaken r) :
    r.step m.event = answer m (r.perform (r.hop m)) := by
  cases m with
  | connection k f hdata =>
    obtain ⟨hlive, hsize⟩ := h
    simp only [Arrival.event, step, hlive, if_true, handleFrame, Inbound.header,
      Nat.not_lt.mpr hsize, if_false, dispatch, hdata, handleData, hop, answer]
    split <;> simp_all
  | uplink u f =>
    obtain ⟨hopen, hsize⟩ := h
    simp only [Arrival.event, step, hopen, if_true, routeFromUplink, Inbound.header,
      Nat.not_lt.mpr hsize, if_false, hop, answer]
  | xbuf id d hlen =>
    obtain ⟨⟨x, hx⟩, hsize⟩ := h
    simp only [Arrival.event, step, hx, hsize, if_true, routeFromXbuf, hop, answer]

/-! ### Delivery -/

/-- The uplink that `forward_to_upstream` looks at: the first matching system route, and the
upstream socket when there is none. -/
def uplinkFor (r : EvlRouter) (dest : MailboxId) : Uplink :=
  match r.systemRoute dest with
  | some i => .system i
  | none => .upstream

/-- The upstream socket, or a system route for the system of `dest`, is open. -/
def HasOpenUplink (r : EvlRouter) (dest : MailboxId) : Prop :=
  r.upstreamSocket.isOpen = true ∨
    ∃ sc ∈ r.systemConnections,
      sc.systemId = TcpRouter.systemOf dest ∧ sc.socket.isOpen = true

/-- The body of the message is handed to the endpoint of the entry. `write_body` refuses an empty
body, and its sender is told `MSG_ERROR`. -/
def ReachesEndpoint (r : EvlRouter) (m : Arrival) : MailboxEntry → Prop
  | .tcp d => ∃ f, r.hop m = .forward d f ∧ f.header.dest = m.dest ∧ f.body = m.body
  | .peer d => ∃ f, r.hop m = .forward d f ∧ f.header.dest = m.dest ∧ f.body = m.body
  | .xbuf _ => r.hop m = .writeBody m.dest m.body ∧ m.body ≠ []

/-- The body of the message is handed to an open uplink. -/
def GoesUpstream (r : EvlRouter) (m : Arrival) : Prop :=
  (∃ f, r.hop m = .upstream f ∧ f.header.dest = m.dest ∧ f.body = m.body) ∧
    r.uplinkIsOpen (r.uplinkFor m.dest) = true

/-- What should become of a message, whichever way it came in. -/
def Delivered (r : EvlRouter) (m : Arrival) : Prop :=
  (∀ e, r.find m.dest = some e → r.ReachesEndpoint m e) ∧
    (r.find m.dest = none → m.IsLocal r → r.HasOpenUplink m.dest → r.GoesUpstream m)

/-- The messages that the router delivers, by the entry of their destination. -/
def Deliverable (r : EvlRouter) (m : Arrival) : Prop :=
  match r.find m.dest with
  | some (.tcp _) => True
  | some (.peer _) => True
  | some (.xbuf _) => m.IsOnConnection ∧ m.body ≠ []
  | none =>
    m.IsLocal r → r.HasOpenUplink m.dest →
      m.IsOnConnection ∧ r.uplinkIsOpen (r.uplinkFor m.dest) = true

/-- All three readers forward to a connection. -/
theorem hop_of_con {r : EvlRouter} {m : Arrival} {d : ConnId}
    (h : r.find m.dest = some (.tcp d) ∨ r.find m.dest = some (.peer d)) :
    ∃ f, r.hop m = .forward d f ∧ f.header.dest = m.dest ∧ f.body = m.body := by
  cases m with
  | connection k f hdata => exact ⟨f, connectionHop_of_con h, rfl, rfl⟩
  | uplink u f => exact ⟨f, uplinkHop_of_con h, rfl, rfl⟩
  | xbuf id d' hlen => exact ⟨d'.frame, xbufHop_of_con hlen h, rfl, rfl⟩

/-- Only a connection has a way to an xbuf. -/
theorem hop_of_xbuf {r : EvlRouter} {m : Arrival} {x : XbufEntry}
    (h : r.find m.dest = some (.xbuf x)) :
    r.hop m = .writeBody m.dest m.body ↔ m.IsOnConnection := by
  cases m with
  | connection k f hdata =>
    simp only [Arrival.dest] at h
    simp [hop, connectionHop, h, Arrival.IsOnConnection, Arrival.dest, Arrival.body]
  | uplink u f =>
    simp only [Arrival.dest] at h
    simp [hop, uplinkHop, h, Arrival.IsOnConnection]
  | xbuf id d hlen =>
    simp only [Arrival.dest] at h
    simp [hop, xbufHop, Nat.not_lt.mpr hlen, h, Arrival.IsOnConnection]

/-- Of the local senders, only a client connection has a way upstream. -/
theorem hop_of_local {r : EvlRouter} {m : Arrival} (h : r.find m.dest = none)
    (hlocal : m.IsLocal r) :
    (∃ f, r.hop m = .upstream f ∧ f.header.dest = m.dest ∧ f.body = m.body) ↔
      m.IsOnConnection := by
  cases m with
  | connection k f hdata =>
    simp only [Arrival.dest] at h
    simp only [Arrival.IsLocal] at hlocal
    simp [hop, connectionHop, h, hlocal, Arrival.IsOnConnection, Arrival.dest, Arrival.body]
  | uplink u f => exact hlocal.elim
  | xbuf id d hlen =>
    simp only [Arrival.dest] at h
    simp [hop, xbufHop, Nat.not_lt.mpr hlen, h, Arrival.IsOnConnection]

/-- The router decides as `Delivered` says, whichever way a message came in, exactly in these
cases. The entry is `Kind::Tcp` or `Kind::Peer`. The entry is `Kind::Xbuf`, and the message came in
on a connection and has a body. There is no entry, and a local sender that finds an uplink open is
a connection and the uplink that `forward_to_upstream` looks at is open. -/
theorem decided_iff (r : EvlRouter) (m : Arrival) : r.Delivered m ↔ r.Deliverable m := by
  simp only [Delivered, Deliverable]
  cases hfind : r.find m.dest with
  | none =>
    simp only [reduceCtorEq, false_implies, implies_true, true_and, true_implies, GoesUpstream]
    -- The way upstream is the only thing left to compare.
    constructor
    · intro h hlocal hopen
      obtain ⟨hhop, hsocket⟩ := h hlocal hopen
      exact ⟨(hop_of_local hfind hlocal).mp hhop, hsocket⟩
    · intro h hlocal hopen
      obtain ⟨hcon, hsocket⟩ := h hlocal hopen
      exact ⟨(hop_of_local hfind hlocal).mpr hcon, hsocket⟩
  | some e =>
    simp only [Option.some.injEq, forall_eq', reduceCtorEq, false_implies, and_true]
    cases e with
    | tcp d => exact iff_of_true (hop_of_con (Or.inl hfind)) trivial
    | peer d => exact iff_of_true (hop_of_con (Or.inr hfind)) trivial
    | xbuf x => simp only [ReachesEndpoint, hop_of_xbuf hfind]

/-! ### What is written -/

/-- Where the router can write a message. -/
inductive Outlet
  | connection (k : ConnId)
  /-- The xbuf of the entry of the mailbox. -/
  | xbuf (id : MailboxId)
  | uplink (u : Uplink)

/-- The socket of an outlet. The xbuf is one as well. -/
def socketAt (r : EvlRouter) : Outlet → Option TcpSocket
  | .connection k => r.connections[k]?.map (·.socket)
  | .xbuf id =>
    match r.find id with
    | some (.xbuf x) => some x.fd.val
    | _ => none
  | .uplink (.system i) => r.systemConnections[i]?.map (·.socket)
  | .uplink .upstream => some r.upstreamSocket

/-- The bytes that have been written to an outlet. -/
def writtenAt (r : EvlRouter) (p : Outlet) : List UInt8 :=
  ((r.socketAt p).map (·.written)).getD []

/-- The frame that carries the message on a connection. -/
def Arrival.frame : Arrival → Frame
  | .connection _ f _ => f
  | .uplink _ f => f
  | .xbuf _ d _ => d.frame

/-- The outlet for a message: that of the registry entry, or, without an entry, the uplink. -/
def outlet (r : EvlRouter) (m : Arrival) : Outlet :=
  match r.find m.dest with
  | some (.tcp d) => .connection d
  | some (.peer d) => .connection d
  | some (.xbuf _) => .xbuf m.dest
  | none => .uplink (r.uplinkFor m.dest)

/-- What is to be written there. An xbuf gets the body alone. -/
def wire (r : EvlRouter) (m : Arrival) : List UInt8 :=
  match r.find m.dest with
  | some (.xbuf _) => m.body
  | _ => m.frame.encode

/-- The socket of the outlet takes the message. To an xbuf nothing is written without a body. -/
def OutletTakes (r : EvlRouter) (m : Arrival) : Prop :=
  ∃ s, r.socketAt (r.outlet m) = some s ∧
    match r.find m.dest with
    | some (.xbuf _) => m.body ≠ [] ∧ (s.sendAll m.body).1 = true
    | _ => s.TakesFrame m.frame

/-- The message has an outlet: there is an entry, or the sender is local and an uplink is open. -/
def IsDue (r : EvlRouter) (m : Arrival) : Prop :=
  r.find m.dest = none → m.IsLocal r ∧ r.HasOpenUplink m.dest

/-- The step that takes the message writes it, whole, to its outlet. -/
def IsWritten (r : EvlRouter) (m : Arrival) : Prop :=
  (r.step m.event).writtenAt (r.outlet m) = r.writtenAt (r.outlet m) ++ r.wire m

/-- A dropped message is not written. -/
theorem not_isWritten_of_drop {r : EvlRouter} {m : Arrival} (htaken : m.IsTaken r)
    (hwire : r.wire m ≠ []) (hdrop : r.hop m = .drop) : ¬ r.IsWritten m := by
  have hstep : r.step m.event = r := by
    rw [step_arrival htaken, hdrop]
    cases m <;> rfl
  rw [IsWritten, hstep, List.self_eq_append_right]
  exact hwire

/-- With an entry of a connection, the frame is forwarded to it. -/
theorem isWritten_of_con {r : EvlRouter} {m : Arrival} (htaken : m.IsTaken r) {d : ConnId}
    (hfind : r.find m.dest = some (.tcp d) ∨ r.find m.dest = some (.peer d))
    (htakes : r.OutletTakes m) : r.IsWritten m := by
  have hhop : r.hop m = .forward d m.frame := by
    cases m with
    | connection k f hdata => exact connectionHop_of_con hfind
    | uplink u f => exact uplinkHop_of_con hfind
    | xbuf id d' hlen => exact xbufHop_of_con hlen hfind
  have hstep : r.step m.event = r.modify d fun c => (c.forward m.frame).2 := by
    rw [step_arrival htaken, hhop]
    cases m <;> rfl
  have hout : r.outlet m = .connection d ∧ r.wire m = m.frame.encode := by
    rcases hfind with h | h <;> simp only [outlet, wire, h, and_self]
  have htakes : ∃ s, r.socketAt (.connection d) = some s ∧ s.TakesFrame m.frame := by
    obtain ⟨s, hs, hframe⟩ := htakes
    rw [hout.1] at hs
    refine ⟨s, hs, ?_⟩
    rcases hfind with h | h <;> simpa only [h] using hframe
  obtain ⟨s, hs, hframe⟩ := htakes
  rw [IsWritten, hout.1, hout.2, hstep]
  simp only [socketAt] at hs
  obtain ⟨c, hc, rfl⟩ := Option.map_eq_some_iff.mp hs
  simp [writtenAt, socketAt, modify, hc, Connection.forward_eq, hframe.written]

/-- With an xbuf entry, the body is written to the xbuf if the message came in on a connection. -/
theorem isWritten_xbuf_iff {r : EvlRouter} {m : Arrival} (htaken : m.IsTaken r) {x : XbufEntry}
    (hfind : r.find m.dest = some (.xbuf x)) (htakes : r.OutletTakes m) :
    r.IsWritten m ↔ m.IsOnConnection := by
  obtain ⟨s, hs, htakes⟩ := htakes
  simp only [hfind] at htakes
  have hout : r.outlet m = .xbuf m.dest ∧ r.wire m = m.body := by
    simp only [outlet, wire, hfind, and_self]
  rw [hout.1] at hs
  simp only [socketAt, hfind, Option.some.injEq] at hs
  subst hs
  obtain ⟨hbody, hsend⟩ := htakes
  constructor
  · intro hwritten
    by_contra hnot
    refine not_isWritten_of_drop htaken (by rwa [hout.2]) ?_ hwritten
    cases m with
    | connection k f hdata => exact absurd trivial hnot
    | uplink u f =>
      simp only [Arrival.dest] at hfind
      simp [hop, uplinkHop, hfind]
    | xbuf id d hlen =>
      simp only [Arrival.dest] at hfind
      simp [hop, xbufHop, hfind]
  · intro hcon
    rw [IsWritten, hout.1, hout.2, step_arrival htaken, (hop_of_xbuf hfind).mpr hcon]
    have hopen : x.fd.val.isOpen = true := x.fd.property
    have hlen : m.body.length ≠ 0 := fun h => hbody (List.length_eq_zero_iff.mp h)
    have hwrite : r.writeBody m.dest m.body = (true, { r with
        registry :=
          ⟨Function.update r.registry.table m.dest (some (.xbuf (x.writeBody m.body).2))⟩ }) := by
      simp [writeBody, hfind, XbufEntry.writeBody, hopen, hlen, hsend]
    have hanswer : ∀ r' : EvlRouter, answer m (true, r') = r' := by
      intro r'
      cases m <;> rfl
    rw [perform, hwrite, hanswer]
    have hold : r.registry.table m.dest = some (.xbuf x) := hfind
    simp [writtenAt, socketAt, find, EvlRegistry.find, XbufEntry.writeBody, hopen, hlen, hold,
      TcpSocket.written_sendAll_of_true hsend]

/-- `forward_to_upstream` on a socket that takes the frame. -/
theorem forwardToUpstream_of_takes {r : EvlRouter} {f : Frame} {s : TcpSocket}
    (hs : r.socketAt (.uplink (r.uplinkFor f.header.dest)) = some s) (htakes : s.TakesFrame f) :
    (r.forwardToUpstream f).1 = true ∧
      (r.forwardToUpstream f).2.socketAt (.uplink (r.uplinkFor f.header.dest)) =
        some (s.sendFrame f).2 := by
  have hok := (s.sendFrame_eq_true_iff f).mpr htakes
  cases hroute : r.systemRoute f.header.dest with
  | none =>
    simp only [uplinkFor, hroute, socketAt, Option.some.injEq] at hs
    subst hs
    simp [forwardToUpstream, uplinkFor, hroute, socketAt, TcpRouter.sendUpstream_eq, hok]
  | some i =>
    simp only [uplinkFor, hroute, socketAt] at hs
    obtain ⟨sc, hsc, rfl⟩ := Option.map_eq_some_iff.mp hs
    obtain ⟨hi, rfl⟩ := List.getElem?_eq_some_iff.mp hsc
    simp [forwardToUpstream, uplinkFor, hroute, socketAt, TcpRouter.sendUpstream_eq, hok, hi]

/-- Without an entry, what a local sender has for an open uplink goes there if it came in on a
connection. -/
theorem isWritten_upstream_iff {r : EvlRouter} {m : Arrival} (htaken : m.IsTaken r)
    (hfind : r.find m.dest = none) (hlocal : m.IsLocal r) (htakes : r.OutletTakes m) :
    r.IsWritten m ↔ m.IsOnConnection := by
  obtain ⟨s, hs, htakes⟩ := htakes
  simp only [hfind] at htakes
  have hout : r.outlet m = .uplink (r.uplinkFor m.dest) ∧ r.wire m = m.frame.encode := by
    simp only [outlet, wire, hfind, and_self]
  rw [hout.1] at hs
  cases m with
  | uplink u f => exact hlocal.elim
  | xbuf id d hlen =>
    refine iff_of_false ?_ (by simp [Arrival.IsOnConnection])
    refine not_isWritten_of_drop htaken (by rw [hout.2]; exact Frame.encode_ne_nil _) ?_
    simp only [Arrival.dest] at hfind
    simp [hop, xbufHop, hfind]
  | connection k f hdata =>
    refine iff_of_true ?_ trivial
    obtain ⟨hok, hsocket⟩ := forwardToUpstream_of_takes hs htakes
    have hstep : r.step (Arrival.connection k f hdata).event = (r.forwardToUpstream f).2 := by
      have hhop : r.hop (.connection k f hdata) = .upstream f := by
        simp only [Arrival.dest] at hfind
        simp only [Arrival.IsLocal] at hlocal
        simp [hop, connectionHop, hfind, hlocal]
      rw [step_arrival htaken, hhop]
      show answer _ ((r.forwardToUpstream f).1, (r.forwardToUpstream f).2) = _
      rw [hok]
      rfl
    rw [IsWritten, hout.1, hout.2, hstep]
    show (r.forwardToUpstream f).2.writtenAt (.uplink (r.uplinkFor f.header.dest)) = _
    rw [writtenAt, hsocket, writtenAt, hs]
    exact htakes.written

/-- A message that has an outlet, and whose outlet takes it, is written to it exactly when it is
deliverable. -/
theorem written_iff {r : EvlRouter} {m : Arrival} (htaken : m.IsTaken r) (hdue : r.IsDue m)
    (htakes : r.OutletTakes m) : r.IsWritten m ↔ r.Deliverable m := by
  cases hfind : r.find m.dest with
  | none =>
    obtain ⟨hlocal, hopen⟩ := hdue hfind
    have hsocket : r.uplinkIsOpen (r.uplinkFor m.dest) = true := by
      obtain ⟨s, hs, hframe⟩ := htakes
      simp only [hfind] at hframe
      simp only [outlet, hfind] at hs
      generalize r.uplinkFor m.dest = u at hs
      cases u with
      | upstream =>
        cases hs
        exact hframe.isOpen
      | system i =>
        simp only [socketAt] at hs
        obtain ⟨sc, hsc, rfl⟩ := Option.map_eq_some_iff.mp hs
        simp [uplinkIsOpen, hsc, hframe.isOpen]
    rw [isWritten_upstream_iff htaken hfind hlocal htakes]
    simp [Deliverable, hfind, hlocal, hopen, hsocket]
  | some e =>
    cases e with
    | tcp d =>
      refine iff_of_true (isWritten_of_con htaken (Or.inl hfind) htakes) ?_
      simp only [Deliverable, hfind]
    | peer d =>
      refine iff_of_true (isWritten_of_con htaken (Or.inr hfind) htakes) ?_
      simp only [Deliverable, hfind]
    | xbuf x =>
      have hbody : m.body ≠ [] := by
        obtain ⟨s, -, hframe⟩ := htakes
        simp only [hfind] at hframe
        exact hframe.1
      rw [isWritten_xbuf_iff htaken hfind htakes]
      simp [Deliverable, hfind, hbody]

/-- **Delivery, whichever way.** The router decides for a message as `Delivered` says exactly when
it is `Deliverable`. And a step that takes the message, whose outlet takes it too, writes it there
whole exactly then. -/
theorem delivered_iff (r : EvlRouter) (m : Arrival) :
    (r.Delivered m ↔ r.Deliverable m) ∧
      (m.IsTaken r → r.IsDue m → r.OutletTakes m → (r.IsWritten m ↔ r.Deliverable m)) :=
  ⟨decided_iff r m, written_iff⟩

/-! ### A reply for an EVL node -/

/-- A router with one xbuf mailbox, 7, and an open upstream socket. -/
def oneXbuf : EvlRouter :=
  { init 64 ⟨true, fun _ => 64, [], []⟩ [] with
      registry :=
        ((EvlRegistry.empty.addXbuf 7 ⟨7, ⟨⟨true, fun _ => 64, [], []⟩, rfl⟩, 0⟩).2) }

/-- A frame from upstream for mailbox 7, with one byte of body. -/
def upstreamReply : Arrival :=
  .uplink .upstream ⟨makeFrame 0 7 9 0 0 1, [1], by decide⟩

/-- The upstream reader takes a frame for a mailbox behind an xbuf, and drops it, although the xbuf
would take it. -/
theorem upstream_reply_dropped :
    upstreamReply.IsTaken oneXbuf ∧ (∃ x, oneXbuf.find upstreamReply.dest = some (.xbuf x)) ∧
      oneXbuf.OutletTakes upstreamReply ∧
      oneXbuf.hop upstreamReply = .drop ∧ ¬ oneXbuf.Delivered upstreamReply ∧
      ¬ oneXbuf.IsWritten upstreamReply := by
  have htaken : upstreamReply.IsTaken oneXbuf := ⟨rfl, by decide⟩
  have hfind : ∃ x, oneXbuf.find upstreamReply.dest = some (.xbuf x) := ⟨_, rfl⟩
  refine ⟨htaken, hfind, ⟨_, rfl, by decide, by decide⟩, rfl, ?_, ?_⟩
  · intro h
    obtain ⟨x, hx⟩ := hfind
    have hreach := (h.1 _ hx).1
    cases hreach
  · exact not_isWritten_of_drop htaken (by decide) rfl

/-- The same frame from a client. -/
def clientMessage : Arrival :=
  .connection 0 ⟨makeFrame 0 7 9 0 0 1, [1], by decide⟩ (by decide)

/-- It is written to the xbuf. -/
theorem client_message_written :
    (oneXbuf.step (.accept ⟨true, fun _ => 64, [], []⟩)).IsWritten clientMessage := by
  have hdeliverable : (oneXbuf.step (.accept ⟨true, fun _ => 64, [], []⟩)).Deliverable
      clientMessage := ⟨trivial, by decide⟩
  have htakes : (oneXbuf.step (.accept ⟨true, fun _ => 64, [], []⟩)).OutletTakes
      clientMessage := ⟨_, rfl, by decide, by decide⟩
  have hdue : (oneXbuf.step (.accept ⟨true, fun _ => 64, [], []⟩)).IsDue clientMessage := nofun
  exact ((delivered_iff _ clientMessage).2 ⟨rfl, by decide⟩ hdue htakes).mpr hdeliverable

end CoreRaT.Spec.EvlRouter
