import CoreRaT.Proofs.Router.Directory
import CoreRaT.Spec.ConnectionRun

/-!
# `CoreRaT.Proofs.Run.Steps`: what a round of `Connection::run` does

The handlers of the router send, and sends leave the inbound streams alone: `stream_dispatch`.
So what a connection reads is up to its own thread. `readInbound_of_frame` says what a round
finds in a stream that begins with a frame, in whatever chunks. `find_handleFrame` says that
handling a frame gives routes to no connection but the one the frame came from.
-/

set_option autoImplicit false

namespace CoreRaT.Spec

open CoreRaT.Lib

/-! ### Sends leave the streams alone -/

/-- What the thread of a connection depends on: is it still running, is the socket open, and
what is there to read. -/
def Connection.stream (c : Connection) : Bool × Bool × List (List UInt8) :=
  (c.finished, c.socket.isOpen, c.socket.inbound)

/-- Sends leave the stream alone. -/
theorem Connection.SentOn.stream {c c' : Connection} (h : c.SentOn c') :
    c'.stream = c.stream := by
  simp only [Connection.stream, h.finished, h.isOpen, h.inbound]

namespace TcpRouter

/-- The stream of connection `j`. -/
def stream (r : TcpRouter) (j : ConnId) : Option (Bool × Bool × List (List UInt8)) :=
  r.connections[j]?.map Connection.stream

/-- Is the socket of connection `j` open? -/
def socketOpen (r : TcpRouter) (j : ConnId) : Option Bool :=
  r.connections[j]?.map (·.socket.isOpen)

theorem socketOpen_congr {r r' : TcpRouter} {j : ConnId} (h : r'.stream j = r.stream j) :
    r'.socketOpen j = r.socketOpen j := by
  have hmap : ∀ r : TcpRouter, r.socketOpen j = (r.stream j).map (·.2.1) := by
    intro r
    simp only [socketOpen, stream, Option.map_map]
    rfl
  rw [hmap, hmap, h]

theorem stream_modify (r : TcpRouter) (k j : ConnId) (g : Connection → Connection)
    (hg : ∀ c, (g c).stream = c.stream) : (r.modify k g).stream j = r.stream j := by
  simp only [stream, getElem?_modify]
  split
  · simp [Function.comp_def, hg]
  · rfl

theorem stream_modify_of_ne (r : TcpRouter) {k j : ConnId} (g : Connection → Connection)
    (hj : j ≠ k) : (r.modify k g).stream j = r.stream j := by
  simp only [stream, getElem?_modify, if_neg (Ne.symm hj)]

theorem socketOpen_modify_of_ne (r : TcpRouter) {k j : ConnId} (g : Connection → Connection)
    (hj : j ≠ k) : (r.modify k g).socketOpen j = r.socketOpen j :=
  socketOpen_congr (stream_modify_of_ne r g hj)

theorem stream_broadcastToPeers (r : TcpRouter) (j : ConnId) (g : Connection → Connection)
    (hg : ∀ c, (g c).stream = c.stream) : (r.broadcastToPeers g).stream j = r.stream j := by
  simp only [stream, broadcastToPeers, List.getElem?_map, Option.map_map]
  congr 1
  funext c
  simp only [Function.comp_apply]
  split
  · exact hg c
  · rfl

theorem stream_handleData (r : TcpRouter) (k : ConnId) (f : Frame) (j : ConnId) :
    (r.handleData k f).stream j = r.stream j := by
  have hcon : (r.forwardToUpstream f).2.stream j = r.stream j := by
    simp only [stream, (r.tables_forwardToUpstream f).2.2.1]
  unfold handleData
  split
  · exact stream_modify r _ j _ fun c => (c.sentOn_forward f).stream
  · split
    · rfl
    · generalize r.forwardToUpstream f = res at hcon
      obtain ⟨ok, r'⟩ := res
      cases ok with
      | true => exact hcon
      | false => exact (stream_modify r' k j _ fun c => (c.sentOn_sendAll _).stream).trans hcon

/-- A handler leaves every stream alone. -/
theorem stream_dispatch (r : TcpRouter) (k : ConnId) (f : Frame) (j : ConnId) :
    (r.dispatch k f).stream j = r.stream j := by
  unfold dispatch
  split
  · unfold handlePeerHello advertiseAsPeer
    split
    · rfl
    · rw [stream_modify _ k j _ fun c => (c.sentOn_advertiseAsPeer _).stream]
      exact stream_modify r k j _ fun _ => rfl
  · unfold handlePeerRegister
    split <;> [split <;> rfl; rfl]
  · unfold handlePeerDelete
    split <;> [split <;> rfl; rfl]
  -- `watchdog_enabled_` is not part of the stream.
  · exact stream_modify r k j _ fun _ => rfl
  · unfold handleMbxInit
    split
    · have hreply := fun (r : TcpRouter) (ok : Bool) => stream_modify r k j
        (fun c => (c.sendAll (initReply ok f.header).encode).2) fun c => (c.sentOn_sendAll _).stream
      simp only
      split
      · rw [onLocalRegistered,
          stream_broadcastToPeers _ j (·.sendPeerRegister _) fun c => (c.sentOn_sendMbx _ _).stream]
        exact hreply _ _
      · exact hreply _ _
    · rfl
  · unfold handleMbxDelete
    split
    · rw [onLocalDeleted,
        stream_broadcastToPeers _ j (·.sendPeerDelete _) fun c => (c.sentOn_sendMbx _ _).stream]
      rfl
    · rfl
  · exact stream_handleData r k f j

/-- An oversized frame closes the socket, and that is all. -/
theorem handleFrame_oversized {r : TcpRouter} {k : ConnId} {i : Inbound}
    (hsize : r.maxMsgSize < i.header.bodyLen.toNat) :
    r.handleFrame k i = r.modify k fun c => { c with socket := c.socket.close } := by
  unfold handleFrame
  exact if_pos hsize

/-- Handling a frame that is not oversized leaves every stream alone. -/
theorem stream_handleFrame {r : TcpRouter} {i : Inbound}
    (hsize : i.header.bodyLen.toNat ≤ r.maxMsgSize) (k j : ConnId) :
    (r.handleFrame k i).stream j = r.stream j := by
  unfold handleFrame
  rw [if_neg (Nat.not_lt.mpr hsize)]
  cases i with
  | whole f => exact stream_dispatch r k f j
  | torn h hpos => rfl

/-- The readers of the uplinks leave every stream alone. -/
theorem stream_closeUplink (r : TcpRouter) (u : Uplink) (j : ConnId) :
    (r.closeUplink u).stream j = r.stream j := by
  simp only [stream, (r.tables_closeUplink u).2.2.1]

theorem stream_uplinkFrame (r : TcpRouter) (u : Uplink) (i : Inbound) (j : ConnId) :
    (r.step (.uplinkFrame u i)).stream j = r.stream j := by
  rcases r.step_uplinkFrame u i with ⟨d, f, -, h⟩ | h | h
  · rw [h]
    exact stream_modify r d j _ fun c => (c.sentOn_forward f).stream
  · rw [h]
  · rw [h]
    exact stream_closeUplink r u j

/-- Handling a frame of connection `k` gives routes to no other connection. -/
theorem find_handleFrame {r : TcpRouter} {k : ConnId} (hk : k < r.connections.length)
    {i : Inbound} {id : MailboxId} {j : ConnId} (hj : j ≠ k)
    (h : (r.handleFrame k i).find id = some j) : r.find id = some j := by
  unfold handleFrame at h
  split at h
  · exact h
  · cases i with
    | torn hd hpos => exact h
    | whole f =>
      have howner : (r.directory.apply (r.frameEffect k f)).owner id = some j := by
        rw [← directory_dispatch r k f hk]
        exact h
      rcases Directory.owner_of_owner_apply howner with hold | hclaim
      · exact hold
      · -- Claims are for the connection that sent the frame.
        have hjk : j = k := by
          unfold frameEffect at hclaim
          split at hclaim <;> (try split at hclaim) <;> simp_all
        exact absurd hjk hj

end TcpRouter

/-! ### Reading -/

namespace TcpSocket

/-- What a round reads from a stream that begins with a frame that is not oversized. -/
theorem readInbound_of_frame {s : TcpSocket} {f : Frame} {rest : List UInt8} {maxMsgSize : Nat}
    (h : s.Chunked (f.encode ++ rest)) (hsize : f.body.length ≤ maxMsgSize) :
    (s.readInbound maxMsgSize).1 = some (.whole f) ∧
      (s.readInbound maxMsgSize).2.Chunked rest := by
  rw [Frame.encode, List.append_assoc] at h
  obtain ⟨hgot, hbody⟩ := h.recvAll_append
  rw [FrameHeader.length_encode] at hgot hbody
  unfold readInbound
  generalize s.recvAll sizeofFrameHeader = r at hgot hbody
  obtain ⟨got, s⟩ := r
  obtain rfl : got = some f.header.encode := hgot
  simp only [FrameHeader.decode_encode]
  rw [f.body_length] at hsize
  rw [dif_neg (Nat.not_lt.mpr hsize)]
  -- A frame without a body is read with one `recv_all`, the others with two.
  by_cases hpos : 0 < f.header.bodyLen.toNat
  · rw [dif_pos hpos]
    obtain ⟨hgot, hrest⟩ := hbody.recvAll_append
    rw [f.body_length] at hgot hrest
    generalize s.recvAll f.header.bodyLen.toNat = r at hgot hrest
    obtain ⟨got, s⟩ := r
    obtain rfl : got = some f.body := hgot
    simp only [dif_pos f.body_length]
    exact ⟨trivial, hrest⟩
  · rw [dif_neg hpos]
    have hempty : f.body = [] :=
      List.length_eq_zero_iff.mp (f.body_length.trans (Nat.eq_zero_of_not_pos hpos))
    rw [hempty, List.nil_append] at hbody
    refine ⟨?_, hbody⟩
    cases f
    simp_all

/-- Reading does not close the socket. -/
theorem isOpen_readInbound (s : TcpSocket) (maxMsgSize : Nat) :
    (s.readInbound maxMsgSize).2.isOpen = s.isOpen := by
  have hheader := s.isOpen_recvAll sizeofFrameHeader
  unfold readInbound
  generalize s.recvAll sizeofFrameHeader = r at hheader
  obtain ⟨_ | bytes, s'⟩ := r
  · exact hheader
  simp only
  split
  · exact hheader
  · split
    · have hbody := s'.isOpen_recvAll (FrameHeader.decode bytes).bodyLen.toNat
      generalize s'.recvAll (FrameHeader.decode bytes).bodyLen.toNat = r at hbody
      obtain ⟨_ | body, s''⟩ := r
      · exact hbody.trans hheader
      · simp only
        split <;> exact hbody.trans hheader
    · exact hheader

/-- A round at the end of the stream finds nothing. -/
theorem readInbound_nil {s : TcpSocket} (h : s.Chunked []) (maxMsgSize : Nat) :
    (s.readInbound maxMsgSize).1 = none := by
  have hnone := h.recvAll_of_lt (show ([] : List UInt8).length < sizeofFrameHeader by decide)
  unfold readInbound
  generalize s.recvAll sizeofFrameHeader = r at hnone
  obtain ⟨got, s⟩ := r
  obtain rfl : got = none := hnone
  rfl

end TcpSocket

/-! ### Rounds of one thread -/

namespace ConnectionRuns

/-- The next `n` rounds of the thread of connection `k`, where `answers` are what `::poll` would
answer for an open descriptor. -/
def ownRounds (k : ConnId) (answers : Nat → Int) (n : Nat) : List Event :=
  (List.range n).flatMap fun i => [.loopCondition k, .poll k (answers i)]

end ConnectionRuns

end CoreRaT.Spec
