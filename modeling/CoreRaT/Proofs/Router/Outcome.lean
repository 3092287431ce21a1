import CoreRaT.Proofs.Router.Directory

/-!
# `CoreRaT.Proofs.Router.Outcome`: what becomes of a data frame

A data frame of a client goes to the connection that its destination is registered on, to the
first system connection for the system of the destination, or upstream. It should go there
whole, or else the client should get one `MSG_ERROR` and nothing of the frame should be left
anywhere: `OneOutcome`.

The three routes write the frame in the same two steps (`sendFrame`), but they report failure
differently. `forward_to_upstream` returns whether the frame was sent, and the sender gets its
`MSG_ERROR` if not, also when a part of the frame is already on the wire. The result of
`Connection::forward` is dropped: a registered destination whose socket fails loses the frame
and nobody is told, `frame_lost`.

`oneOutcome_iff` is exact, for every pattern of successful, short and failing sends.
-/

set_option autoImplicit false

namespace CoreRaT.Spec

open CoreRaT.Lib

/-! ### The header, then the body -/

namespace TcpSocket

/-- The two steps of every route: the header, and the body if the header was sent. -/
def sendFrame (s : TcpSocket) (f : Frame) : Bool × TcpSocket :=
  match s.sendAll f.header.encode with
  | (true, s') => s'.sendAll f.body
  | (false, s') => (false, s')

/-- Neither the `send_all` of the header nor that of the body fails. -/
def TakesFrame (s : TcpSocket) (f : Frame) : Prop :=
  (s.sendAll f.header.encode).1 = true ∧
    ((s.sendAll f.header.encode).2.sendAll f.body).1 = true

theorem sendFrame_eq_true_iff (s : TcpSocket) (f : Frame) :
    (s.sendFrame f).1 = true ↔ s.TakesFrame f := by
  unfold sendFrame TakesFrame
  generalize s.sendAll f.header.encode = res
  obtain ⟨_ | _, s'⟩ := res <;> simp

/-- Everything that the two steps leave on the wire: the first `n` bytes of the frame. -/
theorem sendFrame_spec (s : TcpSocket) (f : Frame) :
    ∃ n, (s.sendFrame f).2.written = s.written ++ f.encode.take n ∧ n ≤ f.encode.length ∧
      (s.TakesFrame f ↔ n = f.encode.length) ∧ (s.RefusesAtOnce ↔ n = 0) := by
  have hhead := f.header.encode_ne_nil
  have hsize : f.header.encode.length = sizeofFrameHeader := f.header.length_encode
  have hpos : 0 < sizeofFrameHeader := by decide
  obtain ⟨n, hw, hn, -, -, hok⟩ := s.sendAll_spec f.header.encode
  have hrefuse := s.written_sendAll_eq_iff hhead
  have hrefuse : s.RefusesAtOnce ↔ n = 0 := by
    rw [← hrefuse, hw]
    simp [hhead]
  simp only [← sendFrame_eq_true_iff, sendFrame]
  generalize s.sendAll f.header.encode = res at hw hok
  obtain ⟨ok, s'⟩ := res
  cases ok with
  | false =>
    -- The header is not out, so the frame is not.
    have hlt : n ≠ f.header.encode.length := fun h => by cases hok.mpr h
    refine ⟨n, ?_, ?_, ?_, hrefuse⟩
    · rw [Frame.encode, List.take_append_of_le_length hn]
      exact hw
    · rw [Frame.encode, List.length_append]
      omega
    · rw [Frame.encode, List.length_append]
      exact iff_of_false (by simp) (by omega)
  | true =>
    -- The header is out. The call for the body adds a prefix of the body.
    obtain rfl : n = f.header.encode.length := hok.mp rfl
    obtain ⟨m, hw', hm, -, -, hok'⟩ := s'.sendAll_spec f.body
    refine ⟨f.header.encode.length + m, ?_, ?_, ?_, ?_⟩
    · rw [hw', hw, List.take_length, Frame.encode, List.append_assoc,
        List.take_length_add_append]
    · rw [Frame.encode, List.length_append]
      omega
    · rw [Frame.encode, List.length_append]
      exact hok'.trans (by omega)
    · rw [hrefuse]
      omega

theorem TakesFrame.written {s : TcpSocket} {f : Frame} (h : s.TakesFrame f) :
    (s.sendFrame f).2.written = s.written ++ f.encode := by
  obtain ⟨n, hwritten, -, htakes, -⟩ := s.sendFrame_spec f
  rw [hwritten, htakes.mp h, List.take_length]

theorem TakesFrame.isOpen {s : TcpSocket} {f : Frame} (h : s.TakesFrame f) : s.isOpen = true := by
  by_contra hclosed
  have hhead := h.1
  rw [sendAll_of_closed (by simpa using hclosed) f.header.encode_ne_nil] at hhead
  cases hhead

end TcpSocket

/-- `forward` takes the two steps. -/
theorem Connection.forward_eq (c : Connection) (f : Frame) :
    c.forward f = ((c.socket.sendFrame f).1, { c with socket := (c.socket.sendFrame f).2 }) := by
  simp only [Connection.forward, Connection.sendAll, TcpSocket.sendFrame]
  generalize c.socket.sendAll f.header.encode = res
  obtain ⟨_ | _, s⟩ := res <;> rfl

namespace TcpRouter

/-- `forward_to_upstream` takes the two steps too. It looks whether the socket is open first, and
leaves out an empty body. -/
theorem sendUpstream_eq (s : TcpSocket) (f : Frame) : sendUpstream s f = s.sendFrame f := by
  unfold sendUpstream TcpSocket.sendFrame
  split
  · generalize s.sendAll f.header.encode = res
    obtain ⟨_ | _, s'⟩ := res
    · rfl
    · simp only
      split
      · rename_i hzero
        have hnil : f.body = [] := by
          apply List.length_eq_zero_iff.mp
          rw [f.body_length, hzero]
          rfl
        rw [hnil]
        rfl
      · rfl
  · rename_i hclosed
    rw [TcpSocket.sendAll_of_closed (by simpa using hclosed) f.header.encode_ne_nil]

/-! ### Outcomes -/

/-- From `r` to `r'`, the bytes have been written to the endpoint `p`, and nothing else has been
written anywhere. -/
def WroteOnly (r r' : TcpRouter) (p : Endpoint) (bytes : List UInt8) : Prop :=
  r'.writtenAt p = r.writtenAt p ++ bytes ∧ ∀ q, q ≠ p → r'.writtenAt q = r.writtenAt q

/-- The frame has been written whole to its route, or `MSG_ERROR` to the sender `k`, and that is
all. By `WroteOnly.unique` the two exclude each other, unless the frame is itself this error and
goes back to its sender. -/
def OneOutcome (r r' : TcpRouter) (k : ConnId) (f : Frame) : Prop :=
  r.WroteOnly r' (r.route f.header.dest) f.encode ∨
    r.WroteOnly r' (.connection k) (errorReply f.header).encode

/-- The socket of the route takes the whole frame. Or there is no registry entry, the socket of the
route does not take a single byte, and the sender's socket takes the whole error. -/
def OutcomeGuard (r : TcpRouter) (k : ConnId) (f : Frame) : Prop :=
  ∃ s, r.socketAt (r.route f.header.dest) = some s ∧
    (s.TakesFrame f ∨
      (r.find f.header.dest = none ∧ s.RefusesAtOnce ∧
        ∃ c, r.socketAt (.connection k) = some c ∧
          (c.sendAll (errorReply f.header).encode).1 = true))

/-! ### What the handler writes -/

theorem socketAt_modify (r : TcpRouter) (k : ConnId) (g : Connection → Connection)
    (p : Endpoint) :
    (r.modify k g).socketAt p
      = if p = .connection k then (r.connections[k]?).map (fun c => (g c).socket)
        else r.socketAt p := by
  cases p with
  | connection j =>
    simp only [socketAt, getElem?_modify, Endpoint.connection.injEq]
    by_cases hj : k = j
    · subst hj
      simp [Function.comp_def]
    · simp [hj, Ne.symm hj]
  | system i => rfl
  | upstream => rfl

/-- `forward_to_upstream`: it sends on the socket of its route, and on no other. -/
theorem forwardToUpstream_spec (r : TcpRouter) (f : Frame) :
    ∃ s, r.socketAt (r.upstreamRoute f.header.dest) = some s ∧
      (r.forwardToUpstream f).1 = (s.sendFrame f).1 ∧
      ∀ p, (r.forwardToUpstream f).2.socketAt p
        = if p = r.upstreamRoute f.header.dest then some (s.sendFrame f).2 else r.socketAt p := by
  unfold forwardToUpstream upstreamRoute
  cases hroute : r.systemRoute f.header.dest with
  | none =>
    refine ⟨r.upstreamSocket, rfl, ?_, ?_⟩
    · simp only [sendUpstream_eq]
    · intro p
      cases p <;> simp [socketAt, sendUpstream_eq]
  | some i =>
    -- `findIdx?` gives a position of the list, so there is a socket.
    have hi : i < r.systemConnections.length := (List.findIdx?_eq_some_iff_getElem.mp hroute).1
    simp only [List.getElem?_eq_getElem hi]
    refine ⟨r.systemConnections[i].socket, by simp [socketAt, hi], by rw [sendUpstream_eq], ?_⟩
    intro p
    cases p with
    | connection j => rfl
    | upstream => rfl
    | system j =>
      simp only [socketAt, sendUpstream_eq, Endpoint.system.injEq, List.getElem?_set]
      by_cases hj : i = j
      · subst hj
        simp [hi]
      · simp [hj, Ne.symm hj]

theorem writtenAt_of_socketAt {r : TcpRouter} {p : Endpoint} {s : TcpSocket}
    (h : r.socketAt p = some s) : r.writtenAt p = s.written := by
  simp [writtenAt, h]

/-- A frame is not empty: an endpoint cannot have got one and be unchanged. -/
theorem not_wroteOnly_of_eq {r r' : TcpRouter} {p : Endpoint} {f : Frame}
    (h : r'.writtenAt p = r.writtenAt p) : ¬ r.WroteOnly r' p f.encode := by
  rintro ⟨hwrote, -⟩
  rw [h, List.self_eq_append_right] at hwrote
  exact f.encode_ne_nil hwrote

/-- There are no two outcomes at once: what has been written, and where, is one frame. -/
theorem WroteOnly.unique {r r' : TcpRouter} {p q : Endpoint} {f g : Frame}
    (hf : r.WroteOnly r' p f.encode) (hg : r.WroteOnly r' q g.encode) : p = q ∧ f = g := by
  have hpq : p = q := by
    by_contra hne
    exact not_wroteOnly_of_eq (hg.2 p hne) hf
  subst hpq
  have hbytes : f.encode = g.encode ++ [] := by
    rw [List.append_nil]
    exact List.append_cancel_left (hf.1.symm.trans hg.1)
  exact ⟨rfl, (Frame.eq_of_encode_eq_append hbytes).1⟩

/-- A send to connection `k`: a part of the bytes, all of them exactly when it succeeds. -/
theorem writtenAt_sendAll {r : TcpRouter} {k : ConnId} {c : Connection}
    (hc : r.connections[k]? = some c) (buf : List UInt8) :
    ∃ m, m ≤ buf.length ∧ ((c.socket.sendAll buf).1 = true ↔ m = buf.length) ∧
      ∀ p, (r.modify k fun c => (c.sendAll buf).2).writtenAt p
        = if p = .connection k then r.writtenAt p ++ buf.take m else r.writtenAt p := by
  obtain ⟨m, hw, hm, -, -, hok⟩ := c.socket.sendAll_spec buf
  refine ⟨m, hm, hok, ?_⟩
  intro p
  by_cases hp : p = .connection k
  · subst hp
    have hbefore : r.writtenAt (.connection k) = c.socket.written :=
      writtenAt_of_socketAt (by simp [socketAt, hc])
    rw [if_pos rfl, hbefore]
    simp [writtenAt, socketAt_modify, hc, Connection.sendAll, hw]
  · simp [writtenAt, socketAt_modify, hp]

/-- With a registry entry: the frame goes to that connection, as far as its socket takes it, and
the sender is told nothing. -/
theorem oneOutcome_of_registered {r : TcpRouter} {k d : ConnId} {f : Frame} {c : Connection}
    (hfind : r.find f.header.dest = some d) (hc : r.connections[d]? = some c) :
    r.OneOutcome (r.handleData k f) k f ↔ c.socket.TakesFrame f := by
  have hroute : r.route f.header.dest = .connection d := by simp [route, hfind]
  have hbefore : r.writtenAt (.connection d) = c.socket.written :=
    writtenAt_of_socketAt (by simp [socketAt, hc])
  have hsocket : ∀ p, (r.handleData k f).socketAt p
      = if p = .connection d then some (c.socket.sendFrame f).2 else r.socketAt p := by
    intro p
    simp only [handleData, hfind, socketAt_modify, hc, Option.map_some, Connection.forward_eq]
  obtain ⟨n, hw, hn, htakes, -⟩ := c.socket.sendFrame_spec f
  have hat : (r.handleData k f).writtenAt (.connection d)
      = r.writtenAt (.connection d) ++ f.encode.take n := by
    rw [writtenAt_of_socketAt ((hsocket _).trans (if_pos rfl)), hw, hbefore]
  have helse : ∀ p, p ≠ .connection d → (r.handleData k f).writtenAt p = r.writtenAt p := by
    intro p hp
    simp only [writtenAt, hsocket, if_neg hp]
  -- `n` bytes of the frame are at its destination, and nothing is anywhere else.
  rw [OneOutcome, hroute, htakes]
  constructor
  · rintro (⟨hwrote, -⟩ | herror)
    · rw [hat, List.append_cancel_left_eq] at hwrote
      have hlen := congrArg List.length hwrote
      rw [List.length_take] at hlen
      omega
    · by_cases hkd : k = d
      · -- The sender is its own destination, and what it got is the error: then the frame itself
        -- was such an error, and it is whole.
        subst hkd
        obtain ⟨hwrote, -⟩ := herror
        rw [hat, List.append_cancel_left_eq] at hwrote
        have hsplit := (List.take_append_drop n f.encode).symm
        rw [hwrote] at hsplit
        have hrest := (Frame.eq_of_encode_eq_append hsplit).2
        rw [List.drop_eq_nil_iff] at hrest
        omega
      · exact absurd herror (not_wroteOnly_of_eq (helse _ (by simpa using hkd)))
  · intro hall
    refine Or.inl ⟨?_, helse⟩
    rw [hat, hall, List.take_length]

/-- Behind a part of the frame upstream, the sender is told. That is one outcome when no byte of the
frame is out and all of the error is. -/
theorem oneOutcome_of_part {r r' : TcpRouter} {k : ConnId} {f : Frame} {c : Connection} {n : Nat}
    (hroute : r.route f.header.dest = r.upstreamRoute f.header.dest)
    (hne : r.upstreamRoute f.header.dest ≠ .connection k) (hc : r'.connections[k]? = some c)
    (hout : r'.writtenAt (r.upstreamRoute f.header.dest)
      = r.writtenAt (r.upstreamRoute f.header.dest) ++ f.encode.take n)
    (helse : ∀ p, p ≠ r.upstreamRoute f.header.dest → r'.writtenAt p = r.writtenAt p)
    (hpart : n < f.encode.length) :
    r.OneOutcome (r'.modify k fun c => (c.sendAll (errorReply f.header).encode).2) k f ↔
      n = 0 ∧ (c.socket.sendAll (errorReply f.header).encode).1 = true := by
  obtain ⟨m, hm, hok, hreply⟩ := writtenAt_sendAll hc (errorReply f.header).encode
  rw [OneOutcome, hroute, hok]
  constructor
  · rintro (⟨hwrote, -⟩ | ⟨hwrote, hothers⟩)
    -- The whole frame on its route? It is not out whole.
    · rw [hreply, if_neg hne, hout, List.append_cancel_left_eq] at hwrote
      have hlen := congrArg List.length hwrote
      rw [List.length_take] at hlen
      omega
    · have hnone := hothers _ hne
      rw [hreply, if_neg hne, hout, List.append_right_eq_self] at hnone
      rw [hreply, if_pos rfl, helse _ (Ne.symm hne), List.append_cancel_left_eq] at hwrote
      have hlen := congrArg List.length hwrote
      have hlen' := congrArg List.length hnone
      rw [List.length_take] at hlen hlen'
      rw [List.length_nil] at hlen'
      exact ⟨by omega, by omega⟩
  · rintro ⟨hzero, hall⟩
    refine Or.inr ⟨?_, ?_⟩
    · rw [hreply, if_pos rfl, helse _ (Ne.symm hne), hall, List.take_length]
    · intro p hp
      rw [hreply, if_neg hp]
      by_cases hp' : p = r.upstreamRoute f.header.dest
      · rw [hp', hout, hzero, List.take_zero, List.append_nil]
      · exact helse p hp'

/-- Without a registry entry: the frame goes to the route upstream, and the sender is told if that
fails. -/
theorem oneOutcome_of_unregistered {r : TcpRouter} {k : ConnId} {f : Frame} {c : Connection}
    (hfind : r.find f.header.dest = none) (hpeer : r.isPeer k = false)
    (hc : r.connections[k]? = some c) {s : TcpSocket}
    (hs : r.socketAt (r.route f.header.dest) = some s) :
    r.OneOutcome (r.handleData k f) k f ↔
      s.TakesFrame f ∨ (s.RefusesAtOnce ∧
        (c.socket.sendAll (errorReply f.header).encode).1 = true) := by
  have hroute : r.route f.header.dest = r.upstreamRoute f.header.dest := by simp [route, hfind]
  have hne : r.upstreamRoute f.header.dest ≠ .connection k := by
    unfold upstreamRoute
    split <;> simp
  obtain ⟨s', hs', hok, hsocket⟩ := r.forwardToUpstream_spec f
  rw [hroute] at hs
  obtain rfl : s' = s := Option.some_inj.mp (hs'.symm.trans hs)
  have hbefore := writtenAt_of_socketAt hs
  have hconn := (r.tables_forwardToUpstream f).2.2.1
  obtain ⟨n, hw, hn, htakes, hrefuses⟩ := s'.sendFrame_spec f
  have htrue := s'.sendFrame_eq_true_iff f
  rw [htakes, hrefuses]
  rw [htakes, ← hok] at htrue
  unfold handleData
  simp only [hfind, hpeer, Bool.false_eq_true, if_false]
  generalize r.forwardToUpstream f = res at hsocket hconn htrue
  obtain ⟨ok, r'⟩ := res
  simp only at hsocket hconn htrue ⊢
  -- What `forward_to_upstream` leaves behind: `n` bytes of the frame on its route.
  have hout : r'.writtenAt (r.upstreamRoute f.header.dest)
      = r.writtenAt (r.upstreamRoute f.header.dest) ++ f.encode.take n := by
    rw [writtenAt_of_socketAt ((hsocket _).trans (if_pos rfl)), hw, hbefore]
  have helse : ∀ p, p ≠ r.upstreamRoute f.header.dest → r'.writtenAt p = r.writtenAt p := by
    intro p hp
    simp only [writtenAt, hsocket, if_neg hp]
  cases ok with
  | true =>
    have hall : n = f.encode.length := htrue.mp rfl
    refine iff_of_true (Or.inl ?_) (Or.inl hall)
    rw [hroute]
    refine ⟨?_, helse⟩
    rw [hout, hall, List.take_length]
  -- The frame is not out whole, so the sender is told.
  | false =>
    have hpart : n ≠ f.encode.length := fun h => by cases htrue.mpr h
    have hc' : r'.connections[k]? = some c := by rw [hconn, hc]
    rw [oneOutcome_of_part hroute hne hc' hout helse (by omega), or_iff_right hpart]

/-- **One outcome per data frame.** A data frame of a client is written whole to its route, or the
sender gets one `MSG_ERROR` and nothing of the frame is left anywhere, exactly when the socket of
the route takes the whole frame, or there is no registry entry, the socket of the route takes
nothing, and the sender's socket takes the whole error. -/
theorem oneOutcome_iff (r : TcpRouter) (hr : r.Wf) (k : ConnId) (hk : k < r.connections.length)
    (hpeer : r.isPeer k = false) (f : Frame) (hkind : f.header.kind = .data) :
    r.OneOutcome (r.dispatch k f) k f ↔ r.OutcomeGuard k f := by
  have hdispatch : r.dispatch k f = r.handleData k f := by simp only [dispatch, hkind]
  have hc := List.getElem?_eq_getElem hk
  rw [hdispatch]
  cases hfind : r.find f.header.dest with
  | some d =>
    -- The route leads to a connection that exists, so there is a socket to look at.
    have hlt : d < r.connections.length := hr _ d hfind
    have hd := List.getElem?_eq_getElem hlt
    have hroute : r.socketAt (r.route f.header.dest) = some r.connections[d].socket := by
      simp [route, hfind, socketAt, hd]
    rw [oneOutcome_of_registered hfind hd]
    simp [OutcomeGuard, hroute, hfind]
  | none =>
    obtain ⟨s, hs, -⟩ := r.forwardToUpstream_spec f
    have hroute : r.socketAt (r.route f.header.dest) = some s := by
      simpa [route, hfind] using hs
    have hsender : r.socketAt (.connection k) = some r.connections[k].socket := by
      simp [socketAt, hc]
    rw [oneOutcome_of_unregistered hfind hpeer hc hroute]
    simp [OutcomeGuard, hroute, hfind, hsender]

/-- A socket whose sends give these results. -/
def socketWith (sendResults : Nat → Int) : TcpSocket := ⟨true, sendResults, [], []⟩

/-- Connection 0 is a client whose sends succeed. Connection 1 has registered mailbox 7 and got its
reply; the sends after that give `later`. -/
def clientAndOwner (later : Int) : TcpRouter :=
  runFrom step (init 64 (socketWith fun _ => 64).close [])
    [.accept (socketWith fun _ => 64),
      .accept (socketWith fun i => if i = 0 then 64 else later),
      .frame 1 (.whole (.ofMbx MSG_ROUTER_MBX_INIT_WITH_REPLY 7))]

theorem wf_clientAndOwner (later : Int) : (clientAndOwner later).Wf :=
  (allStates_of_step (fun r e h => wf_step r e h) _ (wf_init _ _ _)).last

/-- A data frame for mailbox 7. -/
def dataTo7 : Frame := ⟨makeFrame 0 7 9 0 5 2, [1, 2], by decide⟩

/-- The sends to the owner of mailbox 7 fail. The frame is not delivered, and the sender gets no
error. -/
theorem frame_lost :
    (clientAndOwner (-1)).Wf ∧ (clientAndOwner (-1)).isPeer 0 = false ∧
      dataTo7.header.kind = .data ∧
      ¬ (clientAndOwner (-1)).OneOutcome ((clientAndOwner (-1)).dispatch 0 dataTo7) 0 dataTo7 ∧
      ((clientAndOwner (-1)).dispatch 0 dataTo7).writtenAt (.connection 0)
        = (clientAndOwner (-1)).writtenAt (.connection 0) ∧
      ((clientAndOwner (-1)).dispatch 0 dataTo7).writtenAt (.connection 1)
        = (clientAndOwner (-1)).writtenAt (.connection 1) := by
  have hsender : ((clientAndOwner (-1)).dispatch 0 dataTo7).writtenAt (.connection 0)
      = (clientAndOwner (-1)).writtenAt (.connection 0) := by decide
  have howner : ((clientAndOwner (-1)).dispatch 0 dataTo7).writtenAt (.connection 1)
      = (clientAndOwner (-1)).writtenAt (.connection 1) := by decide
  have hroute : (clientAndOwner (-1)).route dataTo7.header.dest = .connection 1 := by decide
  refine ⟨wf_clientAndOwner _, by decide, by decide, ?_, hsender, howner⟩
  rintro (h | h)
  · rw [hroute] at h
    exact not_wroteOnly_of_eq howner h
  · exact not_wroteOnly_of_eq hsender h

/-- The owner's socket takes the frame, four bytes at a time. -/
theorem frame_delivered :
    (clientAndOwner 4).OneOutcome ((clientAndOwner 4).dispatch 0 dataTo7) 0 dataTo7 := by
  refine (oneOutcome_iff _ (wf_clientAndOwner 4) 0 (by decide) (by decide) dataTo7
    (by decide)).mpr ?_
  refine ⟨(clientAndOwner 4).connections[1].socket, rfl, Or.inl ⟨by decide, by decide⟩⟩

end TcpRouter

end CoreRaT.Spec
