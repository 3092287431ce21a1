import CoreRaT.Proofs.Upstream

/-!
# `CoreRaT.Proofs.Net.Hops`: what one router does with a data frame

Two facts about a step of `TcpRouter`, for any endpoint of it. `hasEnded_step`: the step ends the
reading at `endedBy`, and nowhere else. `socketAt_arrival`: a data frame that arrives is sent on the
socket at its way, `wayOn`.
-/

set_option autoImplicit false

namespace CoreRaT.Spec

open CoreRaT.Lib

/-! ### What a step ends -/

theorem TcpSocket.isOpen_sendFrame (s : TcpSocket) (f : Frame) :
    (s.sendFrame f).2.isOpen = s.isOpen := by
  have hhead := s.isOpen_sendAll f.header.encode
  unfold sendFrame
  generalize s.sendAll f.header.encode = res at hhead
  obtain ⟨ok, s'⟩ := res
  cases ok with
  | true => exact (s'.isOpen_sendAll f.body).trans hhead
  | false => exact hhead

namespace TcpRouter

theorem hasEnded_connection (r : TcpRouter) (j : ConnId) :
    r.hasEnded (.connection j) = ((r.stream j).map fun x => x.1 || !x.2.1).getD false := by
  simp only [hasEnded, stream, Option.map_map]
  rfl

theorem hasEnded_of_stream {r r' : TcpRouter} {j : ConnId} (h : r'.stream j = r.stream j) :
    r'.hasEnded (.connection j) = r.hasEnded (.connection j) := by
  rw [hasEnded_connection, hasEnded_connection, h]

theorem uplinkIsOpen_eq (r : TcpRouter) (u : Uplink) :
    r.uplinkIsOpen u = ((r.socketAt (ofUplink u)).map (·.isOpen)).getD false := by
  cases u with
  | system i => simp [uplinkIsOpen, socketAt, ofUplink, Function.comp_def]
  | upstream => rfl

theorem uplinkIsOpen_congr {r r' : TcpRouter}
    (hsys : r'.systemConnections = r.systemConnections)
    (hup : r'.upstreamSocket = r.upstreamSocket) (u : Uplink) :
    r'.uplinkIsOpen u = r.uplinkIsOpen u := by
  cases u with
  | system i => simp only [uplinkIsOpen, hsys]
  | upstream => simp only [uplinkIsOpen, hup]

theorem uplinkIsOpen_forwardToUpstream (r : TcpRouter) (f : Frame) (u : Uplink) :
    (r.forwardToUpstream f).2.uplinkIsOpen u = r.uplinkIsOpen u := by
  obtain ⟨s, hs, -, hsocket⟩ := r.forwardToUpstream_spec f
  rw [uplinkIsOpen_eq, uplinkIsOpen_eq, hsocket]
  split
  · rename_i hu
    rw [hu, hs]
    simp [TcpSocket.isOpen_sendFrame]
  · rfl

/-- Handling a frame closes no uplink. -/
theorem uplinkIsOpen_handleFrame (r : TcpRouter) (k : ConnId) (i : Inbound) (u : Uplink) :
    (r.handleFrame k i).uplinkIsOpen u = r.uplinkIsOpen u := by
  unfold handleFrame
  split
  · exact uplinkIsOpen_congr rfl rfl u
  · cases i with
    | torn h hpos => rfl
    | whole f =>
      simp only [dispatch]
      cases f.header.kind with
      | peerHello =>
        simp only [handlePeerHello]
        split <;> exact uplinkIsOpen_congr rfl rfl u
      | peerRegister =>
        simp only [handlePeerRegister]
        split
        · split <;> exact uplinkIsOpen_congr rfl rfl u
        · rfl
      | peerDelete =>
        simp only [handlePeerDelete]
        split
        · split <;> exact uplinkIsOpen_congr rfl rfl u
        · rfl
      | disableWatchdog => exact uplinkIsOpen_congr rfl rfl u
      | mbxInit =>
        simp only [handleMbxInit]
        split
        · split <;> exact uplinkIsOpen_congr rfl rfl u
        · rfl
      | mbxDelete =>
        simp only [handleMbxDelete]
        split <;> exact uplinkIsOpen_congr rfl rfl u
      | data =>
        have hforward := r.uplinkIsOpen_forwardToUpstream f u
        simp only [handleData]
        split
        · exact uplinkIsOpen_congr rfl rfl u
        · split
          · rfl
          · generalize r.forwardToUpstream f = res at hforward
            obtain ⟨ok, r'⟩ := res
            cases ok with
            | true => exact hforward
            | false => exact (uplinkIsOpen_congr rfl rfl u).trans hforward

theorem hasEnded_closeUplink (r : TcpRouter) (u : Uplink) (q : Endpoint) :
    (r.closeUplink u).hasEnded q = true ↔ r.hasEnded q = true ∨ ofUplink u = q := by
  cases q with
  | connection j =>
    rw [hasEnded_of_stream (stream_closeUplink r u j)]
    cases u <;> simp [ofUplink]
  | system j =>
    cases u with
    | upstream => simp [hasEnded, closeUplink, uplinkIsOpen, ofUplink]
    | system i =>
      simp only [hasEnded, closeUplink, uplinkIsOpen, ofUplink, List.getElem?_modify,
        Endpoint.system.injEq]
      by_cases hij : i = j
      · subst hij
        cases r.systemConnections[i]? <;> simp [TcpSocket.close]
      · simp [hij]
  | upstream => cases u <;> simp [hasEnded, closeUplink, uplinkIsOpen, ofUplink, TcpSocket.close]

/-- A connection that is opened has ended only if its socket is closed. -/
theorem hasEnded_append (r : TcpRouter) (socket : TcpSocket) (isPeer : Bool) (q : Endpoint) :
    ({ r with connections := r.connections ++ [Connection.start socket isPeer] } :
      TcpRouter).hasEnded q = true ↔ r.hasEnded q = true ∨
        (if socket.isOpen then none else some (Endpoint.connection r.connections.length)) =
          some q := by
  cases q with
  | system i =>
    rw [show ∀ r' : TcpRouter, r'.hasEnded (.system i) = !r'.uplinkIsOpen (.system i)
      from fun _ => rfl]
    cases socket.isOpen <;> simp [hasEnded, uplinkIsOpen]
  | upstream => cases socket.isOpen <;> simp [hasEnded, uplinkIsOpen]
  | connection j =>
    simp only [hasEnded]
    rcases Nat.lt_trichotomy j r.connections.length with hj | rfl | hj
    · rw [List.getElem?_append_left hj]
      cases socket.isOpen with
      | true => simp
      | false => simp [Nat.ne_of_gt hj]
    · cases hopen : socket.isOpen <;> simp [Connection.start, hopen]
    · rw [List.getElem?_eq_none (Nat.le_of_lt hj),
        List.getElem?_eq_none (by simpa using Nat.succ_le_of_lt hj)]
      cases socket.isOpen with
      | true => simp
      | false => simp [Nat.ne_of_lt hj]

/-- A change that ends the connection `k`. -/
theorem hasEnded_modify {r : TcpRouter} {k : ConnId} (hk : k < r.connections.length)
    (g : Connection → Connection) (hg : ∀ c, ((g c).finished || !(g c).socket.isOpen) = true)
    (q : Endpoint) :
    (r.modify k g).hasEnded q = true ↔ r.hasEnded q = true ∨ Endpoint.connection k = q := by
  cases q with
  | system i => simp [hasEnded, modify, uplinkIsOpen]
  | upstream => simp [hasEnded, modify, uplinkIsOpen]
  | connection j =>
    simp only [hasEnded, getElem?_modify, Endpoint.connection.injEq]
    by_cases hkj : k = j
    · subst hkj
      simp [hk, hg]
    · simp [hkj]

/-- Who reads depends on the streams and on the uplinks that are open. -/
theorem hasEnded_congr {r r' : TcpRouter} (hstream : ∀ j, r'.stream j = r.stream j)
    (hup : ∀ u, r'.uplinkIsOpen u = r.uplinkIsOpen u) (q : Endpoint) :
    r'.hasEnded q = r.hasEnded q := by
  cases q with
  | connection j => exact hasEnded_of_stream (hstream j)
  | system i => exact congrArg (!·) (hup (.system i))
  | upstream => exact congrArg (!·) (hup .upstream)

/-- A frame ends its connection when it is oversized. -/
theorem hasEnded_frame (r : TcpRouter) (k : ConnId) (i : Inbound) (q : Endpoint) :
    (r.step (.frame k i)).hasEnded q = true ↔
      r.hasEnded q = true ∨ r.endedBy (.frame k i) = some q := by
  simp only [step, endedBy]
  cases hlive : r.isLive k with
  | false => simp
  | true =>
    by_cases hsize : r.maxMsgSize < i.header.bodyLen.toNat
    · simp only [if_true, hsize, decide_true, Bool.and_self, Option.some.injEq]
      rw [handleFrame_oversized hsize]
      exact hasEnded_modify (lt_of_isLive hlive) _ (fun c => by simp [TcpSocket.close]) q
    · simp only [if_true, hsize, decide_false, Bool.and_false, Bool.false_eq_true, if_false,
        reduceCtorEq, or_false]
      rw [hasEnded_congr (stream_handleFrame (Nat.not_lt.mp hsize) k)
        (r.uplinkIsOpen_handleFrame k i)]

/-- A frame ends its uplink when it is oversized or torn. -/
theorem hasEnded_uplinkFrame (r : TcpRouter) (u : Uplink) (i : Inbound) (q : Endpoint) :
    (r.step (.uplinkFrame u i)).hasEnded q = true ↔
      r.hasEnded q = true ∨ r.endedBy (.uplinkFrame u i) = some q := by
  have hclose := hasEnded_closeUplink r u q
  simp only [step, endedBy]
  cases hopen : r.uplinkIsOpen u with
  | false => simp
  | true =>
    simp only [if_true, routeFromUplink]
    cases i with
    | torn h hpos => simpa using hclose
    | whole f =>
      simp only [Inbound.header]
      by_cases hsize : r.maxMsgSize < f.header.bodyLen.toNat
      · simpa [hsize] using hclose
      · simp only [hsize, if_false, reduceCtorEq, or_false]
        split
        · rw [hasEnded_congr (fun j => stream_modify r _ j _ fun c => (c.sentOn_forward f).stream)
            (uplinkIsOpen_congr rfl rfl)]
        · rfl

/-- **What is no longer read.** A step ends the reading at the endpoint `endedBy`, and at no
other. -/
theorem hasEnded_step (r : TcpRouter) (e : Event) (q : Endpoint) :
    (r.step e).hasEnded q = true ↔ r.hasEnded q = true ∨ r.endedBy e = some q := by
  cases e with
  | accept socket => exact hasEnded_append r socket false q
  | connectPeer socket =>
    refine Iff.trans ?_ (hasEnded_append r socket true q)
    -- The advertisement is sent, and sends end nothing.
    refine Bool.eq_iff_iff.mp (hasEnded_congr (fun j => ?_) (fun u => ?_) q)
    · exact stream_modify _ _ j _ fun c => (c.sentOn_advertiseAsPeer _).stream
    · cases u <;> rfl
  | frame k i => exact r.hasEnded_frame k i q
  | eof k =>
    simp only [step, endedBy]
    cases hlive : r.isLive k with
    | false => simp
    | true =>
      simp only [if_true, Option.some.injEq]
      exact (hasEnded_modify (lt_of_isLive hlive) _ (fun _ => rfl) q).trans
        (by cases q <;> rfl)
  | uplinkFrame u i => exact r.hasEnded_uplinkFrame u i q
  | uplinkEnd u => simpa [step, endedBy] using hasEnded_closeUplink r u q

/-! ### What is written to the way -/

theorem not_oversized_of_wayOn {r : TcpRouter} {q p : Endpoint} {f : Frame}
    (hway : r.wayOn q f = some p) : ¬ r.maxMsgSize < f.header.bodyLen.toNat := by
  intro hsize
  simp [wayOn, hsize] at hway

/-- A frame that is sent on ends nothing. -/
theorem endedBy_arrival {r : TcpRouter} {q p : Endpoint} {f : Frame}
    (hway : r.wayOn q f = some p) : r.endedBy (arrival q f) = none := by
  have hsize := not_oversized_of_wayOn hway
  cases q <;> simp [arrival, endedBy, Inbound.header, hsize]

theorem upstreamRoute_ne_connection (r : TcpRouter) (dest : MailboxId) (k : ConnId) :
    r.upstreamRoute dest ≠ .connection k := by
  unfold upstreamRoute
  split <;> simp

/-- A frame that is sent on to a connection goes where its destination is registered. -/
theorem find_of_wayOn {r : TcpRouter} {q : Endpoint} {f : Frame} {d : ConnId}
    (hway : r.wayOn q f = some (.connection d)) : r.find f.header.dest = some d := by
  unfold wayOn at hway
  split at hway
  · cases hway
  · split at hway
    · rename_i hfind
      cases hway
      exact hfind
    · split at hway
      · split at hway
        · cases hway
        · exact absurd (Option.some.inj hway) (r.upstreamRoute_ne_connection _ d)
      · cases hway

theorem socketAt_forward (r : TcpRouter) (d : ConnId) (f : Frame) :
    (r.modify d fun c => (c.forward f).2).socketAt (.connection d) =
      (r.socketAt (.connection d)).map fun s => (s.sendFrame f).2 := by
  rw [socketAt_modify, if_pos rfl]
  simp only [Connection.forward_eq, socketAt, Option.map_map]
  rfl

/-- A frame without a route goes to its uplink, and the answer to the sender goes elsewhere. -/
theorem socketAt_forwardToUpstream (r : TcpRouter) (f : Frame) :
    (r.forwardToUpstream f).2.socketAt (r.upstreamRoute f.header.dest) =
      (r.socketAt (r.upstreamRoute f.header.dest)).map fun s => (s.sendFrame f).2 := by
  obtain ⟨s, hs, -, hsocket⟩ := r.forwardToUpstream_spec f
  rw [hsocket, if_pos rfl, hs]
  rfl

theorem socketAt_handleData {r : TcpRouter} {k : ConnId} {p : Endpoint} {f : Frame}
    (hway : r.wayOn (.connection k) f = some p) :
    (r.handleData k f).socketAt p = (r.socketAt p).map fun s => (s.sendFrame f).2 := by
  simp only [wayOn, not_oversized_of_wayOn hway, if_false] at hway
  unfold handleData
  cases hfind : r.find f.header.dest with
  | some d =>
    simp only [hfind, Option.some.injEq] at hway
    subst hway
    exact r.socketAt_forward d f
  | none =>
    simp only [hfind] at hway ⊢
    cases hpeer : r.isPeer k with
    | true => simp [hpeer] at hway
    | false =>
      simp only [hpeer, Bool.false_eq_true, if_false, Option.some.injEq] at hway ⊢
      subst hway
      have hsent := r.socketAt_forwardToUpstream f
      generalize r.forwardToUpstream f = res at hsent
      obtain ⟨ok, r'⟩ := res
      cases ok with
      | true => exact hsent
      | false =>
        simp only
        rw [socketAt_modify, if_neg (r.upstreamRoute_ne_connection _ k)]
        exact hsent

theorem socketAt_routeFromUplink {r : TcpRouter} {u : Uplink} {p : Endpoint} {f : Frame}
    (hway : r.wayOn (ofUplink u) f = some p) :
    (r.routeFromUplink u (.whole f)).socketAt p =
      (r.socketAt p).map fun s => (s.sendFrame f).2 := by
  have hsize := not_oversized_of_wayOn hway
  simp only [wayOn, hsize, if_false] at hway
  simp only [routeFromUplink, Inbound.header, hsize, if_false]
  cases hfind : r.find f.header.dest with
  | none => cases u <;> simp [hfind, ofUplink] at hway
  | some d =>
    simp only [hfind, Option.some.injEq] at hway
    subst hway
    exact r.socketAt_forward d f

/-- The frame is sent on the socket of its way. -/
theorem socketAt_arrival {r : TcpRouter} {q p : Endpoint} {f : Frame} (hreads : r.reads q = true)
    (hkind : f.header.kind = .data) (hway : r.wayOn q f = some p) :
    (r.step (arrival q f)).socketAt p = (r.socketAt p).map fun s => (s.sendFrame f).2 := by
  cases q with
  | connection k =>
    have hlive : r.isLive k = true := hreads
    simp only [arrival, step, hlive, if_true, handleFrame, Inbound.header,
      not_oversized_of_wayOn hway, if_false, dispatch, hkind]
    exact socketAt_handleData hway
  | system i =>
    have hopen : r.uplinkIsOpen (.system i) = true := hreads
    simp only [arrival, step, hopen, if_true]
    exact socketAt_routeFromUplink hway
  | upstream =>
    have hopen : r.uplinkIsOpen .upstream = true := hreads
    simp only [arrival, step, hopen, if_true]
    exact socketAt_routeFromUplink hway

/-- What is written to the way: the whole frame, exactly when the socket takes it. -/
theorem writtenAt_arrival_iff {r : TcpRouter} {q p : Endpoint} {f : Frame}
    (hreads : r.reads q = true) (hkind : f.header.kind = .data) (hway : r.wayOn q f = some p) :
    (r.step (arrival q f)).writtenAt p = r.writtenAt p ++ f.encode ↔
      ∃ s, r.socketAt p = some s ∧ s.TakesFrame f := by
  simp only [writtenAt, socketAt_arrival hreads hkind hway]
  cases hs : r.socketAt p with
  | none =>
    refine iff_of_false ?_ (by simp)
    simpa using fun h => absurd h f.encode_ne_nil
  | some s =>
    obtain ⟨n, hwritten, hn, htakes, -⟩ := s.sendFrame_spec f
    simp only [Option.map_some, Option.getD_some, hwritten, List.append_cancel_left_eq,
      Option.some.injEq, exists_eq_left', htakes]
    rw [List.take_eq_self_iff]
    omega

/-- Nothing of an oversized frame is sent on to a connection. -/
theorem writtenAt_oversized (r : TcpRouter) (q : Endpoint) {f : Frame}
    (hsize : r.maxMsgSize < f.header.bodyLen.toNat) (j : ConnId) :
    (r.step (arrival q f)).writtenAt (.connection j) = r.writtenAt (.connection j) := by
  have hclose : ∀ u, (r.closeUplink u).writtenAt (.connection j) =
      r.writtenAt (.connection j) := by
    intro u
    simp only [writtenAt, socketAt, (r.tables_closeUplink u).2.2.1]
  cases q with
  | connection k =>
    simp only [arrival, step]
    split
    · rw [handleFrame_oversized hsize]
      simp only [writtenAt, socketAt, getElem?_modify]
      split
      · cases r.connections[j]? <;> rfl
      · rfl
    · rfl
  | system i =>
    simp only [arrival, step, routeFromUplink, Inbound.header, hsize, if_true]
    split
    · exact hclose _
    · rfl
  | upstream =>
    simp only [arrival, step, routeFromUplink, Inbound.header, hsize, if_true]
    split
    · exact hclose _
    · rfl

end TcpRouter

end CoreRaT.Spec
