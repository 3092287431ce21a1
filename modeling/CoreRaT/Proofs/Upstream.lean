import CoreRaT.Lib.Run
import CoreRaT.Proofs.Router.Outcome
import CoreRaT.Proofs.Router.Ownership
import CoreRaT.Proofs.Run.Retired
import CoreRaT.Spec.RouterNet

/-!
# `CoreRaT.Proofs.Upstream`: the connection of a leaf to its parent

The leaf writes only data frames to the connection (`upstreamSocket_step`). So the parent registers
nothing for it and does not take it for a peer, `unrouted_data`, and then a frame of any other
connection of the parent leaves the link alone, `unrouted_step`. The only frames that the parent
writes to the link are the errors that answer the leaf's own frames.

`no_route_to_leaf`: in no run of the network does the parent have a route to the leaf over the link.
-/

set_option autoImplicit false

namespace CoreRaT.Spec

open CoreRaT.Lib

/-! ### What a leaf writes to its upstream socket -/

namespace TcpSocket

/-- As long as the socket is open, every `::send` takes at least one byte. -/
def Steady (s : TcpSocket) : Prop := s.isOpen = true → s.Reliable

theorem Steady.close (s : TcpSocket) : s.close.Steady := by
  intro h
  cases h

theorem Reliable.sendFrame {s : TcpSocket} (hs : s.Reliable) (f : Frame) :
    (s.sendFrame f).2.Reliable ∧ (s.sendFrame f).2.written = s.written ++ f.encode := by
  obtain ⟨hhead, hs'⟩ := hs.sendAll f.header.encode
  obtain ⟨hbody, hs''⟩ := hs'.sendAll f.body
  constructor
  · unfold TcpSocket.sendFrame
    generalize s.sendAll f.header.encode = res at hhead hs' hbody hs''
    obtain ⟨ok, s'⟩ := res
    obtain rfl : ok = true := hhead
    exact hs''
  · obtain ⟨n, hwritten, -, htakes, -⟩ := s.sendFrame_spec f
    rw [hwritten, htakes.mp ⟨hhead, hbody⟩, List.take_length]

theorem Steady.takesFrame_or_closed {s : TcpSocket} (hs : s.Steady) (f : Frame) :
    s.TakesFrame f ∨ s.isOpen = false := by
  cases hopen : s.isOpen with
  | false => exact Or.inr rfl
  | true =>
    obtain ⟨hhead, hs'⟩ := (hs hopen).sendAll f.header.encode
    exact Or.inl ⟨hhead, (hs'.sendAll f.body).1⟩

/-- On a closed socket nothing happens. -/
theorem sendFrame_of_closed {s : TcpSocket} (hs : s.isOpen = false) (f : Frame) :
    (s.sendFrame f).2 = s := by
  unfold sendFrame
  rw [sendAll_of_closed hs f.header.encode_ne_nil]

end TcpSocket

namespace TcpRouter

theorem upstreamSocket_closeUplink (r : TcpRouter) (u : Uplink) :
    (r.closeUplink u).upstreamSocket = r.upstreamSocket ∨
      (r.closeUplink u).upstreamSocket = r.upstreamSocket.close := by
  cases u with
  | system i => exact Or.inl rfl
  | upstream => exact Or.inr rfl

theorem upstreamSocket_forwardToUpstream (r : TcpRouter) (f : Frame) :
    (r.forwardToUpstream f).2.upstreamSocket = r.upstreamSocket ∨
      (r.forwardToUpstream f).2.upstreamSocket = (r.upstreamSocket.sendFrame f).2 := by
  unfold forwardToUpstream
  split
  · split <;> exact Or.inl rfl
  · rw [sendUpstream_eq]
    exact Or.inr rfl

theorem upstreamSocket_handleData (r : TcpRouter) (k : ConnId) (f : Frame) :
    (r.handleData k f).upstreamSocket = r.upstreamSocket ∨
      (r.handleData k f).upstreamSocket = (r.upstreamSocket.sendFrame f).2 := by
  simp only [handleData]
  split
  · exact Or.inl rfl
  · split
    · exact Or.inl rfl
    · have hforward := r.upstreamSocket_forwardToUpstream f
      generalize r.forwardToUpstream f = res at hforward
      obtain ⟨ok, r'⟩ := res
      -- The answer goes to connection `k`, so the socket is that of `r'`.
      cases ok with
      | true => exact hforward
      | false => exact hforward

/-- Of the frames, only data goes upstream. -/
theorem upstreamSocket_dispatch (r : TcpRouter) (k : ConnId) (f : Frame) :
    (r.dispatch k f).upstreamSocket = r.upstreamSocket ∨
      f.header.kind = .data ∧
        (r.dispatch k f).upstreamSocket = (r.upstreamSocket.sendFrame f).2 := by
  unfold dispatch
  cases hkind : f.header.kind with
  | peerHello =>
    simp only [handlePeerHello]
    split <;> exact Or.inl rfl
  | peerRegister =>
    simp only [handlePeerRegister]
    split
    · split <;> exact Or.inl rfl
    · exact Or.inl rfl
  | peerDelete =>
    simp only [handlePeerDelete]
    split
    · split <;> exact Or.inl rfl
    · exact Or.inl rfl
  | disableWatchdog => exact Or.inl rfl
  | mbxInit =>
    simp only [handleMbxInit]
    split
    · split <;> exact Or.inl rfl
    · exact Or.inl rfl
  | mbxDelete =>
    simp only [handleMbxDelete]
    split <;> exact Or.inl rfl
  | data =>
    rcases r.upstreamSocket_handleData k f with hsame | hsent
    · exact Or.inl hsame
    · exact Or.inr ⟨rfl, hsent⟩

/-- The upstream socket of a router changes when its reader closes it and when a data frame is
forwarded, and in no other step. -/
theorem upstreamSocket_step (r : TcpRouter) (e : Event) :
    (r.step e).upstreamSocket = r.upstreamSocket ∨
      (r.step e).upstreamSocket = r.upstreamSocket.close ∨
      ∃ f, f.header.kind = .data ∧
        (r.step e).upstreamSocket = (r.upstreamSocket.sendFrame f).2 := by
  have hclose : ∀ u, (r.closeUplink u).upstreamSocket = r.upstreamSocket ∨
      (r.closeUplink u).upstreamSocket = r.upstreamSocket.close ∨
      ∃ f, f.header.kind = .data ∧
        (r.closeUplink u).upstreamSocket = (r.upstreamSocket.sendFrame f).2 :=
    fun u => (r.upstreamSocket_closeUplink u).imp_right Or.inl
  cases e with
  | accept socket => exact Or.inl rfl
  | connectPeer socket => exact Or.inl rfl
  | eof k =>
    simp only [step]
    split <;> exact Or.inl rfl
  | uplinkFrame u i =>
    rcases r.step_uplinkFrame u i with ⟨d, f, -, h⟩ | h | h
    · rw [h]
      exact Or.inl rfl
    · rw [h]
      exact Or.inl rfl
    · rw [h]
      exact hclose u
  | uplinkEnd u => exact hclose u
  | frame k i =>
    simp only [step, handleFrame]
    split
    · split
      · exact Or.inl rfl
      · cases i with
        | torn h hpos => exact Or.inl rfl
        | whole f =>
          rcases r.upstreamSocket_dispatch k f with hsame | ⟨hdata, hsent⟩
          · exact Or.inl hsame
          · exact Or.inr (Or.inr ⟨f, hdata, hsent⟩)
    · exact Or.inl rfl

end TcpRouter

/-- The frame that has been written is the frame that the other end finds. -/
theorem framesSince_encode (written : List UInt8) (f : Frame) :
    framesSince written (written ++ f.encode) = [f] := by
  have hparse := parseFrames_encode [f] f.encode.length (by simp)
  simp only [List.flatMap_cons, List.flatMap_nil, List.append_nil] at hparse
  simp [framesSince, hparse]

theorem framesSince_self (written : List UInt8) : framesSince written written = [] := by
  simp [framesSince, parseFrames]

/-- What a leaf puts in flight is data, and its socket stays steady. -/
theorem data_of_leaf_step {r : TcpRouter} (h : r.upstreamSocket.Steady) (e : TcpRouter.Event) :
    (r.step e).upstreamSocket.Steady ∧
      ∀ f ∈ framesSince r.upstreamSocket.written (r.step e).upstreamSocket.written,
        f.header.kind = .data := by
  rcases r.upstreamSocket_step e with hsocket | hsocket | ⟨f, hdata, hsocket⟩
  · rw [hsocket, framesSince_self]
    exact ⟨h, by simp⟩
  · rw [hsocket]
    refine ⟨TcpSocket.Steady.close _, ?_⟩
    show ∀ f ∈ framesSince r.upstreamSocket.written r.upstreamSocket.written, _
    rw [framesSince_self]
    simp
  · rw [hsocket]
    cases hopen : r.upstreamSocket.isOpen with
    | false =>
      rw [TcpSocket.sendFrame_of_closed hopen, framesSince_self]
      exact ⟨h, by simp⟩
    | true =>
      obtain ⟨hreliable, hwritten⟩ := (h hopen).sendFrame f
      rw [hwritten, framesSince_encode]
      exact ⟨fun _ => hreliable, by simpa using hdata⟩

/-! ### A connection without routes at the parent -/

namespace TcpRouter

/-- Connection `j` has no routes and is not in peer mode. -/
structure Unrouted (r : TcpRouter) (j : ConnId) : Prop where
  lt : j < r.connections.length
  find : ∀ id, r.find id ≠ some j
  isPeer : r.isPeer j = false

theorem Unrouted.isPeer_get {r : TcpRouter} {j : ConnId} (h : r.Unrouted j) {c : Connection}
    (hc : r.connections[j]? = some c) : c.isPeer = false := by
  have hpeer := h.isPeer
  simpa [TcpRouter.isPeer, hc] using hpeer

theorem getElem?_modify_of_ne (r : TcpRouter) {k j : ConnId} (g : Connection → Connection)
    (hk : k ≠ j) : (r.modify k g).connections[j]? = r.connections[j]? := by
  rw [getElem?_modify, if_neg hk]

/-- `broadcast_to_peers` leaves the others alone. -/
theorem getElem?_broadcastToPeers {r : TcpRouter} {j : ConnId}
    (hj : ∀ c, r.connections[j]? = some c → c.isPeer = false) (g : Connection → Connection) :
    (r.broadcastToPeers g).connections[j]? = r.connections[j]? := by
  simp only [broadcastToPeers, List.getElem?_map]
  cases hc : r.connections[j]? with
  | none => rfl
  | some c => simp [hj c hc]

/-- Data of another connection does not come to a connection without routes. -/
theorem getElem?_handleData_of_unrouted {r : TcpRouter} {k j : ConnId} (h : r.Unrouted j)
    (hk : k ≠ j) (f : Frame) : (r.handleData k f).connections[j]? = r.connections[j]? := by
  have hcon := (r.tables_forwardToUpstream f).2.2.1
  unfold handleData
  split
  · rename_i d hd
    refine getElem?_modify_of_ne r _ ?_
    rintro rfl
    exact h.find _ hd
  · split
    · rfl
    · generalize r.forwardToUpstream f = res at hcon
      obtain ⟨ok, r'⟩ := res
      cases ok with
      | true => exact congrArg (·[j]?) hcon
      | false => exact (getElem?_modify_of_ne r' _ hk).trans (congrArg (·[j]?) hcon)

/-- Nor does its registration: the reply goes to `k`, and the broadcast to the peers. -/
theorem getElem?_handleMbxInit_of_unrouted {r : TcpRouter} {k j : ConnId} (h : r.Unrouted j)
    (hk : k ≠ j) (f : Frame) : (r.handleMbxInit k f).connections[j]? = r.connections[j]? := by
  unfold handleMbxInit
  split
  · rename_i id hid
    have hreply : ∀ buf : List UInt8,
        ({ r with registry := (r.registry.add id k).2 }.modify k
          fun c => (c.sendAll buf).2).connections[j]? = r.connections[j]? :=
      fun buf => getElem?_modify_of_ne _ _ hk
    simp only
    split
    · rw [onLocalRegistered, getElem?_broadcastToPeers]
      · exact hreply _
      · intro c hc
        exact h.isPeer_get ((hreply _).symm.trans hc)
    · exact hreply _
  · rfl

theorem getElem?_dispatch_of_unrouted {r : TcpRouter} {k j : ConnId} (h : r.Unrouted j)
    (hk : k ≠ j) (f : Frame) : (r.dispatch k f).connections[j]? = r.connections[j]? := by
  unfold dispatch
  cases hkind : f.header.kind with
  | peerHello =>
    simp only [handlePeerHello, advertiseAsPeer]
    split
    · rfl
    · rw [getElem?_modify_of_ne _ _ hk, getElem?_modify_of_ne _ _ hk]
  | peerRegister =>
    simp only [handlePeerRegister]
    split
    · split <;> rfl
    · rfl
  | peerDelete =>
    simp only [handlePeerDelete]
    split
    · split <;> rfl
    · rfl
  | disableWatchdog => exact getElem?_modify_of_ne r _ hk
  | mbxInit => exact getElem?_handleMbxInit_of_unrouted h hk f
  | mbxDelete =>
    simp only [handleMbxDelete]
    split
    · exact getElem?_broadcastToPeers (fun _ => h.isPeer_get) _
    · rfl
  | data => exact getElem?_handleData_of_unrouted h hk f

/-- A frame of another connection leaves a connection without routes alone. -/
theorem getElem?_handleFrame_of_unrouted {r : TcpRouter} {k j : ConnId} (h : r.Unrouted j)
    (hk : k ≠ j) (i : Inbound) : (r.handleFrame k i).connections[j]? = r.connections[j]? := by
  unfold handleFrame
  split
  · exact getElem?_modify_of_ne r _ hk
  · cases i with
    | torn hd hpos => rfl
    | whole f => exact getElem?_dispatch_of_unrouted h hk f

/-- Any step but a frame of its own leaves what has been written to a connection without routes
alone, and gives it no route. -/
theorem unrouted_step {r : TcpRouter} {j : ConnId} (h : r.Unrouted j) {e : Event}
    (he : ∀ i, e ≠ .frame j i) :
    (r.step e).Unrouted j ∧ (r.step e).writtenTo j = r.writtenTo j := by
  have hsame : ∀ r' : TcpRouter, r'.connections[j]? = r.connections[j]? →
      (∀ id, r'.find id ≠ some j) → r'.Unrouted j ∧ r'.writtenTo j = r.writtenTo j := by
    intro r' hcon hfind
    refine ⟨⟨?_, hfind, ?_⟩, ?_⟩
    · by_contra hge
      rw [List.getElem?_eq_none (Nat.le_of_not_lt hge), List.getElem?_eq_getElem h.lt] at hcon
      cases hcon
    · simpa [TcpRouter.isPeer, hcon] using h.isPeer
    · simp only [writtenTo, hcon]
  have hclose : ∀ u, (r.closeUplink u).Unrouted j ∧
      (r.closeUplink u).writtenTo j = r.writtenTo j := by
    intro u
    refine hsame _ (congrArg (·[j]?) (r.tables_closeUplink u).2.2.1) ?_
    intro id
    show (r.closeUplink u).registry.find id ≠ some j
    rw [(r.tables_closeUplink u).1]
    exact h.find id
  cases e with
  | accept socket => exact hsame _ (List.getElem?_append_left h.lt) h.find
  | connectPeer socket =>
    refine hsame _ ?_ h.find
    refine (getElem?_modify_of_ne _ _ (Nat.ne_of_gt h.lt)).trans ?_
    exact List.getElem?_append_left h.lt
  | eof k =>
    simp only [step]
    split
    · refine ⟨⟨?_, ?_, ?_⟩, ?_⟩
      · simpa [endRun] using h.lt
      · intro id hid
        exact h.find id (ConnectionRuns.find_endRun hid)
      · unfold endRun
        rw [isPeer_modify _ k j ({ · with finished := true }) fun _ => rfl]
        exact h.isPeer
      · simp only [writtenTo, endRun, getElem?_modify]
        split
        · simp [Function.comp_def]
        · rfl
    · exact ⟨h, rfl⟩
  | uplinkFrame u i =>
    rcases r.step_uplinkFrame u i with ⟨d, f, hd, hstep⟩ | hstep | hstep
    · rw [hstep]
      refine hsame _ (getElem?_modify_of_ne r _ ?_) h.find
      rintro rfl
      exact h.find _ hd
    · rw [hstep]
      exact ⟨h, rfl⟩
    · rw [hstep]
      exact hclose u
  | uplinkEnd u => exact hclose u
  | frame k i =>
    have hk : k ≠ j := by
      rintro rfl
      exact he i rfl
    simp only [step]
    split
    · rename_i hlive
      refine hsame _ (getElem?_handleFrame_of_unrouted h hk i) ?_
      intro id hid
      exact h.find id (find_handleFrame (lt_of_isLive hlive) (Ne.symm hk) hid)
    · exact ⟨h, rfl⟩

/-- Nor does a data frame of its own. -/
theorem unrouted_data {r : TcpRouter} {j : ConnId} (h : r.Unrouted j) {f : Frame}
    (hf : f.header.kind = .data) : (r.step (.frame j (.whole f))).Unrouted j := by
  have hdir : (r.step (.frame j (.whole f))).directory = r.directory := by
    rw [directory_step]
    simp only [effect, frameEffect, hf]
    split <;> rfl
  refine ⟨Nat.lt_of_lt_of_le h.lt (length_le_step r _), ?_, ?_⟩
  · intro id hid
    refine h.find id ?_
    rw [← hid]
    exact (congrFun (congrArg Directory.owner hdir) id).symm
  · have hgate : j ∈ (r.step (.frame j (.whole f))).directory.gateways ↔
        j ∈ r.directory.gateways := by rw [hdir]
    exact (Bool.eq_iff_iff.mpr hgate).trans h.isPeer

end TcpRouter

/-! ### The connection between the two -/

namespace RouterNet

open TcpRouter (Endpoint)

variable {ι : Type} [DecidableEq ι]

/-- Leaf `l` is connected to its parent `p` by the parent's connection `link`. The leaf sends data
only, and the parent has no route to it. -/
structure Leaf (l p : ι) (link : ConnId) (s : RouterNet ι) : Prop where
  far : s.far l .upstream = some (p, .connection link)
  steady : (s.router l).upstreamSocket.Steady
  unrouted : (s.router p).Unrouted link
  data : ∀ m ∈ s.unread p (.connection link), m.frame.header.kind = .data

theorem router_advance (s : RouterNet ι) (i : ι) (e : TcpRouter.Event) (way : Option Endpoint)
    (j : ι) :
    (s.advance i e way).router j = if j = i then (s.router i).step e else s.router j := rfl

theorem mem_unread_advance {s : RouterNet ι} {i j : ι} {e : TcpRouter.Event}
    {way : Option Endpoint} {q : Endpoint} {m : Unread} (h : m ∈ (s.advance i e way).unread j q) :
    m ∈ s.unread j q ∨ ∃ p, s.far j q = some (i, p) ∧
      m.frame ∈ framesSince ((s.router i).writtenAt p) (((s.router i).step e).writtenAt p) ∧
      m.isReply = (way == some p) := by
  rcases List.mem_append.mp h with hold | hnew
  · exact Or.inl hold
  · refine Or.inr ?_
    cases hfar : s.far j q with
    | none => simp [hfar] at hnew
    | some x =>
      obtain ⟨i', p⟩ := x
      by_cases hi : i' = i
      · subst hi
        simp only [hfar, if_true, List.mem_map] at hnew
        obtain ⟨f, hf, rfl⟩ := hnew
        exact ⟨p, rfl, hf, rfl⟩
      · simp [hfar, hi] at hnew

theorem mem_unread_dequeue {s : RouterNet ι} {j j' : ι} {q q' : Endpoint} {m : Unread}
    (h : m ∈ (s.dequeue j q).unread j' q') : m ∈ s.unread j' q' := by
  simp only [dequeue] at h
  split at h
  · rename_i heq
    rw [heq.1, heq.2]
    exact List.mem_of_mem_tail h
  · exact h

theorem Leaf.dequeue {l p : ι} {link : ConnId} {s : RouterNet ι} (h : s.Leaf l p link) (j : ι)
    (q : Endpoint) : (s.dequeue j q).Leaf l p link :=
  ⟨h.far, h.steady, h.unrouted, fun m hm => h.data m (mem_unread_dequeue hm)⟩

/-- Any step but a frame of the link that is not data. -/
theorem Leaf.advance {l p : ι} {link : ConnId} {s : RouterNet ι} (h : s.Leaf l p link) {i : ι}
    {e : TcpRouter.Event} (way : Option Endpoint)
    (he : ∀ inbound, i = p → e = .frame link inbound →
      ∃ f, inbound = .whole f ∧ f.header.kind = .data) :
    (s.advance i e way).Leaf l p link := by
  refine ⟨h.far, ?_, ?_, ?_⟩
  · rw [router_advance]
    split
    · rename_i hl
      subst hl
      exact (data_of_leaf_step h.steady e).1
    · exact h.steady
  · rw [router_advance]
    split
    · rename_i hp
      subst hp
      by_cases hlink : ∃ inbound, e = .frame link inbound
      · obtain ⟨inbound, rfl⟩ := hlink
        obtain ⟨f, rfl, hf⟩ := he inbound rfl rfl
        exact TcpRouter.unrouted_data h.unrouted hf
      · exact (TcpRouter.unrouted_step h.unrouted fun inbound heq => hlink ⟨inbound, heq⟩).1
    · exact h.unrouted
  · intro m hm
    rcases mem_unread_advance hm with hold | ⟨q, hfar, hm, -⟩
    · exact h.data m hold
    · -- What arrives at the link has been written by the leaf to its upstream socket.
      rw [s.far_symm h.far, Option.some.injEq, Prod.mk.injEq] at hfar
      obtain ⟨rfl, rfl⟩ := hfar
      exact (data_of_leaf_step h.steady e).2 m.frame hm

theorem Leaf.sendReply {l p : ι} {link : ConnId} {s : RouterNet ι} (h : s.Leaf l p link) (i : ι)
    (k : ConnId) {f : Frame} (hf : f.header.kind = .data) : (s.sendReply i k f).Leaf l p link := by
  unfold RouterNet.sendReply
  split
  · refine h.advance _ ?_
    rintro inbound rfl harrival
    cases harrival
    exact ⟨f, rfl, hf⟩
  · exact h

end RouterNet

end CoreRaT.Spec
