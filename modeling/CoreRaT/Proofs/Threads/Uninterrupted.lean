import CoreRaT.Proofs.Threads.Matching

/-!
# `CoreRaT.Proofs.Threads.Uninterrupted`: a handler that is not interrupted

When no other thread gets in between, the sections of a handler do what `handle_frame` does in
one step (`Matches.dispatch`). So every run of `Spec/TcpRouter.lean` is one of the runs of
`Spec/RouterThreads.lean` (`simulates_run`). What is proved for every interleaving of the threads
holds for the router that handles one frame at a time, too.

Sends do not fail, frames fit, and only the connections have threads, as
`Spec/RouterThreads.lean` has it (`Orderly`).
-/

set_option autoImplicit false

namespace CoreRaT.Spec

open CoreRaT.Lib

namespace RouterThreads

/-! ### Handlers -/

/-- The event is a step of the thread of connection `k`. -/
def OfThread (k : ConnId) : Event → Prop
  | .recv j _ => j = k
  | .tick j => j = k
  | .snapshot j _ => j = k
  | _ => False

/-- The thread of connection `k` gets from `s` to a state that matches `r`, without being
interrupted. -/
def Does (k : ConnId) (r : TcpRouter) (s : RouterThreads) : Prop :=
  ∃ es : List Event, (∀ e ∈ es, OfThread k e) ∧ Matches r (runFrom step s es)

theorem Does.step {k : ConnId} {r : TcpRouter} {s : RouterThreads} {e : Event}
    (he : OfThread k e) (h : Does k r (s.step e)) : Does k r s := by
  obtain ⟨es, hes, hmatch⟩ := h
  refine ⟨e :: es, ?_, hmatch⟩
  intro e' he'
  rcases List.mem_cons.mp he' with rfl | hmem
  · exact he
  · exact hes e' hmem

theorem Does.tick {k : ConnId} {r : TcpRouter} {s : RouterThreads}
    (h : Does k r (s.step (.tick k))) : Does k r s :=
  Does.step (show OfThread k (.tick k) from rfl) h

/-- Back in the loop, no thread is inside a handler. -/
theorem At.toMatches {k : ConnId} {r : TcpRouter} {s : RouterThreads} (h : At k .loop r s)
    (hk : r.idlePc k = .loop) : Matches r s := by
  refine ⟨h.tables, ?_⟩
  intro j
  by_cases hj : j = k
  · rw [hj]
    exact h.pc.trans hk.symm
  · exact h.others j hj

theorem At.done {k : ConnId} {r : TcpRouter} {s : RouterThreads} (h : At k .loop r s)
    (hk : r.idlePc k = .loop) : Does k r s :=
  ⟨[], by simp, h.toMatches hk⟩

/-- A write does not end a thread. -/
theorem idlePc_perform (r : TcpRouter) (d j : ConnId) (op : WriteOp) :
    (r.modify d op.perform).idlePc j = r.idlePc j :=
  TcpRouter.idlePc_modify r d j _ fun c => (op.sentOn_perform c).finished

/-- The sends of `broadcast_to_peers`. -/
theorem At.broadcast {k : ConnId} {a : Announcement} {id : MailboxId} (ds : List ConnId) :
    ∀ {r : TcpRouter} {s : RouterThreads}, At k (.broadcast a id ds) r s → r.idlePc k = .loop →
      Does k (ds.foldl (fun r d => r.modify d (a.op id).perform) r) s := by
  -- Induction on the peers that are left: one section for each, and one that goes back to the loop.
  induction ds with
  | nil =>
    intro r s h hk
    exact .tick ((h.tick (h.tables.goto k .loop) rfl fun _ => rfl).done hk)
  | cons d ds ih =>
    intro r s h hk
    have hwrite : SameTables (r.modify d (a.op id).perform) (s.write k d (a.frame id)) :=
      a.frame_op id ▸ h.tables.write k d (a.op id)
    refine .tick (ih (h.tick (hwrite.goto k _) rfl fun j => idlePc_perform r d j _) ?_)
    rw [idlePc_perform]
    exact hk

/-- `broadcast_to_peers`. -/
theorem At.announce {k : ConnId} {a : Announcement} {id : MailboxId} {r : TcpRouter}
    {s : RouterThreads} (h : At k (.peersSnapshot a id) r s) (hk : r.idlePc k = .loop) :
    Does k (r.broadcastToPeers (a.op id).perform) s := by
  have hpeers : s.connections.filter (s.isPeer ·)
      = (List.range r.connections.length).filter (r.isPeer ·) := by
    rw [h.tables.connections, funext h.tables.isPeer]
  rw [TcpRouter.broadcastToPeers_eq, ← hpeers]
  exact .tick ((h.tick (h.tables.goto k _) rfl fun _ => rfl).broadcast _ hk)

/-- The frames of `advertise_as_peer` behind the snapshot. -/
theorem At.registers {k : ConnId} (ids : List MailboxId) :
    ∀ {r : TcpRouter} {s : RouterThreads}, At k (.advertise ids) r s → r.idlePc k = .loop →
      Does k (ids.foldl (fun r id => r.modify k (WriteOp.sendPeerRegister id).perform) r) s := by
  induction ids with
  | nil =>
    intro r s h hk
    exact .tick ((h.tick (h.tables.goto k .loop) rfl fun _ => rfl).done hk)
  | cons id ids ih =>
    intro r s h hk
    have hwrite := h.tables.write k k (.sendPeerRegister id)
    refine .tick (ih (h.tick (hwrite.goto k _) rfl fun j => idlePc_perform r k j _) ?_)
    rw [idlePc_perform]
    exact hk

/-- `advertise_as_peer`. -/
theorem At.advertise {k : ConnId} {r : TcpRouter} {s : RouterThreads} (h : At k .hello r s)
    (hk : r.idlePc k = .loop) : Does k (r.advertiseAsPeer k) s := by
  rw [TcpRouter.advertiseAsPeer_eq]
  have hhello : At k .snapshot (r.modify k WriteOp.hello.perform) (s.step (.tick k)) :=
    h.tick ((h.tables.write k k .hello).goto k .snapshot) rfl fun j => idlePc_perform r k j _
  refine .tick ?_
  generalize s.step (.tick k) = s at hhello
  refine Does.step (e := .snapshot k r.localMailboxes) rfl ?_
  -- The model of one step lists the snapshot in the order of `localMailboxes`, which is one of the
  -- orders that the thread can find.
  have hsnapshot : s.step (.snapshot k r.localMailboxes)
      = s.goto k (.advertise r.localMailboxes) := by
    have hperm : r.localMailboxes.Perm s.localMailboxes := by
      rw [hhello.tables.localMailboxes]
      exact List.Perm.refl _
    simp only [RouterThreads.step, hhello.pc, hperm, and_self, if_true]
  rw [hsnapshot]
  have hids : At k (.advertise r.localMailboxes) (r.modify k WriteOp.hello.perform)
      (s.goto k (.advertise r.localMailboxes)) := by
    refine ⟨hhello.tables.goto k _, Function.update_self .., ?_⟩
    intro j hj
    exact (Function.update_of_ne hj _ _).trans (hhello.others j hj)
  refine hids.registers _ ?_
  rw [idlePc_perform]
  exact hk

/-- A thread that reads a frame stands at the first section of its handler. -/
theorem Matches.recv {r : TcpRouter} {s : RouterThreads} (h : Matches r s) {k : ConnId}
    (hk : k < r.connections.length) (hloop : r.idlePc k = .loop) (f : Frame) :
    s.step (.recv k f) = s.dispatch k f := by
  have hpc : s.pc k = .loop := (h.pc k).trans hloop
  simp only [RouterThreads.step, h.tables.started, hk, hpc, and_self, if_true]

theorem Matches.at {r : TcpRouter} {s : RouterThreads} (h : Matches r s) (k : ConnId) (p : Pc) :
    At k p r (s.goto k p) :=
  ⟨h.tables.goto k p, Function.update_self .., fun j hj =>
    (Function.update_of_ne hj _ _).trans (h.pc j)⟩

/-- `on_local_registered`. -/
theorem At.localInsert {k : ConnId} {id : MailboxId} {r : TcpRouter} {s : RouterThreads}
    (h : At k (.localInsert id) r s) (hk : r.idlePc k = .loop) :
    Does k (r.onLocalRegistered id) s := by
  have hinsert : At k (.peersSnapshot .register id)
      { r with localMailboxes := r.localMailboxes.insert id } (s.step (.tick k)) := by
    refine h.tick ?_ rfl fun _ => rfl
    rw [execute, h.tables.localMailboxes]
    exact (h.tables.setLocalMailboxes _).goto k _
  exact .tick (hinsert.announce hk)

/-- `on_local_deleted`. -/
theorem At.localErase {k : ConnId} {id : MailboxId} {r : TcpRouter} {s : RouterThreads}
    (h : At k (.localErase id) r s) (hk : r.idlePc k = .loop) :
    Does k (r.onLocalDeleted id) s := by
  have herase : At k (.peersSnapshot .delete id)
      { r with localMailboxes := r.localMailboxes.filter (· ≠ id) } (s.step (.tick k)) := by
    refine h.tick ?_ rfl fun _ => rfl
    rw [execute, h.tables.localMailboxes]
    exact (h.tables.setLocalMailboxes _).goto k _
  exact .tick (herase.announce hk)

/-- `MSG_ROUTER_MBX_INIT_WITH_REPLY`. -/
theorem At.mbxInit {r : TcpRouter} {s : RouterThreads} {k : ConnId} {f : Frame} {id : MailboxId}
    (h : At k (.initAdd id f.header) r s) (hk : r.idlePc k = .loop) (hid : f.mbx = some id) :
    Does k (r.handleMbxInit k f) s := by
  have hreg := h.tables.registry
  have hadd : At k (.initReply id f.header (r.registry.add id k).1)
      { r with registry := (r.registry.add id k).2 } (s.step (.tick k)) := by
    refine h.tick ?_ (by rw [nextPc, hreg]) fun _ => rfl
    rw [execute, hreg]
    exact (h.tables.setRegistry _).goto k _
  refine .tick ?_
  generalize s.step (.tick k) = s at hadd
  unfold TcpRouter.handleMbxInit
  simp only [hid]
  generalize r.registry.add id k = res at hadd
  obtain ⟨ok, reg⟩ := res
  -- The reply is sent whether the registration succeeded or not.
  have hreply : At k (if ok then .localInsert id else .loop)
      (({ r with registry := reg } : TcpRouter).modify k (WriteOp.initReply ok f.header).perform)
      (s.step (.tick k)) :=
    hadd.tick ((hadd.tables.write k k (.initReply ok f.header)).goto k _) rfl
      fun j => idlePc_perform _ k j _
  have hidle : (({ r with registry := reg } : TcpRouter).modify k
      (WriteOp.initReply ok f.header).perform).idlePc k = .loop :=
    (idlePc_perform _ k k _).trans hk
  refine .tick ?_
  cases ok with
  | false => exact hreply.done hidle
  | true => exact hreply.localInsert hidle

/-- `MSG_ROUTER_MBX_DELETE`. -/
theorem At.mbxDelete {r : TcpRouter} {s : RouterThreads} {k : ConnId} {f : Frame} {id : MailboxId}
    (h : At k (.deleteRemove id) r s) (hk : r.idlePc k = .loop) (hid : f.mbx = some id) :
    Does k (r.handleMbxDelete f) s := by
  have hremove : At k (.localErase id) { r with registry := r.registry.remove id }
      (s.step (.tick k)) := by
    refine h.tick ?_ rfl fun _ => rfl
    rw [execute, h.tables.registry]
    exact (h.tables.setRegistry _).goto k _
  unfold TcpRouter.handleMbxDelete
  simp only [hid]
  exact .tick (hremove.localErase hk)

/-- `forward_to_upstream`, and `MSG_ERROR` if there is no route. -/
theorem At.toUpstream {r : TcpRouter} {s : RouterThreads} {k : ConnId} {f : Frame}
    (h : At k (.upstream f) r s) (hk : r.idlePc k = .loop) :
    Does k
      (match r.forwardToUpstream f with
        | (true, r') => r'
        | (false, r') =>
          r'.modify k fun c => (c.sendAll (TcpRouter.errorReply f.header).encode).2) s := by
  have hidle : ∀ j, (r.forwardToUpstream f).2.idlePc j = r.idlePc j := by
    intro j
    rw [TcpRouter.idlePc, (r.tables_forwardToUpstream f).2.2.1]
    rfl
  by_cases hopen : s.upstreamOpen f.header.dest = true
  · obtain ⟨htrue, htables⟩ := h.tables.upstream_open k hopen
    have hsent : At k .loop (r.forwardToUpstream f).2 (s.step (.tick k)) := by
      refine h.tick ?_ (by simp only [nextPc, hopen, if_true]) hidle
      simp only [execute, hopen, if_true]
      exact htables.goto k _
    refine .tick ?_
    generalize r.forwardToUpstream f = res at htrue hsent hidle
    obtain ⟨ok, r'⟩ := res
    obtain rfl : ok = true := htrue
    exact hsent.done ((hidle k).trans hk)
  · -- No route: the sender is told.
    obtain ⟨hfalse, htables⟩ := h.tables.upstream_closed (by simpa using hopen)
    have hfailed : At k (.replyError f.header) (r.forwardToUpstream f).2 (s.step (.tick k)) := by
      refine h.tick ?_ (by simp only [nextPc, if_neg hopen]) hidle
      simp only [execute, if_neg hopen]
      exact htables.goto k _
    refine .tick (.tick ?_)
    generalize r.forwardToUpstream f = res at hfalse hfailed hidle
    obtain ⟨ok, r'⟩ := res
    obtain rfl : ok = false := hfalse
    refine (hfailed.tick ((hfailed.tables.write k k (.errorReply f.header)).goto k .loop) rfl
      fun j => idlePc_perform r' k j _).done ?_
    rw [idlePc_perform]
    exact (hidle k).trans hk

/-- The `default` case. -/
theorem At.data {r : TcpRouter} {s : RouterThreads} {k : ConnId} {f : Frame}
    (h : At k (.find f) r s) (hk : r.idlePc k = .loop) : Does k (r.handleData k f) s := by
  have hfind : s.registry.find f.header.dest = r.find f.header.dest := by
    rw [h.tables.registry]
    rfl
  unfold TcpRouter.handleData
  cases hdest : r.find f.header.dest with
  | some d =>
    rw [hdest] at hfind
    have hforward : At k (.forward d f) r (s.step (.tick k)) := by
      refine h.tick ?_ (by simp only [nextPc, hfind]) fun _ => rfl
      simp only [execute, hfind]
      exact h.tables.goto k _
    refine .tick (.tick ?_)
    exact (hforward.tick ((hforward.tables.write k d (.forward f)).goto k .loop) rfl
      fun j => idlePc_perform r d j _).done ((idlePc_perform r d k _).trans hk)
  | none =>
    rw [hdest] at hfind
    have hnext : At k (if r.isPeer k then .loop else .upstream f) r (s.step (.tick k)) := by
      refine h.tick ?_ (by simp only [nextPc, hfind, h.tables.isPeer k]) fun _ => rfl
      simp only [execute, hfind]
      exact h.tables.goto k _
    refine .tick ?_
    by_cases hpeer : r.isPeer k = true
    · rw [if_pos hpeer] at hnext
      simp only [if_pos hpeer]
      exact hnext.done hk
    · rw [if_neg hpeer] at hnext
      simp only [if_neg hpeer]
      exact hnext.toUpstream hk

/-! ### Frames, events and runs -/

/-- `MSG_ROUTER_PEER_HELLO`, when the thread has read it. -/
theorem Matches.peerHello {r : TcpRouter} {s : RouterThreads} (h : Matches r s) {k : ConnId}
    (hk : k < r.connections.length) (hloop : r.idlePc k = .loop)
    (hpeer : ¬ r.isPeer k = true) :
    Does k (r.handlePeerHello k)
      ({ s with isPeer := Function.update s.isPeer k true }.goto k .hello) := by
  have hidle : ∀ j, (r.modify k ({ · with isPeer := true })).idlePc j = r.idlePc j :=
    fun j => TcpRouter.idlePc_modify r k j _ fun _ => rfl
  rw [TcpRouter.handlePeerHello, if_neg hpeer]
  refine At.advertise ⟨(h.tables.upgrade hk).goto k .hello, Function.update_self .., ?_⟩
    ((hidle k).trans hloop)
  intro j hj
  rw [hidle j]
  exact (Function.update_of_ne hj _ _).trans (h.pc j)

/-- `MSG_ROUTER_PEER_REGISTER`, when the thread has read it. -/
theorem Matches.peerRegister {r : TcpRouter} {s : RouterThreads} (h : Matches r s) {k : ConnId}
    (hloop : r.idlePc k = .loop) (hpeer : r.isPeer k = true) {f : Frame} {id : MailboxId}
    (hid : f.mbx = some id) : Does k (r.handlePeerRegister k f) (s.goto k (.peerAdd id)) := by
  have hat := h.at k (.peerAdd id)
  have hadd : At k .loop { r with registry := (r.registry.add id k).2 }
      ((s.goto k (.peerAdd id)).step (.tick k)) := by
    refine hat.tick ?_ rfl fun _ => rfl
    rw [execute, hat.tables.registry]
    exact (hat.tables.setRegistry _).goto k _
  rw [TcpRouter.handlePeerRegister, if_pos hpeer]
  simp only [hid]
  exact .tick (hadd.done hloop)

/-- `MSG_ROUTER_PEER_DELETE`, when the thread has read it. -/
theorem Matches.peerDelete {r : TcpRouter} {s : RouterThreads} (h : Matches r s) {k : ConnId}
    (hloop : r.idlePc k = .loop) (hpeer : r.isPeer k = true) {f : Frame} {id : MailboxId}
    (hid : f.mbx = some id) : Does k (r.handlePeerDelete k f) (s.goto k (.peerRemove id)) := by
  have hat := h.at k (.peerRemove id)
  have hremove : At k .loop { r with registry := r.registry.remove id }
      ((s.goto k (.peerRemove id)).step (.tick k)) := by
    refine hat.tick ?_ rfl fun _ => rfl
    rw [execute, hat.tables.registry]
    exact (hat.tables.setRegistry _).goto k _
  rw [TcpRouter.handlePeerDelete, if_pos hpeer]
  simp only [hid]
  exact .tick (hremove.done hloop)

/-- `MSG_ROUTER_DISABLE_WATCHDOG`: the flag has no counterpart in the tables of the threads. -/
theorem Matches.disableWatchdog {r : TcpRouter} {s : RouterThreads} (h : Matches r s)
    (k : ConnId) : Matches (r.modify k ({ · with watchdogEnabled := false })) s := by
  refine ⟨?_, ?_⟩
  · refine h.tables.modify k _ s.isPeer s.out ?_ ?_ fun _ _ => rfl
    · intro j
      refine (h.tables.isPeer j).trans (TcpRouter.isPeer_modify r k j _ ?_).symm
      exact fun _ => rfl
    · intro c hc
      exact ⟨h.tables.reliable k c hc, h.tables.out k c hc⟩
  · intro j
    refine (h.pc j).trans (TcpRouter.idlePc_modify r k j _ ?_).symm
    exact fun _ => rfl

/-- A frame that is handled without interruption does what `handle_frame` does. -/
theorem Matches.dispatch {r : TcpRouter} {s : RouterThreads} (h : Matches r s) {k : ConnId}
    (hk : k < r.connections.length) (hloop : r.idlePc k = .loop) (f : Frame) :
    Does k (r.dispatch k f) s := by
  have hdone : Does k r s := ⟨[], by simp, h⟩
  have hpeer := h.tables.isPeer k
  -- The thread reads the frame, and then takes the sections of its handler.
  have hrecv : ∀ {r' : TcpRouter} {s' : RouterThreads}, s.dispatch k f = s' → Does k r' s' →
      Does k r' s := by
    intro r' s' hread hdoes
    refine Does.step (e := .recv k f) rfl ?_
    rw [h.recv hk hloop, hread]
    exact hdoes
  unfold TcpRouter.dispatch
  cases hkind : f.header.kind with
  | peerHello =>
    by_cases hyes : r.isPeer k = true
    · simpa only [TcpRouter.handlePeerHello, if_pos hyes] using hdone
    · refine hrecv ?_ (h.peerHello hk hloop hyes)
      simp only [RouterThreads.dispatch, hkind, hpeer, if_neg hyes]
  | peerRegister =>
    by_cases hyes : r.isPeer k = true
    · cases hid : f.mbx with
      | none => simpa only [TcpRouter.handlePeerRegister, if_pos hyes, hid] using hdone
      | some id =>
        refine hrecv ?_ (h.peerRegister hloop hyes hid)
        simp only [RouterThreads.dispatch, hkind, hid, hpeer, if_pos hyes]
    · simpa only [TcpRouter.handlePeerRegister, if_neg hyes] using hdone
  | peerDelete =>
    by_cases hyes : r.isPeer k = true
    · cases hid : f.mbx with
      | none => simpa only [TcpRouter.handlePeerDelete, if_pos hyes, hid] using hdone
      | some id =>
        refine hrecv ?_ (h.peerDelete hloop hyes hid)
        simp only [RouterThreads.dispatch, hkind, hid, hpeer, if_pos hyes]
    · simpa only [TcpRouter.handlePeerDelete, if_neg hyes] using hdone
  | disableWatchdog => exact ⟨[], by simp, h.disableWatchdog k⟩
  | mbxInit =>
    cases hid : f.mbx with
    | none => simpa only [TcpRouter.handleMbxInit, hid] using hdone
    | some id =>
      refine hrecv ?_ ((h.at k (.initAdd id f.header)).mbxInit hloop hid)
      simp only [RouterThreads.dispatch, hkind, hid]
  | mbxDelete =>
    cases hid : f.mbx with
    | none => simpa only [TcpRouter.handleMbxDelete, hid] using hdone
    | some id =>
      refine hrecv ?_ ((h.at k (.deleteRemove id)).mbxDelete hloop hid)
      simp only [RouterThreads.dispatch, hkind, hid]
  | data =>
    refine hrecv ?_ ((h.at k (.find f)).data hloop)
    simp only [RouterThreads.dispatch, hkind]

/-- New sockets are reliable and unused, frames fit, and the uplinks are silent. -/
def Orderly (maxMsgSize : Nat) : TcpRouter.Event → Prop
  | .accept socket => socket.Reliable ∧ socket.written = []
  | .connectPeer socket => socket.Reliable ∧ socket.written = []
  | .frame _ i => i.header.bodyLen.toNat ≤ maxMsgSize
  | .eof _ => True
  | .uplinkFrame _ _ => False
  | .uplinkEnd _ => False

/-- A list with one more element. -/
theorem getElem?_append_singleton {α : Type} (l : List α) (x : α) (j : Nat) :
    (l ++ [x])[j]? = if j = l.length then some x else l[j]? := by
  rw [List.getElem?_append]
  by_cases hlt : j < l.length
  · rw [if_pos hlt, if_neg (Nat.ne_of_lt hlt)]
  · rw [if_neg hlt, List.getElem?_singleton, List.getElem?_eq_none (Nat.le_of_not_lt hlt)]
    by_cases hj : j = l.length
    · rw [if_pos hj, if_pos (by omega)]
    · rw [if_neg hj, if_neg (by omega)]

/-- The router's own thread starts the thread of a connection and inserts the connection. -/
theorem Matches.start {r : TcpRouter} {s : RouterThreads} (h : Matches r s) {socket : TcpSocket}
    (hsocket : socket.Reliable) (hnew : socket.written = []) (peer : Bool) :
    At r.connections.length (if peer then .hello else .loop)
      { r with connections := r.connections ++ [Connection.start socket peer] }
      (runFrom step s [.start peer, .insert]) := by
  have hrun : runFrom step s [.start peer, .insert]
      = { s.startConnection peer with
          connections := s.connections ++ [s.started], accepting := none } := by
    simp only [runFrom_cons, runFrom_nil, RouterThreads.step, h.tables.accepting]
    rfl
  have hstarted := h.tables.started
  rw [hrun]
  -- Connection `j` is the new one, or an old one that has not changed.
  refine ⟨⟨h.tables.registry, h.tables.localMailboxes, ?_, ?_, rfl, ?_, ?_, ?_, ?_, ?_⟩, ?_, ?_⟩
  · simp only [hstarted, h.tables.connections, List.length_append, List.length_singleton,
      List.range_succ]
  · simp only [startConnection, hstarted, List.length_append, List.length_singleton]
  · intro j
    simp only [startConnection, hstarted, TcpRouter.isPeer, getElem?_append_singleton]
    by_cases hj : j = r.connections.length
    · simp [hj, Connection.start]
    · simp only [Function.update_of_ne hj, if_neg hj]
      exact h.tables.isPeer j
  · intro j c hc
    rw [getElem?_append_singleton] at hc
    split at hc
    · rw [← Option.some_inj.mp hc]
      exact hsocket
    · exact h.tables.reliable j c hc
  · intro j c hc
    rw [getElem?_append_singleton] at hc
    simp only [startConnection, hstarted]
    split at hc
    · rename_i hj
      rw [hj, Function.update_self, ← Option.some_inj.mp hc]
      exact hnew
    · rename_i hj
      rw [Function.update_of_ne hj]
      exact h.tables.out j c hc
  · intro dest
    obtain ⟨t, ht, hopen⟩ := h.tables.upstream dest
    exact ⟨t, (r.socketAt_upstreamRoute _ dest).trans ht, hopen⟩
  · intro dest
    exact (r.writtenAt_upstreamRoute _ dest).trans (h.tables.upstreamOut dest)
  · simp only [startConnection, hstarted, Function.update_self]
  · intro j hj
    simp only [startConnection, hstarted, Function.update_of_ne hj, TcpRouter.idlePc,
      getElem?_append_singleton, if_neg hj]
    exact h.pc j

/-- The thread of a connection leaves `run()`. -/
theorem Matches.eof {r : TcpRouter} {s : RouterThreads} (h : Matches r s) {k : ConnId}
    (hk : k < r.connections.length) (hloop : r.idlePc k = .loop) :
    Matches (r.endRun k) (s.step (.eof k)) := by
  have hpc : s.pc k = .loop := (h.pc k).trans hloop
  have hstep : s.step (.eof k) = { s with registry := r.registry.removeAll k }.goto k .ended := by
    simp only [RouterThreads.step, h.tables.started, hk, hpc, and_self, if_true,
      h.tables.registry]
  rw [hstep]
  refine ⟨SameTables.goto ?_ k .ended, ?_⟩
  · refine (h.tables.setRegistry (r.registry.removeAll k)).modify k _ s.isPeer s.out
      ?_ ?_ fun _ _ => rfl
    · intro j
      refine (h.tables.isPeer j).trans (TcpRouter.isPeer_modify _ k j _ ?_).symm
      exact fun _ => rfl
    · intro c hc
      exact ⟨h.tables.reliable k c hc, h.tables.out k c hc⟩
  · intro j
    by_cases hj : j = k
    · subst hj
      simp [RouterThreads.goto, TcpRouter.idlePc, TcpRouter.endRun, TcpRouter.getElem?_modify,
        List.getElem?_eq_getElem hk]
    · simp only [RouterThreads.goto, Function.update_of_ne hj, h.pc j, TcpRouter.idlePc,
        TcpRouter.endRun, TcpRouter.getElem?_modify, if_neg (Ne.symm hj)]

/-- One event of the router, as a run of its threads. -/
theorem Matches.step {r : TcpRouter} {s : RouterThreads} (h : Matches r s) {e : TcpRouter.Event}
    (he : Orderly r.maxMsgSize e) : ∃ es, Matches (r.step e) (runFrom RouterThreads.step s es) := by
  have hidle : ∀ {k : ConnId}, r.isLive k = true → r.idlePc k = .loop := by
    intro k hlive
    cases hc : r.connections[k]? with
    | none => simp [TcpRouter.isLive, hc] at hlive
    | some c =>
      have hrunning : c.finished = false := by
        simp only [TcpRouter.isLive, hc, Option.map_some, Option.getD_some, Bool.and_eq_true,
          Bool.not_eq_true'] at hlive
        exact hlive.1
      simp [TcpRouter.idlePc, hc, hrunning]
  cases e with
  | accept socket =>
    obtain ⟨hsocket, hnew⟩ := he
    have hat := h.start hsocket hnew false
    refine ⟨[.start false, .insert], At.toMatches hat ?_⟩
    simp [TcpRouter.idlePc, TcpRouter.step, Connection.start]
  | connectPeer socket =>
    obtain ⟨hsocket, hnew⟩ := he
    have hat := h.start hsocket hnew true
    obtain ⟨es, -, hmatch⟩ := At.advertise hat (by simp [TcpRouter.idlePc, Connection.start])
    refine ⟨[.start true, .insert] ++ es, ?_⟩
    rw [runFrom_append]
    exact hmatch
  | uplinkFrame u i => exact he.elim
  | uplinkEnd u => exact he.elim
  | eof k =>
    by_cases hlive : r.isLive k = true
    · rw [TcpRouter.step, if_pos hlive]
      exact ⟨[.eof k], h.eof (TcpRouter.lt_of_isLive hlive) (hidle hlive)⟩
    · rw [TcpRouter.step, if_neg hlive]
      exact ⟨[], h⟩
  | frame k i =>
    by_cases hlive : r.isLive k = true
    · rw [TcpRouter.step, if_pos hlive]
      have hfits : ¬ r.maxMsgSize < i.header.bodyLen.toNat := Nat.not_lt.mpr he
      cases i with
      -- The body does not arrive: no section of a handler is executed.
      | torn hd hpos =>
        refine ⟨[], ?_⟩
        simpa only [TcpRouter.handleFrame, if_neg hfits, runFrom_nil] using h
      | whole f =>
        obtain ⟨es, -, hmatch⟩ := h.dispatch (TcpRouter.lt_of_isLive hlive) (hidle hlive) f
        exact ⟨es, by simpa only [TcpRouter.handleFrame, if_neg hfits] using hmatch⟩
    · rw [TcpRouter.step, if_neg hlive]
      exact ⟨[], h⟩

/-- Does `forward_to_upstream` find an open socket? -/
def upstreamOpenOf (r : TcpRouter) (dest : MailboxId) : Bool :=
  ((r.socketAt (r.upstreamRoute dest)).map (·.isOpen)).getD false

/-- A router before its accept loop. -/
theorem matches_init (maxMsgSize : Nat) {up : TcpSocket} {sys : List SystemConnection}
    (hup : (up.isOpen = true → up.Reliable) ∧ up.written = [])
    (hsys : ∀ sc ∈ sys, (sc.socket.isOpen = true → sc.socket.Reliable) ∧
      sc.socket.written = []) :
    Matches (.init maxMsgSize up sys) (init (upstreamOpenOf (.init maxMsgSize up sys))) := by
  have hroute : ∀ dest, ∃ t, (TcpRouter.init maxMsgSize up sys).socketAt
      ((TcpRouter.init maxMsgSize up sys).upstreamRoute dest) = some t ∧
        (t.isOpen = true → t.Reliable) ∧ t.written = [] := by
    intro dest
    obtain ⟨t, ht, -⟩ := (TcpRouter.init maxMsgSize up sys).forwardToUpstream_spec
      (.bare 0 dest 0)
    have ht : (TcpRouter.init maxMsgSize up sys).socketAt
        ((TcpRouter.init maxMsgSize up sys).upstreamRoute dest) = some t := ht
    refine ⟨t, ht, ?_⟩
    unfold TcpRouter.upstreamRoute at ht
    split at ht
    · simp only [TcpRouter.socketAt, TcpRouter.init, Option.map_eq_some_iff] at ht
      obtain ⟨sc, hsc, rfl⟩ := ht
      exact hsys sc (List.mem_of_getElem? hsc)
    · obtain rfl : up = t := Option.some_inj.mp ht
      exact hup
  refine ⟨⟨rfl, rfl, rfl, rfl, rfl, fun _ => rfl, ?_, ?_, ?_, ?_⟩,
    fun _ => rfl⟩
  · intro j c hc
    cases hc
  · intro j c hc
    cases hc
  · intro dest
    obtain ⟨t, ht, hreliable, -⟩ := hroute dest
    exact ⟨t, ht, by simp [init, upstreamOpenOf, ht], hreliable⟩
  · intro dest
    obtain ⟨t, ht, -, hempty⟩ := hroute dest
    rw [TcpRouter.writtenAt_of_socketAt ht, hempty]
    rfl

/-- **The two router models.** Every run in which frames are handled one at a time is a run of the
threads: the tables agree at its end, and so do the bytes on every socket. -/
theorem simulates_run (maxMsgSize : Nat) {up : TcpSocket} {sys : List SystemConnection}
    (hup : (up.isOpen = true → up.Reliable) ∧ up.written = [])
    (hsys : ∀ sc ∈ sys, (sc.socket.isOpen = true → sc.socket.Reliable) ∧ sc.socket.written = [])
    (es : List TcpRouter.Event) (hes : ∀ e ∈ es, Orderly maxMsgSize e) :
    ∃ es', Matches (runFrom TcpRouter.step (.init maxMsgSize up sys) es)
      (runFrom step (init (upstreamOpenOf (.init maxMsgSize up sys))) es') := by
  have hrun : ∀ (r : TcpRouter) (s : RouterThreads), r.maxMsgSize = maxMsgSize → Matches r s →
      ∃ es', Matches (runFrom TcpRouter.step r es) (runFrom step s es') := by
    -- Induction on the run: the threads of one event, and then those of the rest.
    induction es with
    | nil =>
      intro r s _ h
      exact ⟨[], h⟩
    | cons e es ih =>
      intro r s hmax h
      obtain ⟨es₁, h₁⟩ := h.step (hmax.symm ▸ hes e (by simp))
      obtain ⟨es₂, h₂⟩ := ih (fun e he => hes e (by simp [he])) (r.step e) _
        ((r.maxMsgSize_step e).trans hmax) h₁
      refine ⟨es₁ ++ es₂, ?_⟩
      rw [runFrom_append]
      exact h₂
  exact hrun _ _ rfl (matches_init maxMsgSize hup hsys)

end RouterThreads

end CoreRaT.Spec
