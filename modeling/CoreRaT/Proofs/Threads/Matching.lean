import CoreRaT.Proofs.Framing
import CoreRaT.Proofs.Router.Outcome
import CoreRaT.Proofs.Threads.Steps

/-!
# `CoreRaT.Proofs.Threads.Matching`: one router, two models

`Spec/TcpRouter.lean` handles a frame in one step, and `Spec/RouterThreads.lean` takes the
handler apart into sections. `SameTables` relates a state of the first to a state of the second:
the tables agree, and the bytes on each socket are the frames that the threads have written, one
after the other. One lemma for each kind of change to the tables says that both models make it.
-/

set_option autoImplicit false

namespace CoreRaT.Spec

open CoreRaT.Lib

theorem WriteOp.sentOn_perform (op : WriteOp) (c : Connection) : c.SentOn (op.perform c) := by
  cases op with
  | forward f => exact c.sentOn_forward f
  | sendPeerRegister id => exact c.sentOn_sendMbx _ id
  | sendPeerDelete id => exact c.sentOn_sendMbx _ id
  | hello => exact c.sentOn_sendAll _
  | initReply ok h => exact c.sentOn_sendAll _
  | errorReply h => exact c.sentOn_sendAll _

/-- The write of an announcement. -/
def Announcement.op : Announcement → MailboxId → WriteOp
  | .register, id => .sendPeerRegister id
  | .delete, id => .sendPeerDelete id

theorem Announcement.frame_op (a : Announcement) (id : MailboxId) :
    (a.op id).frame = a.frame id := by
  cases a <;> rfl

/-! ### One connection after the other -/

namespace TcpRouter

theorem modify_modify (r : TcpRouter) (k : ConnId) (g h : Connection → Connection) :
    (r.modify k g).modify k h = r.modify k fun c => h (g c) := by
  simp only [modify, List.modify_modify_eq]
  rfl

/-- Writes to several connections, one after the other. -/
theorem connections_foldl_modify (g : Connection → Connection) (ds : List ConnId)
    (hds : ds.Nodup) : ∀ (r : TcpRouter) (j : ConnId),
      (ds.foldl (fun r d => r.modify d g) r).connections[j]?
        = if j ∈ ds then (r.connections[j]?).map g else r.connections[j]? := by
  induction ds with
  | nil =>
    intro r j
    simp
  | cons d ds ih =>
    intro r j
    obtain ⟨hd, hds⟩ := List.nodup_cons.mp hds
    rw [List.foldl_cons, ih hds, getElem?_modify]
    -- `d` comes once in the list, so connection `d` is changed once.
    by_cases hj : d = j
    · subst hj
      simp [hd]
    · simp [hj, Ne.symm hj]

theorem foldl_modify_eq (g : Connection → Connection) (ds : List ConnId) (r : TcpRouter) :
    ds.foldl (fun r d => r.modify d g) r
      = { r with connections := (ds.foldl (fun r d => r.modify d g) r).connections } := by
  -- Nothing but the connections changes.
  induction ds generalizing r with
  | nil => rfl
  | cons d ds ih =>
    rw [List.foldl_cons, ih]
    rfl

/-- `broadcast_to_peers` works on the connections in peer mode, one after the other. -/
theorem broadcastToPeers_eq (r : TcpRouter) (g : Connection → Connection) :
    r.broadcastToPeers g
      = ((List.range r.connections.length).filter (r.isPeer ·)).foldl
          (fun r d => r.modify d g) r := by
  rw [foldl_modify_eq, broadcastToPeers]
  congr 1
  apply List.ext_getElem?
  intro j
  rw [connections_foldl_modify g _ (List.nodup_range.filter _), List.getElem?_map]
  cases hc : r.connections[j]? with
  | none => simp
  | some c =>
    have hj : j < r.connections.length := (List.getElem?_eq_some_iff.mp hc).1
    have hpeer : r.isPeer j = c.isPeer := by simp [isPeer, hc]
    simp only [List.mem_filter, List.mem_range, hj, hpeer, true_and, Option.map_some]
    split <;> rfl

/-- `advertise_as_peer` sends `MSG_ROUTER_PEER_HELLO` and then one frame for each mailbox. -/
theorem advertiseAsPeer_eq (r : TcpRouter) (k : ConnId) :
    r.advertiseAsPeer k
      = r.localMailboxes.foldl (fun r id => r.modify k (WriteOp.sendPeerRegister id).perform)
          (r.modify k WriteOp.hello.perform) := by
  have hfold : ∀ (ids : List MailboxId) (g : Connection → Connection),
      ids.foldl (fun r id => r.modify k (WriteOp.sendPeerRegister id).perform) (r.modify k g)
        = r.modify k fun c => ids.foldl Connection.sendPeerRegister (g c) := by
    intro ids
    induction ids with
    | nil =>
      intro g
      rfl
    | cons id ids ih =>
      intro g
      rw [List.foldl_cons, modify_modify, ih]
      rfl
  -- One `modify` with all frames is one `modify` for each of them.
  rw [hfold]
  rfl

/-! ### Upstream -/

/-- The sockets upstream are not those of the connections. -/
theorem socketAt_upstreamRoute (r : TcpRouter) (connections : List Connection)
    (dest : MailboxId) :
    ({ r with connections } : TcpRouter).socketAt (r.upstreamRoute dest)
      = r.socketAt (r.upstreamRoute dest) := by
  unfold upstreamRoute
  split <;> rfl

theorem writtenAt_upstreamRoute (r : TcpRouter) (connections : List Connection)
    (dest : MailboxId) :
    ({ r with connections } : TcpRouter).writtenAt (r.upstreamRoute dest)
      = r.writtenAt (r.upstreamRoute dest) := by
  rw [writtenAt, socketAt_upstreamRoute, writtenAt]

/-- A send upstream does not change the routes. -/
theorem upstreamRoute_forwardToUpstream (r : TcpRouter) (f : Frame) (dest : MailboxId) :
    (r.forwardToUpstream f).2.upstreamRoute dest = r.upstreamRoute dest := by
  have hids : (r.forwardToUpstream f).2.systemConnections.map (·.systemId)
      = r.systemConnections.map (·.systemId) := by
    unfold forwardToUpstream
    split
    · split
      · rename_i i hi _ sc hsc
        simp only [List.map_set]
        apply List.ext_getElem?
        intro j
        rw [List.getElem?_set]
        by_cases hj : i = j
        · subst hj
          have hlt : i < r.systemConnections.length := (List.getElem?_eq_some_iff.mp hsc).1
          rw [if_pos rfl, List.length_map, if_pos hlt, List.getElem?_map, hsc]
          rfl
        · simp [hj]
      · rfl
    · rfl
  -- The route is looked up in the system ids alone.
  have hroute : ∀ r : TcpRouter, r.systemRoute dest
      = (r.systemConnections.map (·.systemId)).findIdx? (· == systemOf dest) := by
    intro r
    rw [List.findIdx?_map]
    rfl
  simp only [upstreamRoute, hroute, hids]

/-- Where the thread of connection `j` stands between two frames. -/
def idlePc (r : TcpRouter) (j : ConnId) : Pc :=
  if (r.connections[j]?.map (·.finished)).getD false then .ended else .loop

theorem idlePc_modify (r : TcpRouter) (k j : ConnId) (g : Connection → Connection)
    (hg : ∀ c, (g c).finished = c.finished) : (r.modify k g).idlePc j = r.idlePc j := by
  simp only [idlePc, getElem?_modify]
  split
  · simp [Function.comp_def, hg]
  · rfl

end TcpRouter

namespace RouterThreads

/-! ### The relation -/

/-- The router `r` and the threads `s` have the same tables, and the bytes on each socket are the
frames that the threads have written to it. -/
structure SameTables (r : TcpRouter) (s : RouterThreads) : Prop where
  registry : s.registry = r.registry
  localMailboxes : s.localMailboxes = r.localMailboxes
  connections : s.connections = List.range r.connections.length
  started : s.started = r.connections.length
  accepting : s.accepting = none
  isPeer : ∀ j, s.isPeer j = r.isPeer j
  reliable : ∀ (j : ConnId) (c : Connection), r.connections[j]? = some c → c.socket.Reliable
  out : ∀ (j : ConnId) (c : Connection), r.connections[j]? = some c →
    c.socket.written = (s.out j).flatMap (·.frame.encode)
  upstream : ∀ dest, ∃ t, r.socketAt (r.upstreamRoute dest) = some t ∧
    t.isOpen = s.upstreamOpen dest ∧ (t.isOpen = true → t.Reliable)
  upstreamOut : ∀ dest, r.writtenAt (r.upstreamRoute dest)
    = (s.upstreamOut.filter fun w =>
        r.upstreamRoute w.frame.header.dest = r.upstreamRoute dest).flatMap (·.frame.encode)

/-- The tables agree, the thread of `k` stands at `p`, and no other thread is inside a handler. -/
structure At (k : ConnId) (p : Pc) (r : TcpRouter) (s : RouterThreads) : Prop where
  tables : SameTables r s
  pc : s.pc k = p
  others : ∀ j, j ≠ k → s.pc j = r.idlePc j

/-- The tables agree, and no thread is inside a handler. -/
structure Matches (r : TcpRouter) (s : RouterThreads) : Prop where
  tables : SameTables r s
  pc : ∀ j, s.pc j = r.idlePc j

theorem SameTables.goto {r : TcpRouter} {s : RouterThreads} (h : SameTables r s) (k : ConnId)
    (p : Pc) : SameTables r (s.goto k p) :=
  ⟨h.registry, h.localMailboxes, h.connections, h.started, h.accepting, h.isPeer, h.reliable,
    h.out, h.upstream, h.upstreamOut⟩

/-- A change of connection `d`. What the router has sent upstream is left alone. -/
theorem SameTables.modify {r : TcpRouter} {s : RouterThreads} (h : SameTables r s) (d : ConnId)
    (g : Connection → Connection) (isPeer : ConnId → Bool) (out : ConnId → List Written)
    (hpeer : ∀ j, isPeer j = (r.modify d g).isPeer j)
    (hsocket : ∀ c, r.connections[d]? = some c → (g c).socket.Reliable ∧
      (g c).socket.written = (out d).flatMap (·.frame.encode))
    (hout : ∀ j, d ≠ j → out j = s.out j) :
    SameTables (r.modify d g) { s with isPeer, out } where
  registry := h.registry
  localMailboxes := h.localMailboxes
  connections := by rw [TcpRouter.length_modify]; exact h.connections
  started := by rw [TcpRouter.length_modify]; exact h.started
  accepting := h.accepting
  isPeer := hpeer
  reliable := by
    intro j c hc
    rw [TcpRouter.getElem?_modify] at hc
    split at hc
    · rename_i hj
      subst hj
      obtain ⟨c₀, hc₀, rfl⟩ := Option.map_eq_some_iff.mp hc
      exact (hsocket c₀ hc₀).1
    · exact h.reliable j c hc
  out := by
    intro j c hc
    rw [TcpRouter.getElem?_modify] at hc
    split at hc
    · rename_i hj
      subst hj
      obtain ⟨c₀, hc₀, rfl⟩ := Option.map_eq_some_iff.mp hc
      exact (hsocket c₀ hc₀).2
    · rename_i hj
      show c.socket.written = (out j).flatMap (·.frame.encode)
      rw [hout j hj]
      exact h.out j c hc
  upstream := by
    intro dest
    obtain ⟨t, ht, hopen⟩ := h.upstream dest
    exact ⟨t, (r.socketAt_upstreamRoute _ dest).trans ht, hopen⟩
  upstreamOut := by
    intro dest
    exact (r.writtenAt_upstreamRoute _ dest).trans (h.upstreamOut dest)

/-- A write of thread `k` to connection `d`. -/
theorem SameTables.write {r : TcpRouter} {s : RouterThreads} (h : SameTables r s) (k d : ConnId)
    (op : WriteOp) : SameTables (r.modify d op.perform) (s.write k d op.frame) := by
  -- A reliable socket takes the frame whole, and `out` gets the same frame.
  refine h.modify d op.perform s.isPeer _ ?_ ?_ ?_
  · intro j
    rw [TcpRouter.isPeer_modify r d j _ fun c => (op.sentOn_perform c).isPeer]
    exact h.isPeer j
  · intro c hc
    obtain ⟨hwritten, hreliable⟩ := op.perform_of_reliable (h.reliable d c hc)
    refine ⟨hreliable, ?_⟩
    rw [hwritten, h.out d c hc, Function.update_self]
    simp
  · intro j hj
    exact Function.update_of_ne (Ne.symm hj) _ _

theorem SameTables.setRegistry {r : TcpRouter} {s : RouterThreads} (h : SameTables r s)
    (reg : MailboxRegistry) : SameTables { r with registry := reg } { s with registry := reg } :=
  ⟨rfl, h.localMailboxes, h.connections, h.started, h.accepting, h.isPeer, h.reliable, h.out,
    h.upstream, h.upstreamOut⟩

theorem SameTables.setLocalMailboxes {r : TcpRouter} {s : RouterThreads} (h : SameTables r s)
    (ids : List MailboxId) :
    SameTables { r with localMailboxes := ids } { s with localMailboxes := ids } :=
  ⟨h.registry, rfl, h.connections, h.started, h.accepting, h.isPeer, h.reliable, h.out,
    h.upstream, h.upstreamOut⟩

/-- The connection switches to peer mode. -/
theorem SameTables.upgrade {r : TcpRouter} {s : RouterThreads} (h : SameTables r s) {k : ConnId}
    (hk : k < r.connections.length) :
    SameTables (r.modify k ({ · with isPeer := true }))
      { s with isPeer := Function.update s.isPeer k true } := by
  refine h.modify k _ _ s.out ?_ ?_ fun j _ => rfl
  · intro j
    by_cases hj : k = j
    · subst hj
      simp [TcpRouter.isPeer, TcpRouter.getElem?_modify, List.getElem?_eq_getElem hk]
    · rw [Function.update_of_ne (Ne.symm hj), h.isPeer j]
      simp [TcpRouter.isPeer, TcpRouter.getElem?_modify, hj]
  · intro c hc
    exact ⟨h.reliable k c hc, h.out k c hc⟩

/-! ### Sends upstream -/

/-- While the sends do not fail, the frame goes out whole. -/
theorem sendFrame_of_reliable {t : TcpSocket} (ht : t.Reliable) (f : Frame) :
    (t.sendFrame f).1 = true ∧ (t.sendFrame f).2.written = t.written ++ f.encode ∧
      (t.sendFrame f).2.Reliable := by
  obtain ⟨hhead, hreliable⟩ := ht.sendAll f.header.encode
  obtain ⟨hbody, -⟩ := hreliable.sendAll f.body
  refine ⟨(t.sendFrame_eq_true_iff f).mpr ⟨hhead, hbody⟩, ?_⟩
  have hforward := (WriteOp.forward f).perform_of_reliable (c := .start t false) ht
  rw [WriteOp.perform, Connection.forward_eq] at hforward
  exact hforward

theorem sendFrame_of_closed {t : TcpSocket} (ht : t.isOpen = false) (f : Frame) :
    t.sendFrame f = (false, t) := by
  simp only [TcpSocket.sendFrame, TcpSocket.sendAll_of_closed ht f.header.encode_ne_nil]

/-- A send upstream leaves everything else alone. -/
theorem SameTables.forwarded {r : TcpRouter} {s : RouterThreads} (h : SameTables r s) (f : Frame)
    (upstreamOut : List Written)
    (hup : ∀ dest, ∃ t, (r.forwardToUpstream f).2.socketAt (r.upstreamRoute dest) = some t ∧
      t.isOpen = s.upstreamOpen dest ∧ (t.isOpen = true → t.Reliable))
    (hout : ∀ dest, (r.forwardToUpstream f).2.writtenAt (r.upstreamRoute dest)
      = (upstreamOut.filter fun w =>
          r.upstreamRoute w.frame.header.dest = r.upstreamRoute dest).flatMap (·.frame.encode)) :
    SameTables (r.forwardToUpstream f).2 { s with upstreamOut } := by
  obtain ⟨hreg, hlocal, hconn, -⟩ := r.tables_forwardToUpstream f
  have hroute := r.upstreamRoute_forwardToUpstream f
  exact {
    registry := h.registry.trans hreg.symm
    localMailboxes := h.localMailboxes.trans hlocal.symm
    connections := by rw [hconn]; exact h.connections
    started := by rw [hconn]; exact h.started
    accepting := h.accepting
    isPeer := fun j => by rw [TcpRouter.isPeer, hconn]; exact h.isPeer j
    reliable := by rw [hconn]; exact h.reliable
    out := by rw [hconn]; exact h.out
    upstream := by simpa only [hroute] using hup
    upstreamOut := by simpa only [hroute] using hout }

/-- `forward_to_upstream` on an open socket. -/
theorem SameTables.upstream_open {r : TcpRouter} {s : RouterThreads} (h : SameTables r s)
    (k : ConnId) {f : Frame} (hopen : s.upstreamOpen f.header.dest = true) :
    (r.forwardToUpstream f).1 = true ∧
      SameTables (r.forwardToUpstream f).2
        { s with upstreamOut := s.upstreamOut ++ [Written.mk k f] } := by
  obtain ⟨t, ht, hok, hsocket⟩ := r.forwardToUpstream_spec f
  obtain ⟨t', ht', hsame, hreliable⟩ := h.upstream f.header.dest
  obtain rfl : t' = t := Option.some_inj.mp (ht'.symm.trans ht)
  obtain ⟨htrue, hwritten, hreliable'⟩ :=
    sendFrame_of_reliable (hreliable (hsame.trans hopen)) f
  refine ⟨hok.trans htrue, h.forwarded f _ ?_ ?_⟩
  · intro dest
    by_cases hroute : r.upstreamRoute dest = r.upstreamRoute f.header.dest
    · -- The same socket: it is still open.
      obtain ⟨t₁, ht₁, hopen₁, -⟩ := h.upstream dest
      rw [hroute, ht] at ht₁
      obtain rfl : t' = t₁ := Option.some_inj.mp ht₁
      refine ⟨(t'.sendFrame f).2, by rw [hsocket, if_pos hroute], ?_, fun _ => hreliable'⟩
      rw [hreliable'.1, ← hopen₁, hsame, hopen]
    · rw [hsocket, if_neg hroute]
      exact h.upstream dest
  -- The frames on one route, in order: the new one is the last of them, or on another route.
  · intro dest
    rw [List.filter_append, List.flatMap_append, ← h.upstreamOut dest]
    by_cases hroute : r.upstreamRoute f.header.dest = r.upstreamRoute dest
    · rw [← hroute, TcpRouter.writtenAt_of_socketAt ((hsocket _).trans (if_pos rfl)), hwritten,
        TcpRouter.writtenAt_of_socketAt ht]
      simp
    · rw [TcpRouter.writtenAt, hsocket, if_neg (Ne.symm hroute), TcpRouter.writtenAt]
      simp [hroute]

/-- `forward_to_upstream` on a closed socket. -/
theorem SameTables.upstream_closed {r : TcpRouter} {s : RouterThreads} (h : SameTables r s)
    {f : Frame} (hclosed : s.upstreamOpen f.header.dest = false) :
    (r.forwardToUpstream f).1 = false ∧ SameTables (r.forwardToUpstream f).2 s := by
  obtain ⟨t, ht, hok, hsocket⟩ := r.forwardToUpstream_spec f
  obtain ⟨t', ht', hsame, -⟩ := h.upstream f.header.dest
  obtain rfl : t' = t := Option.some_inj.mp (ht'.symm.trans ht)
  rw [sendFrame_of_closed (hsame.trans hclosed)] at hok hsocket
  -- The send fails at once, and leaves every socket as it was.
  have hsockets : ∀ p, (r.forwardToUpstream f).2.socketAt p = r.socketAt p := by
    intro p
    rw [hsocket]
    split
    · rename_i hp
      rw [hp, ht]
    · rfl
  refine ⟨hok, h.forwarded f s.upstreamOut ?_ ?_⟩
  · intro dest
    rw [hsockets]
    exact h.upstream dest
  · intro dest
    rw [TcpRouter.writtenAt, hsockets]
    exact h.upstreamOut dest

/-! ### One section -/

/-- The section that thread `k` stands at, when it does to the tables what the step from `r` to
`r'` does. -/
theorem At.tick {k : ConnId} {p p' : Pc} {r r' : TcpRouter} {s : RouterThreads} (h : At k p r s)
    (htables : SameTables r' (s.execute k p)) (hnext : s.nextPc k p = p')
    (hidle : ∀ j, r'.idlePc j = r.idlePc j) : At k p' r' (s.step (.tick k)) where
  tables := by
    rw [step_tick h.pc]
    exact htables
  pc := (pc_tick h.pc).trans hnext
  others := by
    intro j hj
    rw [step_tick h.pc, pc_execute_of_ne s k p hj, hidle]
    exact h.others j hj

end RouterThreads

end CoreRaT.Spec
