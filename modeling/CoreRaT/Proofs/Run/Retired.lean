import Mathlib.Data.Finset.Card
import CoreRaT.Proofs.Run.Closed

/-!
# `CoreRaT.Proofs.Run.Retired`: a connection whose `run()` has returned

The cleanup behind the loop of `run()` is `remove_all(this)`. It takes the routes of the
connection away, and a thread that has ended registers nothing any more:
`ended_owns_nothing`. The rest of the connection stays. `connections_` only grows, so the
`Connection` lives as long as the router does. Its socket is open until the destructor, although
the last line of `run()` reports the connection as closed, and `is_peer_` is as it was, so
`broadcast_to_peers` goes on to select a peer that has left. The readers of the uplinks close
their sockets where they end.

`fullyRetired_iff` is exact. Every finished connection is retired, and the router holds a socket
open for each running loop and no more, in every state of a run, exactly when no step of the run
ends a loop or closes the socket of a loop that goes on (`NoneFinishes`).
-/

set_option autoImplicit false

namespace CoreRaT.Spec

open CoreRaT.Lib

/-- The sockets to other routers that are open: to the system routes, and upstream. -/
def TcpRouter.openUplinks (r : TcpRouter) : Nat :=
  r.systemConnections.countP (·.socket.isOpen) + if r.upstreamSocket.isOpen then 1 else 0

/-- A frame of connection `k` changes no other peer flag. -/
theorem TcpRouter.isPeer_handleFrame_of_ne (r : TcpRouter) {k : ConnId}
    (hk : k < r.connections.length) (i : Inbound) {j : ConnId} (hj : j ≠ k) :
    (r.handleFrame k i).isPeer j = r.isPeer j := by
  unfold handleFrame
  split
  · exact isPeer_modify r k j _ fun _ => rfl
  · cases i with
    | torn h hpos => rfl
    | whole f =>
      have hgate : j ∈ (r.dispatch k f).directory.gateways ↔ j ∈ r.directory.gateways := by
        rw [directory_dispatch r k f hk]
        unfold frameEffect
        split <;> (try split) <;> simp only [Directory.apply] <;> (try split) <;> simp [hj]
      exact Bool.eq_iff_iff.mpr hgate

namespace ConnectionRuns

/-! ### The property -/

/-- The connections whose socket is open. -/
def openConnections (s : ConnectionRuns) : Finset ConnId :=
  (Finset.range s.router.connections.length).filter fun k => s.router.socketOpen k = some true

/-- The connections whose loop is still running. -/
def running (s : ConnectionRuns) : Finset ConnId :=
  (Finset.range s.router.connections.length).filter fun k => s.pc k ≠ .ended

/-- The sockets that the router holds open, with `server_`, on which it listens. -/
def heldOpen (s : ConnectionRuns) : Nat := s.openConnections.card + s.router.openUplinks + 1

/-- Connection `k` is retired: its socket is closed, no mailbox is routed to it, now or at any
later time, and `broadcast_to_peers` does not select it. -/
structure Retired (s : ConnectionRuns) (k : ConnId) : Prop where
  closed : s.Closed k
  owns_nothing : ∀ (later : List Event) (id : MailboxId),
    (runFrom step s later).router.find id ≠ some k
  not_selected : s.router.isPeer k = false

/-- Each connection whose `run()` has returned is retired, and each open socket is the one of a
running loop, of an uplink, or the listening one. -/
structure FullyRetired (s : ConnectionRuns) : Prop where
  retired : ∀ k, k < s.router.connections.length → s.pc k = .ended → s.Retired k
  held : s.heldOpen = s.running.card + s.router.openUplinks + 1

theorem mem_running {s : ConnectionRuns} {k : ConnId} :
    k ∈ s.running ↔ k < s.router.connections.length ∧ s.pc k ≠ .ended := by
  simp [running]

theorem mem_openConnections {s : ConnectionRuns} {k : ConnId} :
    k ∈ s.openConnections ↔ k < s.router.connections.length ∧
      s.router.socketOpen k = some true := by
  simp [openConnections]

/-- When the finished connections are closed, the numbers agree exactly when each running loop
has an open socket. -/
theorem fullyRetired_iff_forall (s : ConnectionRuns) :
    s.FullyRetired ↔
      (∀ k, k < s.router.connections.length → s.pc k = .ended → s.Retired k) ∧
      ∀ k, k < s.router.connections.length → s.pc k ≠ .ended →
        s.router.socketOpen k = some true := by
  have hsub : (∀ k, k < s.router.connections.length → s.pc k = .ended → s.Retired k) →
      s.openConnections ⊆ s.running := by
    intro hret k hk
    obtain ⟨hlt, hopen⟩ := mem_openConnections.mp hk
    refine mem_running.mpr ⟨hlt, ?_⟩
    intro hend
    have hclosed := (hret k hlt hend).closed
    rw [Closed, hopen] at hclosed
    cases hclosed
  constructor
  · rintro ⟨hret, hheld⟩
    refine ⟨hret, ?_⟩
    have hcard : s.running.card ≤ s.openConnections.card := by
      simp only [heldOpen] at hheld
      omega
    have heq := Finset.eq_of_subset_of_card_le (hsub hret) hcard
    intro k hlt hrun
    have hk : k ∈ s.openConnections := heq ▸ mem_running.mpr ⟨hlt, hrun⟩
    exact (mem_openConnections.mp hk).2
  · rintro ⟨hret, hopen⟩
    refine ⟨hret, ?_⟩
    have heq : s.openConnections = s.running := by
      refine Finset.Subset.antisymm (hsub hret) ?_
      intro k hk
      obtain ⟨hlt, hrun⟩ := mem_running.mp hk
      exact mem_openConnections.mpr ⟨hlt, hopen k hlt hrun⟩
    rw [heldOpen, heq]

/-- In the state `s`, the event ends no loop, and closes the socket of no loop that goes on: no
thread finds a stop request, the end of its stream, or an oversized frame. -/
def NoneFinishes (s : ConnectionRuns) : Event → Prop
  | .loopCondition k =>
    k < s.router.connections.length → s.pc k = .loopCondition → s.stopRequested k = false
  | .poll k ready =>
    ∀ c, s.router.connections[k]? = some c → s.pc k = .poll → 0 < c.socket.pollIn ready →
      ∃ i, (c.socket.readInbound s.router.maxMsgSize).1 = some i ∧
        i.header.bodyLen.toNat ≤ s.router.maxMsgSize
  | _ => True

/-! ### What a step does -/

/-- `t` differs from `s` only in what a finished connection does not depend on: no connection
comes, no socket is closed, no route or peer flag changes and no loop ends. -/
structure Quiet (s t : ConnectionRuns) : Prop where
  length : t.router.connections.length = s.router.connections.length
  socketOpen : ∀ j, t.router.socketOpen j = s.router.socketOpen j
  isPeer : ∀ j, t.router.isPeer j = s.router.isPeer j
  find : ∀ id, t.router.find id = s.router.find id
  ended : ∀ j, t.pc j = .ended ↔ s.pc j = .ended

theorem Quiet.refl (s : ConnectionRuns) : s.Quiet s :=
  ⟨rfl, fun _ => rfl, fun _ => rfl, fun _ => rfl, fun _ => Iff.rfl⟩

/-- Moving inside the loop is quiet. -/
theorem quiet_pc {s : ConnectionRuns} {k : ConnId} (hk : s.pc k ≠ .ended) {at' : RunPc}
    (hat : at' ≠ .ended) : s.Quiet { s with pc := Function.update s.pc k at' } := by
  refine ⟨rfl, fun _ => rfl, fun _ => rfl, fun _ => rfl, ?_⟩
  intro j
  by_cases hj : j = k
  · subst hj
    simp [hk, hat]
  · simp [Function.update_of_ne hj]

/-- Reading from a socket is quiet. -/
theorem quiet_read {s : ConnectionRuns} {k : ConnId} {c : Connection}
    (hc : s.router.connections[k]? = some c) {socket : TcpSocket}
    (hsocket : socket.isOpen = c.socket.isOpen) :
    s.Quiet { s with router := s.router.modify k ({ · with socket := socket }) } :=
  ⟨TcpRouter.length_modify .., socketOpen_read hc hsocket,
    fun j => TcpRouter.isPeer_modify _ _ j _ fun _ => rfl, fun _ => rfl, fun _ => Iff.rfl⟩

/-- The readers of the uplinks are quiet. -/
theorem quiet_uplink (s : ConnectionRuns) {e : TcpRouter.Event}
    (he : (∃ u i, e = .uplinkFrame u i) ∨ ∃ u, e = .uplinkEnd u) :
    s.Quiet { s with router := s.router.step e } := by
  have hidle : s.router.effect e = .idle := by
    rcases he with ⟨u, i, rfl⟩ | ⟨u, rfl⟩ <;> rfl
  have hdir : (s.router.step e).directory = s.router.directory := by
    rw [TcpRouter.directory_step, hidle]
    rfl
  have hlen : (s.router.step e).connections.length = s.router.connections.length := by
    rcases he with ⟨u, i, rfl⟩ | ⟨u, rfl⟩
    · rcases s.router.step_uplinkFrame u i with ⟨d, f, -, h⟩ | h | h
      · rw [h, TcpRouter.length_modify]
      · rw [h]
      · rw [h, (s.router.tables_closeUplink u).2.2.1]
    · exact congrArg List.length (s.router.tables_closeUplink u).2.2.1
  have hstream : ∀ j, (s.router.step e).stream j = s.router.stream j := by
    rcases he with ⟨u, i, rfl⟩ | ⟨u, rfl⟩
    · exact s.router.stream_uplinkFrame u i
    · exact s.router.stream_closeUplink u
  refine ⟨hlen, fun j => TcpRouter.socketOpen_congr (hstream j), ?_, ?_, fun _ => Iff.rfl⟩
  · intro j
    have hgate : j ∈ (s.router.step e).directory.gateways ↔ j ∈ s.router.directory.gateways := by
      rw [hdir]
    exact Bool.eq_iff_iff.mpr hgate
  · intro id
    exact congrFun (congrArg Directory.owner hdir) id

/-- What an event does: it opens a connection, it is quiet, a thread leaves its loop, or a thread
that goes on handles a frame. -/
inductive StepKind (s : ConnectionRuns) (e : Event) : Prop
  | opens (hguard : s.NoneFinishes e) (hpc : (s.step e).pc = s.pc)
      (hlen : (s.step e).router.connections.length = s.router.connections.length + 1)
      (hfind : ∀ id, (s.step e).router.find id = s.router.find id)
      (hold : ∀ j, j < s.router.connections.length →
        (s.step e).router.socketOpen j = s.router.socketOpen j ∧
          (s.step e).router.isPeer j = s.router.isPeer j)
      (hnew : OpenSockets e →
        (s.step e).router.socketOpen s.router.connections.length = some true)
  | quiet (hguard : s.NoneFinishes e) (hquiet : s.Quiet (s.step e))
  | leaves (k : ConnId) (t : ConnectionRuns) (hguard : ¬ s.NoneFinishes e)
      (hk : k < s.router.connections.length) (hrun : s.pc k ≠ .ended) (hquiet : s.Quiet t)
      (hstep : s.step e = t.leave k)
  | handles (k : ConnId) (t : ConnectionRuns) (i : Inbound)
      (hguard : s.NoneFinishes e ↔ i.header.bodyLen.toNat ≤ t.router.maxMsgSize)
      (hk : k < s.router.connections.length) (hrun : s.pc k ≠ .ended) (hquiet : s.Quiet t)
      (hrouter : (s.step e).router = t.router.handleFrame k i)
      (hpc : ∀ j, (s.step e).pc j = .ended ↔ s.pc j = .ended)

/-- A new connection. -/
theorem stepKind_opens {s : ConnectionRuns} {e : Event} (socket : TcpSocket) (b : Bool)
    (he : OpenSockets e → socket.isOpen = true) (hguard : s.NoneFinishes e)
    (hpc : (s.step e).pc = s.pc) {g : Connection → Connection}
    (hg : ∀ c : Connection, c.SentOn (g c))
    (hrouter : (s.step e).router
      = ({ s.router with connections := s.router.connections ++ [Connection.start socket b] } :
          TcpRouter).modify s.router.connections.length g) : s.StepKind e := by
  have hopen : ∀ j, (s.step e).router.socketOpen j
      = (s.router.connections ++ [Connection.start socket b])[j]?.map (·.socket.isOpen) := by
    intro j
    rw [hrouter]
    exact TcpRouter.socketOpen_congr (TcpRouter.stream_modify _ _ j g fun c => (hg c).stream)
  have hpeer : ∀ j, (s.step e).router.isPeer j
      = ((s.router.connections ++ [Connection.start socket b])[j]?.map (·.isPeer)).getD false := by
    intro j
    rw [hrouter]
    exact TcpRouter.isPeer_modify _ _ j g fun c => (hg c).isPeer
  refine .opens hguard hpc ?_ ?_ ?_ ?_
  · rw [hrouter, TcpRouter.length_modify]
    simp
  · intro id
    rw [hrouter]
    rfl
  · intro j hj
    rw [hopen, hpeer, List.getElem?_append_left hj]
    exact ⟨rfl, rfl⟩
  · intro hsocket
    simp [hopen, Connection.start, he hsocket]

/-- A round of a running loop. -/
theorem stepKind_round {s : ConnectionRuns} {k : ConnId} {c : Connection} {ready : Int}
    (hc : s.router.connections[k]? = some c) (hat : s.pc k = .poll)
    (hready : 0 < c.socket.pollIn ready) : s.StepKind (.poll k ready) := by
  have hk : k < s.router.connections.length := (List.getElem?_eq_some_iff.mp hc).1
  have hrun : s.pc k ≠ .ended := by simp [hat]
  have hstep : s.step (.poll k ready) = s.round k c.socket := by
    simp [step, hc, hat, Int.not_le.mpr hready]
  have hguard : s.NoneFinishes (.poll k ready) ↔
      ∃ i, (c.socket.readInbound s.router.maxMsgSize).1 = some i ∧
        i.header.bodyLen.toNat ≤ s.router.maxMsgSize := by
    simp [NoneFinishes, hc, hat, hready]
  have hquiet := quiet_read hc (c.socket.isOpen_readInbound s.router.maxMsgSize)
  cases hread : (c.socket.readInbound s.router.maxMsgSize).1 with
  | none =>
    refine .leaves k _ ?_ hk hrun hquiet ?_
    · rw [hguard, hread]
      simp
    · rw [hstep, round]
      simp only [hread]
  | some i =>
    refine .handles k _ i ?_ hk hrun hquiet ?_ ?_
    · rw [hguard, hread]
      simp [TcpRouter.modify]
    · rw [hstep, round]
      simp only [hread]
    · intro j
      rw [hstep, round]
      simp only [hread]
      exact (quiet_pc hrun (by decide)).ended j

theorem stepKind (s : ConnectionRuns) (e : Event) : s.StepKind e := by
  cases e with
  | accept socket =>
    refine stepKind_opens socket false id trivial rfl (g := id) Connection.SentOn.refl ?_
    simp only [step, TcpRouter.step, TcpRouter.modify, List.modify_id]
  | connectPeer socket =>
    exact stepKind_opens socket true id trivial rfl (fun c => c.sentOn_advertiseAsPeer _) rfl
  | uplinkFrame u i => exact .quiet trivial (s.quiet_uplink (Or.inl ⟨u, i, rfl⟩))
  | uplinkEnd u => exact .quiet trivial (s.quiet_uplink (Or.inr ⟨u, rfl⟩))
  | requestStop k =>
    refine .quiet trivial ?_
    simp only [step]
    split
    · exact ⟨rfl, fun _ => rfl, fun _ => rfl, fun _ => rfl, fun _ => Iff.rfl⟩
    · exact Quiet.refl s
  | loopCondition k =>
    by_cases hat : k < s.router.connections.length ∧ s.pc k = .loopCondition
    · obtain ⟨hk, hpc⟩ := hat
      have hrun : s.pc k ≠ .ended := by simp [hpc]
      cases hstop : s.stopRequested k with
      | true =>
        refine .leaves k s ?_ hk hrun (Quiet.refl s) ?_
        · simp [NoneFinishes, hk, hpc, hstop]
        · simp [step, hk, hpc, hstop]
      | false =>
        refine .quiet (by simp [NoneFinishes, hstop]) ?_
        rw [step_loopCondition_of_running hk hpc hstop]
        exact quiet_pc hrun (by decide)
    · refine .quiet ?_ ?_
      · intro hk hpc
        exact absurd ⟨hk, hpc⟩ hat
      · simp only [step, if_neg hat]
        exact Quiet.refl s
  | poll k ready =>
    cases hc : s.router.connections[k]? with
    | none =>
      refine .quiet (by simp [NoneFinishes, hc]) ?_
      simp only [step, hc]
      exact Quiet.refl s
    | some c =>
      by_cases hat : s.pc k = .poll
      · by_cases hready : 0 < c.socket.pollIn ready
        · exact stepKind_round hc hat hready
        · have hle : c.socket.pollIn ready ≤ 0 := Int.not_lt.mp hready
          refine .quiet (by simp [NoneFinishes, hc, hready]) ?_
          simp only [step, hc, hat, if_true, if_pos hle]
          exact quiet_pc (by simp [hat]) (by decide)
      · refine .quiet (by simp [NoneFinishes, hat]) ?_
        simp only [step, hc, if_neg hat]
        exact Quiet.refl s

/-! ### The routes of a finished connection -/

/-- The registry entries of `s` are those of running loops. -/
def EndedOwnsNothing (s : ConnectionRuns) : Prop :=
  (∀ k, s.router.connections.length ≤ k → s.pc k ≠ .ended) ∧
    ∀ k, s.pc k = .ended → ∀ id, s.router.find id ≠ some k

/-- A step that ends no loop and gives no routes to a finished connection. -/
theorem EndedOwnsNothing.of_le {s t : ConnectionRuns} (h : s.EndedOwnsNothing)
    (hlen : s.router.connections.length ≤ t.router.connections.length)
    (hpc : ∀ j, t.pc j = .ended → s.pc j = .ended)
    (hfind : ∀ j id, s.pc j = .ended → t.router.find id = some j → s.router.find id = some j) :
    t.EndedOwnsNothing := by
  constructor
  · intro k hk hend
    exact h.1 k (Nat.le_trans hlen hk) (hpc k hend)
  · intro k hend id hid
    exact h.2 k (hpc k hend) id (hfind k id (hpc k hend) hid)

theorem EndedOwnsNothing.quiet {s t : ConnectionRuns} (h : s.EndedOwnsNothing)
    (hquiet : s.Quiet t) : t.EndedOwnsNothing := by
  refine h.of_le hquiet.length.ge (fun j => (hquiet.ended j).mp) ?_
  intro j id _ hid
  rwa [hquiet.find] at hid

/-- `remove_all` at the end of a loop. -/
theorem EndedOwnsNothing.leave {s : ConnectionRuns} (h : s.EndedOwnsNothing) {k : ConnId}
    (hk : k < s.router.connections.length) : (s.leave k).EndedOwnsNothing := by
  have hlen : (s.leave k).router.connections.length = s.router.connections.length :=
    TcpRouter.length_modify ..
  have hpc : ∀ j, j ≠ k → (s.leave k).pc j = s.pc j := by
    intro j hj
    simp [ConnectionRuns.leave, Function.update_of_ne hj]
  constructor
  · intro j hj
    rw [hlen] at hj
    have hjk : j ≠ k := by
      rintro rfl
      exact Nat.lt_irrefl j (Nat.lt_of_lt_of_le hk hj)
    rw [hpc j hjk]
    exact h.1 j hj
  · intro j hend id hid
    by_cases hjk : j = k
    · subst hjk
      have hnone : (s.router.registry.removeAll j).find id = some j := hid
      rw [MailboxRegistry.find_removeAll] at hnone
      split at hnone
      · cases hnone
      · rename_i hne
        exact hne hnone
    · rw [hpc j hjk] at hend
      exact h.2 j hend id (find_endRun hid)

theorem endedOwnsNothing_step (s : ConnectionRuns) (e : Event) (h : s.EndedOwnsNothing) :
    (s.step e).EndedOwnsNothing := by
  cases s.stepKind e with
  | opens _ hpc hlen hfind _ _ =>
    refine h.of_le (by omega) (fun j => hpc ▸ id) ?_
    intro j id _ hid
    rwa [hfind] at hid
  | quiet _ hquiet => exact h.quiet hquiet
  | leaves k t _ hk _ hquiet hstep =>
    rw [hstep]
    exact (h.quiet hquiet).leave (hquiet.length ▸ hk)
  | handles k t i _ hk hrun hquiet hrouter hpc =>
    have hlen : (s.step e).router.connections.length = s.router.connections.length := by
      rw [hrouter, TcpRouter.length_handleFrame, hquiet.length]
    refine h.of_le hlen.ge (fun j => (hpc j).mp) ?_
    intro j id hend hid
    -- Only a running loop handles a frame, and only its own connection gets routes.
    have hjk : j ≠ k := by
      rintro rfl
      exact hrun hend
    rw [hrouter] at hid
    rw [← hquiet.find]
    exact TcpRouter.find_handleFrame (hquiet.length ▸ hk) hjk hid

/-- **A finished connection owns nothing.** In every state of every run, no mailbox is routed to a
connection whose `run()` has returned. -/
theorem ended_owns_nothing (router : TcpRouter) (es : List Event) :
    AllStates step EndedOwnsNothing (init router) es := by
  refine allStates_of_step endedOwnsNothing_step es ⟨?_, ?_⟩
  · intro k _ hend
    cases hend
  · intro k hend
    cases hend

/-- And none ever will be. -/
theorem EndedOwnsNothing.later {s : ConnectionRuns} (h : s.EndedOwnsNothing) {k : ConnId}
    (hend : s.pc k = .ended) (later : List Event) (id : MailboxId) :
    (runFrom step s later).router.find id ≠ some k := by
  induction later generalizing s with
  | nil => exact h.2 k hend id
  | cons e later ih =>
    refine ih (endedOwnsNothing_step s e h) ?_
    -- A thread does not come back into its loop.
    cases s.stepKind e with
    | opens _ hpc => rwa [hpc]
    | quiet _ hquiet => exact (hquiet.ended k).mpr hend
    | leaves j t _ _ hrun hquiet hstep =>
      have hkj : k ≠ j := by
        rintro rfl
        exact hrun hend
      rw [hstep, ConnectionRuns.leave]
      simp only [Function.update_of_ne hkj]
      exact (hquiet.ended k).mpr hend
    | handles _ _ _ _ _ _ _ _ hpc => exact (hpc k).mpr hend

/-! ### One step -/

/-- The property, connection by connection. -/
def RetiredOrOpen (s : ConnectionRuns) : Prop :=
  ∀ k, k < s.router.connections.length →
    (s.pc k = .ended → s.Closed k ∧ s.router.isPeer k = false) ∧
      (s.pc k ≠ .ended → s.router.socketOpen k = some true)

theorem fullyRetired_iff_retiredOrOpen {s : ConnectionRuns} (h : s.EndedOwnsNothing) :
    s.FullyRetired ↔ s.RetiredOrOpen := by
  rw [fullyRetired_iff_forall]
  constructor
  · rintro ⟨hret, hopen⟩ k hk
    exact ⟨fun hend => ⟨(hret k hk hend).closed, (hret k hk hend).not_selected⟩, hopen k hk⟩
  · intro hall
    refine ⟨?_, fun k hk => (hall k hk).2⟩
    intro k hk hend
    obtain ⟨hclosed, hpeer⟩ := (hall k hk).1 hend
    exact ⟨hclosed, h.later hend, hpeer⟩

theorem RetiredOrOpen.quiet {s t : ConnectionRuns} (h : s.RetiredOrOpen) (hquiet : s.Quiet t) :
    t.RetiredOrOpen := by
  intro k hk
  rw [hquiet.length] at hk
  unfold Closed
  rw [hquiet.socketOpen, hquiet.isPeer]
  constructor
  · intro hend
    exact (h k hk).1 ((hquiet.ended k).mp hend)
  · intro hrun
    exact (h k hk).2 fun hend => hrun ((hquiet.ended k).mpr hend)

/-- One step keeps the property exactly when no thread finishes. -/
theorem retiredOrOpen_step {s : ConnectionRuns} {e : Event} (he : OpenSockets e)
    (hended : s.EndedOwnsNothing) (h : s.RetiredOrOpen) :
    (s.step e).RetiredOrOpen ↔ s.NoneFinishes e := by
  cases s.stepKind e with
  | opens hguard hpc hlen _ hold hnew =>
    refine iff_of_true ?_ hguard
    intro k hk
    unfold Closed
    rw [hpc]
    by_cases hold' : k < s.router.connections.length
    · rw [(hold k hold').1, (hold k hold').2]
      exact h k hold'
    · obtain rfl : k = s.router.connections.length := by omega
      exact ⟨fun hend => absurd hend (hended.1 _ (Nat.le_refl _)), fun _ => hnew he⟩
  | quiet hguard hquiet => exact iff_of_true (h.quiet hquiet) hguard
  | leaves k t hguard hk hrun hquiet hstep =>
    -- The socket of the loop that ends was open, and nothing closes it.
    refine iff_of_false ?_ hguard
    intro hafter
    have hopen : (s.step e).router.socketOpen k = some true := by
      rw [hstep]
      show (t.router.endRun k).socketOpen k = some true
      rw [socketOpen_endRun, hquiet.socketOpen]
      exact (h k hk).2 hrun
    have hlt : k < (s.step e).router.connections.length := by
      rw [hstep]
      show k < (t.router.endRun k).connections.length
      simpa [TcpRouter.endRun, hquiet.length] using hk
    have hclosed := ((hafter k hlt).1 (by simp [hstep, leave])).1
    rw [Closed, hopen] at hclosed
    cases hclosed
  | handles k t i hguard hk hrun hquiet hrouter hpc =>
    have hkt : k < t.router.connections.length := hquiet.length ▸ hk
    have hlen : (s.step e).router.connections.length = s.router.connections.length := by
      rw [hrouter, TcpRouter.length_handleFrame, hquiet.length]
    rw [hguard]
    constructor
    · -- An oversized frame closes the socket of a loop that goes on.
      intro hafter
      by_contra hbig
      have hopen := (hafter k (hlen ▸ hk)).2 fun hend => hrun ((hpc k).mp hend)
      rw [hrouter, TcpRouter.handleFrame_oversized (Nat.not_le.mp hbig)] at hopen
      simp [TcpRouter.socketOpen, TcpRouter.getElem?_modify, TcpSocket.close] at hopen
    · intro hfits j hj
      rw [hlen] at hj
      have hopen : (s.step e).router.socketOpen j = s.router.socketOpen j := by
        rw [hrouter, ← hquiet.socketOpen j]
        exact TcpRouter.socketOpen_congr (TcpRouter.stream_handleFrame hfits k j)
      unfold Closed
      rw [hopen]
      constructor
      · intro hend
        have hend' : s.pc j = .ended := (hpc j).mp hend
        have hjk : j ≠ k := by
          rintro rfl
          exact hrun hend'
        rw [hrouter, TcpRouter.isPeer_handleFrame_of_ne _ hkt i hjk, hquiet.isPeer]
        exact (h j hj).1 hend'
      · intro hrun'
        exact (h j hj).2 fun hend => hrun' ((hpc j).mpr hend)

/-! ### Runs -/

/-- **A finished connection is fully retired.** Connections come and go, in any order, and their
threads take their rounds in any order. In every state of the run every finished connection is
retired and the open sockets are those of the running loops, of the uplinks and of the server,
exactly when no step of the run ends a loop or closes the socket of a loop that goes on. -/
theorem fullyRetired_iff (maxMsgSize : Nat) (up : TcpSocket) (sys : List SystemConnection)
    (es : List Event) (hopen : ∀ e ∈ es, OpenSockets e) :
    AllStates step FullyRetired (init (.init maxMsgSize up sys)) es ↔
      AllSteps step NoneFinishes (init (.init maxMsgSize up sys)) es := by
  have hstep : ∀ (s : ConnectionRuns) (e : Event), OpenSockets e → s.EndedOwnsNothing →
      s.FullyRetired → ((s.step e).FullyRetired ↔ s.NoneFinishes e) := by
    intro s e he hended h
    rw [fullyRetired_iff_retiredOrOpen hended] at h
    rw [fullyRetired_iff_retiredOrOpen (endedOwnsNothing_step s e hended)]
    exact retiredOrOpen_step he hended h
  have hended : (init (.init maxMsgSize up sys)).EndedOwnsNothing :=
    (ended_owns_nothing (.init maxMsgSize up sys) []).head
  refine allStates_iff_allSteps (fun s e _ => endedOwnsNothing_step s e) hstep hopen hended ?_
  refine (fullyRetired_iff_retiredOrOpen hended).mpr ?_
  intro k hk
  cases hk

/-- A peer router connects, says hello and disconnects. -/
def peerComesAndGoes : List Event :=
  [.accept (clientSocket (Frame.bare MSG_ROUTER_PEER_HELLO 0 0).encode),
    .loopCondition 0, .poll 0 1, .loopCondition 0, .poll 0 1]

/-- The loop of the peer has ended. Its socket is still open, and the next registration at the
router is still sent to it. -/
theorem finished_peer_still_selected :
    (∀ e ∈ peerComesAndGoes, OpenSockets e) ∧
      ¬ AllStates step FullyRetired (init (.init 64 (clientSocket []).close [])) peerComesAndGoes ∧
      (runFrom step (init (.init 64 (clientSocket []).close [])) peerComesAndGoes).pc 0 = .ended ∧
      (runFrom step (init (.init 64 (clientSocket []).close []))
        peerComesAndGoes).router.socketOpen 0 = some true ∧
      (runFrom step (init (.init 64 (clientSocket []).close []))
        peerComesAndGoes).router.isPeer 0 = true := by
  have hend : (runFrom step (init (.init 64 (clientSocket []).close []))
      peerComesAndGoes).pc 0 = .ended := by decide
  have hpeer : (runFrom step (init (.init 64 (clientSocket []).close []))
      peerComesAndGoes).router.isPeer 0 = true := by decide
  refine ⟨by simp [peerComesAndGoes, OpenSockets, clientSocket], ?_, hend, by decide, hpeer⟩
  intro h
  have hselected := (h.last.retired 0 (by decide) hend).not_selected
  rw [hpeer] at hselected
  cases hselected

/-- A client registers a mailbox and stays. -/
def clientStays : List Event :=
  [.accept (clientSocket (Frame.ofMbx MSG_ROUTER_MBX_INIT_WITH_REPLY 7).encode),
    .loopCondition 0, .poll 0 1, .loopCondition 0]

theorem fullyRetired_while_client_stays :
    AllStates step FullyRetired (init (.init 64 (clientSocket []).close [])) clientStays := by
  refine (fullyRetired_iff 64 _ _ clientStays ?_).mpr ?_
  · simp [clientStays, OpenSockets, clientSocket]
  · refine ⟨trivial, fun _ _ => rfl, ?_, fun _ _ => rfl, trivial⟩
    intro c hc _ _
    have hread : ∃ i, ((clientSocket (Frame.ofMbx MSG_ROUTER_MBX_INIT_WITH_REPLY
        7).encode).readInbound 64).1 = some i ∧ i.header.bodyLen.toNat ≤ 64 :=
      ⟨.whole (Frame.ofMbx MSG_ROUTER_MBX_INIT_WITH_REPLY 7), by rfl, by decide⟩
    obtain rfl : c = .start (clientSocket (Frame.ofMbx MSG_ROUTER_MBX_INIT_WITH_REPLY
        7).encode) false := by
      exact (Option.some.inj hc).symm
    exact hread

end ConnectionRuns

end CoreRaT.Spec
