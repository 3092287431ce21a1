import CoreRaT.Proofs.Run.Steps

/-!
# `CoreRaT.Proofs.Run.Closed`: a connection that the router has closed

`handle_frame` closes the socket of a connection that sends an oversized frame, and returns.
The loop in `run()` goes on: `::poll` ignores the descriptor -1 and answers 0, so every round
goes back to the loop condition. The cleanup behind the loop is only reached when a stop is
requested. Until then the connection keeps its mailboxes: `closed_keeps_mailbox`. The reader
thread of the upstream connection leaves its loop when it has closed the socket.

`closedOwnsNothing_iff` is exact. At each point before the loop condition or the poll, a
closed connection has no routes and its loop ends without another frame, in every state of a
run, exactly when each oversized frame comes on a connection that has no routes and that has
been asked to stop (`OversizedGuard`).
-/

set_option autoImplicit false

namespace CoreRaT.Spec.ConnectionRuns

open CoreRaT.Lib

/-! ### A closed connection spins -/

/-- The loop of connection `k` ends by itself, without another call of `handle_frame`. -/
def LoopEnds (s : ConnectionRuns) (k : ConnId) : Prop :=
  ∃ n, ∀ answers : Nat → Int,
    (runFrom step s (ownRounds k answers n)).pc k = .ended ∧
      (runFrom step s (ownRounds k answers n)).calls k = s.calls k

/-- At each point before the loop condition or the poll: a connection with a closed socket owns
no mailbox, and its loop ends without another frame. -/
def ClosedOwnsNothing (s : ConnectionRuns) : Prop :=
  ∀ k c, s.router.connections[k]? = some c → s.pc k ≠ .ended → c.socket.isOpen = false →
    (∀ id, s.router.find id ≠ some k) ∧ s.LoopEnds k

/-- The socket of connection `k` is closed. -/
def Closed (s : ConnectionRuns) (k : ConnId) : Prop := s.router.socketOpen k = some false

theorem closed_iff {s : ConnectionRuns} {k : ConnId} :
    s.Closed k ↔ ∃ c, s.router.connections[k]? = some c ∧ c.socket.isOpen = false := by
  simp [Closed, TcpRouter.socketOpen, Option.map_eq_some_iff]

theorem Closed.lt {s : ConnectionRuns} {k : ConnId} (h : s.Closed k) :
    k < s.router.connections.length := by
  obtain ⟨c, hc, -⟩ := closed_iff.mp h
  exact (List.getElem?_eq_some_iff.mp hc).1

/-- The poll of a closed connection goes back to the loop condition, whatever the answer. -/
theorem step_poll_of_closed {s : ConnectionRuns} {k : ConnId} (h : s.Closed k)
    (hpc : s.pc k = .poll) (ready : Int) :
    s.step (.poll k ready) = { s with pc := Function.update s.pc k .loopCondition } := by
  obtain ⟨c, hc, hclosed⟩ := closed_iff.mp h
  simp [step, hc, hpc, TcpSocket.pollIn, hclosed]

/-- Without a stop request the loop condition leads to the poll. -/
theorem step_loopCondition_of_running {s : ConnectionRuns} {k : ConnId}
    (hk : k < s.router.connections.length) (hpc : s.pc k = .loopCondition)
    (hstop : s.stopRequested k = false) :
    s.step (.loopCondition k) = { s with pc := Function.update s.pc k .poll } := by
  simp [step, hk, hpc, hstop]

/-- A closed connection that is not asked to stop stays in its loop, in each of its own
steps. -/
theorem spins_step {s : ConnectionRuns} {k : ConnId} (hclosed : s.Closed k)
    (hstop : s.stopRequested k = false) (hpc : s.pc k ≠ .ended) {e : Event}
    (he : e = .loopCondition k ∨ ∃ ready, e = .poll k ready) :
    (s.step e).Closed k ∧ (s.step e).stopRequested k = false ∧ (s.step e).pc k ≠ .ended := by
  rcases he with rfl | ⟨ready, rfl⟩
  · by_cases hat : s.pc k = .loopCondition
    · rw [step_loopCondition_of_running hclosed.lt hat hstop]
      exact ⟨hclosed, hstop, by simp⟩
    · simp [step, hat, hclosed, hstop, hpc]
  · by_cases hat : s.pc k = .poll
    · rw [step_poll_of_closed hclosed hat]
      exact ⟨hclosed, hstop, by simp⟩
    · obtain ⟨c, hc, -⟩ := closed_iff.mp hclosed
      simp only [step, hc, hat, if_false]
      exact ⟨hclosed, hstop, hpc⟩

/-- It never leaves the loop by itself. -/
theorem spins {k : ConnId} (es : List Event)
    (hes : ∀ e ∈ es, e = .loopCondition k ∨ ∃ ready, e = .poll k ready) {s : ConnectionRuns}
    (hclosed : s.Closed k) (hstop : s.stopRequested k = false) (hpc : s.pc k ≠ .ended) :
    (runFrom step s es).pc k ≠ .ended := by
  induction es generalizing s with
  | nil => exact hpc
  | cons e es ih =>
    obtain ⟨hclosed', hstop', hpc'⟩ := spins_step hclosed hstop hpc (hes e (by simp))
    exact ih (fun e he => hes e (by simp [he])) hclosed' hstop' hpc'

/-- A thread that has left its loop does nothing more. -/
theorem step_of_ended {s : ConnectionRuns} {k : ConnId} (h : s.pc k = .ended) :
    s.step (.loopCondition k) = s ∧ ∀ ready, s.step (.poll k ready) = s := by
  refine ⟨by simp [step, h], ?_⟩
  intro ready
  simp only [step]
  split
  · simp [h]
  · rfl

/-- The loop of a closed connection ends exactly when a stop has been requested. -/
theorem loopEnds_iff {s : ConnectionRuns} {k : ConnId} (hclosed : s.Closed k)
    (hpc : s.pc k ≠ .ended) : s.LoopEnds k ↔ s.stopRequested k = true := by
  constructor
  · rintro ⟨n, hends⟩
    by_contra hstop
    refine spins (ownRounds k (fun _ => 0) n) ?_ hclosed (by simpa using hstop) hpc
      (hends fun _ => 0).1
    intro e he
    obtain ⟨i, -, he⟩ := List.mem_flatMap.mp he
    rcases List.mem_cons.mp he with rfl | he
    · exact Or.inl rfl
    · exact Or.inr ⟨_, List.mem_singleton.mp he⟩
  · intro hstop
    refine ⟨2, ?_⟩
    intro answers
    -- Standing before the condition, the thread leaves at once.
    have hleave : ∀ t : ConnectionRuns, t.Closed k → t.stopRequested k = true →
        t.pc k = .loopCondition → (t.step (.loopCondition k)).pc k = .ended ∧
          (t.step (.loopCondition k)).calls k = t.calls k := by
      intro t ht htstop htpc
      simp [step, ht.lt, htpc, htstop, leave]
    show (runFrom step s [.loopCondition k, .poll k (answers 0), .loopCondition k,
      .poll k (answers 1)]).pc k = .ended ∧ (runFrom step s [.loopCondition k,
      .poll k (answers 0), .loopCondition k, .poll k (answers 1)]).calls k = s.calls k
    simp only [runFrom_cons, runFrom_nil]
    cases hat : s.pc k with
    | ended => exact absurd hat hpc
    | loopCondition =>
      obtain ⟨hend, hcalls⟩ := hleave s hclosed hstop hat
      rw [(step_of_ended hend).2, (step_of_ended hend).1, (step_of_ended hend).2]
      exact ⟨hend, hcalls⟩
    | poll =>
      -- Standing before the poll, it comes to the condition first.
      have hskip : s.step (.loopCondition k) = s := by simp [step, hat]
      rw [hskip, step_poll_of_closed hclosed hat]
      obtain ⟨hend, hcalls⟩ := hleave { s with pc := Function.update s.pc k .loopCondition }
        hclosed hstop (by simp)
      rw [(step_of_ended hend).2]
      exact ⟨hend, hcalls⟩

/-! ### One step -/

/-- New connections come with an open socket: `accept` and `connect` give a descriptor. -/
def OpenSockets : Event → Prop
  | .accept socket => socket.isOpen = true
  | .connectPeer socket => socket.isOpen = true
  | _ => True

/-- In the state `s`, the event handles no oversized frame, unless on a connection that owns
no mailbox and has been asked to stop. -/
def OversizedGuard (s : ConnectionRuns) : Event → Prop
  | .poll k ready =>
    ∀ c i, s.router.connections[k]? = some c → s.pc k = .poll → 0 < c.socket.pollIn ready →
      (c.socket.readInbound s.router.maxMsgSize).1 = some i →
      s.router.maxMsgSize < i.header.bodyLen.toNat →
      (∀ id, s.router.find id ≠ some k) ∧ s.stopRequested k = true
  | _ => True

/-- The property, with the end of the loop read off the stop request. -/
def ClosedStops (s : ConnectionRuns) : Prop :=
  ∀ k, s.Closed k → s.pc k ≠ .ended →
    (∀ id, s.router.find id ≠ some k) ∧ s.stopRequested k = true

theorem closedOwnsNothing_iff_closedStops (s : ConnectionRuns) :
    s.ClosedOwnsNothing ↔ s.ClosedStops := by
  constructor
  · intro h k hclosed hpc
    obtain ⟨c, hc, hopen⟩ := closed_iff.mp hclosed
    obtain ⟨hnone, hends⟩ := h k c hc hpc hopen
    exact ⟨hnone, (loopEnds_iff hclosed hpc).mp hends⟩
  · intro h k c hc hpc hopen
    have hclosed := closed_iff.mpr ⟨c, hc, hopen⟩
    obtain ⟨hnone, hstop⟩ := h k hclosed hpc
    exact ⟨hnone, (loopEnds_iff hclosed hpc).mpr hstop⟩

/-- A state in which no connection is newly closed and no connection but those that have ended
has new routes, and in which no thread has come back into its loop. -/
theorem closedStops_of_le {s t : ConnectionRuns} (h : s.ClosedStops)
    (hclosed : ∀ j, t.Closed j → t.pc j ≠ .ended → s.Closed j)
    (hpc : ∀ j, t.Closed j → t.pc j ≠ .ended → s.pc j ≠ .ended)
    (hfind : ∀ j id, t.Closed j → t.pc j ≠ .ended → t.router.find id = some j →
      s.router.find id = some j)
    (hstop : ∀ j, s.stopRequested j = true → t.stopRequested j = true) : t.ClosedStops := by
  intro j hj hat
  obtain ⟨hnone, hs⟩ := h j (hclosed j hj hat) (hpc j hj hat)
  exact ⟨fun id hid => hnone id (hfind j id hj hat hid), hstop j hs⟩

/-- A router with the same open sockets and the same routes. -/
theorem closedStops_router {s : ConnectionRuns} (h : s.ClosedStops) {r : TcpRouter}
    (hopen : ∀ j, r.socketOpen j = s.router.socketOpen j)
    (hfind : ∀ id, r.find id = s.router.find id) :
    ({ s with router := r } : ConnectionRuns).ClosedStops :=
  closedStops_of_le h (fun j hj _ => (hopen j).symm.trans hj) (fun _ _ hj => hj)
    (fun _ id _ _ hid => (hfind id).symm.trans hid) (fun _ hs => hs)

/-- A thread that goes on in its loop. -/
theorem closedStops_goto {s : ConnectionRuns} (h : s.ClosedStops) {k : ConnId}
    (hat : s.pc k ≠ .ended) (next : RunPc) :
    ({ s with pc := Function.update s.pc k next } : ConnectionRuns).ClosedStops := by
  refine closedStops_of_le h (fun j hj _ => hj) ?_ (fun j id _ _ hid => hid) (fun _ hs => hs)
  intro j _ hj
  by_cases hjk : j = k
  · rw [hjk]
    exact hat
  · simpa [Function.update_of_ne hjk] using hj

/-- Where the accept loop adds a connection, no other one changes. -/
theorem closed_of_closed_append {r : TcpRouter} {socket : TcpSocket} {b : Bool}
    (hopen : socket.isOpen = true) {j : ConnId}
    (h : ({ r with connections := r.connections ++ [Connection.start socket b] } :
      TcpRouter).socketOpen j = some false) : r.socketOpen j = some false := by
  simp only [TcpRouter.socketOpen, List.getElem?_append] at h ⊢
  split at h
  · exact h
  · -- The new connection is open.
    simp only [List.getElem?_singleton] at h
    split at h
    · simp [Connection.start, hopen] at h
    · cases h

/-- The loop condition and the end of the loop change no socket. -/
theorem socketOpen_endRun (r : TcpRouter) (k j : ConnId) :
    (r.endRun k).socketOpen j = r.socketOpen j := by
  simp only [TcpRouter.endRun, TcpRouter.socketOpen, TcpRouter.getElem?_modify]
  split
  · simp [Function.comp_def]
  · rfl

theorem find_endRun {r : TcpRouter} {k j : ConnId} {id : MailboxId}
    (h : (r.endRun k).find id = some j) : r.find id = some j := by
  have hall : (r.registry.removeAll k).find id = some j := h
  rw [MailboxRegistry.find_removeAll] at hall
  split at hall
  · cases hall
  · exact hall

/-- Leaving the loop. -/
theorem closedStops_leave {s : ConnectionRuns} (h : s.ClosedStops) (k : ConnId) :
    (s.leave k).ClosedStops := by
  have hne : ∀ j, (s.leave k).pc j ≠ .ended → j ≠ k := by
    rintro j hj rfl
    simp [leave] at hj
  refine closedStops_of_le h ?_ ?_ ?_ (fun _ hs => hs)
  · intro j hj _
    exact (socketOpen_endRun s.router k j).symm.trans hj
  · intro j _ hj
    simpa [leave, Function.update_of_ne (hne j hj)] using hj
  · intro j id _ _ hid
    exact find_endRun hid

/-- Reading opens and closes nothing. -/
theorem socketOpen_read {s : ConnectionRuns} {k : ConnId} {c : Connection}
    (hc : s.router.connections[k]? = some c) {socket : TcpSocket}
    (hsocket : socket.isOpen = c.socket.isOpen) (j : ConnId) :
    (s.router.modify k ({ · with socket := socket })).socketOpen j = s.router.socketOpen j := by
  simp only [TcpRouter.socketOpen, TcpRouter.getElem?_modify]
  split
  · rename_i hj
    subst hj
    simp [hc, hsocket]
  · rfl

/-- After a handled frame: `read` is the router when the frame has been read from the socket of
connection `k`. -/
theorem closedStops_handleFrame {s t : ConnectionRuns} (h : s.ClosedStops) {k : ConnId}
    (read : TcpRouter) {i : Inbound} (hk : s.router.socketOpen k = some true)
    (hopen : ∀ j, read.socketOpen j = s.router.socketOpen j)
    (hfind : ∀ id, read.find id = s.router.find id)
    (hrouter : t.router = read.handleFrame k i)
    (hpc : t.pc = Function.update s.pc k .loopCondition)
    (hstop : t.stopRequested = s.stopRequested) :
    t.ClosedStops ↔
      (read.maxMsgSize < i.header.bodyLen.toNat →
        (∀ id, s.router.find id ≠ some k) ∧ s.stopRequested k = true) := by
  have hlt : k < read.connections.length := by
    by_contra hge
    have hnone : read.socketOpen k = none := by
      simp [TcpRouter.socketOpen, List.getElem?_eq_none (Nat.le_of_not_lt hge)]
    rw [hopen, hk] at hnone
    cases hnone
  by_cases hbig : read.maxMsgSize < i.header.bodyLen.toNat
  · -- The frame is oversized: `handle_frame` closes the socket, and the loop goes on.
    rw [TcpRouter.handleFrame_oversized hbig] at hrouter
    have hfind' : ∀ id, t.router.find id = s.router.find id := by
      intro id
      rw [hrouter]
      exact hfind id
    simp only [hbig, true_implies]
    constructor
    · intro hafter
      obtain ⟨hnone, hstops⟩ := hafter k (by
        rw [Closed, hrouter]
        simp [TcpRouter.socketOpen, TcpRouter.getElem?_modify, List.getElem?_eq_getElem hlt,
          TcpSocket.close]) (by simp [hpc])
      exact ⟨fun id => hfind' id ▸ hnone id, hstop ▸ hstops⟩
    · intro hguard j hj hat
      by_cases hjk : j = k
      · subst hjk
        exact ⟨fun id => (hfind' id).symm ▸ hguard.1 id, hstop.symm ▸ hguard.2⟩
      · rw [Closed, hrouter, TcpRouter.socketOpen_modify_of_ne _ _ hjk, hopen] at hj
        rw [hpc, Function.update_of_ne hjk] at hat
        exact ⟨fun id => (hfind' id).symm ▸ (h j hj hat).1 id, hstop.symm ▸ (h j hj hat).2⟩
  · -- The frame fits: no socket is closed, and only connection `k` gets new routes.
    simp only [hbig, false_implies, iff_true]
    have hopen' : ∀ j, t.router.socketOpen j = s.router.socketOpen j := by
      intro j
      rw [hrouter, ← hopen j]
      exact TcpRouter.socketOpen_congr (TcpRouter.stream_handleFrame (Nat.le_of_not_lt hbig) k j)
    have hne : ∀ j, t.Closed j → j ≠ k := by
      rintro j hj rfl
      rw [Closed, hopen', hk] at hj
      cases hj
    refine closedStops_of_le h (fun j hj _ => (hopen' j).symm.trans hj) ?_
      ?_ (fun _ hs => hstop ▸ hs)
    · intro j hj hat
      rwa [hpc, Function.update_of_ne (hne j hj)] at hat
    · intro j id hj _ hid
      rw [hrouter] at hid
      exact (hfind id).symm.trans (TcpRouter.find_handleFrame hlt (hne j hj) hid)

/-- A round on an open socket keeps the property, exactly when it does not close the socket of a
connection that owns a mailbox or goes on. -/
theorem closedStops_round {s : ConnectionRuns} (h : s.ClosedStops) {k : ConnId} {c : Connection}
    (hc : s.router.connections[k]? = some c) (hopen : c.socket.isOpen = true) :
    (s.round k c.socket).ClosedStops ↔
      ∀ i, (c.socket.readInbound s.router.maxMsgSize).1 = some i →
        s.router.maxMsgSize < i.header.bodyLen.toNat →
        (∀ id, s.router.find id ≠ some k) ∧ s.stopRequested k = true := by
  have hsocket := c.socket.isOpen_readInbound s.router.maxMsgSize
  unfold round
  generalize c.socket.readInbound s.router.maxMsgSize = r at hsocket
  obtain ⟨inbound, socket⟩ := r
  have hread := socketOpen_read hc hsocket
  cases inbound with
  | none =>
    simp only [reduceCtorEq, false_implies, implies_true, iff_true]
    exact closedStops_leave (closedStops_router h hread fun _ => rfl) k
  | some i =>
    simp only [Option.some.injEq, forall_eq']
    exact closedStops_handleFrame h (s.router.modify k ({ · with socket := socket }))
      (by simp [TcpRouter.socketOpen, hc, hopen]) hread (fun _ => rfl) rfl rfl rfl

/-- The poll of connection `k`, and the round behind it. -/
theorem closedStops_poll {s : ConnectionRuns} (h : s.ClosedStops) (k : ConnId) (ready : Int) :
    (s.step (.poll k ready)).ClosedStops ↔ s.OversizedGuard (.poll k ready) := by
  simp only [step, OversizedGuard]
  cases hc : s.router.connections[k]? with
  | none => simpa using h
  | some c =>
    simp only [Option.some.injEq]
    by_cases hat : s.pc k = .poll
    · simp only [hat, if_true, true_implies]
      by_cases hready : c.socket.pollIn ready ≤ 0
      · rw [if_pos hready]
        refine iff_of_true (closedStops_goto h (by rw [hat]; decide) .loopCondition) ?_
        rintro _ i rfl hpos
        omega
      · rw [if_neg hready]
        have hopen : c.socket.isOpen = true := by
          by_contra hclosed
          simp [TcpSocket.pollIn, hclosed] at hready
        rw [closedStops_round h hc hopen]
        constructor
        · rintro hround _ i rfl -
          exact hround i
        · intro hguard i
          exact hguard c i rfl (by omega)
    · simp only [hat, if_false, false_implies, implies_true, iff_true]
      exact h

/-- One step keeps the property exactly when it meets the guard. -/
theorem closedStops_step (s : ConnectionRuns) (e : Event) (he : OpenSockets e)
    (h : s.ClosedStops) : (s.step e).ClosedStops ↔ s.OversizedGuard e := by
  cases e with
  | accept socket =>
    refine iff_of_true ?_ trivial
    exact closedStops_of_le h (fun j hj _ => closed_of_closed_append he hj) (fun j _ hj => hj)
      (fun j id _ _ hid => hid) (fun _ hs => hs)
  | connectPeer socket =>
    refine iff_of_true ?_ trivial
    refine closedStops_of_le h ?_ (fun j _ hj => hj)
      (fun j id _ _ hid => hid) (fun _ hs => hs)
    intro j hj _
    refine closed_of_closed_append he (b := true) ?_
    rw [← hj]
    exact (TcpRouter.socketOpen_congr (TcpRouter.stream_modify _ _ j _ fun c =>
      (c.sentOn_advertiseAsPeer _).stream)).symm
  | uplinkFrame u i =>
    refine iff_of_true ?_ trivial
    have hopen := fun j => TcpRouter.socketOpen_congr (s.router.stream_uplinkFrame u i j)
    have hfind := congrArg Directory.owner (s.router.directory_step (.uplinkFrame u i))
    exact closedStops_router h hopen (congrFun hfind)
  | uplinkEnd u =>
    refine iff_of_true ?_ trivial
    have hopen := fun j => TcpRouter.socketOpen_congr (s.router.stream_closeUplink u j)
    have hfind := congrArg Directory.owner (s.router.directory_closeUplink u)
    exact closedStops_router h hopen (congrFun hfind)
  | requestStop k =>
    refine iff_of_true ?_ trivial
    simp only [step]
    split
    · refine closedStops_of_le h (fun j hj _ => hj) (fun j _ hj => hj)
        (fun j id _ _ hid => hid) ?_
      intro j hs
      by_cases hj : j = k
      · simp [hj]
      · simpa [Function.update_of_ne hj] using hs
    · exact h
  | loopCondition k =>
    refine iff_of_true ?_ trivial
    simp only [step]
    split
    · rename_i hat
      split
      · exact closedStops_leave h k
      · exact closedStops_goto h (by rw [hat.2]; decide) .poll
    · exact h
  | poll k ready => exact closedStops_poll h k ready

/-! ### Runs -/

/-- **A connection the router has closed owns nothing.** Connections come and go, in any order,
and their threads take their rounds in any order. In every state of the run, a connection whose
socket is closed and whose loop has not ended owns no mailbox and ends its loop without another
frame, exactly when every oversized frame of the run meets the guard. -/
theorem closedOwnsNothing_iff (maxMsgSize : Nat) (up : TcpSocket) (sys : List SystemConnection)
    (es : List Event) (hopen : ∀ e ∈ es, OpenSockets e) :
    AllStates step ClosedOwnsNothing (init (.init maxMsgSize up sys)) es ↔
      AllSteps step OversizedGuard (init (.init maxMsgSize up sys)) es := by
  have hstep : ∀ (s : ConnectionRuns) (e : Event), OpenSockets e → True →
      s.ClosedOwnsNothing → ((s.step e).ClosedOwnsNothing ↔ s.OversizedGuard e) := by
    intro s e he _ hs
    rw [closedOwnsNothing_iff_closedStops] at hs ⊢
    exact closedStops_step s e he hs
  refine allStates_iff_allSteps (fun _ _ _ _ => trivial) hstep hopen trivial ?_
  intro k c hc
  cases hc

/-- A header that announces 65 bytes. -/
def oversizedHeader : FrameHeader := makeFrame 0 7 9 0 0 65

/-- The socket of a client that sends these bytes. -/
def clientSocket (bytes : List UInt8) : TcpSocket := ⟨true, fun _ => 64, [], [bytes]⟩

/-- The client registers mailbox 7 and sends an oversized frame to a router with a limit of
64 bytes. -/
def oversizedRun : List Event :=
  [.accept (clientSocket ((Frame.ofMbx MSG_ROUTER_MBX_INIT_WITH_REPLY 7).encode ++
      oversizedHeader.encode)),
    .loopCondition 0, .poll 0 1, .loopCondition 0, .poll 0 1]

/-- The router has closed the connection, mailbox 7 still routes to it, and its loop does not
end. -/
theorem closed_keeps_mailbox :
    (∀ e ∈ oversizedRun, OpenSockets e) ∧
      ¬ (runFrom step (init (.init 64 (clientSocket []).close [])) oversizedRun).ClosedOwnsNothing ∧
      (runFrom step (init (.init 64 (clientSocket []).close [])) oversizedRun).Closed 0 ∧
      (runFrom step (init (.init 64 (clientSocket []).close [])) oversizedRun).router.find 7 =
        some 0 ∧
      ¬ (runFrom step (init (.init 64 (clientSocket []).close [])) oversizedRun).LoopEnds 0 := by
  have hclosed : (runFrom step (init (.init 64 (clientSocket []).close []))
      oversizedRun).Closed 0 := by
    unfold Closed
    decide
  have hfind : (runFrom step (init (.init 64 (clientSocket []).close []))
      oversizedRun).router.find 7 = some 0 := by decide
  have hpc : (runFrom step (init (.init 64 (clientSocket []).close []))
      oversizedRun).pc 0 ≠ .ended := by decide
  refine ⟨by simp [oversizedRun, OpenSockets, clientSocket], ?_, hclosed, hfind, ?_⟩
  · rw [closedOwnsNothing_iff_closedStops]
    intro h
    exact (h 0 hclosed hpc).1 7 hfind
  · rw [loopEnds_iff hclosed hpc]
    decide

/-- A client without a mailbox sends an oversized frame when its thread has been asked to
stop. -/
def stoppedRun : List Event :=
  [.accept (clientSocket oversizedHeader.encode), .loopCondition 0, .requestStop 0, .poll 0 1,
    .loopCondition 0]

theorem closed_owns_nothing_when_stopped :
    (runFrom step (init (.init 64 (clientSocket []).close [])) stoppedRun).pc 0 = .ended ∧
      AllStates step ClosedOwnsNothing (init (.init 64 (clientSocket []).close [])) stoppedRun := by
  refine ⟨by decide, (closedOwnsNothing_iff 64 _ _ stoppedRun ?_).mpr ?_⟩
  · simp [stoppedRun, OpenSockets, clientSocket]
  · refine ⟨trivial, trivial, trivial, ?_, trivial, trivial⟩
    intro c i _ _ _ _ _
    refine ⟨?_, by decide⟩
    intro id h
    cases h

end CoreRaT.Spec.ConnectionRuns
