import CoreRaT.Proofs.Run.Steps

/-!
# `CoreRaT.Proofs.Run.Frames`: a connection handles the frames that it is sent

The stream of a connection carries frames that fit `max_msg_size`. `Reads` is the invariant: the
frames that the loop in `run()` has passed to `handle_frame`, followed by those still in the
stream, are the frames that were sent. `reads_step` keeps it in every step of the router, since
nobody but the connection's own thread takes bytes from the stream (`others_step`). The end of
the stream is the end of the loop, so nothing is left out: `reads_ownRounds`.
-/

set_option autoImplicit false

namespace CoreRaT.Spec

open CoreRaT.Lib

/-! ### What arrives on a connection -/

namespace TcpRouter

/-- The bytes that arrive on connection `k`, in some chunks. -/
def Receives (r : TcpRouter) (k : ConnId) (bytes : List UInt8) : Prop :=
  ∃ c, r.connections[k]? = some c ∧ c.socket.Chunked bytes

theorem Receives.lt {r : TcpRouter} {k : ConnId} {bytes : List UInt8} (h : r.Receives k bytes) :
    k < r.connections.length := by
  obtain ⟨c, hc, -⟩ := h
  exact (List.getElem?_eq_some_iff.mp hc).1

/-- What arrives is read off the stream. -/
theorem Receives.congr {r r' : TcpRouter} {k : ConnId} {bytes : List UInt8}
    (h : r.Receives k bytes) (hstream : r'.stream k = r.stream k) : r'.Receives k bytes := by
  obtain ⟨c, hc, hchunked⟩ := h
  rw [stream, stream, hc, Option.map_some, Option.map_eq_some_iff] at hstream
  obtain ⟨c', hc', heq⟩ := hstream
  simp only [Connection.stream, Prod.mk.injEq] at heq
  obtain ⟨-, hopen, hin⟩ := heq
  exact ⟨c', hc', hopen.trans hchunked.isOpen, hin ▸ hchunked.flatten, hin ▸ hchunked.nonempty⟩

/-- Handlers do not change the limit. -/
theorem maxMsgSize_handleFrame (r : TcpRouter) (k : ConnId) (i : Inbound) :
    (r.handleFrame k i).maxMsgSize = r.maxMsgSize := by
  unfold handleFrame
  split
  · rfl
  · cases i with
    | torn h hpos => rfl
    | whole f =>
      simp only
      unfold dispatch
      split
      · unfold handlePeerHello
        split <;> rfl
      · unfold handlePeerRegister
        split <;> [split <;> rfl; rfl]
      · unfold handlePeerDelete
        split <;> [split <;> rfl; rfl]
      · rfl
      · unfold handleMbxInit
        split
        · simp only
          split <;> rfl
        · rfl
      · unfold handleMbxDelete
        split <;> rfl
      · have hup := (r.tables_forwardToUpstream f).2.2.2
        unfold handleData
        split
        · rfl
        · split
          · rfl
          · generalize r.forwardToUpstream f = res at hup
            obtain ⟨ok, r'⟩ := res
            cases ok <;> exact hup

/-- Events do not change the limit. -/
theorem maxMsgSize_step (r : TcpRouter) (e : Event) : (r.step e).maxMsgSize = r.maxMsgSize := by
  cases e with
  | accept socket => rfl
  | connectPeer socket => rfl
  | frame k i =>
    simp only [step]
    split
    · exact r.maxMsgSize_handleFrame k i
    · rfl
  | eof k =>
    simp only [step]
    split <;> rfl
  | uplinkFrame u i =>
    rcases r.step_uplinkFrame u i with ⟨d, f, -, h⟩ | h | h
    · rw [h]
      rfl
    · rw [h]
    · rw [h, (r.tables_closeUplink u).2.2.2]
  | uplinkEnd u => exact (r.tables_closeUplink u).2.2.2

end TcpRouter

namespace ConnectionRuns

/-! ### Steps of the other threads -/

/-- The connection whose thread takes the step. -/
def Event.thread : Event → Option ConnId
  | .loopCondition k => some k
  | .poll k _ => some k
  | _ => none

theorem maxMsgSize_step (s : ConnectionRuns) (e : Event) :
    (s.step e).router.maxMsgSize = s.router.maxMsgSize := by
  cases e with
  | accept socket => exact TcpRouter.maxMsgSize_step ..
  | connectPeer socket => exact TcpRouter.maxMsgSize_step ..
  | uplinkFrame u i => exact TcpRouter.maxMsgSize_step ..
  | uplinkEnd u => exact TcpRouter.maxMsgSize_step ..
  | requestStop j =>
    simp only [step]
    split <;> rfl
  | loopCondition j =>
    simp only [step]
    split
    · split <;> rfl
    · rfl
  | poll j ready =>
    simp only [step]
    split
    · split
      · split
        · rfl
        · rename_i c hc hat hready
          unfold round
          generalize c.socket.readInbound s.router.maxMsgSize = res
          obtain ⟨_ | i, socket⟩ := res
          · rfl
          · exact TcpRouter.maxMsgSize_handleFrame _ j i
      · rfl
    · rfl

/-- A round of another connection leaves the stream of connection `k` alone. -/
theorem stream_round (s : ConnectionRuns) {j k : ConnId} (hk : k ≠ j) (socket : TcpSocket) :
    (s.round j socket).router.stream k = s.router.stream k := by
  unfold round
  generalize socket.readInbound s.router.maxMsgSize = res
  obtain ⟨_ | i, socket'⟩ := res
  -- The stream of `j` has ended: its thread leaves the loop.
  · show ((TcpRouter.modify _ j _).modify j _).stream k = _
    rw [TcpRouter.stream_modify_of_ne _ _ hk]
    exact TcpRouter.stream_modify_of_ne _ _ hk
  · show ((s.router.modify j _).handleFrame j i).stream k = _
    -- An oversized frame closes the socket of `j` itself.
    by_cases hbig : s.router.maxMsgSize < i.header.bodyLen.toNat
    · rw [TcpRouter.handleFrame_oversized (show (s.router.modify j _).maxMsgSize < _ from hbig),
        TcpRouter.stream_modify_of_ne _ _ hk]
      exact TcpRouter.stream_modify_of_ne _ _ hk
    · rw [TcpRouter.stream_handleFrame (r := s.router.modify j _) (Nat.le_of_not_lt hbig)]
      exact TcpRouter.stream_modify_of_ne _ _ hk

/-- A step of anybody else leaves the stream of connection `k` alone. -/
theorem stream_others {s : ConnectionRuns} {k : ConnId} (hk : k < s.router.connections.length)
    {e : Event} (he : e.thread ≠ some k) :
    (s.step e).router.stream k = s.router.stream k := by
  have happend : ∀ c : Connection, ({ s.router with connections := s.router.connections ++ [c] } :
      TcpRouter).stream k = s.router.stream k := by
    intro c
    simp only [TcpRouter.stream, List.getElem?_append_left hk]
  cases e with
  | accept socket => exact happend _
  | connectPeer socket =>
    refine (TcpRouter.stream_modify _ _ k _ fun c => ?_).trans (happend _)
    exact (c.sentOn_advertiseAsPeer _).stream
  | uplinkFrame u i => exact s.router.stream_uplinkFrame u i k
  | uplinkEnd u => exact s.router.stream_closeUplink u k
  | requestStop j =>
    simp only [step]
    split <;> rfl
  | loopCondition j =>
    have hkj : k ≠ j := fun h => he (by rw [h]; rfl)
    simp only [step]
    split
    · split
      · exact TcpRouter.stream_modify_of_ne _ _ hkj
      · rfl
    · rfl
  | poll j ready =>
    have hkj : k ≠ j := fun h => he (by rw [h]; rfl)
    simp only [step]
    split
    · split
      · split
        · rfl
        · exact stream_round s hkj _
      · rfl
    · rfl

/-- A step of anybody else leaves the thread of connection `k` at its place. A stop can be
requested. -/
theorem thread_others (s : ConnectionRuns) {k : ConnId} {e : Event} (he : e.thread ≠ some k) :
    (s.step e).pc k = s.pc k ∧ (s.step e).calls k = s.calls k ∧
      (s.stopRequested k = true → (s.step e).stopRequested k = true) := by
  cases e with
  | accept socket => exact ⟨rfl, rfl, id⟩
  | connectPeer socket => exact ⟨rfl, rfl, id⟩
  | uplinkFrame u i => exact ⟨rfl, rfl, id⟩
  | uplinkEnd u => exact ⟨rfl, rfl, id⟩
  | requestStop j =>
    simp only [step]
    split
    · refine ⟨rfl, rfl, ?_⟩
      intro hstop
      by_cases hkj : k = j
      · simp [hkj]
      · simpa [Function.update_of_ne hkj] using hstop
    · exact ⟨rfl, rfl, id⟩
  | loopCondition j =>
    have hkj : k ≠ j := fun h => he (by rw [h]; rfl)
    simp only [step]
    split
    · split <;> exact ⟨Function.update_of_ne hkj _ _, rfl, id⟩
    · exact ⟨rfl, rfl, id⟩
  | poll j ready =>
    have hkj : k ≠ j := fun h => he (by rw [h]; rfl)
    simp only [step]
    split
    · split
      · split
        · exact ⟨Function.update_of_ne hkj _ _, rfl, id⟩
        · rename_i c hc hat hready
          unfold round
          generalize c.socket.readInbound s.router.maxMsgSize = res
          obtain ⟨_ | i, socket⟩ := res
          · exact ⟨Function.update_of_ne hkj _ _, rfl, id⟩
          · exact ⟨Function.update_of_ne hkj _ _, Function.update_of_ne hkj _ _, id⟩
      · exact ⟨rfl, rfl, id⟩
    · exact ⟨rfl, rfl, id⟩

/-! ### New connections -/

/-- The positions behind the last connection are unused. -/
def Fresh (s : ConnectionRuns) : Prop :=
  ∀ k, s.router.connections.length ≤ k →
    s.pc k = .loopCondition ∧ s.calls k = [] ∧ s.stopRequested k = false

theorem fresh_init (router : TcpRouter) : (init router).Fresh := fun _ _ => ⟨rfl, rfl, rfl⟩

/-- A step that changes connections below `n` only. -/
theorem Fresh.of_below {s t : ConnectionRuns} (h : s.Fresh)
    (hlen : s.router.connections.length ≤ t.router.connections.length)
    (hsame : ∀ k, s.router.connections.length ≤ k →
      t.pc k = s.pc k ∧ t.calls k = s.calls k ∧ t.stopRequested k = s.stopRequested k) :
    t.Fresh := by
  intro k hk
  obtain ⟨hpc, hcalls, hstop⟩ := hsame k (Nat.le_trans hlen hk)
  obtain ⟨hpc', hcalls', hstop'⟩ := h k (Nat.le_trans hlen hk)
  exact ⟨hpc.trans hpc', hcalls.trans hcalls', hstop.trans hstop'⟩

theorem fresh_step {s : ConnectionRuns} (h : s.Fresh) (e : Event) : (s.step e).Fresh := by
  have hne : ∀ {j k : ConnId}, j < s.router.connections.length →
      s.router.connections.length ≤ k → k ≠ j := by
    rintro j k hj hk rfl
    exact Nat.lt_irrefl _ (Nat.lt_of_lt_of_le hj hk)
  have hrouter : ∀ e, ({ s with router := s.router.step e } : ConnectionRuns).Fresh := fun e =>
    h.of_below (TcpRouter.length_le_step s.router e) fun k _ => ⟨rfl, rfl, rfl⟩
  cases e with
  | accept socket => exact hrouter _
  | connectPeer socket => exact hrouter _
  | uplinkFrame u i => exact hrouter _
  | uplinkEnd u => exact hrouter _
  | requestStop j =>
    simp only [step]
    split
    · rename_i hj
      exact h.of_below (Nat.le_refl _) fun k hk =>
        ⟨rfl, rfl, Function.update_of_ne (hne hj hk) _ _⟩
    · exact h
  | loopCondition j =>
    simp only [step]
    split
    · rename_i hj
      split
      · exact h.of_below (Nat.le_of_eq (TcpRouter.length_modify ..).symm) fun k hk =>
          ⟨Function.update_of_ne (hne hj.1 hk) _ _, rfl, rfl⟩
      · exact h.of_below (Nat.le_refl _) fun k hk =>
          ⟨Function.update_of_ne (hne hj.1 hk) _ _, rfl, rfl⟩
    · exact h
  | poll j ready =>
    simp only [step]
    split
    · rename_i c hc
      have hj : j < s.router.connections.length := (List.getElem?_eq_some_iff.mp hc).1
      split
      · split
        · exact h.of_below (Nat.le_refl _) fun k hk =>
            ⟨Function.update_of_ne (hne hj hk) _ _, rfl, rfl⟩
        · unfold round
          generalize c.socket.readInbound s.router.maxMsgSize = res
          obtain ⟨_ | i, socket⟩ := res
          · refine h.of_below (Nat.le_of_eq ?_) fun k hk =>
              ⟨Function.update_of_ne (hne hj hk) _ _, rfl, rfl⟩
            exact ((TcpRouter.length_modify ..).trans (TcpRouter.length_modify ..)).symm
          · refine h.of_below (Nat.le_of_eq ?_) fun k hk =>
              ⟨Function.update_of_ne (hne hj hk) _ _, Function.update_of_ne (hne hj hk) _ _, rfl⟩
            exact ((TcpRouter.length_handleFrame ..).trans (TcpRouter.length_modify ..)).symm
      · exact h
    · exact h

theorem fresh_run (router : TcpRouter) (es : List Event) :
    AllStates step Fresh (init router) es :=
  allStates_of_step (fun _ e h => fresh_step h e) es (fresh_init router)

/-! ### Frames in order -/

/-- A round on a stream that begins with a frame: one call of `handle_frame`, on that frame. -/
theorem round_of_frame {s : ConnectionRuns} {k : ConnId} {c : Connection}
    (hc : s.router.connections[k]? = some c) {f : Frame} {rest : List UInt8}
    (h : c.socket.Chunked (f.encode ++ rest)) (hsize : f.body.length ≤ s.router.maxMsgSize) :
    (s.round k c.socket).pc k = .loopCondition ∧
      (s.round k c.socket).calls k = s.calls k ++ [.whole f] ∧
      (s.round k c.socket).stopRequested = s.stopRequested ∧
      (s.round k c.socket).router.Receives k rest := by
  obtain ⟨hgot, hrest⟩ := TcpSocket.readInbound_of_frame h hsize
  unfold round
  generalize c.socket.readInbound s.router.maxMsgSize = res at hgot hrest
  obtain ⟨inbound, socket⟩ := res
  obtain rfl : inbound = some (.whole f) := hgot
  refine ⟨Function.update_self .., Function.update_self .., rfl, ?_⟩
  have hread : (s.router.modify k ({ · with socket := socket })).Receives k rest :=
    ⟨{ c with socket := socket }, by simp [TcpRouter.getElem?_modify, hc], hrest⟩
  rw [f.body_length] at hsize
  exact hread.congr (TcpRouter.stream_handleFrame (r := s.router.modify k _) (i := .whole f)
    hsize k k)

/-- A round at the end of the stream leaves the loop. -/
theorem round_of_end {s : ConnectionRuns} {k : ConnId} {socket : TcpSocket}
    (h : socket.Chunked []) :
    (s.round k socket).pc k = .ended ∧ (s.round k socket).calls k = s.calls k ∧
      (s.round k socket).stopRequested = s.stopRequested := by
  have hnone := TcpSocket.readInbound_nil h s.router.maxMsgSize
  unfold round
  generalize socket.readInbound s.router.maxMsgSize = res at hnone
  obtain ⟨inbound, socket'⟩ := res
  obtain rfl : inbound = none := hnone
  exact ⟨Function.update_self .., rfl, rfl⟩

/-- The calls of `handle_frame` so far and the frames `rest` that are still in the stream are the
frames that were sent. The loop ends at the end of the stream, or on request. -/
structure Reads (k : ConnId) (frames rest : List Frame) (s : ConnectionRuns) : Prop where
  calls : s.calls k ++ rest.map Inbound.whole = frames.map Inbound.whole
  fits : ∀ f ∈ rest, f.body.length ≤ s.router.maxMsgSize
  arrives : s.pc k ≠ .ended → s.router.Receives k (rest.flatMap Frame.encode)
  ended : s.pc k = .ended → s.stopRequested k = true ∨ rest = []

/-- The thread goes to another place in the loop. -/
theorem Reads.goto {k : ConnId} {frames rest : List Frame} {s : ConnectionRuns}
    (h : Reads k frames rest s) (hpc : s.pc k ≠ .ended) {p : RunPc} (hp : p ≠ .ended) :
    Reads k frames rest { s with pc := Function.update s.pc k p } where
  calls := h.calls
  fits := h.fits
  arrives := fun _ => h.arrives hpc
  ended := fun hend => absurd ((Function.update_self k p s.pc).symm.trans hend) hp

/-- The round behind a successful poll. -/
theorem Reads.round {k : ConnId} {frames rest : List Frame} {s : ConnectionRuns}
    (h : Reads k frames rest s) {c : Connection} (hc : s.router.connections[k]? = some c)
    (hat : s.pc k = .poll) :
    Reads k frames rest.tail (s.round k c.socket) ∧
      ((s.round k c.socket).pc k = .ended ↔ rest = []) := by
  obtain ⟨c', hc', hchunked⟩ := h.arrives (by rw [hat]; decide)
  obtain rfl : c' = c := Option.some_inj.mp (hc'.symm.trans hc)
  cases rest with
  -- All frames are handled, and `recv_all` of the next header fails.
  | nil =>
    obtain ⟨hpc, hcalls, -⟩ := round_of_end (s := s) (k := k) hchunked
    refine ⟨⟨by rw [hcalls]; exact h.calls, by simp, fun hne => absurd hpc hne, ?_⟩, by simp [hpc]⟩
    exact fun _ => Or.inr rfl
  | cons f rest =>
    rw [List.flatMap_cons] at hchunked
    obtain ⟨hpc, hcalls, -, harrives⟩ := round_of_frame hc hchunked (h.fits f (by simp))
    have hmax : (s.round k c'.socket).router.maxMsgSize = s.router.maxMsgSize := by
      have hstep := maxMsgSize_step s (.poll k 1)
      simpa [step, hc, hat, TcpSocket.pollIn, hchunked.isOpen] using hstep
    refine ⟨⟨?_, fun g hg => hmax ▸ h.fits g (List.mem_of_mem_tail hg), fun _ => harrives,
      fun hend => by simp [hpc] at hend⟩, by simp [hpc]⟩
    rw [hcalls, List.append_assoc]
    exact h.calls

/-- Every step keeps the invariant. -/
theorem reads_step {k : ConnId} {frames rest : List Frame} {s : ConnectionRuns}
    (h : Reads k frames rest s) (e : Event) : ∃ rest', Reads k frames rest' (s.step e) := by
  -- Only the thread of `k` reads the stream and calls `handle_frame` on it.
  by_cases he : e.thread = some k
  · cases e with
    | accept socket => cases he
    | connectPeer socket => cases he
    | uplinkFrame u i => cases he
    | uplinkEnd u => cases he
    | requestStop j => cases he
    | loopCondition j =>
      obtain rfl : j = k := Option.some_inj.mp he
      simp only [step]
      split
      · rename_i hat
        have hpc : s.pc j ≠ .ended := by rw [hat.2]; decide
        split
        · rename_i hstop
          exact ⟨rest, h.calls, h.fits, fun hne => absurd (Function.update_self ..) hne,
            fun _ => Or.inl hstop⟩
        · exact ⟨rest, h.goto hpc (by decide)⟩
      · exact ⟨rest, h⟩
    | poll j ready =>
      obtain rfl : j = k := Option.some_inj.mp he
      simp only [step]
      split
      · rename_i c hc
        split
        · rename_i hat
          split
          · exact ⟨rest, h.goto (by rw [hat]; decide) (by decide)⟩
          · exact ⟨rest.tail, (h.round hc hat).1⟩
        · exact ⟨rest, h⟩
      · exact ⟨rest, h⟩
  · obtain ⟨hpc, hcalls, hstop⟩ := thread_others s he
    refine ⟨rest, hcalls ▸ h.calls, fun f hf => maxMsgSize_step s e ▸ h.fits f hf, ?_, ?_⟩
    · intro hne
      have hreceives := h.arrives (hpc ▸ hne)
      exact hreceives.congr (stream_others hreceives.lt he)
    · intro hend
      exact (h.ended (hpc ▸ hend)).imp_left hstop

theorem ownRounds_succ (k : ConnId) (answers : Nat → Int) (n : Nat) :
    ownRounds k answers (n + 1)
      = .loopCondition k :: .poll k (answers 0) :: ownRounds k (fun i => answers (i + 1)) n := by
  simp [ownRounds, List.range_succ_eq_map, List.flatMap_map]

/-- One round of the thread itself, where the poll finds something: the next frame is handled, and
at the end of the stream the loop ends. -/
theorem reads_ownRound {k : ConnId} {frames rest : List Frame} {s : ConnectionRuns}
    (h : Reads k frames rest s) (hpc : s.pc k ≠ .ended) (hstop : s.stopRequested k = false)
    {ready : Int} (hready : 0 < ready) :
    Reads k frames rest.tail (runFrom step s [.loopCondition k, .poll k ready]) ∧
      (runFrom step s [.loopCondition k, .poll k ready]).stopRequested k = false ∧
      ((runFrom step s [.loopCondition k, .poll k ready]).pc k = .ended ↔ rest = []) := by
  obtain ⟨c, hc, hchunked⟩ := h.arrives hpc
  -- Behind the loop condition the thread stands before the poll.
  have hpoll : ∀ t : ConnectionRuns, t.router = s.router → t.pc k = .poll →
      t.step (.poll k ready) = t.round k c.socket := by
    intro t ht hat
    have hneg : ¬ ready ≤ 0 := by omega
    simp [step, ht, hc, hat, TcpSocket.pollIn, hchunked.isOpen, hneg]
  have hkeep : ∀ t : ConnectionRuns, (t.round k c.socket).stopRequested = t.stopRequested := by
    intro t
    unfold ConnectionRuns.round
    generalize c.socket.readInbound t.router.maxMsgSize = res
    obtain ⟨_ | i, socket⟩ := res <;> rfl
  simp only [runFrom_cons, runFrom_nil]
  cases hat : s.pc k with
  | ended => exact absurd hat hpc
  | poll =>
    -- It stands before the poll already, and the loop condition is not its next step.
    have hskip : s.step (.loopCondition k) = s := by simp [step, hat]
    rw [hskip, hpoll s rfl hat, hkeep]
    obtain ⟨hreads, hend⟩ := h.round hc hat
    exact ⟨hreads, hstop, hend⟩
  | loopCondition =>
    have hlt := (h.arrives hpc).lt
    have hgo : s.step (.loopCondition k) = { s with pc := Function.update s.pc k .poll } := by
      simp [step, hlt, hat, hstop]
    rw [hgo, hpoll { s with pc := Function.update s.pc k .poll } rfl (Function.update_self ..),
      hkeep]
    obtain ⟨hreads, hend⟩ := (h.goto hpc (by decide)).round hc (Function.update_self ..)
    exact ⟨hreads, hstop, hend⟩

/-- As many rounds of the thread as there are frames left, and one more for the end of the
stream: all frames have been handled, and the loop has ended. -/
theorem reads_ownRounds {k : ConnId} {frames : List Frame} (rest : List Frame) :
    ∀ {s : ConnectionRuns}, Reads k frames rest s → s.pc k ≠ .ended →
      s.stopRequested k = false → ∀ answers : Nat → Int, (∀ i, 0 < answers i) →
      Reads k frames [] (runFrom step s (ownRounds k answers (rest.length + 1))) ∧
        (runFrom step s (ownRounds k answers (rest.length + 1))).pc k = .ended := by
  -- Induction on the frames that are left: each round takes one.
  induction rest with
  | nil =>
    intro s h hpc hstop answers hanswers
    obtain ⟨hreads, -, hend⟩ := reads_ownRound h hpc hstop (hanswers 0)
    exact ⟨hreads, hend.mpr rfl⟩
  | cons f rest ih =>
    intro s h hpc hstop answers hanswers
    obtain ⟨hreads, hstop', hend⟩ := reads_ownRound h hpc hstop (hanswers 0)
    rw [List.length_cons, ownRounds_succ]
    exact ih hreads (fun hended => by cases hend.mp hended) hstop' _ fun i => hanswers (i + 1)

/-- `Connection::run` on connection `k` is on its way through `frames`: it has called
`handle_frame` on the first ones, in order. It does not end before the last one unless it is
asked to stop, and left alone it gets there. -/
def HandlesFrames (k : ConnId) (frames : List Frame) (s : ConnectionRuns) : Prop :=
  ∃ rest : List Frame,
    s.calls k ++ rest.map Inbound.whole = frames.map Inbound.whole ∧
      (s.pc k = .ended → s.stopRequested k = true ∨ rest = []) ∧
      (s.pc k ≠ .ended → s.stopRequested k = false →
        ∀ answers : Nat → Int, (∀ i, 0 < answers i) →
          (runFrom step s (ownRounds k answers (rest.length + 1))).calls k
            = frames.map Inbound.whole ∧
          (runFrom step s (ownRounds k answers (rest.length + 1))).pc k = .ended)

theorem Reads.handlesFrames {k : ConnId} {frames rest : List Frame} {s : ConnectionRuns}
    (h : Reads k frames rest s) : s.HandlesFrames k frames := by
  refine ⟨rest, h.calls, h.ended, ?_⟩
  intro hpc hstop answers hanswers
  obtain ⟨hreads, hend⟩ := reads_ownRounds rest h hpc hstop answers hanswers
  exact ⟨by simpa using hreads.calls, hend⟩

/-- A new connection, with the frames still in its stream. -/
theorem reads_open {s : ConnectionRuns} (hfresh : s.Fresh) {frames : List Frame}
    (hfits : ∀ f ∈ frames, f.body.length ≤ s.router.maxMsgSize) {socket : TcpSocket}
    (hsocket : socket.Chunked (frames.flatMap Frame.encode)) {e : Event}
    (he : e = .accept socket ∨ e = .connectPeer socket) :
    Reads s.router.connections.length frames frames (s.step e) := by
  obtain ⟨hpc, hcalls, -⟩ := hfresh _ (Nat.le_refl _)
  have hnew : ∀ peer, ({ s.router with
      connections := s.router.connections ++ [Connection.start socket peer] } :
        TcpRouter).Receives s.router.connections.length (frames.flatMap Frame.encode) :=
    fun peer => ⟨Connection.start socket peer, by simp, hsocket⟩
  rcases he with rfl | rfl
  · exact ⟨by simp [step, hcalls], hfits, fun _ => hnew false, fun hend => by
      simp [step, hpc] at hend⟩
  · refine ⟨by simp [step, hcalls], hfits, fun _ => ?_, fun hend => by simp [step, hpc] at hend⟩
    -- The peer is told about the local mailboxes at once, which reads nothing.
    refine (hnew true).congr (TcpRouter.stream_modify _ _ _ _ fun c => ?_)
    exact (c.sentOn_advertiseAsPeer _).stream

/-- Every run, from the moment a connection is opened on which the frames arrive. -/
theorem handlesFrames_run (router : TcpRouter) (before : List Event) {frames : List Frame}
    (hfits : ∀ f ∈ frames, f.body.length ≤ router.maxMsgSize) {socket : TcpSocket}
    (hsocket : socket.Chunked (frames.flatMap Frame.encode)) {e : Event}
    (he : e = .accept socket ∨ e = .connectPeer socket) (after : List Event) :
    AllStates step
      (HandlesFrames (runFrom step (init router) before).router.connections.length frames)
      ((runFrom step (init router) before).step e) after := by
  have hfresh := (fresh_run router before).last
  have hmax : (runFrom step (init router) before).router.maxMsgSize = router.maxMsgSize := by
    refine AllStates.last
      (P := fun s : ConnectionRuns => s.router.maxMsgSize = router.maxMsgSize) ?_
    exact allStates_of_step (fun s e h => (maxMsgSize_step s e).trans h) before rfl
  -- Nothing of the frames is read when the connection is opened.
  have hopen := reads_open hfresh (hmax.symm ▸ hfits) hsocket he
  have hreads : AllStates step
      (fun s => ∃ rest,
        Reads (runFrom step (init router) before).router.connections.length frames rest s)
      ((runFrom step (init router) before).step e) after := by
    refine allStates_of_step ?_ after ⟨frames, hopen⟩
    rintro s e ⟨rest, h⟩
    exact reads_step h e
  refine hreads.mono ?_
  rintro s ⟨rest, h⟩
  exact h.handlesFrames

end ConnectionRuns

end CoreRaT.Spec
