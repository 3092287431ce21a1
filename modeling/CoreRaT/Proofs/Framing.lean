import CoreRaT.Proofs.Run.Frames
import CoreRaT.Spec.SendMutex

/-!
# `CoreRaT.Proofs.Framing`: frames on a connection stay whole

The threads that write to one connection take turns: each write holds `send_mutex_` from its
first byte to its last. `simulates_step` shows that the writers, on a socket whose sends do not
fail, are the `Lib.LockedWriters` of the buffers of the writes. So the bytes on the connection
are a merge of whole frames, each thread's in its own order, and they parse back into these
frames: `written_parses`. `alone` ties the single steps to the functions of
`Spec/TcpRouter.lean`: a thread that is not interrupted does what the function does.

`frames_in_order` puts the two ends of a connection together.
-/

set_option autoImplicit false

namespace CoreRaT.Spec

open CoreRaT.Lib

/-! ### One write -/

/-- The buffers of a write are its frame. -/
theorem WriteOp.flatten_buffers (op : WriteOp) : op.buffers.flatten = op.frame.encode := by
  cases op <;> simp [buffers, Frame.encode]

theorem Connection.sendAll_of_reliable {c : Connection} (hc : c.socket.Reliable)
    (buf : List UInt8) :
    (c.sendAll buf).1 = true ∧ (c.sendAll buf).2.socket.written = c.socket.written ++ buf ∧
      (c.sendAll buf).2.socket.Reliable := by
  obtain ⟨hok, hreliable⟩ := hc.sendAll buf
  exact ⟨hok, TcpSocket.written_sendAll_of_true hok, hreliable⟩

/-- While the sends do not fail, a write puts its frame on the connection. -/
theorem WriteOp.perform_of_reliable (op : WriteOp) {c : Connection} (hc : c.socket.Reliable) :
    (op.perform c).socket.written = c.socket.written ++ op.frame.encode ∧
      (op.perform c).socket.Reliable := by
  -- The header and the body, in two calls.
  have htwo : ∀ f : Frame, ((c.sendAll f.header.encode).2.sendAll f.body).2.socket.written
      = c.socket.written ++ f.encode ∧
        ((c.sendAll f.header.encode).2.sendAll f.body).2.socket.Reliable := by
    intro f
    obtain ⟨-, hwritten, hreliable⟩ := c.sendAll_of_reliable hc f.header.encode
    obtain ⟨-, hwritten', hreliable'⟩ := Connection.sendAll_of_reliable hreliable f.body
    exact ⟨by rw [hwritten', hwritten, List.append_assoc, Frame.encode], hreliable'⟩
  cases op with
  | forward f =>
    have hforward : c.forward f = (c.sendAll f.header.encode).2.sendAll f.body := by
      unfold Connection.forward
      have hok := (c.sendAll_of_reliable hc f.header.encode).1
      generalize c.sendAll f.header.encode = res at hok
      obtain ⟨ok, c'⟩ := res
      obtain rfl : ok = true := hok
      rfl
    rw [perform, hforward]
    exact htwo f
  | sendPeerRegister id => exact htwo _
  | sendPeerDelete id => exact htwo _
  | hello => exact (c.sendAll_of_reliable hc _).2
  | initReply ok h => exact (c.sendAll_of_reliable hc _).2
  | errorReply h => exact (c.sendAll_of_reliable hc _).2

namespace ConnectionWriters

variable {ι : Type} [DecidableEq ι]

/-- The rounds of the `send_all` loop, when no other thread gets in between. -/
theorem sendAllLoop_alone (i : ι) (op : WriteOp) (rest : List (List UInt8)) :
    ∀ (fuel : Nat) (buf : List UInt8), buf.length ≤ fuel → ∀ w : ConnectionWriters ι,
      w.holder = some ⟨i, op, buf :: rest⟩ →
      ∃ n, runFrom step w (List.replicate n (.send i))
        = { w with
            holder := some ⟨i, op,
              if (TcpSocket.sendAllLoop fuel w.socket buf).1 then rest else op.afterFailure rest⟩
            socket := (TcpSocket.sendAllLoop fuel w.socket buf).2 } := by
  intro fuel
  -- The fuel of `sendAllLoop` counts the rounds; `n` counts the steps that they take here. The step
  -- behind the last byte goes to the next buffer.
  induction fuel with
  | zero =>
    intro buf hfuel w hw
    obtain rfl : buf = [] := List.length_eq_zero_iff.mp (by omega)
    exact ⟨1, by simp [step, hw, sendRound, TcpSocket.sendAllLoop]⟩
  | succ fuel ih =>
    intro buf hfuel w hw
    cases buf with
    | nil => exact ⟨1, by simp [step, hw, sendRound, TcpSocket.sendAllLoop]⟩
    | cons b bs =>
      have hfirst : w.step (.send i) = w.sendRound i op (b :: bs) rest := by simp [step, hw]
      simp only [TcpSocket.sendAllLoop]
      by_cases hneg : (w.socket.send (b :: bs)).1 ≤ 0
      · -- The send failed, and so does the call.
        exact ⟨1, by simp [hfirst, sendRound, hneg]⟩
      · have hlen : ((b :: bs).drop (w.socket.send (b :: bs)).1.toNat).length ≤ fuel := by
          rw [List.length_drop]
          omega
        obtain ⟨n, hn⟩ := ih _ hlen
          { w with
              holder := some ⟨i, op, (b :: bs).drop (w.socket.send (b :: bs)).1.toNat :: rest⟩
              socket := (w.socket.send (b :: bs)).2 } rfl
        refine ⟨n + 1, ?_⟩
        rw [List.replicate_succ, runFrom_cons, hfirst]
        simp only [sendRound, if_neg hneg]
        exact hn

/-- One `send_all` call, when no other thread gets in between. -/
theorem sendAll_alone (i : ι) (op : WriteOp) (buf : List UInt8) (rest : List (List UInt8))
    (todo : ι → List WriteOp) (socket : TcpSocket) :
    ∃ n, runFrom step ⟨todo, some ⟨i, op, buf :: rest⟩, socket⟩ (List.replicate n (.send i))
      = ⟨todo, some ⟨i, op, if (socket.sendAll buf).1 then rest else op.afterFailure rest⟩,
          (socket.sendAll buf).2⟩ :=
  sendAllLoop_alone i op rest buf.length buf (Nat.le_refl _) ⟨todo, _, socket⟩ rfl

/-- The `send_all` calls of a write, when no other thread gets in between. -/
theorem perform_alone (i : ι) (op : WriteOp) (todo : ι → List WriteOp) (c : Connection) :
    ∃ n, runFrom step ⟨todo, some ⟨i, op, op.buffers⟩, c.socket⟩ (List.replicate n (.send i))
      = ⟨todo, some ⟨i, op, []⟩, (op.perform c).socket⟩ := by
  -- A write of one buffer is done whether the call succeeds or not.
  have hone : ∀ (buf : List UInt8) (socket : TcpSocket), op.afterFailure [] = [] →
      ∃ n, runFrom step ⟨todo, some ⟨i, op, [buf]⟩, socket⟩ (List.replicate n (.send i))
        = ⟨todo, some ⟨i, op, []⟩, (socket.sendAll buf).2⟩ := by
    intro buf socket hnil
    obtain ⟨n, hn⟩ := sendAll_alone i op buf [] todo socket
    exact ⟨n, by rw [hn, hnil, ite_self]⟩
  -- A write of two buffers: behind the first call it depends on the write whether the second is
  -- made.
  have htwo : ∀ (buf buf' : List UInt8) (t : ConnectionWriters ι),
      (∃ n, runFrom step
          ⟨todo, some ⟨i, op, if (c.socket.sendAll buf).1 then [buf'] else op.afterFailure [buf']⟩,
            (c.socket.sendAll buf).2⟩ (List.replicate n (.send i)) = t) →
      ∃ n, runFrom step ⟨todo, some ⟨i, op, [buf, buf']⟩, c.socket⟩
        (List.replicate n (.send i)) = t := by
    rintro buf buf' t ⟨n', hn'⟩
    obtain ⟨n, hn⟩ := sendAll_alone i op buf [buf'] todo c.socket
    exact ⟨n + n', by rw [← List.replicate_append_replicate, runFrom_append, hn, hn']⟩
  cases op with
  | forward f =>
    refine htwo _ _ _ ?_
    by_cases hok : (c.socket.sendAll f.header.encode).1 = true
    · rw [WriteOp.frame, if_pos hok]
      have hforward : ((WriteOp.forward f).perform c).socket
          = ((c.socket.sendAll f.header.encode).2.sendAll f.body).2 := by
        simp [WriteOp.perform, Connection.forward, Connection.sendAll, hok]
      rw [hforward]
      exact hone _ _ rfl
    -- The header failed: `forward` returns without the body.
    · rw [WriteOp.frame, if_neg hok]
      exact ⟨0, by simp [WriteOp.perform, Connection.forward, Connection.sendAll, hok,
        WriteOp.afterFailure]⟩
  | sendPeerRegister id =>
    refine htwo _ _ _ ?_
    -- The body is sent whatever became of the header.
    simp only [WriteOp.afterFailure, ite_self]
    exact hone _ _ rfl
  | sendPeerDelete id =>
    refine htwo _ _ _ ?_
    simp only [WriteOp.afterFailure, ite_self]
    exact hone _ _ rfl
  | hello => exact hone _ _ rfl
  | initReply ok h => exact hone _ _ rfl
  | errorReply h => exact hone _ _ rfl

/-- A thread that locks the mutex and is not interrupted does what the function does, whatever
the sends give, and unlocks it. -/
theorem alone {w : ConnectionWriters ι} (hfree : w.holder = none) {i : ι} {op : WriteOp}
    {ops : List WriteOp} (hnext : w.todo i = op :: ops) {c : Connection}
    (hc : c.socket = w.socket) :
    ∃ n, runFrom step w (.lock i :: (List.replicate n (.send i) ++ [.unlock i]))
      = ⟨Function.update w.todo i ops, none, (op.perform c).socket⟩ := by
  have hlock : w.step (.lock i)
      = ⟨Function.update w.todo i ops, some ⟨i, op, op.buffers⟩, c.socket⟩ := by
    simp [step, hfree, hnext, hc]
  obtain ⟨n, hn⟩ := perform_alone i op (Function.update w.todo i ops) c
  refine ⟨n, ?_⟩
  rw [runFrom_cons, hlock, runFrom_append, hn]
  simp [step]

/-! ### All writes -/

/-- The writers, without the socket. -/
def lockedWriters (w : ConnectionWriters ι) : LockedWriters ι WriteOp UInt8 :=
  ⟨w.todo, w.holder, w.socket.written⟩

/-- A step, with the number of bytes that the kernel takes in a `::send`. -/
def lockedEvent (w : ConnectionWriters ι) : Event ι → LockedWriters.Event ι
  | .lock i => .acquire i
  | .send i =>
    match w.holder with
    | some ⟨_, _, buf :: _⟩ => .send i (w.socket.send buf).1.toNat
    | _ => .send i 0
  | .unlock i => .release i

/-- While the sends do not fail, each step of the threads is a step of locked writers. -/
theorem simulates_step {w : ConnectionWriters ι} (hw : w.socket.Reliable) (e : Event ι) :
    (w.step e).lockedWriters = w.lockedWriters.step WriteOp.buffers (w.lockedEvent e) ∧
      (w.step e).socket.Reliable := by
  obtain ⟨todo, holder, socket⟩ := w
  cases e with
  | lock i =>
    cases holder with
    | some h => exact ⟨rfl, hw⟩
    | none =>
      cases hnext : todo i with
      | nil => simpa [step, lockedWriters, lockedEvent, LockedWriters.step, hnext] using hw
      | cons op ops => simpa [step, lockedWriters, lockedEvent, LockedWriters.step, hnext] using hw
  | unlock i =>
    obtain _ | ⟨j, op, _ | ⟨buf, rest⟩⟩ := holder
    · exact ⟨rfl, hw⟩
    · simp only [step, lockedWriters, lockedEvent, LockedWriters.step]
      split <;> exact ⟨rfl, hw⟩
    · exact ⟨rfl, hw⟩
  | send i =>
    obtain _ | ⟨j, op, _ | ⟨_ | ⟨b, bs⟩, rest⟩⟩ := holder
    · exact ⟨rfl, hw⟩
    · exact ⟨rfl, hw⟩
    · simp only [step, lockedWriters, lockedEvent, LockedWriters.step, sendRound]
      split <;> exact ⟨rfl, hw⟩
    · -- The kernel takes at least one byte, and the stream takes as many.
      obtain ⟨n, hwritten, -, -, hn⟩ := socket.send_spec (b :: bs) (by simp)
      have hpos : 0 < (socket.send (b :: bs)).1 := hw.send_pos (by simp)
      have hreliable := hw.send (b :: bs)
      simp only [step, lockedWriters, lockedEvent, LockedWriters.step, sendRound]
      split
      · have hn' : (socket.send (b :: bs)).1.toNat = n := by omega
        rw [if_neg (by omega)]
        simp only [hn', hwritten]
        exact ⟨trivial, hreliable⟩
      · exact ⟨rfl, hw⟩

/-- Whenever the mutex is free, the bytes on the connection parse into frames that the threads
were to send, byte for byte, and each thread's frames are among them in its own order. What a
thread has not written yet is still to do. -/
def Framed (todo : ι → List WriteOp) (w : ConnectionWriters ι) : Prop :=
  w.holder = none → ∃ log : List (ι × WriteOp),
    (∀ i, LockedWriters.messagesOf i log ++ w.todo i = todo i) ∧
      parseFrames w.socket.written.length w.socket.written = some (log.map (·.2.frame))

/-- A merge of whole writes parses back into their frames. -/
theorem framed_of_merged {todo : ι → List WriteOp} {log : List (ι × WriteOp)}
    {w : ConnectionWriters ι} (h : LockedWriters.Merged WriteOp.buffers todo log w.lockedWriters) :
    w.Framed todo := by
  intro hfree
  refine ⟨log, h.order, ?_⟩
  have hbytes : w.socket.written = (log.map (·.2.frame)).flatMap Frame.encode := by
    have hout : w.socket.written = log.flatMap fun e => e.2.buffers.flatten :=
      h.out_of_free hfree
    rw [hout, List.flatMap_map]
    simp only [WriteOp.flatten_buffers]
  rw [hbytes]
  exact parseFrames_encode _ _ (Nat.le_refl _)

/-- Every interleaving of the threads. -/
theorem written_parses (todo : ι → List WriteOp) {socket : TcpSocket} (hsocket : socket.Reliable)
    (hwritten : socket.written = []) (es : List (Event ι)) :
    AllStates step (Framed todo) (init todo socket) es := by
  have hstart : LockedWriters.Merged WriteOp.buffers todo []
      (init todo socket : ConnectionWriters ι).lockedWriters := by
    simp only [lockedWriters, init, hwritten]
    exact LockedWriters.merged_init todo
  -- The invariant of locked writers, carried over step by step.
  have hmerged : AllStates step (fun w => w.socket.Reliable ∧ ∃ log, LockedWriters.Merged
      WriteOp.buffers todo log w.lockedWriters) (init todo socket) es := by
    refine allStates_of_step ?_ es ⟨hsocket, [], hstart⟩
    rintro w e ⟨hw, log, h⟩
    obtain ⟨hstep, hreliable⟩ := simulates_step hw e
    exact ⟨hreliable, hstep ▸ LockedWriters.merged_step h _⟩
  refine hmerged.mono ?_
  rintro w ⟨-, log, h⟩
  exact framed_of_merged h

end ConnectionWriters

/-! ### Both ends of a connection -/

/-- A sender that forwards the frames, one after the other. -/
def Connection.forwardAll (c : Connection) (frames : List Frame) : Connection :=
  frames.foldl (fun c f => (c.forward f).2) c

/-- The byte stream of the frames, whatever sizes the sends had. -/
theorem Connection.written_forwardAll (frames : List Frame) :
    ∀ {c : Connection}, c.socket.Reliable →
      (c.forwardAll frames).socket.written = c.socket.written ++ frames.flatMap Frame.encode := by
  induction frames with
  | nil =>
    intro c _
    simp [forwardAll]
  | cons f frames ih =>
    intro c hc
    obtain ⟨hwritten, hreliable⟩ := (WriteOp.forward f).perform_of_reliable hc
    have hrest := ih hreliable
    rw [hwritten, List.append_assoc] at hrest
    exact hrest

/-- **Framing and order.** A sender writes frames that fit the router's limit, with short sends of
any size. They reach the router in chunks of any size, on a connection that it accepts or opens
at any point of its run. Then `run()` calls `handle_frame` on these frames, in order. And whenever
the mutex of a connection is free, what the threads have written to it, in any interleaving, parses
back into their frames. -/
theorem frames_in_order {ι : Type} [DecidableEq ι] (router : TcpRouter)
    (before after : List ConnectionRuns.Event) (frames : List Frame)
    (hfits : ∀ f ∈ frames, f.body.length ≤ router.maxMsgSize)
    (sender : Connection) (hsender : sender.socket.Reliable) (hnew : sender.socket.written = [])
    (socket : TcpSocket) (hsocket : socket.Chunked (sender.forwardAll frames).socket.written)
    (e : ConnectionRuns.Event) (he : e = .accept socket ∨ e = .connectPeer socket)
    (todo : ι → List WriteOp) (out : TcpSocket) (hout : out.Reliable) (hempty : out.written = [])
    (es : List (ConnectionWriters.Event ι)) :
    AllStates ConnectionRuns.step
        (ConnectionRuns.HandlesFrames
          (runFrom ConnectionRuns.step (.init router) before).router.connections.length frames)
        ((runFrom ConnectionRuns.step (.init router) before).step e) after ∧
      AllStates ConnectionWriters.step (ConnectionWriters.Framed todo) (.init todo out) es := by
  refine ⟨?_, ConnectionWriters.written_parses todo hout hempty es⟩
  rw [sender.written_forwardAll frames hsender, hnew, List.nil_append] at hsocket
  exact ConnectionRuns.handlesFrames_run router before hfits hsocket he after

/-- A data frame with a body of two bytes, and a frame whose `msglen` is below the size of the
header. -/
def twoFrames : List Frame :=
  [⟨makeFrame 1 7 9 0 0 2, [1, 2], by decide⟩, ⟨⟨3, 1, 0, 0, 7, 9, 5⟩, [], by decide⟩]

/-- A connection whose sends take at most three bytes. -/
def shortSends : Connection := .start ⟨true, fun _ => 3, [], []⟩ false

/-- The same frames, arriving byte by byte. -/
def byteWise : TcpSocket :=
  ⟨true, fun _ => 1, [], (shortSends.forwardAll twoFrames).socket.written.map ([·])⟩

/-- The threads of two connections write to a third one. Thread 1 asks for the mutex while thread 0
holds it, and gets it afterwards. -/
def twoWriters : List (ConnectionWriters.Event (Fin 2)) :=
  .lock 0 :: .lock 1 :: List.replicate 9 (.send 0) ++ [.unlock 0, .lock 1]

theorem frames_in_order_bytewise :
    AllStates ConnectionRuns.step (ConnectionRuns.HandlesFrames 0 twoFrames)
        (ConnectionRuns.step (.init (.init 2 byteWise.close [])) (.accept byteWise))
        (ConnectionRuns.ownRounds 0 (fun _ => 1) 3) ∧
      AllStates ConnectionWriters.step
        (ConnectionWriters.Framed fun _ => [.hello, .sendPeerRegister 7])
        (.init (fun _ => [.hello, .sendPeerRegister 7]) shortSends.socket) twoWriters := by
  have hreliable : shortSends.socket.Reliable := ⟨rfl, fun _ => show (0 : Int) < 3 by decide⟩
  refine frames_in_order (.init 2 byteWise.close []) [] _ twoFrames ?_ shortSends hreliable rfl
    byteWise ⟨rfl, ?_, ?_⟩ _ (Or.inl rfl) _ _ hreliable rfl _
  · simp [twoFrames, TcpRouter.init]
  · simp [byteWise, ← List.flatMap_def]
  · simp [byteWise]

end CoreRaT.Spec
