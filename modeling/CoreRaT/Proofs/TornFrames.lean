import CoreRaT.Lib.FrameStream
import CoreRaT.Proofs.TcpSocket
import CoreRaT.Spec.SendMutex
import CoreRaT.Spec.TimsMailbox

/-!
# `CoreRaT.Proofs.TornFrames`: what follows a frame that is written in part

`send_raw` of a mailbox and the writes of a connection as writers of a stream of frames
(`Lib/FrameStream.lean`). When a `::send` fails within a frame, the call gives up and the socket
stays open. `appended_sendRaw` and `appended_perform` say when a call writes nothing: when each
`send_all` that it makes fails at once. So a torn frame is the last that is written if and only if
the sends of all calls after it fail at once (`tornIsLast_iff`). `initialize` closes the socket when
a send fails, and these calls do not: `torn_frame_followed`.
-/

set_option autoImplicit false

namespace CoreRaT.Spec

open CoreRaT.Lib

namespace TcpSocket

variable {s : TcpSocket} {buf : List UInt8}

/-- The next `n` calls of `::send` take nothing. -/
def RefusesNext (s : TcpSocket) (n : Nat) : Prop := s.isOpen = false ∨ ∀ i < n, s.sendResults i ≤ 0

theorem refusesNext_one : s.RefusesNext 1 ↔ s.RefusesAtOnce := by
  unfold RefusesNext RefusesAtOnce
  simp

theorem prefix_sendAll (s : TcpSocket) (buf : List UInt8) :
    s.written <+: (s.sendAll buf).2.written := by
  obtain ⟨n, hwritten, -⟩ := s.sendAll_spec buf
  rw [hwritten]
  exact List.prefix_append _ _

/-- A `send_all` that is refused has used up one `::send`. -/
theorem sendAll_of_refuses (h : s.RefusesAtOnce) (hbuf : buf ≠ []) :
    s.sendAll buf = (false,
      if s.isOpen then { s with sendResults := fun i => s.sendResults (i + 1) } else s) := by
  cases buf with
  | nil => exact absurd rfl hbuf
  | cons b bs =>
    by_cases hopen : s.isOpen = true
    · have hneg : s.sendResults 0 ≤ 0 := by simpa [RefusesAtOnce, hopen] using h
      simp [sendAll, sendAllLoop, send, hopen, hneg, Int.toNat_of_nonpos hneg]
    · simp [sendAll, sendAllLoop, send, hopen]

/-- Two buffers of which nothing is written. -/
theorem written_sendAll_sendAll_iff {buf' : List UInt8} (hbuf : buf ≠ []) (hbuf' : buf' ≠ []) :
    ((s.sendAll buf).2.sendAll buf').2.written = s.written ↔ s.RefusesNext 2 := by
  have htwo : s.RefusesNext 2 ↔ s.RefusesAtOnce ∧ (s.isOpen = false ∨ s.sendResults 1 ≤ 0) := by
    unfold RefusesNext RefusesAtOnce
    by_cases hopen : s.isOpen = true
    · simp only [hopen, Bool.true_eq_false, false_or]
      refine ⟨fun h => ⟨h 0 (by omega), h 1 (by omega)⟩, fun h i hi => ?_⟩
      obtain rfl | rfl : i = 0 ∨ i = 1 := by omega
      · exact h.1
      · exact h.2
    · simp [hopen]
  rw [htwo]
  by_cases hrefuses : s.RefusesAtOnce
  · rw [sendAll_of_refuses hrefuses hbuf, and_iff_right hrefuses]
    by_cases hopen : s.isOpen = true
    · rw [if_pos hopen]
      have hsecond := written_sendAll_eq_iff
        { s with sendResults := fun i => s.sendResults (i + 1) } hbuf'
      refine hsecond.trans ?_
      simp [RefusesAtOnce, hopen]
    · have hclosed : s.isOpen = false := by simpa using hopen
      rw [if_neg hopen]
      exact iff_of_true ((written_sendAll_eq_iff s hbuf').mpr (Or.inl hclosed)) (Or.inl hclosed)
  · refine iff_of_false (fun hsame => ?_) fun h => hrefuses h.1
    -- The first call has written something, and the second one keeps it.
    have hfirst := s.prefix_sendAll buf
    have hsecond := (s.sendAll buf).2.prefix_sendAll buf'
    rw [hsame] at hsecond
    have heq := hfirst.eq_of_length (Nat.le_antisymm hfirst.length_le hsecond.length_le)
    exact hrefuses ((s.written_sendAll_eq_iff hbuf).mp heq.symm)

/-- `send_all` of a header, and of a body if the header has been sent. -/
def sendBoth (s : TcpSocket) (header body : List UInt8) : TcpSocket :=
  if (s.sendAll header).1 then ((s.sendAll header).2.sendAll body).2 else (s.sendAll header).2

theorem prefix_sendBoth (s : TcpSocket) (header body : List UInt8) :
    s.written <+: (s.sendBoth header body).written := by
  unfold sendBoth
  split
  · exact (s.prefix_sendAll header).trans (prefix_sendAll _ body)
  · exact s.prefix_sendAll header

theorem written_sendBoth_iff {header : List UInt8} (hheader : header ≠ []) (body : List UInt8) :
    (s.sendBoth header body).written = s.written ↔ s.RefusesAtOnce := by
  rw [← s.written_sendAll_eq_iff hheader, sendBoth]
  split
  · rename_i hok
    -- The header has been written.
    have hwritten := written_sendAll_of_true hok
    have hprefix := (s.sendAll header).2.prefix_sendAll body
    refine iff_of_false (fun hsame => ?_) fun hsame => ?_
    · rw [hsame, hwritten] at hprefix
      have hle := hprefix.length_le
      rw [List.length_append] at hle
      have hpos := List.length_pos_iff.mpr hheader
      omega
    · rw [hwritten] at hsame
      exact hheader (List.append_right_eq_self.mp hsame)
  · exact Iff.rfl

end TcpSocket

/-! ### `send_raw` -/

namespace TimsMailbox

variable {m : TimsMailbox} {data : List UInt8} {dest : MailboxId}

/-- The header of the frame of a message. -/
def dataHeader (m : TimsMailbox) (data : List UInt8) (dest : MailboxId) : FrameHeader :=
  makeFrame 0 dest m.config.mailboxId m.config.priority.toUInt8 m.sequenceNumber.toUInt8
    (UInt32.ofNat data.length)

/-- `send_raw` comes to its first `send_all`. -/
def Sends (m : TimsMailbox) (data : List UInt8) : Prop :=
  m.isInitialized = true ∧ m.socket.isOpen = true ∧ data ≠ [] ∧
    data.length ≤ m.config.maxMsgSize

theorem sendRaw_of_not_sends (h : ¬ m.Sends data) : (m.sendRaw data dest).2 = m := by
  unfold sendRaw
  split
  · rfl
  · rename_i hinit
    split
    · rfl
    · rename_i hsize
      simp only [Bool.or_eq_true, Bool.not_eq_true', List.isEmpty_iff, decide_eq_true_eq,
        not_or, Bool.not_eq_false, Nat.not_lt] at hinit hsize
      exact absurd ⟨hinit.1, hinit.2, hsize.1, hsize.2⟩ h

theorem socket_sendRaw (h : m.Sends data) :
    (m.sendRaw data dest).2.socket = m.socket.sendBoth (m.dataHeader data dest).encode data := by
  obtain ⟨hinit, hopen, hdata, hlen⟩ := h
  have hsize : (data.isEmpty || decide (m.config.maxMsgSize < data.length)) = false := by
    simp [hdata, hlen]
  simp only [sendRaw, hinit, hopen, hsize, Bool.not_true, Bool.or_self, Bool.false_eq_true,
    ↓reduceIte, TcpSocket.sendBoth]
  rw [← dataHeader]
  rcases m.socket.sendAll (m.dataHeader data dest).encode with ⟨_ | _, s⟩
  · rfl
  · rcases hbody : s.sendAll data with ⟨_ | _, s'⟩
    · simp [hbody]
    · simp [hbody]

/-- A mailbox and its calls of `send_raw`. -/
def sender : FrameWriter TimsMailbox (List UInt8 × MailboxId) UInt8 where
  step m call := (m.sendRaw call.1 call.2).2
  written m := m.socket.written
  frame m call := (m.dataHeader call.1 call.2).encode ++ call.1

/-- A call that does not come to its first `send_all`, or whose first `::send` fails. -/
def Refuses (m : TimsMailbox) (call : List UInt8 × MailboxId) : Prop :=
  m.isInitialized = false ∨ call.1 = [] ∨ m.config.maxMsgSize < call.1.length ∨
    m.socket.RefusesAtOnce

theorem sender_grows (m : TimsMailbox) (call : List UInt8 × MailboxId) :
    sender.written m <+: sender.written (sender.step m call) := by
  show m.socket.written <+: (m.sendRaw call.1 call.2).2.socket.written
  by_cases hsends : m.Sends call.1
  · rw [socket_sendRaw hsends]
    exact m.socket.prefix_sendBoth _ _
  · simp only [sendRaw_of_not_sends hsends, List.prefix_rfl]

/-- A call writes nothing if it does not send, or is refused at once. -/
theorem appended_sendRaw (m : TimsMailbox) (call : List UInt8 × MailboxId) :
    sender.appended m call = [] ↔ m.Refuses call := by
  rw [FrameWriter.appended_eq_nil_iff (sender_grows m call)]
  show (m.sendRaw call.1 call.2).2.socket.written = m.socket.written ↔ _
  by_cases hsends : m.Sends call.1
  · have hrefuses : m.Refuses call ↔ m.socket.RefusesAtOnce := by
      obtain ⟨hinit, -, hdata, hlen⟩ := hsends
      simp [Refuses, hinit, hdata, Nat.not_lt.mpr hlen]
    rw [hrefuses, socket_sendRaw hsends]
    exact TcpSocket.written_sendBoth_iff (FrameHeader.encode_ne_nil _) call.1
  · rw [sendRaw_of_not_sends hsends]
    refine iff_of_true rfl ?_
    by_contra hrefuses
    simp only [Refuses, TcpSocket.RefusesAtOnce, not_or, Bool.not_eq_false, Nat.not_lt] at hrefuses
    exact hsends ⟨hrefuses.1, hrefuses.2.2.2.1, hrefuses.2.1, hrefuses.2.2.1⟩

end TimsMailbox

/-! ### The writes of a connection -/

namespace WriteOp

/-- The number of `send_all` calls of a write whose calls all fail. -/
def attempts : WriteOp → Nat
  | .sendPeerRegister _ | .sendPeerDelete _ => 2
  | .forward _ | .hello | .initReply _ _ | .errorReply _ => 1

/-- A connection and its writes. -/
def writer : FrameWriter Connection WriteOp UInt8 where
  step c op := op.perform c
  written c := c.socket.written
  frame _ op := op.frame.encode

theorem socket_forward (c : Connection) (f : Frame) :
    (c.forward f).2.socket = c.socket.sendBoth f.header.encode f.body := by
  unfold Connection.forward Connection.sendAll TcpSocket.sendBoth
  rcases c.socket.sendAll f.header.encode with ⟨_ | _, s⟩
  · rfl
  · rfl

theorem writer_grows (c : Connection) (op : WriteOp) :
    writer.written c <+: writer.written (writer.step c op) := by
  show c.socket.written <+: (op.perform c).socket.written
  have hone : ∀ buf, c.socket.written <+: (c.sendAll buf).2.socket.written := fun buf =>
    c.socket.prefix_sendAll buf
  have htwo : ∀ buf buf', c.socket.written <+: ((c.sendAll buf).2.sendAll buf').2.socket.written :=
    fun buf buf' => (hone buf).trans (TcpSocket.prefix_sendAll _ buf')
  cases op with
  | forward f =>
    show c.socket.written <+: (c.forward f).2.socket.written
    rw [socket_forward]
    exact c.socket.prefix_sendBoth _ _
  | sendPeerRegister id => exact htwo _ _
  | sendPeerDelete id => exact htwo _ _
  | hello => exact hone _
  | initReply ok h => exact hone _
  | errorReply h => exact hone _

/-- A write leaves nothing behind if all its `send_all` calls are refused. -/
theorem appended_perform (c : Connection) (op : WriteOp) :
    writer.appended c op = [] ↔ c.socket.RefusesNext op.attempts := by
  rw [FrameWriter.appended_eq_nil_iff (writer_grows c op)]
  show (op.perform c).socket.written = c.socket.written ↔ _
  have hone : ∀ f : Frame, (c.sendAll f.encode).2.socket.written = c.socket.written ↔
      c.socket.RefusesNext 1 := fun f =>
    (c.socket.written_sendAll_eq_iff f.encode_ne_nil).trans TcpSocket.refusesNext_one.symm
  have htwo : ∀ type id, (c.sendMbx type id).socket.written = c.socket.written ↔
      c.socket.RefusesNext 2 := fun type id =>
    TcpSocket.written_sendAll_sendAll_iff (FrameHeader.encode_ne_nil _) (List.cons_ne_nil _ _)
  cases op with
  | forward f =>
    show (c.forward f).2.socket.written = c.socket.written ↔ c.socket.RefusesNext 1
    rw [TcpSocket.refusesNext_one, socket_forward]
    exact TcpSocket.written_sendBoth_iff f.header.encode_ne_nil f.body
  | sendPeerRegister id => exact htwo _ _
  | sendPeerDelete id => exact htwo _ _
  | hello => exact hone _
  | initReply ok h => exact hone _
  | errorReply h => exact hone _

end WriteOp

/-! ### Runs -/

/-- No byte is written behind a torn frame if and only if, after each call that tears its frame, the
sends of all further calls fail at once. Then what is written is made of whole frames, up to a part
of one frame at the end. -/
theorem tornIsLast_iff (m : TimsMailbox) (calls : List (List UInt8 × MailboxId)) (c : Connection)
    (ops : List WriteOp) :
    ((TimsMailbox.sender.TornIsLast m calls ↔
        TimsMailbox.sender.AfterTorn TimsMailbox.Refuses m calls) ∧
      (TimsMailbox.sender.TornIsLast m calls → TimsMailbox.sender.EndsInPart m calls)) ∧
    (WriteOp.writer.TornIsLast c ops ↔
      WriteOp.writer.AfterTorn (fun c op => c.socket.RefusesNext op.attempts) c ops) ∧
    (WriteOp.writer.TornIsLast c ops → WriteOp.writer.EndsInPart c ops) := by
  refine ⟨⟨?_, fun h => ?_⟩, ?_, fun h => ?_⟩
  · exact FrameWriter.afterTorn_congr TimsMailbox.appended_sendRaw
  · exact h.endsInPart TimsMailbox.sender_grows
  · exact FrameWriter.afterTorn_congr WriteOp.appended_perform
  · exact h.endsInPart WriteOp.writer_grows

/-- A socket whose second `::send` takes two bytes and whose third one fails. -/
def tearingSocket : TcpSocket where
  isOpen := true
  sendResults i := if i = 1 then 2 else if i = 2 then -1 else 64
  written := []
  inbound := []

/-- A message of which two bytes are missing is followed by one that is written as a whole. A
`PEER_REGISTER` with half of its id is followed by a `PEER_DELETE`. -/
theorem torn_frame_followed :
    let m : TimsMailbox := ⟨⟨5, 64, 0⟩, tearingSocket, true, 0, 0, 0⟩
    let c : Connection := .start tearingSocket true
    ((m.sendRaw [1, 2, 3, 4] 9).1 = .ERROR_SEND ∧
      ((m.sendRaw [1, 2, 3, 4] 9).2.sendRaw [5] 9).1 = .SUCCESS ∧
      ¬ TimsMailbox.sender.TornIsLast m [([1, 2, 3, 4], 9), ([5], 9)]) ∧
    ¬ WriteOp.writer.TornIsLast c [.sendPeerRegister 7, .sendPeerDelete 8] := by
  intro m c
  refine ⟨⟨by decide, by decide, ?_⟩, ?_⟩
  · rintro ⟨hlast, -⟩
    have hsilent : TimsMailbox.sender.appended (m.sendRaw [1, 2, 3, 4] 9).2 ([5], 9) = [] :=
      (hlast ⟨by decide, by decide⟩).1
    exact absurd hsilent (by decide)
  · rintro ⟨hlast, -⟩
    have hsilent : WriteOp.writer.appended (c.sendPeerRegister 7) (.sendPeerDelete 8) = [] :=
      (hlast ⟨by decide, by decide⟩).1
    exact absurd hsilent (by decide)

end CoreRaT.Spec
