import CoreRaT.Lib.Run
import CoreRaT.Proofs.ReceiveRound

/-!
# `CoreRaT.Proofs.SharedMailbox`: the frames of a mailbox with a sender and a receiver

`sendRaw_eq` ties the steps of the sender to `send_raw`, as `receiveLoop_succ` ties the rounds to
`receive_raw`. While no send fails, the stream that the mailbox writes is made of whole frames, and
behind them the header of the frame that is being sent. Only the answer to a probe can break this:
one that is sent between a header and its body. `framed_of_run` shows that nothing else does, and
also that such an answer always does. `reply_within_frame` is a run with one. The writes of the
router to a connection are made under a lock, which a mailbox does not have.
-/

set_option autoImplicit false

namespace CoreRaT.Spec

open CoreRaT.Lib

namespace TimsMailbox

variable {swapEndiannessFrom : (littleEndian : Bool) → List UInt8 → List UInt8}

/-! ### The steps of the sender -/

/-- `send_raw` is its two parts, one after the other. -/
theorem sendRaw_eq (m : TimsMailbox) (data : List UInt8) (dest : MailboxId) :
    m.sendRaw data dest
      = match m.sendHeader data dest with
        | (.error result, m) => (result, m)
        | (.ok _, m) => m.sendBody data := by
  unfold sendRaw sendHeader
  split
  · rfl
  · split
    · rfl
    · simp only
      generalize m.socket.sendAll _ = first
      obtain ⟨_ | _, s⟩ := first
      · rfl
      · rfl

/-! ### What the steps write -/

variable {m : TimsMailbox}

/-- `send_raw` returns at once, or sends a header. -/
theorem sendHeader_cases (hsocket : m.socket.Reliable) (data : List UInt8) (dest : MailboxId) :
    (∃ result, m.sendHeader data dest = (.error result, m)) ∨
    ∃ header m', m.sendHeader data dest = (.ok header, m') ∧
      header.msglen = 16 + UInt32.ofNat data.length ∧ data ≠ [] ∧
      data.length ≤ m.config.maxMsgSize ∧
      m'.socket.written = m.socket.written ++ header.encode ∧ m'.socket.Reliable ∧
      m'.config = m.config := by
  unfold sendHeader
  split
  · exact Or.inl ⟨_, rfl⟩
  · split
    · exact Or.inl ⟨_, rfl⟩
    · rename_i hsize
      simp only [Bool.or_eq_true, List.isEmpty_iff, decide_eq_true_eq, not_or, Nat.not_lt] at hsize
      right
      simp only
      generalize hheader : makeFrame 0 dest m.config.mailboxId m.config.priority.toUInt8
        m.sequenceNumber.toUInt8 (UInt32.ofNat data.length) = header
      obtain ⟨hok, hreliable⟩ := hsocket.sendAll header.encode
      have hwritten := TcpSocket.written_sendAll_of_true hok
      generalize m.socket.sendAll header.encode = first at hok hreliable hwritten
      obtain ⟨ok, s⟩ := first
      obtain rfl : ok = true := hok
      refine ⟨header, _, rfl, ?_, hsize.1, hsize.2, hwritten, hreliable, rfl⟩
      rw [← hheader]
      rfl

theorem sendBody_of_reliable (hsocket : m.socket.Reliable) (data : List UInt8) :
    ∃ m', m.sendBody data = (.SUCCESS, m') ∧ m'.socket.written = m.socket.written ++ data ∧
      m'.socket.Reliable ∧ m'.config = m.config := by
  unfold sendBody
  obtain ⟨hok, hreliable⟩ := hsocket.sendAll data
  have hwritten := TcpSocket.written_sendAll_of_true hok
  generalize m.socket.sendAll data = first at hok hreliable hwritten
  obtain ⟨ok, s⟩ := first
  obtain rfl : ok = true := hok
  exact ⟨_, rfl, hwritten, hreliable, rfl⟩

/-- A round of `receive_raw` writes the answer to a probe, or nothing. -/
theorem receiveRound_of_reliable
    (swapEndiannessFrom : (littleEndian : Bool) → List UInt8 → List UInt8)
    (hsocket : m.socket.Reliable) (bufferSize : Nat) (poll : Int) :
    let m' := (m.receiveRound swapEndiannessFrom bufferSize poll).2
    m'.socket.written
        = m.socket.written ++ ((m.probeReply poll).map FrameHeader.encode).getD [] ∧
      m'.socket.Reliable ∧ m'.config = m.config := by
  simp only [receiveRound, probeReply]
  split
  · exact ⟨(List.append_nil _).symm, hsocket, rfl⟩
  · obtain ⟨inbound, hrecv⟩ := m.socket.recvAll_frame sizeofFrameHeader
    generalize m.socket.recvAll sizeofFrameHeader = first at hrecv
    obtain ⟨bytes, s⟩ := first
    obtain rfl : s = { m.socket with inbound } := hrecv
    have hs : TcpSocket.Reliable { m.socket with inbound } := hsocket
    cases bytes with
    | none => exact ⟨(List.append_nil _).symm, hs, rfl⟩
    | some bytes =>
      simp only
      split
      · obtain ⟨hok, hreliable⟩ := hs.sendAll (m.statusReply (FrameHeader.decode bytes)).encode
        exact ⟨TcpSocket.written_sendAll_of_true hok, hreliable, rfl⟩
      · have hnothing : m.socket.written = m.socket.written ++ [] := (List.append_nil _).symm
        split
        · exact ⟨hnothing, hs, rfl⟩
        · split
          · exact ⟨hnothing, hs, rfl⟩
          · obtain ⟨inbound', hrecv'⟩ := TcpSocket.recvAll_frame { m.socket with inbound }
              (FrameHeader.decode bytes).bodyLen.toNat
            generalize TcpSocket.recvAll { m.socket with inbound }
              (FrameHeader.decode bytes).bodyLen.toNat = second at hrecv'
            obtain ⟨_ | body, s⟩ := second
            · obtain rfl : s = { m.socket with inbound := inbound' } := hrecv'
              exact ⟨hnothing, hsocket, rfl⟩
            · obtain rfl : s = { m.socket with inbound := inbound' } := hrecv'
              exact ⟨hnothing, hsocket, rfl⟩

/-- The length in the header of an answer. -/
theorem msglen_probeReply {poll : Int} {reply : FrameHeader} (h : m.probeReply poll = some reply) :
    reply.msglen = 16 := by
  unfold probeReply at h
  split at h
  · cases h
  · split at h
    · cases h
    · simp only at h
      split at h
      · rw [← Option.some.inj h]
        rfl
      · cases h

end TimsMailbox

namespace SharedMailbox

variable {swapEndiannessFrom : (littleEndian : Bool) → List UInt8 → List UInt8}
  {s : SharedMailbox} {start : List UInt8}

/-- A header with its body. -/
def frameBytes (f : FrameHeader × List UInt8) : List UInt8 := f.1.encode ++ f.2

/-- The header that has been sent without its body. -/
def openHeader (s : SharedMailbox) : List UInt8 := (s.sending.map fun f => f.1.encode).getD []

/-- What has been written since the beginning are the frames that have been sent, whole and in
order, and behind them the header of the frame that is being sent. -/
def Framed (start : List UInt8) (s : SharedMailbox) : Prop :=
  s.mailbox.socket.written = start ++ s.sent.flatMap frameBytes ++ s.openHeader

/-- The step does not answer a probe between a header and its body. -/
def Uninterrupted (s : SharedMailbox) : Event → Prop
  | .receive _ poll =>
    s.sending ≠ none → s.mailbox.isInitialized = true → s.mailbox.probeReply poll = none
  | _ => True

/-- No send fails. The header that has been sent announces a body, since messages are shorter than
`2 ^ 32`. -/
structure Sound (s : SharedMailbox) : Prop where
  reliable : s.mailbox.socket.Reliable
  announced : s.mailbox.config.maxMsgSize < 2 ^ 32 → ∀ f ∈ s.sending, f.1.msglen ≠ 16

theorem sound_init {mailbox : TimsMailbox} (hsocket : mailbox.socket.Reliable) :
    Sound (init mailbox) := ⟨hsocket, nofun⟩

/-- What a step can do while no send fails: nothing, send a header, send the body behind it, or take
a round of `receive_raw`. -/
theorem step_cases (hsocket : s.mailbox.socket.Reliable) (e : Event) :
    s.step swapEndiannessFrom e = s ∨
    ∃ m', m'.socket.Reliable ∧ m'.config = s.mailbox.config ∧
      ((∃ header data, s.sending = none ∧ header.msglen = 16 + UInt32.ofNat data.length ∧
          data ≠ [] ∧ data.length ≤ s.mailbox.config.maxMsgSize ∧
          m'.socket.written = s.mailbox.socket.written ++ header.encode ∧
          s.step swapEndiannessFrom e = { s with mailbox := m', sending := some (header, data) }) ∨
      (∃ f, s.sending = some f ∧ m'.socket.written = s.mailbox.socket.written ++ f.2 ∧
          s.step swapEndiannessFrom e = ⟨m', none, s.sent ++ [f]⟩) ∨
      ∃ bufferSize poll, e = .receive bufferSize poll ∧ s.mailbox.isInitialized = true ∧
        m'.socket.written = s.mailbox.socket.written ++
          ((s.mailbox.probeReply poll).map FrameHeader.encode).getD [] ∧
        s.step swapEndiannessFrom e = { s with
          mailbox := m'
          sent := s.sent ++ (s.mailbox.probeReply poll).toList.map fun reply => (reply, []) }) := by
  cases e with
  | sendHeader data dest =>
    cases hsending : s.sending with
    | some f => exact Or.inl (by simp only [step, hsending])
    | none =>
      rcases s.mailbox.sendHeader_cases hsocket data dest with
        ⟨result, heq⟩ | ⟨header, m', heq, hlen, hdata, hmax, hwritten, hreliable, hconfig⟩
      · have hsame : s.step swapEndiannessFrom (.sendHeader data dest)
            = ⟨s.mailbox, none, s.sent⟩ := by simp only [step, hsending, heq]
        exact Or.inl (hsame.trans (by rw [← hsending]))
      · refine Or.inr ⟨m', hreliable, hconfig, Or.inl ?_⟩
        exact ⟨header, data, rfl, hlen, hdata, hmax, hwritten, by simp only [step, hsending, heq]⟩
  | sendBody =>
    cases hsending : s.sending with
    | none => exact Or.inl (by simp only [step, hsending])
    | some f =>
      obtain ⟨m', heq, hwritten, hreliable, hconfig⟩ :=
        s.mailbox.sendBody_of_reliable hsocket f.2
      refine Or.inr ⟨m', hreliable, hconfig, Or.inr (Or.inl ?_)⟩
      exact ⟨f, rfl, hwritten, by simp only [step, hsending, heq]⟩
  | receive bufferSize poll =>
    by_cases hclosed : (!s.mailbox.isInitialized || !s.mailbox.socket.isOpen) = true
    · exact Or.inl (by simp only [step, hclosed, ↓reduceIte])
    · have hinit : s.mailbox.isInitialized = true := by
        simp only [Bool.or_eq_true, Bool.not_eq_true', not_or, Bool.not_eq_false] at hclosed
        exact hclosed.1
      obtain ⟨hwritten, hreliable, hconfig⟩ :=
        TimsMailbox.receiveRound_of_reliable swapEndiannessFrom hsocket bufferSize poll
      refine Or.inr ⟨_, hreliable, hconfig, Or.inr (Or.inr ?_)⟩
      exact ⟨bufferSize, poll, rfl, hinit, hwritten, if_neg hclosed⟩

theorem Sound.step (h : s.Sound) (e : Event) : (s.step swapEndiannessFrom e).Sound := by
  rcases step_cases h.reliable e with heq | ⟨m', hreliable, hconfig, hcases⟩
  · rw [heq]
    exact h
  · rcases hcases with ⟨header, data, -, hlen, hdata, hmax, -, heq⟩ | ⟨f, -, -, heq⟩ |
      ⟨bufferSize, poll, -, -, -, heq⟩
    · rw [heq]
      refine ⟨hreliable, fun hsize f hf => ?_⟩
      obtain rfl := Option.some.inj hf
      simp only at hsize
      rw [hconfig] at hsize
      have hpos := List.length_pos_iff.mpr hdata
      show header.msglen ≠ 16
      rw [hlen, ne_eq, ← UInt32.toNat_inj, UInt32.toNat_add, UInt32.toNat_ofNat']
      show ¬ (16 + data.length % 2 ^ 32) % 2 ^ 32 = 16
      omega
    · rw [heq]
      exact ⟨hreliable, fun _ => nofun⟩
    · rw [heq]
      refine ⟨hreliable, fun hsize => ?_⟩
      simp only at hsize
      rw [hconfig] at hsize
      exact h.announced hsize

theorem framed_init (mailbox : TimsMailbox) : Framed mailbox.socket.written (init mailbox) := by
  simp [Framed, init, openHeader]

/-- A step that does not answer a probe within a frame keeps the frames whole. -/
theorem Framed.step (hframed : Framed start s) (h : s.Sound) {e : Event}
    (he : s.Uninterrupted e) : Framed start (s.step swapEndiannessFrom e) := by
  unfold Framed openHeader at hframed ⊢
  rcases step_cases h.reliable e with heq | ⟨m', -, -, hcases⟩
  · rw [heq]
    exact hframed
  · rcases hcases with ⟨header, data, hnone, -, -, -, hwritten, heq⟩ | ⟨f, hf, hwritten, heq⟩ |
      ⟨bufferSize, poll, rfl, hinit, hwritten, heq⟩
    · rw [heq]
      rw [hnone] at hframed
      simp only [hwritten, hframed, Option.map_none, Option.getD_none, Option.map_some,
        Option.getD_some, List.append_nil]
    · rw [heq]
      rw [hf] at hframed
      simp [hwritten, hframed, frameBytes]
    · rw [heq]
      cases hreply : s.mailbox.probeReply poll with
      | none =>
        simp only [hwritten, hreply, hframed, Option.map_none, Option.getD_none, Option.toList_none,
          List.map_nil, List.append_nil]
      | some reply =>
        have hnone : s.sending = none := by
          by_contra hsome
          rw [he hsome hinit] at hreply
          cases hreply
        rw [hnone] at hframed
        simp [hwritten, hreply, hframed, hnone, frameBytes]

/-- An answer to a probe within a frame leaves the header of the frame without its body. -/
theorem Framed.uninterrupted (hframed : Framed start s) (h : s.Sound)
    (hsize : s.mailbox.config.maxMsgSize < 2 ^ 32) {e : Event}
    (hafter : Framed start (s.step swapEndiannessFrom e)) : s.Uninterrupted e := by
  cases e with
  | sendHeader data dest => trivial
  | sendBody => trivial
  | receive bufferSize poll =>
    intro hsome hinit
    obtain ⟨f, hf⟩ := Option.ne_none_iff_exists'.mp hsome
    by_contra hprobe
    obtain ⟨reply, hreply⟩ := Option.ne_none_iff_exists'.mp hprobe
    have hround := (TimsMailbox.receiveRound_of_reliable swapEndiannessFrom h.reliable bufferSize
      poll).1
    have hstep : s.step swapEndiannessFrom (.receive bufferSize poll)
        = ⟨(s.mailbox.receiveRound swapEndiannessFrom bufferSize poll).2, some f,
          s.sent ++ [(reply, [])]⟩ := by
      simp only [SharedMailbox.step, hinit, h.reliable.1, hreply, hf, Bool.not_true, Bool.or_self,
        Bool.false_eq_true, ↓reduceIte, Option.toList_some, List.map_cons, List.map_nil]
    -- The header and the answer are in one order, and should be in the other.
    rw [hstep] at hafter
    simp only [Framed, openHeader, hround, hreply, hf] at hframed hafter
    rw [hframed] at hafter
    have hswap : f.1.encode ++ reply.encode = reply.encode ++ f.1.encode := by
      simpa [frameBytes] using hafter
    have hsame := (List.append_inj hswap (by simp)).1
    have heq : f.1 = reply := by
      rw [← FrameHeader.decode_encode f.1, hsame, FrameHeader.decode_encode]
    exact h.announced hsize f hf (heq ▸ TimsMailbox.msglen_probeReply hreply)

theorem config_step (h : s.Sound) (e : Event) :
    (s.step swapEndiannessFrom e).mailbox.config = s.mailbox.config := by
  rcases step_cases h.reliable e with heq | ⟨m', -, hconfig, hcases⟩
  · rw [heq]
  · rcases hcases with ⟨_, _, -, -, -, -, -, heq⟩ | ⟨_, -, -, heq⟩ | ⟨_, _, -, -, -, heq⟩
    · rw [heq, ← hconfig]
    · rw [heq, ← hconfig]
    · rw [heq, ← hconfig]

/-- The frames stay whole in the runs without an answer within a frame. -/
theorem framed_of_allSteps {mailbox : TimsMailbox} (hsocket : mailbox.socket.Reliable)
    {es : List Event}
    (hsteps : AllSteps (step swapEndiannessFrom) Uninterrupted (init mailbox) es) :
    AllStates (step swapEndiannessFrom) (Framed mailbox.socket.written) (init mailbox) es := by
  have hrun : AllStates (step swapEndiannessFrom)
      (fun s => s.Sound ∧ Framed mailbox.socket.written s) (init mailbox) es :=
    allStates_of_allSteps (fun s e hs he => ⟨hs.1.step e, hs.2.step hs.1 he⟩)
      ⟨sound_init hsocket, framed_init mailbox⟩ hsteps
  exact hrun.mono fun s hs => hs.2

/-- They stay whole in no other runs, if messages are shorter than `2 ^ 32`. -/
theorem framed_iff_allSteps {mailbox : TimsMailbox} (hsocket : mailbox.socket.Reliable)
    (hsize : mailbox.config.maxMsgSize < 2 ^ 32) (es : List Event) :
    AllStates (step swapEndiannessFrom) (Framed mailbox.socket.written) (init mailbox) es ↔
      AllSteps (step swapEndiannessFrom) Uninterrupted (init mailbox) es := by
  refine allStates_iff_allSteps (E := fun _ => True)
    (J := fun s => s.Sound ∧ s.mailbox.config.maxMsgSize < 2 ^ 32) ?_ ?_ (fun _ _ => trivial)
    ⟨sound_init hsocket, hsize⟩ (framed_init mailbox)
  · intro s e _ hs
    refine ⟨hs.1.step e, ?_⟩
    rw [config_step hs.1]
    exact hs.2
  · intro s e _ hs hframed
    exact ⟨fun hafter => hframed.uninterrupted hs.1 hs.2 hafter, fun he => hframed.step hs.1 he⟩

/-- While no send fails, the stream of a mailbox that is used by a sender and a receiver stays
framed in every run in which no probe is answered between the two `send_all` calls of a `send_raw`.
With messages shorter than `2 ^ 32` it does so in no other run. -/
theorem framed_of_run (swapEndiannessFrom : (littleEndian : Bool) → List UInt8 → List UInt8)
    (mailbox : TimsMailbox) (hsocket : mailbox.socket.Reliable) (es : List Event) :
    (AllSteps (step swapEndiannessFrom) Uninterrupted (init mailbox) es →
      AllStates (step swapEndiannessFrom) (Framed mailbox.socket.written) (init mailbox) es) ∧
    (mailbox.config.maxMsgSize < 2 ^ 32 →
      AllStates (step swapEndiannessFrom) (Framed mailbox.socket.written) (init mailbox) es →
      AllSteps (step swapEndiannessFrom) Uninterrupted (init mailbox) es) :=
  ⟨framed_of_allSteps hsocket, fun hsize => (framed_iff_allSteps hsocket hsize es).mp⟩

/-- The probe of a router, for the mailbox with the id 5. -/
def probe : List UInt8 := (makeFrame MSG_ROUTER_GET_STATUS 5 0 0 0 0).encode

/-- A mailbox to which a probe has come. -/
def probedMailbox : TimsMailbox where
  config := ⟨5, 64, 0⟩
  socket := ⟨true, fun _ => 64, [], [probe]⟩
  isInitialized := true
  messagesSent := 0
  messagesReceived := 0
  sequenceNumber := 0

/-- The probe is answered between two messages. -/
theorem framed_probe_between :
    AllStates (step fun _ bytes => bytes) (Framed []) (init probedMailbox)
      [.sendHeader [1, 2] 9, .sendBody, .receive 64 1, .sendHeader [3] 9, .sendBody] :=
  (framed_of_run (fun _ bytes => bytes) probedMailbox
      ⟨rfl, fun _ => (by decide : (0 : Int) < 64)⟩ _).1
    ⟨trivial, trivial, fun h => absurd rfl h, trivial, trivial, trivial⟩

/-- The probe is answered between the header of a message and its two bytes, which come behind the
answer. -/
theorem reply_within_frame :
    let s := runFrom (step fun _ bytes => bytes) (init probedMailbox)
      [.sendHeader [1, 2] 9, .receive 64 1, .sendBody]
    s.mailbox.socket.written
        = (makeFrame 0 9 5 0 0 2).encode ++ (makeFrame MSG_OK 0 5 0 0 0).encode ++ [1, 2] ∧
      s.sending = none ∧ ¬ Framed [] s := by
  unfold Framed
  decide

end SharedMailbox

end CoreRaT.Spec
