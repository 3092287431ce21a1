import CoreRaT.Proofs.ReceiveRound

/-!
# `CoreRaT.Proofs.Receive`: does `receive_raw` stay on frame boundaries?

`receiveFrames` says what `receive_raw` is for, in terms of frames: a call answers and drops
status requests, drops frames without a body, and delivers the next frame, or drops it when it
does not fit. Each call uses up whole frames.

The loop of the source does so with two exceptions. After `MSG_ROUTER_GET_STATUS` it goes on
without reading the body, and it returns `-EMSGSIZE` without reading the body. In both cases
the next call takes bytes of a body for a header: `receive_out_of_step`. The router's
`handle_frame` reads the body of every frame it goes on after.

`receiveCalls_eq` proves that the two exceptions are all. Take any sequence of calls with any
buffer sizes in which every status request that is reached has no body and every other frame
that is reached fits (`CallsMeet`). However the stream is chunked, each call gives the result
that `receiveFrames` gives and leaves the stream on a frame boundary.

A frame that is not flagged little-endian gets its `WireHeader` converted. So `CallsMeet` also
asks for the flag on delivered frames that are long enough to have one.
-/

set_option autoImplicit false

namespace CoreRaT.Spec

namespace TimsMailbox

/-- One call of `receive_raw`: the buffer size and the answers of `::poll`. -/
structure Call where
  bufferSize : Nat
  polls : Nat → Int

/-- The answers of `::poll` that are left for the next round. -/
def Call.next (c : Call) : Call := { c with polls := fun i => c.polls (i + 1) }

/-! ### What `receive_raw` is for -/

/-- One call on a stream of frames: its result and the frames that are left. -/
def receiveFrames : List Frame → Call → ReceiveResult × List Frame
  | [], c => (if c.polls 0 ≤ 0 then .timedOut else .failed, [])
  | f :: fs, c =>
    if c.polls 0 ≤ 0 then (.timedOut, f :: fs)
    else if f.header.type = MSG_ROUTER_GET_STATUS ∨ f.body = [] then receiveFrames fs c.next
    else if c.bufferSize < f.body.length then (.msgSize, fs)
    else (.received f.body (metadataOf f.header), fs)

/-- The call reaches no status request with a body and no frame that does not fit. What it
delivers is flagged little-endian, or too short to have a `WireHeader`. -/
def CallMeets : List Frame → Call → Prop
  | [], _ => True
  | f :: fs, c =>
    0 < c.polls 0 →
      if f.header.type = MSG_ROUTER_GET_STATUS then f.body = [] ∧ CallMeets fs c.next
      else if f.body = [] then CallMeets fs c.next
      else f.body.length ≤ c.bufferSize ∧
        (f.header.flags &&& FRAME_LE_FLAG ≠ 0 ∨ f.body.length < sizeofWireHeader)

/-- Calls in sequence, on a stream of frames. -/
def receiveFramesCalls : List Frame → List Call → List ReceiveResult × List Frame
  | fs, [] => ([], fs)
  | fs, c :: cs =>
    let (result, rest) := receiveFrames fs c
    let (results, rest) := receiveFramesCalls rest cs
    (result :: results, rest)

/-- Every call of the sequence meets the condition on the frames that are left for it. -/
def CallsMeet : List Frame → List Call → Prop
  | _, [] => True
  | fs, c :: cs => CallMeets fs c ∧ CallsMeet (receiveFrames fs c).2 cs

section
variable (swapEndiannessFrom : (littleEndian : Bool) → List UInt8 → List UInt8)

/-- Calls of `receive_raw` in sequence. -/
def receiveCalls : TimsMailbox → List Call → List ReceiveResult × TimsMailbox
  | m, [] => ([], m)
  | m, c :: cs =>
    let (result, m) := receiveRaw swapEndiannessFrom m c.bufferSize c.polls
    let (results, m) := receiveCalls m cs
    (result :: results, m)

end

/-! ### One call -/

/-- The length test of `receive_raw` finds out whether there is a body. -/
theorem msglen_le_iff (f : Frame) : f.header.msglen ≤ 16 ↔ f.body = [] := by
  have hle : f.header.msglen ≤ 16 ↔ f.header.msglen.toNat ≤ sizeofFrameHeader :=
    UInt32.le_iff_toNat_le
  rw [hle, ← List.length_eq_zero_iff, f.body_length, FrameHeader.toNat_bodyLen]
  omega

variable {swapEndiannessFrom : (littleEndian : Bool) → List UInt8 → List UInt8}

/-- A little-endian body, and one that is too short for a `WireHeader`, is delivered as it
is. -/
theorem convert_eq (hswap : ∀ bytes, swapEndiannessFrom true bytes = bytes) {h : FrameHeader}
    {body : List UInt8} (hbody : h.flags &&& FRAME_LE_FLAG ≠ 0 ∨ body.length < sizeofWireHeader) :
    convert swapEndiannessFrom h body = body := by
  unfold convert
  split
  · rename_i hlen
    rw [decide_eq_true (hbody.resolve_right (Nat.not_lt.mpr hlen)), hswap, List.take_append_drop]
  · rfl

/-- What the condition says of the first frame, when there is something to read. -/
theorem CallMeets.skipped {f : Frame} {fs : List Frame} {c : Call} (h : CallMeets (f :: fs) c)
    (hpoll : 0 < c.polls 0) (hskip : f.header.type = MSG_ROUTER_GET_STATUS ∨ f.body = []) :
    f.body = [] ∧ CallMeets fs c.next := by
  have h := h hpoll
  by_cases hstatus : f.header.type = MSG_ROUTER_GET_STATUS
  · rwa [if_pos hstatus] at h
  · have hempty := hskip.resolve_left hstatus
    rw [if_neg hstatus, if_pos hempty] at h
    exact ⟨hempty, h⟩

theorem CallMeets.delivered {f : Frame} {fs : List Frame} {c : Call} (h : CallMeets (f :: fs) c)
    (hpoll : 0 < c.polls 0) (hstatus : f.header.type ≠ MSG_ROUTER_GET_STATUS)
    (hempty : f.body ≠ []) :
    f.body.length ≤ c.bufferSize ∧
      (f.header.flags &&& FRAME_LE_FLAG ≠ 0 ∨ f.body.length < sizeofWireHeader) := by
  have h := h hpoll
  rwa [if_neg hstatus, if_neg hempty] at h

theorem CallMeets.fits {f : Frame} {fs : List Frame} {c : Call} (h : CallMeets (f :: fs) c)
    (hpoll : 0 < c.polls 0) : f.body.length ≤ c.bufferSize := by
  by_cases hskip : f.header.type = MSG_ROUTER_GET_STATUS ∨ f.body = []
  · rw [(h.skipped hpoll hskip).1]
    exact Nat.zero_le _
  · exact (h.delivered hpoll (fun hs => hskip (Or.inl hs)) (fun he => hskip (Or.inr he))).1

/-- The loop of `receive_raw`, from a frame boundary. The induction is on the frames that are
left; each round uses one up. -/
theorem receiveLoop_eq (hswap : ∀ bytes, swapEndiannessFrom true bytes = bytes)
    (fs : List Frame) : ∀ (fuel : Nat) (m : TimsMailbox) (c : Call), fs.length < fuel →
      m.socket.Chunked (fs.flatMap Frame.encode) → CallMeets fs c →
      (receiveLoop swapEndiannessFrom fuel m c.bufferSize c.polls).1 = (receiveFrames fs c).1 ∧
        (receiveLoop swapEndiannessFrom fuel m c.bufferSize c.polls).2.socket.Chunked
          ((receiveFrames fs c).2.flatMap Frame.encode) := by
  induction fs with
  | nil =>
    intro fuel m c hfuel hchunks _
    obtain ⟨fuel, rfl⟩ : ∃ n, fuel = n + 1 := ⟨fuel - 1, by simp at hfuel; omega⟩
    simp only [receiveLoop, receiveFrames, TcpSocket.pollIn, hchunks.isOpen, if_true]
    split
    · exact ⟨rfl, hchunks⟩
    · -- The stream is at its end: `recv_all` fails and reads nothing.
      have hrecv : m.socket.recvAll sizeofFrameHeader = (none, m.socket) := by
        simp [TcpSocket.recvAll, sizeofFrameHeader, TcpSocket.recvAllLoop, hchunks.recv_nil]
      simp only [hrecv]
      exact ⟨trivial, hchunks⟩
  | cons f fs ih =>
    intro fuel m c hfuel hchunks hmeets
    obtain ⟨fuel, rfl⟩ : ∃ n, fuel = n + 1 := ⟨fuel - 1, by simp at hfuel; omega⟩
    have hfuel' : fs.length < fuel := by simpa using hfuel
    rw [receiveLoop_succ, receiveFrames]
    by_cases hpoll : c.polls 0 ≤ 0
    · rw [receiveRound_of_not_ready hchunks.isOpen hpoll, if_pos hpoll]
      exact ⟨rfl, hchunks⟩
    · rw [if_neg hpoll]
      have hready : 0 < c.polls 0 := by omega
      rw [List.flatMap_cons, Frame.encode, List.append_assoc] at hchunks
      have hhead := headOf_append (FrameHeader.length_encode f.header)
        (f.body ++ fs.flatMap Frame.encode)
      have hdrop : (f.header.encode ++ (f.body ++ fs.flatMap Frame.encode)).drop sizeofFrameHeader
          = f.body ++ fs.flatMap Frame.encode := List.drop_left' (FrameHeader.length_encode _)
      rw [FrameHeader.decode_encode] at hhead
      rcases receiveRound_cases swapEndiannessFrom hchunks c.bufferSize (c.polls 0) with
        ⟨m', hround, hrest, -, hskip⟩ |
        ⟨body, rest, m', hround, hbytes, hrest, -, hstatus, hempty, hlen⟩ |
        ⟨r, m', hround, -, hwhy⟩
      · -- A status request, or a frame without a body: its header is all of it.
        rw [hhead, msglen_le_iff] at hskip
        obtain ⟨hempty, hmeets⟩ := hmeets.skipped hready hskip
        rw [hdrop, hempty, List.nil_append] at hrest
        rw [hround, if_pos hskip]
        exact ih fuel m' c.next hfuel' hrest hmeets
      · -- The body fits the buffer and is read whole: the call returns at the next boundary.
        rw [hhead] at hround hstatus hempty hlen
        rw [msglen_le_iff] at hempty
        rw [hdrop] at hbytes
        obtain ⟨rfl, rfl⟩ := List.append_inj hbytes (by rw [hlen, f.body_length])
        obtain ⟨hfits, hflags⟩ := hmeets.delivered hready hstatus hempty
        rw [hround, if_neg (not_or.mpr ⟨hstatus, hempty⟩), if_neg (Nat.not_lt.mpr hfits),
          convert_eq hswap hflags]
        exact ⟨rfl, hrest⟩
      · -- What the header announces is there, and it fits.
        have hfits := hmeets.fits hready
        rw [hhead, ← f.body_length] at hwhy
        simp only [List.length_append, FrameHeader.length_encode] at hwhy
        omega

/-- A stream has at least as many bytes as frames. -/
theorem length_le_flatMap_encode (fs : List Frame) :
    fs.length ≤ (fs.flatMap Frame.encode).length := by
  induction fs with
  | nil => exact Nat.le_refl _
  | cons f fs ih =>
    have hheader : 0 < sizeofFrameHeader := by decide
    rw [List.flatMap_cons, List.length_append, Frame.length_encode, List.length_cons]
    omega

/-- One call, from a frame boundary. -/
theorem receiveRaw_eq (hswap : ∀ bytes, swapEndiannessFrom true bytes = bytes)
    {fs : List Frame} {m : TimsMailbox} {c : Call} (hm : m.isInitialized = true)
    (hchunks : m.socket.Chunked (fs.flatMap Frame.encode)) (hmeets : CallMeets fs c) :
    (receiveRaw swapEndiannessFrom m c.bufferSize c.polls).1 = (receiveFrames fs c).1 ∧
      (receiveRaw swapEndiannessFrom m c.bufferSize c.polls).2.socket.Chunked
        ((receiveFrames fs c).2.flatMap Frame.encode) ∧
      (receiveRaw swapEndiannessFrom m c.bufferSize c.polls).2.isInitialized = true := by
  have hfuel := length_le_flatMap_encode fs
  obtain ⟨hresult, hrest⟩ := receiveLoop_eq hswap fs (m.socket.inbound.flatten.length + 1) m c
    (by rw [hchunks.flatten]; omega) hchunks hmeets
  rw [receiveRaw_eq_loop swapEndiannessFrom hm hchunks.isOpen]
  exact ⟨hresult, hrest, (isInitialized_receiveLoop ..).trans hm⟩

/-! ### Sequences of calls -/

/-- **Receive-side framing.** The inbound stream is a concatenation of frames, in any chunks, and
`receive_raw` is called again and again, with any buffer sizes and any answers of `::poll`.
If the calls meet the condition, they give the results that `receiveFrames` gives: each
delivered frame comes with its own body and metadata. The stream is then at a frame boundary.
The sequence is arbitrary, so this holds after each call. -/
theorem receiveCalls_eq (hswap : ∀ bytes, swapEndiannessFrom true bytes = bytes)
    (fs : List Frame) (m : TimsMailbox) (cs : List Call) (hm : m.isInitialized = true)
    (hchunks : m.socket.Chunked (fs.flatMap Frame.encode)) (hmeets : CallsMeet fs cs) :
    (receiveCalls swapEndiannessFrom m cs).1 = (receiveFramesCalls fs cs).1 ∧
      (receiveCalls swapEndiannessFrom m cs).2.socket.Chunked
        ((receiveFramesCalls fs cs).2.flatMap Frame.encode) := by
  induction cs generalizing fs m with
  | nil => exact ⟨rfl, hchunks⟩
  | cons c cs ih =>
    -- Each call starts where the one before has left the stream.
    obtain ⟨hresult, hrest, hinit⟩ := receiveRaw_eq hswap hm hchunks hmeets.1
    obtain ⟨hresults, hend⟩ := ih (receiveFrames fs c).2 _ hinit hrest hmeets.2
    simp only [receiveCalls, receiveFramesCalls]
    exact ⟨by rw [hresult, hresults], hend⟩

/-- The conversion of a `WireHeader` on a little-endian host: the bytes of each field are
reversed when the sender is big-endian. -/
def swapWireHeader (littleEndian : Bool) (bytes : List UInt8) : List UInt8 :=
  if littleEndian then bytes
  else (bytes.take 4).reverse ++ ((bytes.drop 4).take 4).reverse ++
    ((bytes.drop 8).take 8).reverse ++ ((bytes.drop 16).take 4).reverse ++
    ((bytes.drop 20).take 4).reverse ++ ((bytes.drop 24).take 4).reverse ++
    ((bytes.drop 28).take 4).reverse

/-- Data for mailbox 7 from mailbox 9, one byte. -/
def oneByteFrame : Frame := ⟨makeFrame 0 7 9 0 0 1, [5], by decide⟩

/-- Data for mailbox 7 from mailbox 9, four bytes. -/
def fourByteFrame : Frame := ⟨makeFrame 0 7 9 0 0 4, [1, 2, 3, 4], by decide⟩

/-- A status request with a body. -/
def statusFrame : Frame := ⟨makeFrame MSG_ROUTER_GET_STATUS 7 9 0 0 4, [1, 2, 3, 4], by decide⟩

/-- A mailbox that finds the frame `f` and a frame of one byte in its stream. -/
def mailboxBefore (f : Frame) : TimsMailbox :=
  ⟨⟨7, 4096, 0⟩, ⟨true, fun _ => 64, [], [f.encode ++ oneByteFrame.encode]⟩, true, 0, 0, 0⟩

/-- A call with this buffer size, at a time when there is something to read. -/
def readyCall (bufferSize : Nat) : Call := ⟨bufferSize, fun _ => 1⟩

/-- A frame of four bytes does not fit a buffer of two. The call returns `-EMSGSIZE` and leaves
the stream inside the frame, and the next call, with a buffer of 64, does not deliver the frame
of one byte. The same happens after a status request with a body. -/
theorem receive_out_of_step :
    ((receiveCalls swapWireHeader (mailboxBefore fourByteFrame) [readyCall 2]).1 = [.msgSize] ∧
      ∀ rest ∈ [fourByteFrame, oneByteFrame].tails,
        (receiveCalls swapWireHeader (mailboxBefore fourByteFrame)
          [readyCall 2]).2.socket.inbound.flatten ≠ rest.flatMap Frame.encode) ∧
      (receiveCalls swapWireHeader (mailboxBefore fourByteFrame) [readyCall 2, readyCall 64]).1 ≠
        (receiveFramesCalls [fourByteFrame, oneByteFrame] [readyCall 2, readyCall 64]).1 ∧
      (receiveCalls swapWireHeader (mailboxBefore statusFrame) [readyCall 64]).1 ≠
        (receiveFramesCalls [statusFrame, oneByteFrame] [readyCall 64]).1 := by
  refine ⟨⟨by decide, by decide⟩, by decide, by decide⟩

/-- Both frames fit, and are delivered one after the other. -/
theorem receive_in_step :
    (receiveCalls swapWireHeader (mailboxBefore fourByteFrame) [readyCall 4, readyCall 64]).1 =
      [.received [1, 2, 3, 4] (metadataOf fourByteFrame.header),
        .received [5] (metadataOf oneByteFrame.header)] := by
  have hchunks : (mailboxBefore fourByteFrame).socket.Chunked
      ([fourByteFrame, oneByteFrame].flatMap Frame.encode) :=
    ⟨rfl, by decide, by decide⟩
  refine (receiveCalls_eq (fun _ => rfl) _ _ _ rfl hchunks ?_).1
  refine ⟨?_, ?_, trivial⟩
  · intro _
    exact ⟨by decide, Or.inl (by decide)⟩
  · intro _
    exact ⟨by decide, Or.inl (by decide)⟩

end TimsMailbox

end CoreRaT.Spec
