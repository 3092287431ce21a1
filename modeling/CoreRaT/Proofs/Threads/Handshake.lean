import CoreRaT.Proofs.TcpSocket
import CoreRaT.Proofs.Threads.Steps
import CoreRaT.Spec.TimsMailbox

/-!
# `CoreRaT.Proofs.Threads.Handshake`: the first header that a client reads

`TimsMailbox::initialize` sends its registration and reads one header, the first 16 bytes that
the router writes to the connection. It takes the registration for done when the type of this
header is `MSG_OK`.

The router adds the mailbox to its registry before it writes the reply. In between, another
thread can find the mailbox and forward a data frame to it, and the type of a data frame that
`send_raw` makes is 0, which is `MSG_OK`. Then `initialize` has read the header of the data
frame, and what is left of the stream begins inside a frame: `handshake_overtaken`.

`handshakeOk_iff` is exact: in every state of a run, a successful `initialize` has read the
router's reply and has left whole frames, exactly when no thread forwards a frame of type
`MSG_OK` to the connection before anything else is written to it (`OvertakesReply`).
-/

set_option autoImplicit false

namespace CoreRaT.Spec

open CoreRaT.Lib

namespace TimsMailbox

@[simp] theorem mbx_regFrame (config : TimsConfig) :
    (regFrame config).mbx = some config.mailboxId := by
  have hlen : (regFrame config).header.bodyLen.toNat = sizeofMbxInitPayload :=
    (regFrame config).body_length.symm
  rw [Frame.mbx, if_neg (by omega)]
  show some (ofLe32 (le32 config.mailboxId)) = some config.mailboxId
  rw [ofLe32_le32]

/-! ### `initialize` on a stream -/

/-- A successful handshake has read a header of type `MSG_OK`, and nothing more. -/
theorem handshake_of_chunked {config : TimsConfig} {socket : TcpSocket} {bytes : List UInt8}
    (hchunks : socket.Chunked bytes) (h : (handshake config socket).1 = true) :
    sizeofFrameHeader ≤ bytes.length ∧
      (FrameHeader.decode (bytes.take sizeofFrameHeader)).type = MSG_OK ∧
      (handshake config socket).2.Chunked (bytes.drop sizeofFrameHeader) := by
  have hwatchdog := hchunks.sendAll (watchdogFrame config).encode
  simp only [handshake] at h ⊢
  generalize socket.sendAll (watchdogFrame config).encode = r at h hwatchdog ⊢
  -- Two sends that do not touch what is to be read, and then one `recv_all`.
  obtain ⟨_ | _, s⟩ := r
  · cases h
  have hreg := hwatchdog.sendAll (regFrame config).encode
  simp only at h hreg ⊢
  generalize s.sendAll (regFrame config).encode = r at h hreg ⊢
  obtain ⟨_ | _, s⟩ := r
  · cases h
  simp only at h hreg ⊢
  by_cases hlen : sizeofFrameHeader ≤ bytes.length
  · obtain ⟨hgot, hrest⟩ := hreg.recvAll_of_le hlen
    generalize s.recvAll sizeofFrameHeader = r at h hgot hrest ⊢
    obtain ⟨got, s⟩ := r
    obtain rfl : got = some _ := hgot
    exact ⟨hlen, of_decide_eq_true h, hrest⟩
  · have hnone := hreg.recvAll_of_lt (Nat.lt_of_not_le hlen)
    generalize s.recvAll sizeofFrameHeader = r at h hnone ⊢
    obtain ⟨got, s⟩ := r
    obtain rfl : got = none := hnone
    cases h

/-- On a socket that takes every send, a handshake whose first frame has type `MSG_OK`
succeeds. -/
theorem handshake_of_ok {config : TimsConfig} {socket : TcpSocket} {f : Frame}
    {rest : List UInt8} (hsend : socket.Reliable) (hchunks : socket.Chunked (f.encode ++ rest))
    (hf : f.header.type = MSG_OK) : (handshake config socket).1 = true := by
  have hwatchdog := hchunks.sendAll (watchdogFrame config).encode
  have hsend₁ := hsend.sendAll (watchdogFrame config).encode
  simp only [handshake]
  generalize socket.sendAll (watchdogFrame config).encode = r at hwatchdog hsend₁ ⊢
  obtain ⟨ok, s⟩ := r
  obtain ⟨rfl, hsend₁⟩ : ok = true ∧ s.Reliable := hsend₁
  have hreg := hwatchdog.sendAll (regFrame config).encode
  have hsend₂ := hsend₁.sendAll (regFrame config).encode
  simp only at hreg ⊢
  generalize s.sendAll (regFrame config).encode = r at hreg hsend₂ ⊢
  obtain ⟨ok, s⟩ := r
  obtain ⟨rfl, -⟩ : ok = true ∧ s.Reliable := hsend₂
  rw [Frame.encode, List.append_assoc] at hreg
  have hgot := hreg.recvAll_append.1
  rw [FrameHeader.length_encode] at hgot
  simp only
  generalize s.recvAll sizeofFrameHeader = r at hgot ⊢
  obtain ⟨got, s⟩ := r
  obtain rfl : got = some _ := hgot
  simp [hf]

/-- `initialize` succeeds exactly with its handshake. -/
theorem initializeMailbox_success {m : TimsMailbox} (hm : m.isInitialized = false)
    (socket : TcpSocket) :
    ((m.initializeMailbox (some socket)).1 = .SUCCESS ↔
        (handshake m.config socket).1 = true) ∧
      ((m.initializeMailbox (some socket)).1 = .SUCCESS →
        (m.initializeMailbox (some socket)).2.socket = (handshake m.config socket).2) := by
  simp only [initializeMailbox, hm, Bool.false_eq_true, if_false]
  generalize handshake m.config socket = r
  obtain ⟨_ | _, s⟩ := r <;> simp

end TimsMailbox

namespace RouterThreads

open TimsMailbox

/-! ### The first frame on a connection -/

/-- Whenever `initialize` succeeds on what connection `k` has been sent so far, the header that
it has read is the router's reply to its registration, written by the thread of `k`, and the
unread part of the stream is the frames behind it. -/
def HandshakeOk (config : TimsConfig) (k : ConnId) (s : RouterThreads) : Prop :=
  ∀ (m : TimsMailbox) (socket : TcpSocket), m.isInitialized = false → m.config = config →
    socket.Chunked ((s.out k).flatMap (·.frame.encode)) →
    (m.initializeMailbox (some socket)).1 = .SUCCESS →
      ∃ rest, s.out k = ⟨k, TcpRouter.initReply true (regFrame config).header⟩ :: rest ∧
        (m.initializeMailbox (some socket)).2.socket.Chunked (rest.flatMap (·.frame.encode))

/-- The same, read off the first frame. -/
def FirstIsReply (config : TimsConfig) (k : ConnId) (s : RouterThreads) : Prop :=
  ∀ w rest, s.out k = w :: rest → w.frame.header.type = MSG_OK →
    w = ⟨k, TcpRouter.initReply true (regFrame config).header⟩

theorem handshakeOk_iff_firstIsReply (config : TimsConfig) (k : ConnId) (s : RouterThreads) :
    s.HandshakeOk config k ↔ s.FirstIsReply config k := by
  constructor
  · intro h w rest hout hok
    -- A socket that takes every send and finds all frames in one chunk.
    have hne : (s.out k).flatMap (·.frame.encode) ≠ [] := by
      intro hnil
      have := congrArg List.length hnil
      rw [hout, List.flatMap_cons, List.length_append, Frame.length_encode] at this
      exact absurd this (by simp [sizeofFrameHeader])
    let socket : TcpSocket := ⟨true, fun _ => 1, [], [(s.out k).flatMap (·.frame.encode)]⟩
    have hchunks : socket.Chunked ((s.out k).flatMap (·.frame.encode)) :=
      ⟨rfl, by simp [socket], by simpa [socket] using hne⟩
    let m : TimsMailbox := ⟨config, socket, false, 0, 0, 0⟩
    have hsuccess : (m.initializeMailbox (some socket)).1 = .SUCCESS := by
      refine (initializeMailbox_success rfl socket).1.mpr ?_
      rw [hout, List.flatMap_cons] at hchunks
      exact handshake_of_ok ⟨rfl, fun _ => Int.one_pos⟩ hchunks hok
    obtain ⟨rest', hreply, -⟩ := h m socket rfl rfl hchunks hsuccess
    exact (List.cons.inj (hout.symm.trans hreply)).1
  · intro h m socket hm hconfig hchunks hsuccess
    subst hconfig
    obtain ⟨hiff, hsocket⟩ := initializeMailbox_success hm socket
    obtain ⟨hlen, htype, hrest⟩ := handshake_of_chunked hchunks (hiff.mp hsuccess)
    rw [hsocket hsuccess]
    -- What was read are the first 16 bytes, so there is a first frame, and its type is `MSG_OK`.
    cases hout : s.out k with
    | nil =>
      rw [hout] at hlen
      exact absurd hlen (by simp [sizeofFrameHeader])
    | cons w rest =>
      rw [hout, List.flatMap_cons, Frame.encode, List.append_assoc,
        List.take_append_of_le_length (by simp), List.take_of_length_le (by simp),
        FrameHeader.decode_encode] at htype
      obtain rfl := h w rest hout htype
      refine ⟨rest, rfl, ?_⟩
      -- The reply is a header and nothing else.
      rw [hout, List.flatMap_cons, Frame.encode, List.append_assoc,
        ← FrameHeader.length_encode (TcpRouter.initReply true (regFrame m.config).header).header,
        List.drop_left] at hrest
      exact hrest

end RouterThreads

/-! ### The thread of the registering client -/

/-- The header of the registration that a thread is handling. -/
def Pc.request : Pc → Option FrameHeader
  | .initAdd _ h => some h
  | .initReply _ h _ => some h
  | _ => none

/-- A section that writes a frame of type `MSG_OK` writes the reply to a registration, or
forwards a data frame. -/
theorem Pc.sends_ok {p : Pc} {k d : ConnId} {f : Frame} (h : p.sends k = some (d, f))
    (hok : f.header.type = MSG_OK) :
    (∃ id hd, p = .initReply id hd true ∧ d = k ∧ f = TcpRouter.initReply true hd) ∨
      p = .forward d f := by
  cases p with
  | hello =>
    obtain ⟨rfl, rfl⟩ := Prod.mk.inj (Option.some.inj h)
    exact absurd hok (by decide)
  | advertise ids =>
    cases ids with
    | nil => cases h
    | cons id ids =>
      obtain ⟨rfl, rfl⟩ := Prod.mk.inj (Option.some.inj h)
      exact absurd hok (show MSG_ROUTER_PEER_REGISTER ≠ MSG_OK by decide)
  | initReply id hd ok =>
    obtain ⟨rfl, rfl⟩ := Prod.mk.inj (Option.some.inj h)
    cases ok with
    | true => exact Or.inl ⟨id, hd, rfl, rfl, rfl⟩
    | false => exact absurd hok (show MSG_ERROR ≠ MSG_OK by decide)
  | broadcast a id ps =>
    cases ps with
    | nil => cases h
    | cons q ps =>
      obtain ⟨rfl, rfl⟩ := Prod.mk.inj (Option.some.inj h)
      cases a with
      | register => exact absurd hok (show MSG_ROUTER_PEER_REGISTER ≠ MSG_OK by decide)
      | delete => exact absurd hok (show MSG_ROUTER_PEER_DELETE ≠ MSG_OK by decide)
  | forward d' g =>
    obtain ⟨rfl, rfl⟩ := Prod.mk.inj (Option.some.inj h)
    exact Or.inr rfl
  | replyError hd =>
    obtain ⟨rfl, rfl⟩ := Prod.mk.inj (Option.some.inj h)
    exact absurd hok (show MSG_ERROR ≠ MSG_OK by decide)
  | _ => cases h

namespace RouterThreads

open TimsMailbox

/-- Connection `k` sends nothing but the two frames of `initialize`. -/
def ClientEvent (config : TimsConfig) (k : ConnId) (e : Event) : Prop :=
  ∀ f, e = .recv k f → f = watchdogFrame config ∨ f = regFrame config

/-- The thread of such a connection routes no data, and replies to the registration. -/
def ServesClient (config : TimsConfig) (k : ConnId) (s : RouterThreads) : Prop :=
  (s.pc k).carried = none ∧ ∀ h, (s.pc k).request = some h → h = (regFrame config).header

theorem servesClient_step {config : TimsConfig} {k : ConnId} (s : RouterThreads) (e : Event)
    (he : ClientEvent config k e) (h : s.ServesClient config k) :
    (s.step e).ServesClient config k := by
  unfold ServesClient at h ⊢
  have hm := moves s e k
  generalize (s.step e).pc k = q at hm
  cases hm with
  | stay => exact h
  | start b => cases b <;> exact ⟨rfl, fun _ h => by cases h⟩
  | read f hrecv =>
    -- The watchdog frame changes nothing here; the registration leads to `registry_.add`.
    rcases he f hrecv with rfl | rfl
    · exact ⟨rfl, fun _ h => by cases h⟩
    · have hread : readPc (s.isPeer k) (regFrame config) =
          .initAdd config.mailboxId (regFrame config).header := by
        simp [readPc, show (regFrame config).header.kind = .mbxInit from rfl]
      rw [hread]
      refine ⟨rfl, ?_⟩
      intro hd h
      cases h
      rfl
  | tick p htick hpc =>
    rw [hpc] at h
    cases p with
    | initAdd id hd => exact ⟨rfl, h.2⟩
    | initReply id hd ok => cases ok <;> exact ⟨rfl, fun _ h => by cases h⟩
    | advertise ids => cases ids <;> exact ⟨rfl, fun _ h => by cases h⟩
    | broadcast a id ps => cases ps <;> exact ⟨rfl, fun _ h => by cases h⟩
    | find f => cases h.1
    | upstream f => cases h.1
    | _ => exact ⟨rfl, fun _ h => by cases h⟩
  | snapshot ids => exact ⟨rfl, fun _ h => by cases h⟩
  | eof => exact ⟨rfl, fun _ h => by cases h⟩

/-- In the state `s`, the event writes a data frame of type `MSG_OK` to connection `k`, to
which nothing has been written yet. -/
def OvertakesReply (s : RouterThreads) (k : ConnId) : Event → Prop
  | .tick j => ∃ f, s.pc j = .forward k f ∧ f.header.type = MSG_OK ∧ s.out k = []
  | _ => False

/-- The first frame stays right, except when the reply is overtaken. -/
theorem firstIsReply_step {config : TimsConfig} {k : ConnId} (s : RouterThreads) (e : Event)
    (hserves : s.ServesClient config k) (h : s.FirstIsReply config k) :
    (s.step e).FirstIsReply config k ↔ ¬ s.OvertakesReply k e := by
  constructor
  · intro hafter hover
    -- The overtaking frame is the first one, and its writer is not the thread of `k`.
    cases e with
    | tick j =>
      obtain ⟨f, hpc, hok, hnone⟩ := hover
      have hout := out_tick s j k
      simp only [hnone, writes, hpc, Pc.sends, if_true, List.nil_append] at hout
      have hj := hafter _ _ hout hok
      obtain rfl : j = k := (Written.mk.inj hj).1
      have hcarried := hserves.1
      rw [hpc] at hcarried
      cases hcarried
    | _ => exact hover
  · intro hover w rest hout hok
    rcases out_step_or s e k with hgrow | ⟨-, hnone, -⟩
    · cases hold : s.out k with
      -- There was a first frame before the step, and it is still the first one.
      | cons w' rest' =>
        rw [hgrow, hold, List.cons_append] at hout
        obtain rfl := (List.cons.inj hout).1
        exact h w' rest' hold hok
      | nil =>
        rw [hold, List.nil_append] at hgrow
        have hw : w ∈ s.writes e k := by
          rw [← hgrow, hout]
          exact List.mem_cons_self
        obtain ⟨j, rfl, hsends⟩ := mem_writes hw
        have hwriter : w.writer = j := by
          simp only [writes, hsends, if_true] at hw
          rw [List.mem_singleton.mp hw]
        -- The first frame is written now, and it is of type `MSG_OK`.
        rcases Pc.sends_ok hsends hok with ⟨id, hd, hpc, rfl, hframe⟩ | hpc
        · obtain rfl := hserves.2 hd (by rw [hpc]; rfl)
          cases w
          simp only at hwriter hframe
          rw [hwriter, hframe]
        · exact absurd ⟨w.frame, hpc, hok, hold⟩ hover
    -- Nothing has been written to a connection that has just been made.
    · rw [hnone] at hout
      cases hout

/-! ### Runs -/

/-- **The registration handshake.** Connection `k` sends what `initialize` sends. In every state
of a run, a successful `initialize` has read the router's reply to its registration and has
left whole frames, exactly when no step of the run overtakes the reply. -/
theorem handshakeOk_iff (up : MailboxId → Bool) (config : TimsConfig) (k : ConnId)
    (es : List Event) (hclient : ∀ e ∈ es, ClientEvent config k e) :
    AllStates step (HandshakeOk config k) (init up) es ↔
      AllSteps step (fun s e => ¬ s.OvertakesReply k e) (init up) es := by
  have hstep : ∀ (s : RouterThreads) (e : Event), ClientEvent config k e →
      s.ServesClient config k → s.HandshakeOk config k →
      ((s.step e).HandshakeOk config k ↔ ¬ s.OvertakesReply k e) := by
    intro s e _ hserves hs
    rw [handshakeOk_iff_firstIsReply] at hs ⊢
    exact firstIsReply_step s e hserves hs
  refine allStates_iff_allSteps servesClient_step hstep hclient ?_ ?_
  · exact ⟨rfl, fun _ h => by cases h⟩
  · rw [handshakeOk_iff_firstIsReply]
    intro w rest hout
    cases hout

/-- A client for mailbox 7. -/
def config7 : TimsConfig := ⟨7, 4096, 0⟩

/-- What `send_raw` makes of the two bytes 1 and 2 for mailbox 7. -/
def dataFrame7 : Frame := ⟨makeFrame 0 7 9 0 0 2, [1, 2], by decide⟩

/-- Client 0 registers mailbox 7. After the `add` and before the reply, the thread of client 1
forwards a data frame to mailbox 7. -/
def overtakenHandshake : List Event :=
  [.start false, .insert, .start false, .insert,
    .recv 0 (watchdogFrame config7), .recv 0 (regFrame config7), .tick 0,
    .recv 1 dataFrame7, .tick 1, .tick 1,
    .tick 0]

/-- `initialize` succeeds, has read the header of the data frame of client 1, and the unread
part of the stream starts with the body of this frame. -/
theorem handshake_overtaken :
    (∀ e ∈ overtakenHandshake, ClientEvent config7 0 e) ∧
      ¬ (runFrom step (init fun _ => false) overtakenHandshake).HandshakeOk config7 0 ∧
      (runFrom step (init fun _ => false) overtakenHandshake).out 0 =
        [⟨1, dataFrame7⟩, ⟨0, TcpRouter.initReply true (regFrame config7).header⟩] := by
  have hout : (runFrom step (init fun _ => false) overtakenHandshake).out 0 =
      [⟨1, dataFrame7⟩, ⟨0, TcpRouter.initReply true (regFrame config7).header⟩] := by decide
  refine ⟨?_, ?_, hout⟩
  · simp [overtakenHandshake, ClientEvent]
  · rw [handshakeOk_iff_firstIsReply]
    intro h
    exact absurd (h _ _ hout (by decide)) (by decide)

/-- Client 1 sends its data after the reply. -/
def orderlyHandshake : List Event :=
  [.start false, .insert, .start false, .insert,
    .recv 0 (watchdogFrame config7), .recv 0 (regFrame config7), .tick 0, .tick 0,
    .recv 1 dataFrame7, .tick 1, .tick 1]

theorem handshake_orderly :
    (runFrom step (init fun _ => false) orderlyHandshake).out 0 =
        [⟨0, TcpRouter.initReply true (regFrame config7).header⟩, ⟨1, dataFrame7⟩] ∧
      AllStates step (HandshakeOk config7 0) (init fun _ => false) orderlyHandshake := by
  refine ⟨by decide, (handshakeOk_iff _ config7 0 orderlyHandshake ?_).mpr ?_⟩
  · simp [orderlyHandshake, ClientEvent]
  · refine ⟨id, id, id, id, id, id, ?_, ?_, id, ?_, ?_, trivial⟩
    · rintro ⟨f, hpc, -⟩
      cases hpc
    · rintro ⟨f, hpc, -⟩
      cases hpc
    · rintro ⟨f, hpc, -⟩
      cases hpc
    · -- The forward: the reply has been written.
      rintro ⟨f, -, -, hnone⟩
      exact absurd hnone (by decide)

end RouterThreads

end CoreRaT.Spec
