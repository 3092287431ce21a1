import Mathlib.Data.List.Forall2
import CoreRaT.Lib.Run
import CoreRaT.Spec.XbufBridge

/-!
# `CoreRaT.Proofs.Evl.Bridge`: message boundaries over the xbuf bridge

`send_raw` writes whole messages, and `run_reader` takes what one read gives for a whole message.
Neither end marks where a message ends: the reader does not look at `msg_size`, and the xbuf
gives what it has.

`Intact` says that the boundaries have survived: every message that was sent is one forwarded frame,
in order, with its own destination and body, or is still in the ring as a whole. `intact_iff` is
exact: all states of a run are intact if and only if each read gives just the bytes of the oldest
message that was not forwarded. A read that gives two messages at once forwards them as one, to the
destination of the first (`two_messages_one_frame`).
-/

set_option autoImplicit false

namespace CoreRaT.Spec.XbufBridge

open CoreRaT.Lib

/-! ### The property -/

/-- The mailbox is registered as `Kind::Tcp` or `Kind::Peer` with connection `c`. -/
def RoutedTo (r : EvlRouter) (id : MailboxId) (c : ConnId) : Prop :=
  r.find id = some (.tcp c) ∨ r.find id = some (.peer c)

/-- The frame, forwarded to the connection, is the message with its own destination and body. -/
def Carries (r : EvlRouter) (m : WireBytes) (p : ConnId × Frame) : Prop :=
  RoutedTo r m.dest p.1 ∧ p.2.header.dest = m.dest ∧ p.2.body = m.bytes

/-- Each message is one forwarded frame or still in the ring, in order. -/
def Intact (s : XbufBridge) : Prop :=
  ∃ done left, s.sent = done ++ left ∧ List.Forall₂ (Carries s.router) done s.forwarded ∧
    s.ring.bytes = left.flatMap WireBytes.bytes

/-- A read gives just the bytes of the oldest message that was not forwarded. -/
def ReadsNextMessage (s : XbufBridge) : Event → Prop
  | .send _ => True
  | .read n => s.CanRead n → ∃ m, s.sent[s.forwarded.length]? = some m ∧ n = m.bytes.length

/-! ### Steps -/

/-- A send puts the whole message into the ring, or changes nothing. -/
theorem step_send (s : XbufBridge) (m : WireBytes) :
    s.step (.send m) = s ∨
    s.step (.send m) = { s with
      ring := { s.ring with bytes := s.ring.bytes ++ m.bytes }
      sent := s.sent ++ [m] } := by
  by_cases hsize : m.bytes.length = 0 ∨ s.config.maxMsgSize < m.bytes.length
  · left
    simp only [step, evlSendRaw, if_pos hsize]
  · by_cases hroom : s.ring.bytes.length + m.bytes.length ≤ s.ring.size
    · right
      simp only [step, evlSendRaw, if_neg hsize, XbufRing.oobWrite, if_pos hroom]
    · left
      simp only [step, evlSendRaw, if_neg hsize, XbufRing.oobWrite, if_neg hroom]

/-- The reader only sends: the registry stays as it is. -/
theorem registry_routeFromXbuf (r : EvlRouter) (d : XbufRead) :
    (r.routeFromXbuf d).registry = r.registry := by
  unfold EvlRouter.routeFromXbuf EvlRouter.xbufHop
  split
  · rfl
  · split <;> rfl

theorem registry_step (s : XbufBridge) (e : Event) :
    (s.step e).router.registry = s.router.registry := by
  cases e with
  | send m => rcases s.step_send m with h | h <;> rw [h]
  | read n =>
    simp only [step]
    split
    · exact registry_routeFromXbuf _ _
    · rfl

/-- Frames are the same messages in a router with the same registry. -/
theorem carries_congr {r r' : EvlRouter} (h : r'.registry = r.registry) :
    Carries r' = Carries r := by
  funext m p
  simp only [Carries, RoutedTo, EvlRouter.find, h]

/-- A read of one whole message forwards it. -/
theorem forwardedBy_whole {r : EvlRouter} {m : WireBytes} {c : ConnId}
    (hroute : RoutedTo r m.dest c) {d : XbufRead} (hd : d.bytes = m.bytes) :
    forwardedBy (r.xbufHop d) = [(c, d.frame)] ∧ Carries r m (c, d.frame) := by
  have hlen : sizeofWireHeader ≤ d.bytes.length := by
    rw [hd]
    exact m.header_le
  have hdest : d.header.dest = m.dest := by
    rw [XbufRead.header, hd]
    rfl
  refine ⟨?_, hroute, hdest, hd⟩
  rw [← hdest] at hroute
  rw [EvlRouter.xbufHop_of_con hlen hroute]
  rfl

theorem length_forwardedBy_le (h : EvlRouter.Hop) : (forwardedBy h).length ≤ 1 := by
  cases h <;> simp [forwardedBy]

/-- The state after a read of `n` bytes. -/
theorem step_read {s : XbufBridge} {n : Nat} (h : s.CanRead n) :
    s.step (.read n) = { s with
      ring := { s.ring with bytes := s.ring.bytes.drop n }
      router := s.router.routeFromXbuf (s.readBytes n h)
      forwarded := s.forwarded ++ forwardedBy (s.router.xbufHop (s.readBytes n h)) } := by
  simp only [step, h, dif_pos]

/-- A read from an intact ring starts with the oldest message that was not forwarded. -/
theorem next_of_canRead {s : XbufBridge} {n : Nat} (h : s.CanRead n) {done left : List WireBytes}
    (hsent : s.sent = done ++ left) (hdone : done.length = s.forwarded.length)
    (hring : s.ring.bytes = left.flatMap WireBytes.bytes) :
    ∃ m rest, left = m :: rest ∧ s.sent[s.forwarded.length]? = some m := by
  cases left with
  | nil =>
    obtain ⟨hpos, hle, -⟩ := h
    rw [hring, List.flatMap_nil, List.length_nil] at hle
    omega
  | cons m rest =>
    refine ⟨m, rest, rfl, ?_⟩
    rw [hsent, ← hdone, List.getElem?_append_right (Nat.le_refl _), Nat.sub_self]
    rfl

/-- A read that leaves the state intact has given just the next message. At most one frame was
forwarded, and some bytes were taken, so it was one frame, and its message is what was taken. -/
theorem length_of_intact_read {s : XbufBridge} {n : Nat} (hread : s.CanRead n) {m : WireBytes}
    {done rest : List WireBytes} (hsent : s.sent = done ++ m :: rest)
    (hdone : done.length = s.forwarded.length)
    (hring : s.ring.bytes = m.bytes ++ rest.flatMap WireBytes.bytes)
    (hafter : (s.step (.read n)).Intact) : n = m.bytes.length := by
  rw [step_read hread] at hafter
  obtain ⟨done', left', hsent', hcarried', hring'⟩ := hafter
  have hcount : done'.length = s.forwarded.length
      + (forwardedBy (s.router.xbufHop (s.readBytes n hread))).length := by
    rw [hcarried'.length_eq, List.length_append]
  have hone := length_forwardedBy_le (s.router.xbufHop (s.readBytes n hread))
  -- What is left after the read is what was left before, without the forwarded message.
  have hleft : left' = (m :: rest).drop (done'.length - done.length) := by
    have hdrop : left' = s.sent.drop done'.length := by
      show left' = s.sent.drop done'.length
      rw [show s.sent = done' ++ left' from hsent', List.drop_left]
    rw [hdrop, hsent, List.drop_append, List.drop_eq_nil_of_le (by omega), List.nil_append]
  have hbytes : (s.ring.bytes.drop n).length = (left'.flatMap WireBytes.bytes).length :=
    congrArg List.length hring'
  rw [List.length_drop, hring, List.length_append] at hbytes
  have hpos := hread.1
  have hle := hread.2.1
  rw [hring, List.length_append] at hle
  have hcases : done'.length - done.length = 0 ∨ done'.length - done.length = 1 := by omega
  rcases hcases with hzero | hmsg
  · rw [hleft, hzero, List.drop_zero, List.flatMap_cons, List.length_append] at hbytes
    omega
  · rw [hleft, hmsg, List.drop_succ_cons, List.drop_zero] at hbytes
    omega

/-- An intact state stays intact exactly when the read gives just the next message. -/
theorem intact_read_iff {s : XbufBridge} (h : s.Intact)
    (hrouted : ∀ m ∈ s.sent, ∃ c, RoutedTo s.router m.dest c) (n : Nat) :
    (s.step (.read n)).Intact ↔ s.ReadsNextMessage (.read n) := by
  by_cases hread : s.CanRead n
  · obtain ⟨done, left, hsent, hcarried, hring⟩ := id h
    have hdone := hcarried.length_eq
    obtain ⟨m, rest, rfl, hnext⟩ := next_of_canRead hread hsent hdone hring
    have hring' : s.ring.bytes = m.bytes ++ rest.flatMap WireBytes.bytes := by
      rw [hring, List.flatMap_cons]
    simp only [ReadsNextMessage, hread, hnext, Option.some.injEq, exists_eq_left', true_implies]
    constructor
    · intro hafter
      exact length_of_intact_read hread hsent hdone hring' hafter
    · intro hn
      obtain ⟨c, hroute⟩ := hrouted m (by simp [hsent])
      have hbytes : (s.readBytes n hread).bytes = m.bytes := by
        show s.ring.bytes.take n = m.bytes
        rw [hring', hn, List.take_left]
      obtain ⟨hforward, hcarries⟩ := forwardedBy_whole hroute hbytes
      rw [step_read hread]
      refine ⟨done ++ [m], rest, by simp [hsent], ?_, ?_⟩
      · rw [carries_congr (registry_routeFromXbuf _ _), hforward]
        exact List.rel_append hcarried (.cons hcarries .nil)
      · show s.ring.bytes.drop n = rest.flatMap WireBytes.bytes
        rw [hring', hn, List.drop_left]
  · have hsame : s.step (.read n) = s := by simp only [step, hread, dif_neg, not_false_eq_true]
    rw [hsame]
    exact iff_of_true h fun hr => absurd hr hread

theorem intact_send {s : XbufBridge} (h : s.Intact) (m : WireBytes) :
    (s.step (.send m)).Intact := by
  rcases s.step_send m with hstep | hstep
  · rwa [hstep]
  · obtain ⟨done, left, hsent, hcarried, hring⟩ := h
    rw [hstep]
    refine ⟨done, left ++ [m], by simp [hsent], hcarried, ?_⟩
    show s.ring.bytes ++ m.bytes = (left ++ [m]).flatMap WireBytes.bytes
    rw [hring, List.flatMap_append, List.flatMap_cons, List.flatMap_nil, List.append_nil]

/-! ### Runs -/

/-- The destination of every message that the event sends is registered as `Kind::Tcp` or
`Kind::Peer`. -/
def Event.Routed (r : EvlRouter) : Event → Prop
  | .send m => ∃ c, RoutedTo r m.dest c
  | .read _ => True

/-- The messages that were sent have a route, in the registry that the run started with. -/
def AllRouted (r : EvlRouter) (s : XbufBridge) : Prop :=
  s.router.registry = r.registry ∧ ∀ m ∈ s.sent, ∃ c, RoutedTo r m.dest c

theorem allRouted_step {r : EvlRouter} (s : XbufBridge) (e : Event) (he : e.Routed r)
    (h : AllRouted r s) : AllRouted r (s.step e) := by
  refine ⟨(registry_step s e).trans h.1, ?_⟩
  cases e with
  | send m =>
    rcases s.step_send m with hstep | hstep
    · rw [hstep]
      exact h.2
    · rw [hstep]
      intro m' hm'
      rcases List.mem_append.mp hm' with hold | hnew
      · exact h.2 m' hold
      · rw [List.mem_singleton.mp hnew]
        exact he
  | read n =>
    simp only [step]
    split
    · exact h.2
    · exact h.2

/-- All states of a run are intact exactly when each read gives just the oldest message that was not
forwarded. The run is any interleaving of sends and reads, with any answers of the kernel, and the
destinations are registered as `Kind::Tcp` or `Kind::Peer`. -/
theorem intact_iff (config : TimsConfig) (capacity : Nat) (r : EvlRouter) (es : List Event)
    (hrouted : ∀ e ∈ es, e.Routed r) :
    AllStates step Intact (init config capacity r) es ↔
      AllSteps step ReadsNextMessage (init config capacity r) es := by
  refine allStates_iff_allSteps (J := AllRouted r) allRouted_step ?_ hrouted
    ⟨rfl, fun m hm => absurd hm List.not_mem_nil⟩ ⟨[], [], rfl, .nil, rfl⟩
  intro s e he hJ hs
  cases e with
  | send m => exact iff_of_true (intact_send hs m) trivial
  | read n =>
    refine intact_read_iff hs ?_ n
    intro m hm
    obtain ⟨c, hc⟩ := hJ.2 m hm
    refine ⟨c, ?_⟩
    simpa only [RoutedTo, EvlRouter.find, hJ.1] using hc

/-! ### Two messages in the ring -/

/-- A message of mailbox 7 for mailbox `dest`, with nothing behind its header. -/
def headerOnly (dest : UInt8) : WireBytes where
  bytes := [0, 0, 0, 0, 32, 0, 0, 0, 0, 0, 0, 0, 0, 0, 0, 0, 0, 0, 0, 0, dest, 0, 0, 0, 7, 0, 0, 0,
    0, 0, 0, 0]
  header_le := Nat.le_refl 32
  msgSize_eq := rfl

/-- A router with mailbox 9 on connection 0 and mailbox 10 on connection 1. -/
def twoClients : EvlRouter :=
  { EvlRouter.init 64 ⟨false, fun _ => 0, [], []⟩ [] with
      registry := (((EvlRegistry.empty.addTcp 9 0).2.addTcp 10 1).2)
      connections := [.start ⟨true, fun _ => 64, [], []⟩ false,
        .start ⟨true, fun _ => 64, [], []⟩ false] }

/-- A bridge from a mailbox with messages of up to 64 bytes. -/
def smallBridge : XbufBridge := init ⟨7, 64, 0⟩ 4 twoClients

theorem routedTo_headerOnly (dest : UInt8) (hdest : dest = 9 ∨ dest = 10) :
    ∃ c, RoutedTo twoClients (headerOnly dest).dest c := by
  rcases hdest with rfl | rfl
  · exact ⟨0, Or.inl rfl⟩
  · exact ⟨1, Or.inl rfl⟩

/-- Two sends, and a read that gives both messages. -/
def bothAtOnce : List Event := [.send (headerOnly 9), .send (headerOnly 10), .read 64]

/-- Messages for two mailboxes are in the ring. The read gives both, and one frame is forwarded, to
the connection of the first. -/
theorem two_messages_one_frame :
    (∀ e ∈ bothAtOnce, e.Routed twoClients) ∧
    ((runFrom step smallBridge bothAtOnce).forwarded.map fun p => (p.1, p.2.body))
      = [(0, (headerOnly 9).bytes ++ (headerOnly 10).bytes)] ∧
    ¬ AllStates step Intact smallBridge bothAtOnce := by
  refine ⟨?_, rfl, ?_⟩
  · intro e he
    simp only [bothAtOnce, List.mem_cons, List.not_mem_nil, or_false] at he
    rcases he with rfl | rfl | rfl
    · exact routedTo_headerOnly 9 (Or.inl rfl)
    · exact routedTo_headerOnly 10 (Or.inr rfl)
    · exact trivial
  · intro h
    obtain ⟨-, -, hbefore, hafter⟩ := h
    have hrouted : ∀ m ∈ [headerOnly 9, headerOnly 10], ∃ c, RoutedTo twoClients m.dest c := by
      intro m hm
      simp only [List.mem_cons, List.not_mem_nil, or_false] at hm
      rcases hm with rfl | rfl
      · exact routedTo_headerOnly 9 (Or.inl rfl)
      · exact routedTo_headerOnly 10 (Or.inr rfl)
    -- The read would have to give the 32 bytes of the first message.
    obtain ⟨m, hm, hlen⟩ := (intact_read_iff hbefore hrouted 64).mp hafter (by decide)
    cases hm
    exact absurd hlen (by decide)

/-- A read behind each send keeps the messages apart. -/
theorem intact_of_alternating :
    AllStates step Intact smallBridge
      [.send (headerOnly 9), .read 32, .send (headerOnly 10), .read 32] := by
  refine (intact_iff ⟨7, 64, 0⟩ 4 twoClients _ ?_).mpr ?_
  · intro e he
    simp only [List.mem_cons, List.not_mem_nil, or_false] at he
    rcases he with rfl | rfl | rfl | rfl
    · exact routedTo_headerOnly 9 (Or.inl rfl)
    · exact trivial
    · exact routedTo_headerOnly 10 (Or.inr rfl)
    · exact trivial
  · exact ⟨trivial, fun _ => ⟨headerOnly 9, rfl, rfl⟩, trivial,
      fun _ => ⟨headerOnly 10, rfl, rfl⟩, trivial⟩

end CoreRaT.Spec.XbufBridge
