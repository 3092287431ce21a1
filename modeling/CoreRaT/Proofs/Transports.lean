import CoreRaT.Proofs.Addressing
import CoreRaT.Proofs.Evl.Bridge
import CoreRaT.Proofs.Mailbox
import CoreRaT.Proofs.Net.Hops
import CoreRaT.Proofs.Receive
import CoreRaT.Proofs.Ring.Isolation

/-!
# `CoreRaT.Proofs.Transports`: who has sent a message, and to whom

A receive enters the source and the destination that its backend reports into the header of the
message. `Carried` says, for each transport, what the backends of the two ends and the router
between them make of the bytes of one message: which mailbox gets them, and with which metadata.
Over TiMS the frame can cross several routers, which pass it on as it is (`Proofs/Net`). The last
one has registered its destination.

A TiMS frame and a slot of a ring name the sender and the destination themselves. A datagram and the
xbuf do not, and the metadata are what stands in the `WireHeader`. `send` does not write these two
fields, and `send_reply` does. `presents_iff` is the consequence.
-/

set_option autoImplicit false

namespace CoreRaT.Spec

open CoreRaT.Lib

/-! ### One message on its way -/

/-- What a transport has brought: the mailbox that gets it, the bytes and the metadata. -/
structure Arrival where
  mailboxId : MailboxId
  bytes : List UInt8
  metadata : TimsMetadata

section
variable (swapEndiannessFrom : (littleEndian : Bool) → List UInt8 → List UInt8)

/-- `receive_raw` of the mailbox `r` comes to the frame, has room for it and returns. -/
def ReadsFrame (r : TimsMailbox) (f : Frame) (bytes : List UInt8) (metadata : TimsMetadata) :
    Prop :=
  ∃ (rest : List Frame) (c : TimsMailbox.Call), r.isInitialized = true ∧
    r.socket.Chunked ((f :: rest).flatMap Frame.encode) ∧ 0 < c.polls 0 ∧
    f.body.length ≤ c.bufferSize ∧
    (r.receiveRaw swapEndiannessFrom c.bufferSize c.polls).1 = .received bytes metadata

/-- A receive takes the message that has been stored from `r` to `r'`, at a time at which its slot
is still as it was. -/
def TakesMessage (r r' : EvlRing) (priority : Int8) (mailboxId : MailboxId) (bytes : List UInt8)
    (metadata : TimsMetadata) : Prop :=
  ∃ (idx : Nat) (later : EvlRing) (bufferSize : Nat), (r.chooseSlot priority).1 = some idx ∧
    later.slots[idx]? = r'.slots[idx]? ∧ later.slotBytes idx = r'.slotBytes idx ∧
    later.findHighestPrioritySlot = some idx ∧
    (later.receive mailboxId bufferSize).1 = .message bytes metadata

/-- The transport brings the bytes that the mailbox with the configuration `sender` has sent to
`dest`. -/
inductive Carried (sender : TimsConfig) (dest : MailboxId) (data : List UInt8) :
    Transport → Arrival → Prop
  /-- A frame is written, the last router on its way sends it on to the connection of its
  destination, and the mailbox at the other end, which has registered nothing else, reads it. -/
  | tims {s s' reader : TimsMailbox} {f : Frame} {router : TcpRouter} {q : TcpRouter.Endpoint}
      {con : ConnId} {bytes : List UInt8} {metadata : TimsMetadata}
      (config : s.config = sender) (sent : s.sendRaw data dest = (.SUCCESS, s'))
      (written : s'.socket.written = s.socket.written ++ f.encode)
      (hop : router.wayOn q f = some (.connection con))
      (registered : ∀ id, router.find id = some con → id = reader.config.mailboxId)
      (reads : ReadsFrame swapEndiannessFrom reader f bytes metadata) :
      Carried sender dest data .tims ⟨reader.config.mailboxId, bytes, metadata⟩
  /-- The mailbox is found in the registry of the process. -/
  | localRing {m m' : RingOwner} {bytes : List UInt8} {metadata : TimsMetadata}
      (sent : evlSendRaw sender (RingOwner.put .sameProcess dest) m data (sendPriority sender)
        = (.SUCCESS, m'))
      (taken : TakesMessage m.ring m'.ring (sendPriority sender) m.mailboxId bytes metadata) :
      Carried sender dest data .localRing ⟨m.mailboxId, bytes, metadata⟩
  /-- The mailbox is found there, or its ring is opened under the name of its id. -/
  | publicRing {path : RingPath} {m m' : RingOwner} {bytes : List UInt8} {metadata : TimsMetadata}
      (name : path = .otherProcess → m.mailboxId = dest)
      (sent : evlSendRaw sender (RingOwner.put path dest) m data (sendPriority sender)
        = (.SUCCESS, m'))
      (taken : TakesMessage m.ring m'.ring (sendPriority sender) m.mailboxId bytes metadata) :
      Carried sender dest data .publicRing ⟨m.mailboxId, bytes, metadata⟩
  /-- The datagram goes to an endpoint of the host where the destination has created its socket,
  among others. It comes to the mailbox that is bound there, whose buffer holds it. -/
  | oobUdp {routes : List (UInt8 × Option UInt32)} {routeCount : Nat}
      {before created host : OobHost} {kernelPort : UInt16} {others : List MailboxId}
      {e : Endpoint} {id : MailboxId} {datagram bytes : List UInt8} {metadata : TimsMetadata}
      {bufferSize : Nat}
      (sent : sendRawNetwork sender (netRoutes routes routeCount) true data dest
        = (.SUCCESS, some (e, datagram)))
      (destination : before.createOobSocket true kernelPort dest = some created)
      (port : EvlNetworkConfig.portFor dest ≠ 0)
      (later : created.bindAll kernelPort others = some host)
      (arrived : host.receiver e = some id) (room : data.length ≤ bufferSize)
      (taken : receiveOobUdp bufferSize datagram = .message bytes metadata) :
      Carried sender dest data .oobUdp ⟨id, bytes, metadata⟩
  /-- The xbuf takes the message, the reader of the router gets it in one piece and forwards it, and
  the mailbox at the other end of the connection, which has registered nothing else, reads the
  frame. -/
  | xbuf {ring ring' : XbufRing} {router : EvlRouter} {d : XbufRead} {con : ConnId} {f : Frame}
      {reader : TimsMailbox} {bytes : List UInt8} {metadata : TimsMetadata}
      (sent : evlSendRaw sender (fun ring data _ _ => ring.oobWrite data) ring data
        (sendPriority sender) = (.SUCCESS, ring'))
      (read : d.bytes = data) (hop : router.xbufHop d = .forward con f)
      (registered : ∀ id, XbufBridge.RoutedTo router id con → id = reader.config.mailboxId)
      (reads : ReadsFrame swapEndiannessFrom reader f bytes metadata) :
      Carried sender dest data .xbuf ⟨reader.config.mailboxId, bytes, metadata⟩

end

/-- The transport has data of its own on the sender and the destination of a message. -/
def Transport.HasEnvelope : Transport → Prop
  | .tims => True
  | .localRing => True
  | .publicRing => True
  | .oobUdp => False
  | .xbuf => False

/-! ### What arrives -/

variable {swapEndiannessFrom : (littleEndian : Bool) → List UInt8 → List UInt8}

theorem ReadsFrame.eq (hswap : ∀ bytes, swapEndiannessFrom true bytes = bytes) {r : TimsMailbox}
    {f : Frame} {bytes : List UInt8} {metadata : TimsMetadata}
    (h : ReadsFrame swapEndiannessFrom r f bytes metadata)
    (htype : f.header.type ≠ MSG_ROUTER_GET_STATUS) (hbody : f.body ≠ [])
    (hflags : f.header.flags = FRAME_LE_FLAG) :
    bytes = f.body ∧ metadata = TimsMailbox.metadataOf f.header := by
  obtain ⟨rest, c, hinit, hchunks, hpoll, hroom, hreceived⟩ := h
  have hmeets : TimsMailbox.CallMeets (f :: rest) c := by
    intro _
    rw [if_neg htype, if_neg hbody]
    exact ⟨hroom, Or.inl (by rw [hflags]; decide)⟩
  have hresult := (TimsMailbox.receiveRaw_eq hswap hinit hchunks hmeets).1
  rw [hreceived, TimsMailbox.receiveFrames, if_neg (by omega), if_neg (not_or.mpr ⟨htype, hbody⟩),
    if_neg (by omega)] at hresult
  exact ⟨(ReceiveResult.received.inj hresult).1, (ReceiveResult.received.inj hresult).2⟩

/-- The frame that `send_raw` writes. -/
theorem sendRaw_frame {s s' : TimsMailbox} {data : List UInt8} {dest : MailboxId} {f : Frame}
    (hsent : s.sendRaw data dest = (.SUCCESS, s'))
    (hwritten : s'.socket.written = s.socket.written ++ f.encode) :
    f.body = data ∧ data ≠ [] ∧ f.header = makeFrame 0 dest s.config.mailboxId
      s.config.priority.toUInt8 s.sequenceNumber.toUInt8 (UInt32.ofNat data.length) := by
  unfold TimsMailbox.sendRaw at hsent
  split at hsent
  · cases hsent
  · split at hsent
    · cases hsent
    · rename_i hsize
      simp only at hsent
      generalize hheader : makeFrame 0 dest s.config.mailboxId s.config.priority.toUInt8
        s.sequenceNumber.toUInt8 (UInt32.ofNat data.length) = header at hsent ⊢
      split at hsent
      · cases hsent
      · rename_i s₁ hs₁
        split at hsent
        · cases hsent
        · rename_i s₂ hs₂
          obtain rfl := (Prod.mk.inj hsent).2
          have h₁ := TcpSocket.written_sendAll_of_true (by rw [hs₁])
          have h₂ := TcpSocket.written_sendAll_of_true (by rw [hs₂])
          rw [hs₁] at h₁
          rw [hs₂] at h₂
          simp only at h₁ h₂ hwritten
          have hbytes : header.encode ++ data = f.header.encode ++ f.body := by
            rw [h₂, h₁, List.append_assoc] at hwritten
            exact List.append_cancel_left hwritten
          obtain ⟨hhead, hbody⟩ := List.append_inj hbytes (by simp)
          refine ⟨hbody.symm, ?_, ?_⟩
          · rintro rfl
            simp at hsize
          · rw [← FrameHeader.decode_encode f.header, ← hhead, FrameHeader.decode_encode]

/-- On both paths a message is stored by `post`, cut to a slot where another process sends it. -/
theorem RingPath.put_eq (path : RingPath) (r : EvlRing) (data : List UInt8) (priority : Int8)
    (src : MailboxId) : ∃ stored, path.put r data priority src = r.post stored priority src := by
  cases path with
  | sameProcess => exact ⟨data, rfl⟩
  | otherProcess => exact ⟨_, r.postToRemote_eq data priority src⟩

/-- The slot in which a message is stored names its sender. -/
theorem RingPath.src_of_put {path : RingPath} {r r' : EvlRing} {data : List UInt8} {priority : Int8}
    {src : MailboxId} (hput : path.put r data priority src = (true, r')) {idx : Nat}
    (hchoose : (r.chooseSlot priority).1 = some idx) :
    ∃ slot, r'.slots[idx]? = some slot ∧ slot.src = src := by
  obtain ⟨stored, hpost⟩ := path.put_eq r data priority src
  rw [hpost] at hput
  rcases r.post_cases stored priority src with ⟨i, m, hi, hyields, heq⟩ | ⟨hnone, -⟩
  · obtain rfl : i = idx := Option.some.inj (hi.symm.trans hchoose)
    obtain rfl := (Prod.mk.inj (heq.symm.trans hput)).2
    exact ⟨_, List.getElem?_set_self hyields.lt, rfl⟩
  · rw [hnone] at hchoose
    cases hchoose

theorem TakesMessage.metadata_eq {r r' : EvlRing} {priority : Int8} {mailboxId : MailboxId}
    {bytes : List UInt8} {metadata : TimsMetadata}
    (h : TakesMessage r r' priority mailboxId bytes metadata) {path : RingPath} {data : List UInt8}
    {src : MailboxId} (hput : path.put r data priority src = (true, r')) :
    metadata.src = src ∧ metadata.dest = mailboxId := by
  obtain ⟨idx, later, bufferSize, hchoose, hslot, -, hfound, hreceived⟩ := h
  obtain ⟨slot, hstored, hsrc⟩ := RingPath.src_of_put hput hchoose
  rw [EvlRing.receive_of_found hfound (hslot.trans hstored)] at hreceived
  split at hreceived
  · cases hreceived
  · obtain ⟨-, rfl⟩ := EvlRing.Received.message.inj hreceived
    exact ⟨hsrc, rfl⟩

/-- A send into the ring of a mailbox that it has found in the process: the mailbox is the
destination. -/
theorem RingOwner.put_of_success {sender : TimsConfig} {path : RingPath} {dest : MailboxId}
    {m m' : RingOwner} {data : List UInt8} {priority : Int8}
    (hsent : evlSendRaw sender (RingOwner.put path dest) m data priority = (.SUCCESS, m')) :
    path.put m.ring data priority sender.mailboxId = (true, m'.ring) ∧
      (path = .sameProcess → m.mailboxId = dest) := by
  have hput := EvlRing.put_of_success hsent
  cases path with
  | sameProcess =>
    simp only [RingOwner.put] at hput
    split at hput
    · rename_i hfound
      obtain ⟨hok, rfl⟩ := Prod.mk.inj hput
      exact ⟨Prod.ext hok rfl, fun _ => hfound.1⟩
    · cases hput
  | otherProcess =>
    obtain ⟨hok, rfl⟩ := Prod.mk.inj hput
    exact ⟨Prod.ext hok rfl, nofun⟩

/-- What a datagram gives. -/
theorem receiveOobUdp_eq {bufferSize : Nat} {data : List UInt8}
    (hheader : sizeofWireHeader ≤ data.length) (hroom : data.length ≤ bufferSize) :
    receiveOobUdp bufferSize data = .message data
      { src := (WireHeader.decode data).src
        dest := (WireHeader.decode data).dest
        seqNr := (WireHeader.decode data).seqNumber
        priority := 0
        flags := (WireHeader.decode data).flags.toUInt8 } := by
  have hpos : data.length ≠ 0 := by
    have hsize : sizeofWireHeader = 32 := rfl
    omega
  simp only [receiveOobUdp, List.take_of_length_le hroom, hpos, if_false, hheader, if_true]

/-- The endpoint and the datagram of a send in `Mode::Network`. -/
theorem sendRawNetwork_success {config : TimsConfig} {routes : List NetworkRouteEntry}
    {ok : Bool} {data datagram : List UInt8} {dest : MailboxId} {e : Endpoint}
    (h : sendRawNetwork config routes ok data dest = (.SUCCESS, some (e, datagram))) :
    datagram = data ∧ e = ⟨e.ip, EvlNetworkConfig.portFor dest⟩ := by
  unfold sendRawNetwork sendOobUdp at h
  split at h
  · cases h
  · split at h
    · cases h
    · split at h
      · obtain ⟨rfl, rfl⟩ := Prod.mk.inj (Option.some.inj (Prod.mk.inj h).2)
        exact ⟨rfl, rfl⟩
      · cases h

/-- The frame that the reader of the xbuf forwards, and where it goes. -/
theorem xbufHop_forward {router : EvlRouter} {d : XbufRead} {con : ConnId} {f : Frame}
    (h : router.xbufHop d = .forward con f) :
    f = d.frame ∧ XbufBridge.RoutedTo router d.header.dest con := by
  unfold EvlRouter.xbufHop at h
  split at h
  · cases h
  · split at h
    · rename_i hfind
      obtain ⟨rfl, rfl⟩ := EvlRouter.Hop.forward.inj h
      exact ⟨rfl, Or.inl hfind⟩
    · rename_i hfind
      obtain ⟨rfl, rfl⟩ := EvlRouter.Hop.forward.inj h
      exact ⟨rfl, Or.inr hfind⟩
    · cases h

/-- The metadata of a message that has been carried, and the mailbox that gets it. -/
theorem Carried.metadata_cases (hswap : ∀ bytes, swapEndiannessFrom true bytes = bytes)
    {sender : TimsConfig} {dest : MailboxId} {data : List UInt8} {tr : Transport} {a : Arrival}
    (h : Carried swapEndiannessFrom sender dest data tr a)
    (hheader : sizeofWireHeader ≤ data.length) :
    (tr.HasEnvelope ∧ a.mailboxId = dest ∧ a.metadata.src = sender.mailboxId ∧
      a.metadata.dest = dest) ∨
    (¬ tr.HasEnvelope ∧ a.bytes = data ∧ a.metadata.src = (WireHeader.decode data).src ∧
      a.metadata.dest = (WireHeader.decode data).dest ∧
      (a.mailboxId = dest ∨ a.mailboxId = (WireHeader.decode data).dest)) := by
  have hne : data ≠ [] := by
    rintro rfl
    exact absurd hheader (by decide)
  have htype : (0 : Int8) ≠ MSG_ROUTER_GET_STATUS := by decide
  cases h with
  | @tims _ _ reader f router _ _ _ _ config sent written hop registered reads =>
    subst config
    have hid := registered _ (TcpRouter.find_of_wayOn hop)
    obtain ⟨hbody, -, hhead⟩ := sendRaw_frame sent written
    obtain ⟨-, rfl⟩ := reads.eq hswap (by rw [hhead]; exact htype) (by rw [hbody]; exact hne)
      (by rw [hhead]; rfl)
    rw [hhead] at hid ⊢
    exact Or.inl ⟨trivial, hid.symm, rfl, rfl⟩
  | localRing sent taken =>
    obtain ⟨hput, hid⟩ := RingOwner.put_of_success sent
    obtain ⟨hsrc, hdest⟩ := taken.metadata_eq hput
    exact Or.inl ⟨trivial, hid rfl, hsrc, hdest.trans (hid rfl)⟩
  | @publicRing path m _ _ _ name sent taken =>
    obtain ⟨hput, hid⟩ := RingOwner.put_of_success sent
    obtain ⟨hsrc, hdest⟩ := taken.metadata_eq hput
    have hid : m.mailboxId = dest := by
      cases path with
      | sameProcess => exact hid rfl
      | otherProcess => exact name rfl
    exact Or.inl ⟨trivial, hid, hsrc, hdest.trans hid⟩
  | oobUdp sent destination port later arrived room taken =>
    obtain ⟨rfl, he⟩ := sendRawNetwork_success sent
    have hbound := OobHost.bindAll_keeps _ later
      (OobHost.bound_of_createOobSocket destination port)
    rw [he, OobHost.receiver] at arrived
    rw [receiveOobUdp_eq hheader room] at taken
    obtain ⟨rfl, rfl⟩ := Mailbox.RawReceived.message.inj taken
    refine Or.inr ⟨id, rfl, rfl, rfl, Or.inl ?_⟩
    split at arrived
    · exact Option.some.inj (arrived.symm.trans hbound)
    · cases arrived
  | xbuf sent read hop registered reads =>
    obtain ⟨rfl, hroute⟩ := xbufHop_forward hop
    subst read
    obtain ⟨hbytes, rfl⟩ := reads.eq hswap htype hne rfl
    exact Or.inr ⟨id, hbytes, rfl, rfl, Or.inr (registered _ hroute).symm⟩

/-! ### What is presented -/

/-- A receive of a running mailbox, of one type or of any, presents the bytes with this source and
this destination. -/
structure Presents {τ : Type} {V : τ → Type} [DecidableEq τ] (S : Sertial τ V)
    (defs : List (MessageDefinition τ)) (raw : Mailbox.RawReceived) (src dest : MailboxId) :
    Prop where
  receive : ∀ (t : τ) (m : WireMessage V t), Mailbox.receive S true raw t = some m →
    m.header.src = src ∧ m.header.dest = dest
  receiveAny : ∀ (positiveTimeout : Bool) (m : (t : τ) × WireMessage V t),
    m ∈ (Mailbox.receiveAnyFor S defs true positiveTimeout raw).2 →
      m.2.header.src = src ∧ m.2.header.dest = dest

section
variable {τ : Type} {V : τ → Type} [DecidableEq τ] {S : Sertial τ V}
  {defs : List (MessageDefinition τ)}

/-- A receive presents what the metadata say. -/
theorem presents_metadata (bytes : List UInt8) (metadata : TimsMetadata) :
    Presents S defs (.message bytes metadata) metadata.src metadata.dest := by
  refine ⟨?_, ?_⟩
  · intro t m hm
    simp only [Mailbox.receive, Bool.not_true, Bool.false_eq_true, if_false] at hm
    split at hm
    · cases hm
    · obtain ⟨m', -, rfl⟩ := Option.map_eq_some_iff.mp hm
      exact ⟨rfl, rfl⟩
  · intro positiveTimeout m hm
    simp only [Mailbox.receiveAnyFor, Bool.not_true, Bool.false_eq_true, if_false] at hm
    split at hm
    · cases hm
    · obtain ⟨m', -, rfl⟩ := List.mem_map.mp hm
      exact ⟨rfl, rfl⟩

/-- **Who sent it, and to whom.** Take a registered type, a message with anything in its header, a
mailbox that sends it, its destination and a transport that brings it. The transport delivers it to
the destination, and the receiver presents it as sent by the sender and to the destination, exactly
when the transport is TiMS or a ring, or the header of the message said so before the send. A
message that arrives whole is presented with its payload. -/
theorem presents_iff (hswap : ∀ bytes, swapEndiannessFrom true bytes = bytes)
    (S : Sertial τ V) (hround : S.RoundTrip) (hfirst : S.HeaderFirst)
    (defs defs' : List (MessageDefinition τ)) {t : τ} (h : MessageRegistry.IsRegistered defs t)
    (m : WireMessage V t) (sender : TimsConfig) (dest : MailboxId)
    (sendRaw : List UInt8 → MailboxId → TimsResult) {data : List UInt8} {tr : Transport}
    {a : Arrival}
    (hsend : (Mailbox.send S defs true sendRaw h m dest).handed = some (data, dest))
    (hcarried : Carried swapEndiannessFrom sender dest data tr a) :
    ((a.mailboxId = dest ∧
        Presents S defs' (.message a.bytes a.metadata) sender.mailboxId dest) ↔
      tr.HasEnvelope ∨ m.header.src = sender.mailboxId ∧ m.header.dest = dest) ∧
    (a.bytes = data → ∃ m', Mailbox.receive S true (.message a.bytes a.metadata) t = some m' ∧
      m'.payload = m.payload) := by
  have hdest : dest ≠ 0 := by
    rintro rfl
    simp [Mailbox.send] at hsend
  rw [Mailbox.send_handed S sendRaw h m hdest] at hsend
  obtain rfl := (Prod.mk.inj (Option.some.inj hsend)).1
  obtain ⟨hlen, hheader⟩ := hfirst t ⟨Mailbox.sentHeader S h m, m.payload⟩
  have hpresented : a.bytes = S.serialize t ⟨Mailbox.sentHeader S h m, m.payload⟩ →
      Mailbox.receive S true (.message a.bytes a.metadata) t
        = some (Mailbox.present a.metadata ⟨Mailbox.sentHeader S h m, m.payload⟩) := by
    intro hwhole
    have hpos : a.bytes.length ≠ 0 := by
      have hsize : sizeofWireHeader = 32 := rfl
      rw [hwhole]
      omega
    rw [Mailbox.receive, if_neg (by decide)]
    simp only [hpos, if_false]
    rw [hwhole, hround]
    rfl
  refine ⟨?_, fun hwhole => ⟨_, hpresented hwhole, rfl⟩⟩
  rcases hcarried.metadata_cases hswap hlen with
    ⟨henvelope, hid, hsrc, hdest'⟩ | ⟨hnot, hwhole, hsrc, hdest', hid⟩
  · refine iff_of_true ⟨hid, ?_⟩ (Or.inl henvelope)
    rw [← hsrc, ← hdest']
    exact presents_metadata a.bytes a.metadata
  · rw [hheader] at hsrc hdest' hid
    constructor
    · rintro ⟨-, hpresents⟩
      obtain ⟨hfrom, hto⟩ := hpresents.receive t _ (hpresented hwhole)
      exact Or.inr ⟨hsrc.symm.trans hfrom, hdest'.symm.trans hto⟩
    · rintro (henvelope | ⟨hfrom, hto⟩)
      · exact absurd henvelope hnot
      · refine ⟨?_, ?_⟩
        · exact hid.elim (fun hid => hid) fun hid => hid.trans hto
        · rw [← hfrom, ← hto]
          have hpresents : Presents S defs' (.message a.bytes a.metadata) a.metadata.src
              a.metadata.dest := presents_metadata a.bytes a.metadata
          rw [hsrc, hdest'] at hpresents
          exact hpresents

end

/-! ### Two ways from mailbox 5 to mailbox 6 -/

/-- The configuration of mailbox 5. -/
def mailbox5 : TimsConfig := ⟨5, 64, 0⟩

/-- Mailbox 6, with one slot. -/
def mailbox6 : RingOwner := ⟨6, true, .allocateRing 1 64 fun _ => 0⟩

theorem send_to_6 :
    (Mailbox.send (plainSertial Bool) Mailbox.twoKinds true (fun _ _ => .SUCCESS)
      (Mailbox.isRegistered_twoKinds true) ⟨.zero, 7⟩ 6).handed
        = some (Mailbox.secondKindBytes, 6) := by
  decide

theorem carried_localRing :
    Carried TimsMailbox.swapWireHeader mailbox5 6 Mailbox.secondKindBytes .localRing
      ⟨6, Mailbox.secondKindBytes, ⟨5, 6, 0, 0, 0⟩⟩ :=
  .localRing (m := mailbox6) rfl ⟨0, _, 64, rfl, rfl, rfl, rfl, rfl⟩

theorem presents_localRing :
    Presents (plainSertial Bool) Mailbox.twoKinds
      (.message Mailbox.secondKindBytes ⟨5, 6, 0, 0, 0⟩) 5 6 :=
  ((presents_iff (fun _ => rfl) (plainSertial Bool) plainSertial.roundTrip
    plainSertial.headerFirst Mailbox.twoKinds Mailbox.twoKinds (Mailbox.isRegistered_twoKinds true)
    ⟨.zero, 7⟩ mailbox5 6 (fun _ _ => .SUCCESS) send_to_6 carried_localRing).1.mpr
      (Or.inl trivial)).2

/-- In `Mode::Network` the same message is presented as sent by nobody. -/
theorem datagram_without_sender :
    (Mailbox.send (plainSertial Bool) Mailbox.twoKinds true (fun _ _ => .SUCCESS)
      (Mailbox.isRegistered_twoKinds true) ⟨.zero, 7⟩ 6).handed
        = some (Mailbox.secondKindBytes, 6) ∧
      Carried TimsMailbox.swapWireHeader mailbox5 6 Mailbox.secondKindBytes .oobUdp
        ⟨6, Mailbox.secondKindBytes, ⟨0, 0, 0, 0, 0⟩⟩ ∧
      ¬ Presents (plainSertial Bool) Mailbox.twoKinds
        (.message Mailbox.secondKindBytes ⟨0, 0, 0, 0, 0⟩) 5 6 := by
  refine ⟨by decide, ?_, ?_⟩
  · exact @Carried.oobUdp TimsMailbox.swapWireHeader mailbox5 6 Mailbox.secondKindBytes
      [(0, some 0x0A0A0A0B)] 1 (.empty 0x0A0A0A0B) _ _ 50000 [7] _ _ _ _ _ 64 rfl rfl (by decide)
      rfl rfl (by decide) rfl
  · intro hpresents
    have hfrom := hpresents.receive true ⟨_, 7⟩ rfl
    revert hfrom
    decide

end CoreRaT.Spec
