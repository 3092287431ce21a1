import CoreRaT.Lib.ByteOrder
import CoreRaT.Proofs.Receive
import CoreRaT.Proofs.ReceiveRound
import CoreRaT.Spec.EvlRing

/-!
# `CoreRaT.Proofs.ByteOrder`: frames of a big-endian sender

The flags of a frame say that its head and its body are little-endian. `receive_raw` looks at the
flags when it has the body in the buffer, and converts the `WireHeader` there. By then it has
compared and used `msglen`, and it copies `dest` and `src` to the metadata, all of them as they
came.

`LogicalFrame` is a frame without a byte order. `delivered_little_iff` and `delivered_big_iff` say
when `receive_raw` returns what the frame says, for its two encodings. The first needs that the
frame is no status request, which `receive_raw` answers itself. The second needs besides that
`dest`, `src` and `msglen` read the same in both orders.
-/

set_option autoImplicit false

namespace CoreRaT.Spec

open CoreRaT.Lib

/-! ### The two encodings -/

/-- The fields of a `WireHeader`, little-endian. -/
def WireHeader.fields (h : WireHeader) : List (List UInt8) :=
  [le32 h.msgType, le32 h.msgSize, le32 h.timestampLow ++ le32 h.timestampHigh, le32 h.seqNumber,
    le32 h.dest, le32 h.src, le32 h.flags]

/-- The lengths of these fields. -/
def wireHeaderWidths : List Nat := [4, 4, 8, 4, 4, 4, 4]

/-- A header as a big-endian host has it. -/
def WireHeader.encodeBig (h : WireHeader) : List UInt8 := (h.fields.map List.reverse).flatten

theorem WireHeader.length_encodeBig (h : WireHeader) : h.encodeBig.length = sizeofWireHeader := rfl

/-- The bytes of a big-endian header, field by field in the other order. -/
theorem WireHeader.reverseFields_encodeBig (h : WireHeader) :
    reverseFields wireHeaderWidths h.encodeBig = h.encode := by
  have hwidths : (h.fields.map List.reverse).map List.length = wireHeaderWidths := rfl
  have htwice : (h.fields.map List.reverse).map List.reverse = h.fields := rfl
  rw [← hwidths, encodeBig, reverseFields_flatten, htwice]
  rfl

/-- The packed header as a big-endian host has it. -/
def FrameHeader.encodeBig (h : FrameHeader) : List UInt8 :=
  [h.flags, h.type.toUInt8, h.priority, h.seqNr] ++ (be32 h.dest ++ (be32 h.src ++ be32 h.msglen))

/-- What a little-endian host reads there. -/
theorem FrameHeader.decode_encodeBig (h : FrameHeader) :
    decode h.encodeBig =
      { h with dest := byteSwap h.dest, src := byteSwap h.src, msglen := byteSwap h.msglen } := by
  have hdest : ofLe32 (h.encodeBig.drop 4) = byteSwap h.dest := by
    rw [show h.encodeBig.drop 4 = be32 h.dest ++ (be32 h.src ++ be32 h.msglen) from rfl]
    exact ofLe32_be32_append _ _
  have hsrc : ofLe32 (h.encodeBig.drop 8) = byteSwap h.src := by
    rw [show h.encodeBig.drop 8 = be32 h.src ++ be32 h.msglen from rfl]
    exact ofLe32_be32_append _ _
  have hmsglen : ofLe32 (h.encodeBig.drop 12) = byteSwap h.msglen := by
    rw [show h.encodeBig.drop 12 = be32 h.msglen ++ [] from rfl]
    exact ofLe32_be32_append _ _
  have htype : (h.encodeBig.getD 1 0).toInt8 = h.type := by
    simp [encodeBig]
  simp only [decode, hdest, hsrc, hmsglen, htype]
  rfl

/-- A frame as its sender means it. The length of the whole is a `uint32_t`. -/
structure LogicalFrame where
  type : Int8
  priority : UInt8
  seqNr : UInt8
  dest : MailboxId
  src : MailboxId
  wireHeader : WireHeader
  rest : List UInt8
  length_lt : sizeofFrameHeader + sizeofWireHeader + rest.length < 2 ^ 32

namespace LogicalFrame

/-- The length of the body. -/
def bodyLength (f : LogicalFrame) : Nat := sizeofWireHeader + f.rest.length

/-- The header of the frame, with the flags of its sender. -/
def header (f : LogicalFrame) (flags : UInt8) : FrameHeader :=
  { makeFrame f.type f.dest f.src f.priority f.seqNr (UInt32.ofNat f.bodyLength) with
      flags := flags }

/-- The frame from a little-endian sender. -/
def encodeLittle (f : LogicalFrame) : List UInt8 :=
  (f.header FRAME_LE_FLAG).encode ++ (f.wireHeader.encode ++ f.rest)

/-- The frame from a big-endian sender. -/
def encodeBig (f : LogicalFrame) : List UInt8 :=
  (f.header 0).encodeBig ++ (f.wireHeader.encodeBig ++ f.rest)

/-- `msglen` of the frame. -/
def msglen (f : LogicalFrame) : UInt32 := (f.header FRAME_LE_FLAG).msglen

theorem toNat_msglen (f : LogicalFrame) : f.msglen.toNat = sizeofFrameHeader + f.bodyLength := by
  have hlt := f.length_lt
  have hbody : (UInt32.ofNat f.bodyLength).toNat = f.bodyLength := by
    refine Nat.mod_eq_of_lt ?_
    rw [bodyLength]
    omega
  show (16 + UInt32.ofNat f.bodyLength : UInt32).toNat = _
  rw [UInt32.toNat_add, hbody, show (16 : UInt32).toNat = sizeofFrameHeader from rfl]
  refine Nat.mod_eq_of_lt ?_
  rw [bodyLength]
  omega

end LogicalFrame

/-! ### What a call reads -/

/-- `sertial::swap_endianness_from<WireHeader>` on a little-endian host. -/
structure SwapsWireHeader (swapEndiannessFrom : (littleEndian : Bool) → List UInt8 → List UInt8) :
    Prop where
  little : ∀ bytes, swapEndiannessFrom true bytes = bytes
  big : ∀ bytes, bytes.length = sizeofWireHeader →
    swapEndiannessFrom false bytes = reverseFields wireHeaderWidths bytes

namespace TimsMailbox

variable {swapEndiannessFrom : (littleEndian : Bool) → List UInt8 → List UInt8}

theorem length_convert (hswap : SwapsWireHeader swapEndiannessFrom) (h : FrameHeader)
    (body : List UInt8) : (convert swapEndiannessFrom h body).length = body.length := by
  unfold convert
  split
  · rename_i hlen
    have htake : (body.take sizeofWireHeader).length = sizeofWireHeader := by
      rw [List.length_take]
      omega
    have hswapped : (swapEndiannessFrom (h.flags &&& FRAME_LE_FLAG ≠ 0)
        (body.take sizeofWireHeader)).length = sizeofWireHeader := by
      cases decide (h.flags &&& FRAME_LE_FLAG ≠ 0) with
      | true => rw [hswap.little, htake]
      | false => rw [hswap.big _ htake, length_reverseFields, htake]
    rw [List.length_append, hswapped, List.length_drop]
    omega
  · rfl

/-- Each body that the loop returns has used up a header as well, and each round that has gone on
another one. -/
theorem receiveLoop_uses (hswap : SwapsWireHeader swapEndiannessFrom) {bufferSize : Nat}
    {body : List UInt8} {metadata : TimsMetadata} {m' : TimsMailbox} (fuel : Nat) :
    ∀ (m : TimsMailbox) (bytes : List UInt8) (polls : Nat → Int), m.socket.Chunked bytes →
      receiveLoop swapEndiannessFrom fuel m bufferSize polls = (.received body metadata, m') →
      m'.socket.inbound.flatten.length + (sizeofFrameHeader + body.length) ≤ bytes.length := by
  induction fuel with
  | zero =>
    intro m bytes polls _ h
    simp [receiveLoop] at h
  | succ fuel ih =>
    intro m bytes polls hchunks h
    rw [receiveLoop_succ] at h
    rcases receiveRound_cases swapEndiannessFrom hchunks bufferSize (polls 0) with
      ⟨m₁, hround, hrest, -, -⟩ | ⟨body₁, rest, m₁, hround, hbytes, hrest, hheader, -, -, -⟩ |
      ⟨r, m₁, hround, hr, -⟩
    · -- The round has used up a header, and the body comes out of the rest.
      rw [hround] at h
      have huses := ih m₁ _ _ hrest h
      rw [List.length_drop] at huses
      omega
    · -- The body of this round. The conversion does not change its length.
      rw [hround] at h
      simp only [Prod.mk.injEq, ReceiveResult.received.injEq] at h
      obtain ⟨⟨rfl, -⟩, rfl⟩ := h
      have hlen := congrArg List.length hbytes
      rw [List.length_drop, List.length_append] at hlen
      rw [hrest.flatten, length_convert hswap]
      omega
    · rw [hround] at h
      simp only [Prod.mk.injEq] at h
      exact absurd h.1 (hr body metadata)

section
variable {m : TimsMailbox} {head body after : List UInt8} {bufferSize : Nat} {polls : Nat → Int}

/-- A call finds a header with a body of the length that it announces. -/
theorem receiveRaw_of_head
    (swapEndiannessFrom : (littleEndian : Bool) → List UInt8 → List UInt8)
    (hm : m.isInitialized = true) (hchunks : m.socket.Chunked (head ++ (body ++ after)))
    (hhead : head.length = sizeofFrameHeader) (hfits : body.length ≤ bufferSize)
    (hpoll : 0 < polls 0) (hbody : 0 < body.length)
    (htype : (FrameHeader.decode head).type ≠ MSG_ROUTER_GET_STATUS)
    (hlen : (FrameHeader.decode head).bodyLen.toNat = body.length) :
    ∃ m', receiveRaw swapEndiannessFrom m bufferSize polls
        = (.received (convert swapEndiannessFrom (.decode head) body)
            (metadataOf (.decode head)), m') ∧ m'.socket.Chunked after := by
  have htake := headOf_append hhead (body ++ after)
  rw [receiveRaw_eq_loop swapEndiannessFrom hm hchunks.isOpen, receiveLoop_succ]
  rcases receiveRound_cases swapEndiannessFrom hchunks bufferSize (polls 0) with
    ⟨m₁, hround, hrest, -, hskip⟩ | ⟨body₁, rest, m₁, hround, hbytes, hrest, -, -, -, hlen₁⟩ |
    ⟨r, m₁, hround, -, hwhy⟩
  · -- The header would have been passed over, but it announces a body.
    rw [htake] at hskip
    rcases hskip with hstatus | hempty
    · exact absurd hstatus htype
    · have hempty : (FrameHeader.decode head).msglen.toNat ≤ 16 := UInt32.le_iff_toNat_le.mp hempty
      rw [FrameHeader.toNat_bodyLen, sizeofFrameHeader] at hlen
      omega
  · rw [htake] at hround hlen₁
    rw [← hhead, List.drop_left] at hbytes
    obtain ⟨rfl, rfl⟩ := List.append_inj hbytes (by rw [hlen₁, hlen])
    rw [hround]
    exact ⟨m₁, rfl, hrest⟩
  · -- The body is there, and it fits.
    rw [htake, hlen] at hwhy
    simp only [List.length_append, hhead] at hwhy
    omega

/-- A call that returns as many bytes as there are in front of `after`, and stops there, has found a
header that announces them. -/
theorem head_of_receiveRaw (hswap : SwapsWireHeader swapEndiannessFrom)
    (hm : m.isInitialized = true) (hchunks : m.socket.Chunked (head ++ (body ++ after)))
    (hhead : head.length = sizeofFrameHeader) {body' : List UInt8} {metadata : TimsMetadata}
    {m' : TimsMailbox}
    (h : receiveRaw swapEndiannessFrom m bufferSize polls = (.received body' metadata, m'))
    (hlen : body'.length = body.length) (hafter : m'.socket.inbound.flatten = after) :
    (FrameHeader.decode head).type ≠ MSG_ROUTER_GET_STATUS ∧
      (FrameHeader.decode head).bodyLen.toNat = body.length ∧
      metadata = metadataOf (.decode head) := by
  have htake := headOf_append hhead (body ++ after)
  rw [receiveRaw_eq_loop swapEndiannessFrom hm hchunks.isOpen, receiveLoop_succ] at h
  rcases receiveRound_cases swapEndiannessFrom hchunks bufferSize (polls 0) with
    ⟨m₁, hround, hrest, -, -⟩ | ⟨body₁, rest, m₁, hround, -, -, -, htype, -, hlen₁⟩ |
    ⟨r, m₁, hround, hr, -⟩
  · -- The header has been passed over, and the rest of the stream is too short.
    rw [hround] at h
    have huses := receiveLoop_uses hswap _ _ _ _ hrest h
    simp only [hafter, hlen, ← hhead, List.drop_left, List.length_append] at huses
    rw [hhead, sizeofFrameHeader] at huses
    omega
  · rw [htake] at hround htype hlen₁
    rw [hround] at h
    simp only [Prod.mk.injEq, ReceiveResult.received.injEq] at h
    obtain ⟨⟨rfl, rfl⟩, rfl⟩ := h
    rw [length_convert hswap] at hlen
    exact ⟨htype, by rw [← hlen₁, hlen], rfl⟩
  · rw [hround] at h
    simp only [Prod.mk.injEq] at h
    exact absurd h.1 (hr body' metadata)

end

end TimsMailbox

/-! ### What a call returns for the two encodings -/

namespace LogicalFrame

/-- The body and the metadata say what the frame says. -/
structure Matches (f : LogicalFrame) (body : List UInt8) (metadata : TimsMetadata) : Prop where
  length : body.length = f.bodyLength
  src : metadata.src = f.src
  dest : metadata.dest = f.dest
  seqNr : metadata.seqNr = f.seqNr.toUInt32
  priority : metadata.priority = f.priority
  wireHeader : WireHeader.decode body = f.wireHeader

/-- The call has returned the frame, and `after` is left of the stream. -/
def Delivered (f : LogicalFrame) (after : List UInt8) (call : ReceiveResult × TimsMailbox) : Prop :=
  ∃ body metadata, call.1 = .received body metadata ∧ f.Matches body metadata ∧
    call.2.socket.inbound.flatten = after

variable {swapEndiannessFrom : (littleEndian : Bool) → List UInt8 → List UInt8}

theorem length_body (f : LogicalFrame) : (f.wireHeader.encode ++ f.rest).length = f.bodyLength := by
  rw [List.length_append, WireHeader.length_encode, bodyLength]

theorem length_bodyBig (f : LogicalFrame) :
    (f.wireHeader.encodeBig ++ f.rest).length = f.bodyLength := by
  rw [List.length_append, WireHeader.length_encodeBig, bodyLength]

theorem bodyLength_pos (f : LogicalFrame) : 0 < f.bodyLength := by
  rw [bodyLength, sizeofWireHeader]
  omega

/-- The flags say big-endian, so each field of the `WireHeader` is reversed. -/
theorem convert_big (hswap : SwapsWireHeader swapEndiannessFrom) (f : LogicalFrame)
    {h : FrameHeader} (hflags : h.flags = 0) :
    TimsMailbox.convert swapEndiannessFrom h (f.wireHeader.encodeBig ++ f.rest)
      = f.wireHeader.encode ++ f.rest := by
  have hlong : sizeofWireHeader ≤ (f.wireHeader.encodeBig ++ f.rest).length := by
    rw [length_bodyBig, bodyLength]
    omega
  have horder : decide (h.flags &&& FRAME_LE_FLAG ≠ 0) = false := by
    rw [hflags]
    rfl
  rw [TimsMailbox.convert, if_pos hlong, horder, List.take_left' f.wireHeader.length_encodeBig,
    List.drop_left' f.wireHeader.length_encodeBig, hswap.big _ f.wireHeader.length_encodeBig,
    WireHeader.reverseFields_encodeBig]

/-- A big-endian header announces the length of the body exactly when `msglen` reads the same in
both orders. -/
theorem toNat_bodyLen_big (f : LogicalFrame) :
    (FrameHeader.decode (f.header 0).encodeBig).bodyLen.toNat = f.bodyLength ↔
      byteSwap f.msglen = f.msglen := by
  rw [FrameHeader.toNat_bodyLen, FrameHeader.decode_encodeBig]
  show (byteSwap f.msglen).toNat - sizeofFrameHeader = f.bodyLength ↔ _
  rw [← UInt32.toNat_inj, f.toNat_msglen]
  have hpos := f.bodyLength_pos
  omega

section
variable {m : TimsMailbox} {bufferSize : Nat} {polls : Nat → Int} {f : LogicalFrame}
  {after : List UInt8}

/-- A call returns the frame exactly when it takes the header for one that announces the body and
has the fields of the frame. The conversion of the body may be left to the encoding. -/
theorem delivered_iff_head (hswap : SwapsWireHeader swapEndiannessFrom)
    (hm : m.isInitialized = true) {head body : List UInt8}
    (hchunks : m.socket.Chunked (head ++ (body ++ after)))
    (hhead : head.length = sizeofFrameHeader) (hbody : body.length = f.bodyLength)
    (hconvert : TimsMailbox.convert swapEndiannessFrom (.decode head) body
      = f.wireHeader.encode ++ f.rest)
    (hfits : f.bodyLength ≤ bufferSize) (hpoll : 0 < polls 0) :
    f.Delivered after (m.receiveRaw swapEndiannessFrom bufferSize polls) ↔
      (FrameHeader.decode head).type ≠ MSG_ROUTER_GET_STATUS ∧
        (FrameHeader.decode head).bodyLen.toNat = f.bodyLength ∧
        (FrameHeader.decode head).src = f.src ∧ (FrameHeader.decode head).dest = f.dest ∧
        (FrameHeader.decode head).seqNr.toUInt32 = f.seqNr.toUInt32 ∧
        (FrameHeader.decode head).priority = f.priority := by
  constructor
  · intro h
    obtain ⟨body', metadata, hres, hmatch, hafter⟩ := h
    obtain ⟨htype, hlen, rfl⟩ := TimsMailbox.head_of_receiveRaw hswap hm hchunks hhead
      (Prod.ext hres rfl) (hmatch.length.trans hbody.symm) hafter
    exact ⟨htype, hlen.trans hbody, hmatch.src, hmatch.dest, hmatch.seqNr, hmatch.priority⟩
  · intro h
    obtain ⟨htype, hlen, hsrc, hdest, hseq, hpriority⟩ := h
    have hpos : 0 < body.length := by
      rw [hbody]
      exact f.bodyLength_pos
    obtain ⟨m', hres, hrest⟩ := TimsMailbox.receiveRaw_of_head swapEndiannessFrom hm hchunks hhead
      (hbody ▸ hfits) hpoll hpos htype (hlen.trans hbody.symm)
    rw [hres, hconvert]
    refine ⟨_, _, rfl, ⟨f.length_body, hsrc, hdest, hseq, hpriority, ?_⟩, hrest.flatten⟩
    exact WireHeader.decode_encode_append ..

/-- A little-endian frame is returned unless it is a status request. -/
theorem delivered_little_iff (hswap : SwapsWireHeader swapEndiannessFrom)
    (hm : m.isInitialized = true) (hchunks : m.socket.Chunked (f.encodeLittle ++ after))
    (hfits : f.bodyLength ≤ bufferSize) (hpoll : 0 < polls 0) :
    f.Delivered after (m.receiveRaw swapEndiannessFrom bufferSize polls) ↔
      f.type ≠ MSG_ROUTER_GET_STATUS := by
  rw [encodeLittle, List.append_assoc] at hchunks
  have hlen : (f.header FRAME_LE_FLAG).bodyLen.toNat = f.bodyLength := by
    rw [FrameHeader.toNat_bodyLen, show (f.header FRAME_LE_FLAG).msglen = f.msglen from rfl,
      f.toNat_msglen, Nat.add_sub_cancel_left]
  have hconvert : TimsMailbox.convert swapEndiannessFrom (f.header FRAME_LE_FLAG)
      (f.wireHeader.encode ++ f.rest) = f.wireHeader.encode ++ f.rest :=
    TimsMailbox.convert_eq hswap.little
      (Or.inl (show FRAME_LE_FLAG &&& FRAME_LE_FLAG ≠ 0 by decide))
  rw [delivered_iff_head hswap hm hchunks (FrameHeader.length_encode _) f.length_body
    (by rw [FrameHeader.decode_encode, hconvert]) hfits hpoll, FrameHeader.decode_encode]
  constructor
  · intro h
    exact h.1
  · intro htype
    exact ⟨htype, hlen, rfl, rfl, rfl, rfl⟩

/-- A big-endian frame is returned as it is meant only when no integer of its header shows the order
of its bytes. -/
theorem delivered_big_iff (hswap : SwapsWireHeader swapEndiannessFrom)
    (hm : m.isInitialized = true) (hchunks : m.socket.Chunked (f.encodeBig ++ after))
    (hfits : f.bodyLength ≤ bufferSize) (hpoll : 0 < polls 0) :
    f.Delivered after (m.receiveRaw swapEndiannessFrom bufferSize polls) ↔
      f.type ≠ MSG_ROUTER_GET_STATUS ∧ byteSwap f.msglen = f.msglen ∧
        byteSwap f.src = f.src ∧ byteSwap f.dest = f.dest := by
  rw [encodeBig, List.append_assoc] at hchunks
  have hdecode := (f.header 0).decode_encodeBig
  have hconvert : TimsMailbox.convert swapEndiannessFrom (.decode (f.header 0).encodeBig)
      (f.wireHeader.encodeBig ++ f.rest) = f.wireHeader.encode ++ f.rest :=
    f.convert_big hswap (by rw [hdecode]; rfl)
  rw [delivered_iff_head hswap hm hchunks rfl f.length_bodyBig hconvert hfits hpoll,
    toNat_bodyLen_big, hdecode]
  constructor
  · intro h
    exact ⟨h.1, h.2.1, h.2.2.1, h.2.2.2.1⟩
  · intro h
    exact ⟨h.1, h.2.1, h.2.2.1, h.2.2.2, rfl, rfl⟩

/-- **Byte order.** A frame comes to one mailbox from a little-endian sender and to another from a
big-endian one. Both calls return what the frame says and use up exactly the frame if and only if it
is no status request, and `msglen`, `src` and `dest` are the same with their bytes in the other
order. -/
theorem delivered_both_iff {m' : TimsMailbox} (hswap : SwapsWireHeader swapEndiannessFrom)
    (hm : m.isInitialized = true) (hm' : m'.isInitialized = true)
    (hchunks : m.socket.Chunked (f.encodeLittle ++ after))
    (hchunks' : m'.socket.Chunked (f.encodeBig ++ after))
    (hfits : f.bodyLength ≤ bufferSize) (hpoll : 0 < polls 0) :
    (f.Delivered after (m.receiveRaw swapEndiannessFrom bufferSize polls) ∧
        f.Delivered after (m'.receiveRaw swapEndiannessFrom bufferSize polls)) ↔
      f.type ≠ MSG_ROUTER_GET_STATUS ∧ byteSwap f.msglen = f.msglen ∧
        byteSwap f.src = f.src ∧ byteSwap f.dest = f.dest := by
  rw [delivered_little_iff hswap hm hchunks hfits hpoll,
    delivered_big_iff hswap hm' hchunks' hfits hpoll]
  constructor
  · intro h
    exact h.2
  · intro h
    exact ⟨h.1, h⟩

end

/-- The conversion of a `WireHeader`, field by field, is one that `receive_raw` may call. -/
theorem swapsWireHeader : SwapsWireHeader TimsMailbox.swapWireHeader where
  little _ := rfl
  big bytes hlen := by
    have hend : bytes.drop 32 = [] := List.drop_eq_nil_of_le (Nat.le_of_eq hlen)
    simp [TimsMailbox.swapWireHeader, wireHeaderWidths, reverseFields, hend]

/-- A mailbox that finds these bytes in its stream. -/
def mailboxReading (bytes : List UInt8) : TimsMailbox :=
  ⟨⟨7, 4096, 0⟩, ⟨true, fun _ => 64, [], [bytes]⟩, true, 0, 0, 0⟩

/-- Data for mailbox 7 from mailbox 9, with a `WireHeader` and nothing else: 48 bytes. -/
def shortFrame : LogicalFrame := ⟨0, 0, 0, 7, 9, .zero, [], by decide⟩

/-- The length 0x30 of a short big-endian frame is read as 0x30000000. -/
theorem shortFrame_not_delivered :
    shortFrame.Delivered [] ((mailboxReading shortFrame.encodeLittle).receiveRaw
        TimsMailbox.swapWireHeader 64 fun _ => 1) ∧
      ¬ shortFrame.Delivered [] ((mailboxReading shortFrame.encodeBig).receiveRaw
        TimsMailbox.swapWireHeader 64 fun _ => 1) := by
  constructor
  · exact ⟨_, _, rfl, ⟨by decide, by decide, by decide, by decide, by decide, by decide⟩, by decide⟩
  · intro h
    obtain ⟨body, metadata, hres, -⟩ := h
    have hsize : ((mailboxReading shortFrame.encodeBig).receiveRaw
        TimsMailbox.swapWireHeader 64 fun _ => 1).1 = .msgSize := by decide
    rw [hsize] at hres
    cases hres

/-- A frame of 0x00010100 bytes between mailboxes whose addresses read the same in both orders. -/
def longFrame : LogicalFrame :=
  ⟨0, 0, 0, 0x07000007, 0x09000009, .zero, List.replicate 65744 0, by
    rw [List.length_replicate]
    decide⟩

theorem longFrame_delivered :
    longFrame.Delivered [] ((mailboxReading longFrame.encodeLittle).receiveRaw
        TimsMailbox.swapWireHeader 65776 fun _ => 1) ∧
      longFrame.Delivered [] ((mailboxReading longFrame.encodeBig).receiveRaw
        TimsMailbox.swapWireHeader 65776 fun _ => 1) := by
  have hlen : longFrame.bodyLength = 65776 := by
    rw [bodyLength, show longFrame.rest = List.replicate 65744 0 from rfl, List.length_replicate]
    rfl
  have hmsglen : longFrame.msglen = 0x00010100 := by
    rw [← UInt32.toNat_inj, toNat_msglen, hlen]
    rfl
  have hreading : ∀ head tail : List UInt8, head ≠ [] →
      (mailboxReading (head ++ tail)).socket.Chunked (head ++ tail ++ []) := by
    intro head tail hhead
    exact ⟨rfl, by simp [mailboxReading], by simp [mailboxReading, hhead]⟩
  refine (delivered_both_iff swapsWireHeader rfl rfl (hreading _ _ (FrameHeader.encode_ne_nil _))
    (hreading _ _ (List.cons_ne_nil _ _)) (Nat.le_of_eq hlen) (by decide)).mpr ?_
  exact ⟨by decide, by rw [hmsglen]; decide, by decide, by decide⟩

end LogicalFrame

end CoreRaT.Spec
