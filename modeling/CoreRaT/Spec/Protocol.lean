import CoreRaT.Lib.LittleEndian

/-!
# `CoreRaT.Spec.Protocol`: the TiMS router protocol

The frame header of `ipc/tims/protocol.hpp`, its 16-byte image on the wire, the message types
that the routers dispatch on, and `make_frame`.

The header struct is packed and is sent as it lies in memory. The hosts are little-endian, so
`FrameHeader.encode` writes the three words with `le32`. A frame is a header and the body that
the header announces: `Frame` carries the agreement of the two as a field, with the rule that
every reader applies, `FrameHeader.bodyLen`. A header with `msglen` below 16 announces no body.
-/

set_option autoImplicit false

namespace CoreRaT.Spec

open CoreRaT.Lib

/-- A mailbox address. -/
abbrev MailboxId := UInt32

/-! ### Message types -/

def MSG_OK : Int8 := 0
def MSG_ERROR : Int8 := -1
def MSG_ROUTER_MBX_INIT_WITH_REPLY : Int8 := 13
def MSG_ROUTER_MBX_DELETE : Int8 := 14
def MSG_ROUTER_GET_STATUS : Int8 := 17
def MSG_ROUTER_DISABLE_WATCHDOG : Int8 := 19
def MSG_ROUTER_PEER_HELLO : Int8 := 20
def MSG_ROUTER_PEER_REGISTER : Int8 := 21
def MSG_ROUTER_PEER_DELETE : Int8 := 22

/-- Head and body are little-endian. -/
def FRAME_LE_FLAG : UInt8 := 0x03

/-- `sizeof(FrameHeader)`. -/
def sizeofFrameHeader : Nat := 16

/-- `sizeof(MbxInitPayload)`. -/
def sizeofMbxInitPayload : Nat := 4

/-- The cases of the routers' `switch (frame.type)`. Every type without a case of its own is
a data message. -/
inductive MsgKind
  | peerHello
  | peerRegister
  | peerDelete
  | disableWatchdog
  | mbxInit
  | mbxDelete
  | data
deriving DecidableEq

/-! ### Frames -/

/-- The packed 16-byte header. `msglen` counts the header too. -/
structure FrameHeader where
  flags : UInt8
  type : Int8
  priority : UInt8
  seqNr : UInt8
  dest : MailboxId
  src : MailboxId
  msglen : UInt32
deriving DecidableEq

namespace FrameHeader

/-- The case of the routers' `switch` that handles this header. -/
def kind (h : FrameHeader) : MsgKind :=
  if h.type = MSG_ROUTER_PEER_HELLO then .peerHello
  else if h.type = MSG_ROUTER_PEER_REGISTER then .peerRegister
  else if h.type = MSG_ROUTER_PEER_DELETE then .peerDelete
  else if h.type = MSG_ROUTER_DISABLE_WATCHDOG then .disableWatchdog
  else if h.type = MSG_ROUTER_MBX_INIT_WITH_REPLY then .mbxInit
  else if h.type = MSG_ROUTER_MBX_DELETE then .mbxDelete
  else .data

/-- The length of the body behind this header. A `msglen` of at most 16 announces none. -/
def bodyLen (h : FrameHeader) : UInt32 :=
  if h.msglen > 16 then h.msglen - 16 else 0

/-- The header as it lies in memory on a little-endian host. -/
def encode (h : FrameHeader) : List UInt8 :=
  [h.flags, h.type.toUInt8, h.priority, h.seqNr] ++ (le32 h.dest ++ (le32 h.src ++ le32 h.msglen))

/-- The header read from 16 bytes. -/
def decode (b : List UInt8) : FrameHeader where
  flags := b.getD 0 0
  type := (b.getD 1 0).toInt8
  priority := b.getD 2 0
  seqNr := b.getD 3 0
  dest := ofLe32 (b.drop 4)
  src := ofLe32 (b.drop 8)
  msglen := ofLe32 (b.drop 12)

@[simp] theorem length_encode (h : FrameHeader) : h.encode.length = sizeofFrameHeader := rfl

theorem encode_ne_nil (h : FrameHeader) : h.encode ≠ [] := List.cons_ne_nil _ _

/-- A header read back from its own bytes. -/
@[simp] theorem decode_encode (h : FrameHeader) : decode h.encode = h := by
  have hdest : ofLe32 (h.encode.drop 4) = h.dest := by
    rw [show h.encode.drop 4 = le32 h.dest ++ (le32 h.src ++ le32 h.msglen) from rfl]
    exact ofLe32_le32_append _ _
  have hsrc : ofLe32 (h.encode.drop 8) = h.src := by
    rw [show h.encode.drop 8 = le32 h.src ++ le32 h.msglen from rfl]
    exact ofLe32_le32_append _ _
  have hmsglen : ofLe32 (h.encode.drop 12) = h.msglen := by
    rw [show h.encode.drop 12 = le32 h.msglen from rfl]
    exact ofLe32_le32 _
  have htype : (h.encode.getD 1 0).toInt8 = h.type := by
    simp [encode]
  simp only [decode, hdest, hsrc, hmsglen, htype]
  rfl

end FrameHeader

/-- `make_frame`. The length is a `uint32_t` sum. -/
def makeFrame (type : Int8) (dest src : MailboxId) (priority seq : UInt8) (bodyLen : UInt32) :
    FrameHeader where
  flags := FRAME_LE_FLAG
  type := type
  priority := priority
  seqNr := seq
  dest := dest
  src := src
  msglen := 16 + bodyLen

/-- `make_frame` announces the body length it is given, unless the sum wraps. -/
theorem bodyLen_makeFrame (type : Int8) (dest src : MailboxId) (priority seq : UInt8)
    (n : UInt32) (hn : n.toNat < 2 ^ 32 - 16) :
    (makeFrame type dest src priority seq n).bodyLen = n := by
  -- The bound keeps the sum below `2 ^ 32`.
  have hsum : (16 + n : UInt32).toNat = 16 + n.toNat := by
    rw [UInt32.toNat_add]
    exact Nat.mod_eq_of_lt (by rw [show (16 : UInt32).toNat = 16 from rfl]; omega)
  have hgt : (16 + n : UInt32) > 16 ↔ 0 < n.toNat := by
    rw [gt_iff_lt, UInt32.lt_iff_toNat_lt, hsum, show (16 : UInt32).toNat = 16 from rfl]
    omega
  simp only [FrameHeader.bodyLen, makeFrame, hgt]
  split
  · rw [UInt32.add_comm, UInt32.add_sub_cancel]
  · rename_i hzero
    apply UInt32.toNat_inj.mp
    rw [show (0 : UInt32).toNat = 0 from rfl]
    omega

/-- A header with the body it announces. -/
structure Frame where
  header : FrameHeader
  body : List UInt8
  body_length : body.length = header.bodyLen.toNat
deriving DecidableEq

namespace Frame

/-- The frame on the wire. -/
def encode (f : Frame) : List UInt8 := f.header.encode ++ f.body

/-- The `MbxInitPayload` at the start of the body. The handlers give up on a shorter body. -/
def mbx (f : Frame) : Option MailboxId :=
  if f.header.bodyLen.toNat < sizeofMbxInitPayload then none else some (ofLe32 f.body)

theorem encode_ne_nil (f : Frame) : f.encode ≠ [] :=
  List.append_ne_nil_of_left_ne_nil f.header.encode_ne_nil f.body

theorem length_encode (f : Frame) :
    f.encode.length = sizeofFrameHeader + f.header.bodyLen.toNat := by
  rw [encode, List.length_append, FrameHeader.length_encode, f.body_length]

/-- A frame of header only, as the routers send it: replies and `MSG_ROUTER_PEER_HELLO`. -/
def bare (type : Int8) (dest : MailboxId) (seq : UInt8) : Frame where
  header := makeFrame type dest 0 0 seq 0
  body := []
  body_length := by rw [bodyLen_makeFrame _ _ _ _ _ _ (by decide)]; rfl

/-- A frame whose body is a mailbox id: `MSG_ROUTER_PEER_REGISTER` and
`MSG_ROUTER_PEER_DELETE`. -/
def ofMbx (type : Int8) (id : MailboxId) : Frame where
  header := makeFrame type 0 0 0 0 4
  body := le32 id
  body_length := by rw [bodyLen_makeFrame _ _ _ _ _ _ (by decide)]; rfl

@[simp] theorem mbx_ofMbx (type : Int8) (id : MailboxId) : (ofMbx type id).mbx = some id := by
  have hlen : (ofMbx type id).header.bodyLen.toNat = sizeofMbxInitPayload :=
    (ofMbx type id).body_length.symm
  rw [mbx, if_neg (by omega)]
  show some (ofLe32 (le32 id)) = some id
  rw [ofLe32_le32]

end Frame

/-! ### Reading a stream of frames -/

/-- The first frame of a byte stream and the bytes behind it. `none` when the stream ends
before the frame does. -/
def splitFrame (bytes : List UInt8) : Option (Frame × List UInt8) :=
  let header := FrameHeader.decode (bytes.take sizeofFrameHeader)
  let rest := bytes.drop sizeofFrameHeader
  if bytes.length < sizeofFrameHeader then none
  else if h : header.bodyLen.toNat ≤ rest.length then
    some (⟨header, rest.take header.bodyLen.toNat, by simp [h]⟩, rest.drop header.bodyLen.toNat)
  else none

/-- The frames of a byte stream. `none` when the stream ends inside a frame. Each round takes
at least a header, so as many rounds as there are bytes are enough. -/
def parseFrames : (fuel : Nat) → List UInt8 → Option (List Frame)
  | _, [] => some []
  | 0, _ :: _ => none
  | fuel + 1, bytes@(_ :: _) =>
    match splitFrame bytes with
    | none => none
    | some (f, rest) => (parseFrames fuel rest).map (f :: ·)

/-- The first frame of a stream that starts with a frame is that frame. -/
theorem splitFrame_encode_append (f : Frame) (rest : List UInt8) :
    splitFrame (f.encode ++ rest) = some (f, rest) := by
  have hhead : (f.encode ++ rest).take sizeofFrameHeader = f.header.encode := by
    rw [Frame.encode, List.append_assoc, List.take_append_of_le_length (by simp)]
    exact List.take_of_length_le (by simp)
  have hrest : (f.encode ++ rest).drop sizeofFrameHeader = f.body ++ rest := by
    rw [Frame.encode, List.append_assoc, ← FrameHeader.length_encode f.header, List.drop_left]
  have hlen : ¬ (f.encode ++ rest).length < sizeofFrameHeader := by
    rw [List.length_append, Frame.length_encode]
    omega
  have hbody : f.header.bodyLen.toNat ≤ (f.body ++ rest).length := by
    rw [List.length_append, f.body_length]
    omega
  simp only [splitFrame, hhead, FrameHeader.decode_encode, hrest, if_neg hlen, dif_pos hbody]
  simp only [← f.body_length, List.take_left, List.drop_left]

/-- No frame is a proper prefix of another one. -/
theorem Frame.eq_of_encode_eq_append {f g : Frame} {rest : List UInt8}
    (h : f.encode = g.encode ++ rest) : f = g ∧ rest = [] := by
  have hf := splitFrame_encode_append f []
  rw [List.append_nil, h, splitFrame_encode_append] at hf
  simp only [Option.some.injEq, Prod.mk.injEq] at hf
  exact ⟨hf.1.symm, hf.2⟩

/-- A concatenation of frames parses back into these frames. -/
theorem parseFrames_encode (fs : List Frame) :
    ∀ fuel, (fs.flatMap Frame.encode).length ≤ fuel →
      parseFrames fuel (fs.flatMap Frame.encode) = some fs := by
  induction fs with
  | nil => intro fuel _; simp [parseFrames]
  | cons f fs ih =>
    intro fuel hfuel
    rw [List.flatMap_cons, List.length_append, Frame.length_encode] at hfuel
    have hpos : 0 < sizeofFrameHeader := by decide
    cases fuel with
    | zero => omega
    | succ fuel =>
      rw [List.flatMap_cons]
      have hsplit := splitFrame_encode_append f (fs.flatMap Frame.encode)
      -- The stream is not empty, so the round reads `f` and goes on with the rest.
      cases hbytes : f.encode ++ fs.flatMap Frame.encode with
      | nil =>
        have := congrArg List.length hbytes
        rw [List.length_append, Frame.length_encode] at this
        simp only [List.length_nil] at this
        omega
      | cons b bs =>
        rw [hbytes] at hsplit
        simp only [parseFrames, hsplit]
        rw [ih fuel (by omega)]
        rfl

end CoreRaT.Spec
