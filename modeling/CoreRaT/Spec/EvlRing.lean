import CoreRaT.Lib.ByteMemory
import CoreRaT.Spec.TimsMailbox

/-!
# `CoreRaT.Spec.EvlRing`: the slots of an EVL mailbox

The ring of `EvlMailbox` in `ipc/evl/evl_backend.hpp`: an array of slots, each with its metadata
and `slot_size` bytes of payload. `post` writes a message into a ring of the same process,
`post_to_remote` into the mapped ring of another one, and `receive_impl` takes the message with
the highest priority. Each of them holds the ring mutex from its first slot access to its last,
so a call is one step here.

The payload of all slots is one block of memory, and the bytes of slot `idx` start at
`idx * slot_size` in it. The product is one of two `uint32_t`. Addresses behind the last slot are
part of the model: that is where a `memcpy` goes that is longer than its slot. The metadata lie
in an array of their own (in `Mode::Local`) or in front of the payload (in `Mode::Public`), out of
reach of such a copy.

An index of -1 is `none`. The waits of `receive_impl` are left out: a receive that finds no
message says so, and its caller would wait. So are `Mode::Network`, whose messages go over UDP,
and the counters of sent and received messages.
-/

set_option autoImplicit false

namespace CoreRaT.Spec

open CoreRaT.Lib

/-! ### `WireHeader` -/

/-- `WireHeader`, with which every message begins. -/
structure WireHeader where
  msgType : UInt32
  msgSize : UInt32
  /-- `timestamp`, as its lower and its upper half. -/
  timestampLow : UInt32
  timestampHigh : UInt32
  seqNumber : UInt32
  dest : MailboxId
  src : MailboxId
  flags : UInt32
deriving DecidableEq

/-- The header in the first 32 bytes, on a little-endian host. -/
def WireHeader.decode (b : List UInt8) : WireHeader where
  msgType := ofLe32 b
  msgSize := ofLe32 (b.drop 4)
  timestampLow := ofLe32 (b.drop 8)
  timestampHigh := ofLe32 (b.drop 12)
  seqNumber := ofLe32 (b.drop 16)
  dest := ofLe32 (b.drop 20)
  src := ofLe32 (b.drop 24)
  flags := ofLe32 (b.drop 28)

/-- The 32 bytes of a header. -/
def WireHeader.encode (h : WireHeader) : List UInt8 :=
  le32 h.msgType ++ (le32 h.msgSize ++ (le32 h.timestampLow ++ (le32 h.timestampHigh ++
    (le32 h.seqNumber ++ (le32 h.dest ++ (le32 h.src ++ le32 h.flags))))))

@[simp] theorem WireHeader.length_encode (h : WireHeader) : h.encode.length = sizeofWireHeader :=
  rfl

/-- The header in front of any bytes is read back. -/
@[simp] theorem WireHeader.decode_encode_append (h : WireHeader) (bytes : List UInt8) :
    WireHeader.decode (h.encode ++ bytes) = h := by
  simp only [decode, encode, List.append_assoc, drop_le32_append, List.drop_zero,
    ofLe32_le32_append]

/-- `WireHeader hdr{}`. -/
def WireHeader.zero : WireHeader := ⟨0, 0, 0, 0, 0, 0, 0, 0⟩

/-! ### Slots -/

/-- `SlotMeta`. -/
structure SlotMeta where
  priority : Int8
  inUse : Bool
  src : MailboxId
  size : UInt32
deriving DecidableEq

/-- `SlotMeta{}`. -/
def SlotMeta.empty : SlotMeta := ⟨0, false, 0, 0⟩

/-- The ring of a mailbox. `capacity_` is the length of `slots`. -/
structure EvlRing where
  slotSize : UInt32
  slots : List SlotMeta
  payload : ByteMemory

namespace EvlRing

/-- `allocate_ring`. The metadata are zero; the payload need not be, since a shared memory object
that exists is taken as it is. -/
def allocateRing (slots : Nat) (slotSize : UInt32) (payload : ByteMemory) : EvlRing where
  slotSize := slotSize
  slots := List.replicate slots .empty
  payload := payload

/-- The ring that the start of a mailbox allocates: 10 slots, and the maximal message size of the
mailbox as a `uint32_t`. -/
def ofConfig (config : TimsConfig) (payload : ByteMemory) : EvlRing :=
  allocateRing 10 (UInt32.ofNat config.maxMsgSize) payload

/-- `slot_ptr`, counted from the first byte of the payload. -/
def slotPtr (r : EvlRing) (idx : Nat) : Nat := (UInt32.ofNat idx * r.slotSize).toNat

/-- `find_free_slot`. -/
def findFreeSlot (r : EvlRing) : Option Nat := r.slots.findIdx? (!·.inUse)

/-- `has_in_use_slot`. -/
def hasInUseSlot (r : EvlRing) : Bool := r.slots.any (·.inUse)

/-- The loop of `find_highest_priority_slot`, from slot `i` on. -/
def highestLoop : (i : Nat) → (best : Option Nat) → (prio : Int8) → List SlotMeta → Option Nat
  | _, best, _, [] => best
  | i, best, prio, m :: ms =>
    if m.inUse ∧ prio < m.priority then highestLoop (i + 1) (some i) m.priority ms
    else highestLoop (i + 1) best prio ms

/-- `find_highest_priority_slot`. -/
def findHighestPrioritySlot (r : EvlRing) : Option Nat := highestLoop 0 none Int8.minValue r.slots

/-- The loop of `evict_lowest`, from slot `i` on: `worst` and its priority. -/
def lowestLoop : (i : Nat) → (worst : Option Nat) → (prio : Int8) → List SlotMeta →
    Option Nat × Int8
  | _, worst, prio, [] => (worst, prio)
  | i, worst, prio, m :: ms =>
    if m.inUse ∧ m.priority < prio then lowestLoop (i + 1) (some i) m.priority ms
    else lowestLoop (i + 1) worst prio ms

/-- `slot_meta_at(idx).in_use = false`. -/
def release (r : EvlRing) (idx : Nat) : EvlRing :=
  { r with slots := r.slots.modify idx ({ · with inUse := false }) }

/-- `evict_lowest`. -/
def evictLowest (r : EvlRing) (prioNew : Int8) : Option Nat × EvlRing :=
  match lowestLoop 0 none Int8.maxValue r.slots with
  | (some worst, prio) => if prio ≤ prioNew then (some worst, r.release worst) else (none, r)
  | (none, _) => (none, r)

/-- The slot for a new message: `find_free_slot`, and without one `evict_lowest`. -/
def chooseSlot (r : EvlRing) (priority : Int8) : Option Nat × EvlRing :=
  match r.findFreeSlot with
  | some idx => (some idx, r)
  | none => r.evictLowest priority

/-- The `memcpy` into slot `idx` and the new metadata. -/
def store (r : EvlRing) (idx : Nat) (data : List UInt8) (slot : SlotMeta) : EvlRing :=
  { r with
      payload := r.payload.write (r.slotPtr idx) data
      slots := r.slots.set idx slot }

/-- `post`. The copy is as long as the message, whatever the slot can hold. -/
def post (r : EvlRing) (data : List UInt8) (priority : Int8) (src : MailboxId) :
    Bool × EvlRing :=
  match r.chooseSlot priority with
  | (some idx, r) =>
    (true, r.store idx data ⟨priority, true, src, UInt32.ofNat data.length⟩)
  | (none, r) => (false, r)

/-- The search of `post_to_remote` for a slot, which its body writes out again. -/
def chooseRemoteSlot (r : EvlRing) (priority : Int8) : Option Nat × EvlRing :=
  match r.slots.findIdx? (!·.inUse) with
  | some idx => (some idx, r)
  | none =>
    match lowestLoop 0 none Int8.maxValue r.slots with
    | (some worst, wprio) =>
      if wprio ≤ priority then
        (some worst, { r with slots := r.slots.modify worst ({ · with inUse := false }) })
      else (none, r)
    | (none, _) => (none, r)

/-- `post_to_remote`, on the ring that the handle maps. What does not fit into the slot is cut
off. -/
def postToRemote (r : EvlRing) (data : List UInt8) (priority : Int8) (src : MailboxId) :
    Bool × EvlRing :=
  match r.chooseRemoteSlot priority with
  | (some idx, r) =>
    let sz := min data.length r.slotSize.toNat
    (true, r.store idx (data.take sz) ⟨priority, true, src, UInt32.ofNat sz⟩)
  | (none, r) => (false, r)

/-- What the ring read of `receive_impl` comes to. -/
inductive Received
  /-- `has_in_use_slot()` is false: the call waits, or times out. -/
  | nothing
  /-- `slot_meta_at(-1)`. -/
  | outOfBounds
  /-- `-EMSGSIZE`. -/
  | msgSize
  /-- The bytes in the buffer, and the metadata for the caller. -/
  | message (bytes : List UInt8) (metadata : TimsMetadata)
deriving DecidableEq

/-- The metadata of `receive_impl`, from the slot and the header of the message. -/
def metadataOf (mailboxId : MailboxId) (slot : SlotMeta) (bytes : List UInt8) : TimsMetadata :=
  let hdr := if sizeofWireHeader ≤ bytes.length then WireHeader.decode bytes else .zero
  { src := slot.src
    dest := mailboxId
    seqNr := hdr.seqNumber
    priority := slot.priority.toUInt8
    flags := hdr.flags.toUInt8 }

/-- The ring read of `receive_impl` of mailbox `mailboxId`, into a buffer of `bufferSize` bytes. -/
def receive (r : EvlRing) (mailboxId : MailboxId) (bufferSize : Nat) : Received × EvlRing :=
  if r.hasInUseSlot then
    match r.findHighestPrioritySlot with
    | none => (.outOfBounds, r)
    | some idx =>
      match r.slots[idx]? with
      | none => (.outOfBounds, r)
      | some slot =>
        if bufferSize < slot.size.toNat then (.msgSize, r)
        else
          let bytes := r.payload.read (r.slotPtr idx) slot.size.toNat
          (.message bytes (metadataOf mailboxId slot bytes), r.release idx)
  else (.nothing, r)

/-- The calls on one ring. -/
inductive Event
  /-- `post`, by a sender of the process. -/
  | post (data : List UInt8) (priority : Int8) (src : MailboxId)
  /-- `post_to_remote`, by a sender of another process. -/
  | postToRemote (data : List UInt8) (priority : Int8) (src : MailboxId)
  /-- `receive_impl`, by the owner of the ring. -/
  | receive (mailboxId : MailboxId) (bufferSize : Nat)

/-- One call. -/
def step (r : EvlRing) : Event → EvlRing
  | .post data priority src => (r.post data priority src).2
  | .postToRemote data priority src => (r.postToRemote data priority src).2
  | .receive mailboxId bufferSize => (r.receive mailboxId bufferSize).2

end EvlRing

/-! ### Sending -/

/-- How `send_raw` reaches a ring: the destination is in the registry of the process, or its ring
is mapped from another process. -/
inductive RingPath
  | sameProcess
  | otherProcess

/-- The call that posts the message. -/
def RingPath.put : RingPath → EvlRing → List UInt8 → Int8 → MailboxId → Bool × EvlRing
  | .sameProcess => EvlRing.post
  | .otherProcess => EvlRing.postToRemote

/-- `send_raw` of the mailbox with this configuration, where `put` is the path that it takes. -/
def evlSendRaw {δ : Type} (config : TimsConfig)
    (put : δ → List UInt8 → Int8 → MailboxId → Bool × δ) (dest : δ) (data : List UInt8)
    (priority : Int8) : TimsResult × δ :=
  if data.length = 0 ∨ config.maxMsgSize < data.length then (.ERROR_INVALID_MSG, dest)
  else
    match put dest data priority config.mailboxId with
    | (true, d) => (.SUCCESS, d)
    | (false, d) => (.ERROR_SEND, d)

/-- `static_cast<int8_t>(config_.priority)` of `send`. -/
def sendPriority (config : TimsConfig) : Int8 := config.priority.toUInt8.toInt8

/-- `create_backend_config`: the `send_priority` of a `MailboxConfig` as the priority of its
backend. -/
def createBackendConfig (mailboxId : MailboxId) (maxMessageSize : Nat) (sendPriority : UInt8) :
    TimsConfig where
  mailboxId := mailboxId
  maxMsgSize := maxMessageSize
  priority := sendPriority.toUInt32

end CoreRaT.Spec
