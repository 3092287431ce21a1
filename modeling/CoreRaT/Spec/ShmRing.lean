import CoreRaT.Spec.EvlRing

/-!
# `CoreRaT.Spec.ShmRing`: where the slots of an EVL mailbox lie

The ring of `EvlMailbox` as it lies in memory. In `Mode::Public` it is one POSIX SHM object: the 16
bytes of `ShmLayout`, the array of `SlotMeta`, and the payload of the slots. In `Mode::Local` the
metadata and the payload are two blocks of the heap.

The owner of the ring goes through `slot_meta_at` and `slot_ptr`, with the `capacity_` and the
`slot_size_` that it has kept since it allocated the ring. A sender of another process maps the
object, and `post_to_remote` computes the addresses itself, from what `ShmLayout` says. Each side
has its own loops. They are written out here as they are there, with slot indices that are
`uint32_t` in the loops and `int` outside of them.

`CoreRaT.Spec.EvlRing` has the slots as a list. `MailboxRing.view` is what the memory shows of them.
-/

set_option autoImplicit false

namespace CoreRaT.Spec

open CoreRaT.Lib

/-! ### Memory layout -/

def sizeofShmLayout : Nat := 16

def sizeofSlotMeta : Nat := 12

/-- The `SlotMeta` at `addr`: `priority`, `in_use`, two bytes of padding, `src` and `size`. -/
def SlotMeta.load (mem : ByteMemory) (addr : Nat) : SlotMeta where
  priority := (mem addr).toInt8
  inUse := mem (addr + 1) != 0
  src := ofLe32 (mem.read (addr + 4) 4)
  size := ofLe32 (mem.read (addr + 8) 4)

/-- An assignment to the `SlotMeta` at `addr`. The padding is left as it is. -/
def SlotMeta.save (m : SlotMeta) (mem : ByteMemory) (addr : Nat) : ByteMemory :=
  (mem.write addr [m.priority.toUInt8, if m.inUse then 1 else 0]).write (addr + 4)
    (le32 m.src ++ le32 m.size)

/-- `in_use = false` in the `SlotMeta` at `addr`. -/
def SlotMeta.clearInUse (mem : ByteMemory) (addr : Nat) : ByteMemory := mem.write (addr + 1) [0]

/-- `ShmLayout`, without its padding. -/
structure ShmLayout where
  capacity : UInt32
  slotSize : UInt32
deriving DecidableEq

/-- The `ShmLayout` at the start of an SHM object. -/
def ShmLayout.load (mem : ByteMemory) : ShmLayout where
  capacity := ofLe32 (mem.read 0 4)
  slotSize := ofLe32 (mem.read 4 4)

/-- The assignments of `allocate_ring` to the layout. -/
def ShmLayout.save (layout : ShmLayout) (mem : ByteMemory) : ByteMemory :=
  mem.write 0 (le32 layout.capacity ++ le32 layout.slotSize)

/-- `shm_total`. -/
def shmTotal (cap slotSize : UInt32) : Nat :=
  sizeofShmLayout + cap.toNat * sizeofSlotMeta + cap.toNat * slotSize.toNat

/-! ### The owner of the ring -/

/-- The memory of a ring. -/
inductive RingStorage
  /-- `slot_meta_` and `heap_data_`, in `Mode::Local`. -/
  | heap (slotMeta data : ByteMemory)
  /-- The object that `shm_base_` maps, in `Mode::Public`. -/
  | shm (base : ByteMemory)

/-- The ring, with `capacity_` and `slot_size_`. -/
@[ext]
structure MailboxRing where
  capacity : UInt32
  slotSize : UInt32
  storage : RingStorage

namespace MailboxRing

/-- `slot_meta_at`, as a value. -/
def slotMetaAt (r : MailboxRing) (idx : UInt32) : SlotMeta :=
  match r.storage with
  | .shm base => .load base (sizeofShmLayout + idx.toNat * sizeofSlotMeta)
  | .heap slotMeta _ => .load slotMeta (idx.toNat * sizeofSlotMeta)

/-- `slot_meta_at(idx) = m`. -/
def setSlotMeta (r : MailboxRing) (idx : UInt32) (m : SlotMeta) : MailboxRing :=
  match r.storage with
  | .shm base =>
    { r with storage := .shm (m.save base (sizeofShmLayout + idx.toNat * sizeofSlotMeta)) }
  | .heap slotMeta data =>
    { r with storage := .heap (m.save slotMeta (idx.toNat * sizeofSlotMeta)) data }

/-- `slot_meta_at(idx).in_use = false`. -/
def clearInUse (r : MailboxRing) (idx : UInt32) : MailboxRing :=
  match r.storage with
  | .shm base =>
    { r with
        storage := .shm (SlotMeta.clearInUse base
          (sizeofShmLayout + idx.toNat * sizeofSlotMeta)) }
  | .heap slotMeta data =>
    { r with storage := .heap (SlotMeta.clearInUse slotMeta (idx.toNat * sizeofSlotMeta)) data }

/-- `slot_ptr`, in the SHM object or in `heap_data_`. `idx * slot_size_` is a product of two
`uint32_t`, and `capacity_ * sizeof(SlotMeta)` one of two `size_t`. -/
def slotPtr (r : MailboxRing) (idx : UInt32) : Nat :=
  match r.storage with
  | .shm _ =>
    sizeofShmLayout + r.capacity.toNat * sizeofSlotMeta + (idx * r.slotSize).toNat
  | .heap _ _ => (idx * r.slotSize).toNat

/-- `memcpy(slot_ptr(idx), data, size)`. -/
def copyToSlot (r : MailboxRing) (idx : UInt32) (data : List UInt8) : MailboxRing :=
  match r.storage with
  | .shm base => { r with storage := .shm (base.write (r.slotPtr idx) data) }
  | .heap slotMeta heapData =>
    { r with storage := .heap slotMeta (heapData.write (r.slotPtr idx) data) }

/-- The loop of `find_free_slot`, with `n` slots from slot `i` on. -/
def freeLoop (r : MailboxRing) : (n : Nat) → (i : UInt32) → Int32
  | 0, _ => -1
  | n + 1, i => if (r.slotMetaAt i).inUse then freeLoop r n (i + 1) else i.toInt32

/-- `find_free_slot`. -/
def findFreeSlot (r : MailboxRing) : Int32 := r.freeLoop r.capacity.toNat 0

/-- The loop of `evict_lowest`, with `n` slots from slot `i` on: `worst` and `prio`. -/
def lowestLoop (r : MailboxRing) :
    (n : Nat) → (i : UInt32) → (worst : Int32) → (prio : Int8) → Int32 × Int8
  | 0, _, worst, prio => (worst, prio)
  | n + 1, i, worst, prio =>
    if (r.slotMetaAt i).inUse ∧ (r.slotMetaAt i).priority < prio then
      lowestLoop r n (i + 1) i.toInt32 (r.slotMetaAt i).priority
    else lowestLoop r n (i + 1) worst prio

/-- `evict_lowest`. -/
def evictLowest (r : MailboxRing) (prioNew : Int8) : Int32 × MailboxRing :=
  let (worst, prio) := r.lowestLoop r.capacity.toNat 0 (-1) Int8.maxValue
  if 0 ≤ worst ∧ prio ≤ prioNew then (worst, r.clearInUse worst.toUInt32) else (-1, r)

/-- `idx` of `post`: a free slot, or the slot of a message that has been evicted. -/
def chooseSlot (r : MailboxRing) (priority : Int8) : Int32 × MailboxRing :=
  if r.findFreeSlot < 0 then r.evictLowest priority else (r.findFreeSlot, r)

/-- `post`. -/
def post (r : MailboxRing) (data : List UInt8) (priority : Int8) (src : MailboxId) :
    Bool × MailboxRing :=
  let (idx, r) := r.chooseSlot priority
  if idx < 0 then (false, r)
  else
    (true, (r.copyToSlot idx.toUInt32 data).setSlotMeta idx.toUInt32
      ⟨priority, true, src, UInt32.ofNat data.length⟩)

/-- The loop of `has_in_use_slot`, with `n` slots from slot `i` on. -/
def inUseLoop (r : MailboxRing) : (n : Nat) → (i : UInt32) → Bool
  | 0, _ => false
  | n + 1, i => if (r.slotMetaAt i).inUse then true else inUseLoop r n (i + 1)

/-- `has_in_use_slot`. -/
def hasInUseSlot (r : MailboxRing) : Bool := r.inUseLoop r.capacity.toNat 0

/-- The loop of `find_highest_priority_slot`, with `n` slots from slot `i` on. -/
def highestLoop (r : MailboxRing) :
    (n : Nat) → (i : UInt32) → (best : Int32) → (prio : Int8) → Int32
  | 0, _, best, _ => best
  | n + 1, i, best, prio =>
    if (r.slotMetaAt i).inUse ∧ prio < (r.slotMetaAt i).priority then
      highestLoop r n (i + 1) i.toInt32 (r.slotMetaAt i).priority
    else highestLoop r n (i + 1) best prio

/-- `find_highest_priority_slot`. -/
def findHighestPrioritySlot (r : MailboxRing) : Int32 :=
  r.highestLoop r.capacity.toNat 0 (-1) Int8.minValue

/-- The payload, counted from the first byte of slot 0. -/
def payload (r : MailboxRing) : ByteMemory :=
  match r.storage with
  | .shm base => fun a => base (sizeofShmLayout + r.capacity.toNat * sizeofSlotMeta + a)
  | .heap _ data => data

/-- The ring read of `receive_impl`. -/
def receive (r : MailboxRing) (mailboxId : MailboxId) (bufferSize : Nat) :
    EvlRing.Received × MailboxRing :=
  if r.hasInUseSlot then
    let idx := r.findHighestPrioritySlot
    if idx < 0 then (.outOfBounds, r)
    else
      let sm := r.slotMetaAt idx.toUInt32
      if bufferSize < sm.size.toNat then (.msgSize, r)
      else
        let bytes := r.payload.read (idx.toUInt32 * r.slotSize).toNat sm.size.toNat
        (.message bytes (EvlRing.metadataOf mailboxId sm bytes), r.clearInUse idx.toUInt32)
  else (.nothing, r)

/-- The message in slot `idx`: its metadata and its bytes. -/
def messageAt (r : MailboxRing) (idx : UInt32) : Option (SlotMeta × List UInt8) :=
  if (r.slotMetaAt idx).inUse then
    some (r.slotMetaAt idx,
      r.payload.read (idx * r.slotSize).toNat (r.slotMetaAt idx).size.toNat)
  else none

/-- The ring as a list of slots. -/
def view (r : MailboxRing) : EvlRing where
  slotSize := r.slotSize
  slots := (List.range r.capacity.toNat).map fun i => r.slotMetaAt (UInt32.ofNat i)
  payload := r.payload

end MailboxRing

/-! ### A sender of another process -/

/-- The object that a `RemoteHandle` maps. -/
structure RemoteRing where
  shmBase : ByteMemory

namespace RemoteRing

/-- `layout`. The metadata lie behind it, so no assignment to them changes it. -/
def layout (h : RemoteRing) : ShmLayout := .load h.shmBase

/-- `meta[idx]`. -/
def slotMetaAt (h : RemoteRing) (idx : UInt32) : SlotMeta :=
  .load h.shmBase (sizeofShmLayout + idx.toNat * sizeofSlotMeta)

/-- `pbase`. -/
def pbase (h : RemoteRing) : Nat :=
  sizeofShmLayout + h.layout.capacity.toNat * sizeofSlotMeta

/-- The first loop of `post_to_remote`, with `n` slots from slot `i` on. -/
def freeLoop (h : RemoteRing) : (n : Nat) → (i : UInt32) → (idx : Int32) → Int32
  | 0, _, idx => idx
  | n + 1, i, idx => if (h.slotMetaAt i).inUse then freeLoop h n (i + 1) idx else i.toInt32

/-- The second loop, with `n` slots from slot `i` on: `worst` and `wprio`. -/
def worstLoop (h : RemoteRing) :
    (n : Nat) → (i : UInt32) → (worst : Int32) → (wprio : Int8) → Int32 × Int8
  | 0, _, worst, wprio => (worst, wprio)
  | n + 1, i, worst, wprio =>
    if (h.slotMetaAt i).inUse ∧ (h.slotMetaAt i).priority < wprio then
      worstLoop h n (i + 1) i.toInt32 (h.slotMetaAt i).priority
    else worstLoop h n (i + 1) worst wprio

/-- `idx` of `post_to_remote`. A negative `idx` of the first loop stays when nothing is evicted. -/
def chooseSlot (h : RemoteRing) (priority : Int8) : Int32 × RemoteRing :=
  let idx := h.freeLoop h.layout.capacity.toNat 0 (-1)
  if idx < 0 then
    let (worst, wprio) := h.worstLoop h.layout.capacity.toNat 0 (-1) Int8.maxValue
    if 0 ≤ worst ∧ wprio ≤ priority then
      (worst, ⟨SlotMeta.clearInUse h.shmBase
        (sizeofShmLayout + worst.toUInt32.toNat * sizeofSlotMeta)⟩)
    else (idx, h)
  else (idx, h)

/-- `post_to_remote`, by the mailbox `mailboxId`. -/
def postToRemote (h : RemoteRing) (data : List UInt8) (priority : Int8) (mailboxId : MailboxId) :
    Bool × RemoteRing :=
  let (idx, h) := h.chooseSlot priority
  if idx < 0 then (false, h)
  else
    let sz := min data.length h.layout.slotSize.toNat
    let base := h.shmBase.write (h.pbase + (idx.toUInt32 * h.layout.slotSize).toNat)
      (data.take sz)
    (true, ⟨SlotMeta.save ⟨priority, true, mailboxId, UInt32.ofNat sz⟩ base
      (sizeofShmLayout + idx.toUInt32.toNat * sizeofSlotMeta)⟩)

/-- The object as the owner of the ring has it, when it has kept what `ShmLayout` says. -/
def owned (h : RemoteRing) : MailboxRing := ⟨h.layout.capacity, h.layout.slotSize, .shm h.shmBase⟩

end RemoteRing

/-- The slot that an `int` stands for. -/
def slotOfInt (idx : Int32) : Option UInt32 := if idx < 0 then none else some idx.toUInt32

end CoreRaT.Spec
