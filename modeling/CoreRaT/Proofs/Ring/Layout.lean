import Mathlib.Order.CompletePartialOrder
import Mathlib.Order.Interval.Set.Disjoint
import CoreRaT.Proofs.Evl.Start

/-!
# `CoreRaT.Proofs.Ring.Layout`: the addresses in an SHM object

`slot_meta_at` and `slot_ptr` of the owner, and the two pointers of `post_to_remote`, as ranges of
bytes in the object. `SoundLayout` is what the ranges have to be: the same on both sides, inside the
object and behind its layout, and apart from one another.

`changedIn_postToRemote` and `changedIn_post` say that the calls write into these ranges and nowhere
else. So with a sound layout a message leaves the other slots alone (`SoundLayout.postToRemote`).

All of it but one point holds for every size of the slots. What can fail is that two slots are
apart: `idx * slot_size` is computed in 32 bits, and the size of the object in 64. A slot whose
product wraps lies inside the object still, but on top of other slots. `soundLayout_iff` is exact.
-/

set_option autoImplicit false

namespace CoreRaT.Spec

open CoreRaT.Lib

/-- The range of `n` bytes from `addr` on. -/
def bytesAt (addr n : Nat) : Set Nat := Set.Ico addr (addr + n)

theorem bytesAt_subset {addr n lo hi : Nat} (hlo : lo ≤ addr) (hhi : addr + n ≤ hi) :
    bytesAt addr n ⊆ Set.Ico lo hi := Set.Ico_subset_Ico hlo hhi

theorem bytesAt_disjoint {addr addr' n n' : Nat} (h : addr + n ≤ addr' ∨ addr' + n' ≤ addr) :
    Disjoint (bytesAt addr n) (bytesAt addr' n') := by
  rw [bytesAt, bytesAt, Set.Ico_disjoint_Ico]
  omega

/-! ### The ranges -/

namespace MailboxRing

/-- The bytes of `slot_meta_at(idx)` in an SHM object. -/
def slotMetaBytes (idx : UInt32) : Set Nat :=
  bytesAt (sizeofShmLayout + idx.toNat * sizeofSlotMeta) sizeofSlotMeta

/-- The bytes of the slot at `slot_ptr(idx)`. -/
def slotBytes (r : MailboxRing) (idx : UInt32) : Set Nat :=
  bytesAt (r.slotPtr idx) r.slotSize.toNat

end MailboxRing

namespace RemoteRing

/-- The bytes of `meta[idx]`. -/
def slotMetaBytes (idx : Int32) : Set Nat :=
  bytesAt (sizeofShmLayout + idx.toUInt32.toNat * sizeofSlotMeta) sizeofSlotMeta

/-- The bytes of the slot at `pbase + idx * layout->slot_size`. -/
def slotBytes (h : RemoteRing) (idx : Int32) : Set Nat :=
  bytesAt (h.pbase + (idx.toUInt32 * h.layout.slotSize).toNat) h.layout.slotSize.toNat

end RemoteRing

/-- What the addresses of a ring have to be, for its owner and for a sender of another process.
`total` is the size of the object. -/
structure SoundLayout (r : MailboxRing) (h : RemoteRing) (total : Nat) : Prop where
  sameMeta : ∀ idx < r.capacity,
    RemoteRing.slotMetaBytes idx.toInt32 = MailboxRing.slotMetaBytes idx
  sameSlot : ∀ idx < r.capacity, h.slotBytes idx.toInt32 = r.slotBytes idx
  metaInside : ∀ idx < r.capacity, MailboxRing.slotMetaBytes idx ⊆ Set.Ico 0 total
  slotInside : ∀ idx < r.capacity, r.slotBytes idx ⊆ Set.Ico 0 total
  layoutMeta : ∀ idx < r.capacity,
    Disjoint (bytesAt 0 sizeofShmLayout) (MailboxRing.slotMetaBytes idx)
  layoutSlot : ∀ idx < r.capacity, Disjoint (bytesAt 0 sizeofShmLayout) (r.slotBytes idx)
  metaMeta : ∀ i < r.capacity, ∀ j < r.capacity, i ≠ j →
    Disjoint (MailboxRing.slotMetaBytes i) (MailboxRing.slotMetaBytes j)
  metaSlot : ∀ i < r.capacity, ∀ j < r.capacity,
    Disjoint (MailboxRing.slotMetaBytes i) (r.slotBytes j)
  slotSlot : ∀ i < r.capacity, ∀ j < r.capacity, i ≠ j →
    Disjoint (r.slotBytes i) (r.slotBytes j)

/-! ### The calls stay in their ranges -/

/-- `mem'` differs from `mem` in these bytes at most. -/
def ChangedIn (range : Set Nat) (mem mem' : ByteMemory) : Prop := ∀ a ∉ range, mem' a = mem a

theorem ChangedIn.trans {s t : Set Nat} {mem mem' mem'' : ByteMemory} (h : ChangedIn s mem mem')
    (h' : ChangedIn t mem' mem'') : ChangedIn (s ∪ t) mem mem'' := by
  intro a ha
  rw [h' a (fun hat => ha (Or.inr hat)), h a (fun has => ha (Or.inl has))]

theorem changedIn_write (mem : ByteMemory) {addr n : Nat} {data : List UInt8}
    (h : data.length ≤ n) : ChangedIn (bytesAt addr n) mem (mem.write addr data) := by
  intro a ha
  rw [bytesAt, Set.mem_Ico] at ha
  exact mem.write_of_not_mem (by omega)

theorem changedIn_clearInUse (mem : ByteMemory) (addr : Nat) :
    ChangedIn (bytesAt addr sizeofSlotMeta) mem (SlotMeta.clearInUse mem addr) := by
  intro a ha
  rw [bytesAt, Set.mem_Ico, sizeofSlotMeta] at ha
  refine mem.write_of_not_mem ?_
  rw [List.length_singleton]
  omega

theorem changedIn_save (m : SlotMeta) (mem : ByteMemory) (addr : Nat) :
    ChangedIn (bytesAt addr sizeofSlotMeta) mem (m.save mem addr) := by
  have hlen : (le32 m.src ++ le32 m.size).length = 8 := rfl
  intro a ha
  rw [bytesAt, Set.mem_Ico, sizeofSlotMeta] at ha
  rw [SlotMeta.save, ByteMemory.write_of_not_mem _ (by omega), ByteMemory.write_of_not_mem]
  simp only [List.length_cons, List.length_nil]
  omega

namespace RemoteRing

/-- The search of `post_to_remote` clears the flag of the slot that it returns, or nothing. -/
theorem changedIn_chooseSlot (h : RemoteRing) (priority : Int8) :
    ChangedIn (slotMetaBytes (h.chooseSlot priority).1) h.shmBase
      (h.chooseSlot priority).2.shmBase := by
  unfold chooseSlot
  simp only
  split
  · split
    · exact changedIn_clearInUse _ _
    · exact fun _ _ => rfl
  · exact fun _ _ => rfl

/-- `post_to_remote` writes into the metadata and the bytes of the slot that it has chosen, and
nowhere else. -/
theorem changedIn_postToRemote (h : RemoteRing) (data : List UInt8) (priority : Int8)
    (mailboxId : MailboxId) :
    ChangedIn (slotMetaBytes (h.chooseSlot priority).1 ∪ h.slotBytes (h.chooseSlot priority).1)
      h.shmBase (h.postToRemote data priority mailboxId).2.shmBase := by
  have hchoose := h.changedIn_chooseSlot priority
  have hlayout := h.layout_chooseSlot priority
  unfold postToRemote
  generalize h.chooseSlot priority = c at hchoose hlayout ⊢
  obtain ⟨idx, h'⟩ := c
  simp only at hchoose hlayout ⊢
  split
  · intro a ha
    exact hchoose a (fun hmem => ha (Or.inl hmem))
  · have hslot : h'.slotBytes idx = h.slotBytes idx := by
      simp only [slotBytes, pbase, hlayout]
    have hcopy : ChangedIn (h'.slotBytes idx) h'.shmBase (h'.shmBase.write
        (h'.pbase + (idx.toUInt32 * h'.layout.slotSize).toNat)
        (data.take (min data.length h'.layout.slotSize.toNat))) :=
      changedIn_write _ (by rw [List.length_take]; omega)
    rw [hslot] at hcopy
    have hall := (hchoose.trans hcopy).trans (changedIn_save ⟨priority, true, mailboxId,
      UInt32.ofNat (min data.length h'.layout.slotSize.toNat)⟩ _
      (sizeofShmLayout + idx.toUInt32.toNat * sizeofSlotMeta))
    intro a ha
    refine hall a ?_
    intro hmem
    rcases hmem with (hmem | hmem) | hmem
    · exact ha (Or.inl hmem)
    · exact ha (Or.inr hmem)
    · exact ha (Or.inl hmem)

/-- So does `post` of the owner, when the message fits. -/
theorem changedIn_post (h : RemoteRing) {data : List UInt8}
    (hfit : data.length ≤ h.layout.slotSize.toNat) (priority : Int8) (mailboxId : MailboxId) :
    ∃ base, (h.owned.post data priority mailboxId).2.storage = .shm base ∧
      ChangedIn (slotMetaBytes (h.chooseSlot priority).1 ∪ h.slotBytes (h.chooseSlot priority).1)
        h.shmBase base := by
  have howned := (h.postToRemote_owned hfit priority mailboxId).2
  exact ⟨_, by rw [← howned]; rfl, h.changedIn_postToRemote data priority mailboxId⟩

end RemoteRing

/-- What the layout is for: a message that goes into slot `i` leaves the other slots alone. -/
theorem SoundLayout.postToRemote {r : MailboxRing} {h : RemoteRing} {total : Nat}
    (hsound : SoundLayout r h total) {data : List UInt8} {priority : Int8} {mailboxId : MailboxId}
    {i j : UInt32} (hchoose : (h.chooseSlot priority).1 = i.toInt32) (hi : i < r.capacity)
    (hj : j < r.capacity) (hij : i ≠ j) :
    ∀ a ∈ MailboxRing.slotMetaBytes j ∪ r.slotBytes j,
      (h.postToRemote data priority mailboxId).2.shmBase a = h.shmBase a := by
  intro a ha
  refine h.changedIn_postToRemote data priority mailboxId a ?_
  rw [hchoose, hsound.sameMeta i hi, hsound.sameSlot i hi]
  have hapart : Disjoint (MailboxRing.slotMetaBytes i ∪ r.slotBytes i)
      (MailboxRing.slotMetaBytes j ∪ r.slotBytes j) :=
    Set.disjoint_union_left.mpr
      ⟨Set.disjoint_union_right.mpr ⟨hsound.metaMeta i hi j hj hij, hsound.metaSlot i hi j hj⟩,
        Set.disjoint_union_right.mpr
          ⟨(hsound.metaSlot j hj i hi).symm, hsound.slotSlot i hi j hj hij⟩⟩
  exact Set.disjoint_right.mp hapart ha

namespace ShmHost

/-! ### The object that `allocate_ring` makes -/

/-- The object of `ringFrom`, as a sender maps it. -/
def remoteFrom (slotSize : UInt32) (bytes : ByteMemory) : RemoteRing where
  shmBase := ShmLayout.save ⟨kSlots, slotSize⟩ fun addr =>
    if addr < shmTotal kSlots slotSize then bytes addr else 0

/-- A sender reads the capacity and the size of the slots that the owner has kept. -/
theorem layout_remoteFrom (slotSize : UInt32) (bytes : ByteMemory) :
    (remoteFrom slotSize bytes).layout = ⟨kSlots, slotSize⟩ :=
  ShmLayout.load_save ..

/-- `slot_ptr` in that object. -/
theorem slotPtr_ringFrom (slotSize : UInt32) (bytes : ByteMemory) (idx : UInt32) :
    (ringFrom slotSize bytes).slotPtr idx
      = sizeofShmLayout + kSlots.toNat * sizeofSlotMeta + idx.toNat * slotSize.toNat % 2 ^ 32 := by
  show sizeofShmLayout + kSlots.toNat * sizeofSlotMeta + (idx * slotSize).toNat = _
  rw [UInt32.toNat_mul]

section
variable (slotSize : UInt32) (bytes : ByteMemory) {i j : UInt32}

theorem slotMetaBytes_toInt32 :
    RemoteRing.slotMetaBytes i.toInt32 = MailboxRing.slotMetaBytes i := by
  rw [RemoteRing.slotMetaBytes, UInt32.toUInt32_toInt32]
  rfl

theorem slotBytes_toInt32 :
    (remoteFrom slotSize bytes).slotBytes i.toInt32 = (ringFrom slotSize bytes).slotBytes i := by
  rw [RemoteRing.slotBytes, RemoteRing.pbase, layout_remoteFrom, UInt32.toUInt32_toInt32]
  rfl

theorem slotMetaBytes_subset (hi : i < kSlots) :
    MailboxRing.slotMetaBytes i ⊆ Set.Ico 0 (shmTotal kSlots slotSize) := by
  have hlt : i.toNat < 10 := UInt32.lt_iff_toNat_lt.mp hi
  have hslots : kSlots.toNat = 10 := rfl
  refine bytesAt_subset (Nat.zero_le _) ?_
  simp only [shmTotal, sizeofSlotMeta, hslots]
  omega

/-- A product that wraps is below the product that does not, so the slot ends inside. -/
theorem slotBytes_subset (hi : i < kSlots) :
    (ringFrom slotSize bytes).slotBytes i ⊆ Set.Ico 0 (shmTotal kSlots slotSize) := by
  have hend := slot_end_le slotSize.toNat (UInt32.lt_iff_toNat_lt.mp hi)
  have hmod := Nat.mod_le (i.toNat * slotSize.toNat) (2 ^ 32)
  refine bytesAt_subset (Nat.zero_le _) ?_
  rw [slotPtr_ringFrom, shmTotal, show (ringFrom slotSize bytes).slotSize = slotSize from rfl]
  omega

theorem layout_disjoint_slotMetaBytes :
    Disjoint (bytesAt 0 sizeofShmLayout) (MailboxRing.slotMetaBytes i) :=
  bytesAt_disjoint (Or.inl (by omega))

theorem layout_disjoint_slotBytes :
    Disjoint (bytesAt 0 sizeofShmLayout) ((ringFrom slotSize bytes).slotBytes i) :=
  bytesAt_disjoint (Or.inl (by rw [slotPtr_ringFrom]; omega))

theorem slotMetaBytes_disjoint (hij : i ≠ j) :
    Disjoint (MailboxRing.slotMetaBytes i) (MailboxRing.slotMetaBytes j) :=
  bytesAt_disjoint (MailboxRing.slotMeta_disjoint _ hij)

theorem slotMetaBytes_disjoint_slotBytes (hi : i < kSlots) :
    Disjoint (MailboxRing.slotMetaBytes i) ((ringFrom slotSize bytes).slotBytes j) := by
  have hlt := slot_end_le sizeofSlotMeta (UInt32.lt_iff_toNat_lt.mp hi)
  refine bytesAt_disjoint (Or.inl ?_)
  rw [slotPtr_ringFrom]
  omega

/-- The slots are apart as long as the product of the last one does not wrap. -/
theorem slotBytes_disjoint (hunwrapped : (kSlots.toNat - 1) * slotSize.toNat < 2 ^ 32)
    (hi : i < kSlots) (hj : j < kSlots) (hij : i ≠ j) :
    Disjoint ((ringFrom slotSize bytes).slotBytes i) ((ringFrom slotSize bytes).slotBytes j) := by
  have hmod : ∀ k < kSlots, k.toNat * slotSize.toNat % 2 ^ 32 = k.toNat * slotSize.toNat := by
    intro k hk
    have hk : k.toNat < kSlots.toNat := UInt32.lt_iff_toNat_lt.mp hk
    refine Nat.mod_eq_of_lt (Nat.lt_of_le_of_lt ?_ hunwrapped)
    exact Nat.mul_le_mul_right _ (by omega)
  have hne : i.toNat ≠ j.toNat := fun heq => hij (UInt32.toNat_inj.mp heq)
  refine bytesAt_disjoint ?_
  rw [slotPtr_ringFrom, slotPtr_ringFrom, hmod i hi, hmod j hj,
    show (ringFrom slotSize bytes).slotSize = slotSize from rfl]
  rcases Nat.lt_or_gt_of_ne hne with hlt | hlt
  · have hend := slot_end_le slotSize.toNat hlt
    omega
  · have hend := slot_end_le slotSize.toNat hlt
    omega

/-- Behind that, two slots share a byte. -/
theorem not_slotBytes_disjoint (hwrapped : 2 ^ 32 ≤ (kSlots.toNat - 1) * slotSize.toNat) :
    ∃ i < kSlots, ∃ j < kSlots, i ≠ j ∧
      ¬ Disjoint ((ringFrom slotSize bytes).slotBytes i)
        ((ringFrom slotSize bytes).slotBytes j) := by
  have hpos : 0 < slotSize.toNat := by
    by_contra hzero
    rw [Nat.eq_zero_of_not_pos hzero] at hwrapped
    omega
  obtain ⟨k, hk, hinside⟩ := exists_wrapped_slot hpos slotSize.toNat_lt hwrapped
  have hof : (UInt32.ofNat (k + 1)).toNat = k + 1 :=
    Nat.mod_eq_of_lt (Nat.lt_trans hk kSlots.toNat_lt)
  refine ⟨0, by decide, UInt32.ofNat (k + 1), UInt32.lt_iff_toNat_lt.mpr (hof.symm ▸ hk), ?_, ?_⟩
  · intro heq
    have := congrArg UInt32.toNat heq
    rw [hof] at this
    simp at this
  · -- The first byte of slot `k + 1` is a byte of slot 0.
    rw [MailboxRing.slotBytes, MailboxRing.slotBytes, slotPtr_ringFrom, slotPtr_ringFrom, hof,
      show (ringFrom slotSize bytes).slotSize = slotSize from rfl, bytesAt, bytesAt,
      Set.Ico_disjoint_Ico]
    have hzero : (0 : UInt32).toNat = 0 := rfl
    rw [hzero]
    omega

end

/-- **Slot addressing.** For every size of the slots and whatever the object has held before, the
addresses of the two sides are sound exactly when the product of the last slot fits 32 bits. -/
theorem soundLayout_iff (slotSize : UInt32) (bytes : ByteMemory) :
    SoundLayout (ringFrom slotSize bytes) (remoteFrom slotSize bytes)
        (shmTotal kSlots slotSize) ↔
      (kSlots.toNat - 1) * slotSize.toNat < 2 ^ 32 := by
  constructor
  · intro h
    by_contra hwrapped
    obtain ⟨i, hi, j, hj, hij, hnot⟩ :=
      not_slotBytes_disjoint slotSize bytes (Nat.le_of_not_lt hwrapped)
    exact hnot (h.slotSlot i hi j hj hij)
  · intro hunwrapped
    exact {
      sameMeta := fun _ _ => slotMetaBytes_toInt32
      sameSlot := fun _ _ => slotBytes_toInt32 slotSize bytes
      metaInside := fun _ => slotMetaBytes_subset slotSize
      slotInside := fun _ => slotBytes_subset slotSize bytes
      layoutMeta := fun _ _ => layout_disjoint_slotMetaBytes
      layoutSlot := fun _ _ => layout_disjoint_slotBytes slotSize bytes
      metaMeta := fun _ _ _ _ => slotMetaBytes_disjoint
      metaSlot := fun _ hi _ _ => slotMetaBytes_disjoint_slotBytes slotSize bytes hi
      slotSlot := fun _ hi _ hj => slotBytes_disjoint slotSize bytes hunwrapped hi hj }

/-- With the first size that is too large, slot 9 starts at byte 5 of slot 0. -/
theorem slot_nine_overlaps_first :
    ¬ SoundLayout (ringFrom 477218589 fun _ => 0) (remoteFrom 477218589 fun _ => 0)
      (shmTotal kSlots 477218589) := by
  intro h
  have hapart := h.slotSlot 0 (by decide) 9 (by decide) (by decide)
  have hfirst : 141 ∈ (ringFrom 477218589 fun _ => 0).slotBytes 0 := ⟨by decide, by decide⟩
  have hnine : 141 ∈ (ringFrom 477218589 fun _ => 0).slotBytes 9 := ⟨by decide, by decide⟩
  exact Set.disjoint_left.mp hapart hfirst hnine

end ShmHost

end CoreRaT.Spec
