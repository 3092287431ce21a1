import CoreRaT.Proofs.Ring.Slots
import CoreRaT.Spec.ShmRing

/-!
# `CoreRaT.Proofs.Ring.Shm`: the two ways to post a message

`post` and `post_to_remote` on the memory of a ring. The loops of `post_to_remote` are those of
`post`, on the object as its owner has it (`RemoteRing.owned`), and the addresses agree, so on one
object the two leave the same bytes: `postToRemote_owned`.

A ring on the heap has no object. `SameRing` compares rings by what they hold, and `post` does the
same to two rings that are the same: `SameRing.post`.
-/

set_option autoImplicit false

namespace CoreRaT.Spec

open CoreRaT.Lib

/-! ### Memory -/

theorem SlotMeta.load_write {mem : ByteMemory} {addr addr' : Nat} {data : List UInt8}
    (h : addr' + data.length ≤ addr ∨ addr + sizeofSlotMeta ≤ addr') :
    load (mem.write addr' data) addr = load mem addr := by
  simp only [sizeofSlotMeta] at h
  have hprio : mem.write addr' data addr = mem addr := mem.write_of_not_mem (by omega)
  have huse : mem.write addr' data (addr + 1) = mem (addr + 1) := mem.write_of_not_mem (by omega)
  have hsrc : (mem.write addr' data).read (addr + 4) 4 = mem.read (addr + 4) 4 :=
    mem.read_write_of_disjoint (by omega)
  have hsize : (mem.write addr' data).read (addr + 8) 4 = mem.read (addr + 8) 4 :=
    mem.read_write_of_disjoint (by omega)
  simp only [load, hprio, huse, hsrc, hsize]

theorem SlotMeta.load_save_self (m : SlotMeta) (mem : ByteMemory) (addr : Nat) :
    load (m.save mem addr) addr = m := by
  have hlen : (le32 m.src ++ le32 m.size).length = 8 := rfl
  have hprio : m.save mem addr addr = m.priority.toUInt8 := by
    rw [save, ByteMemory.write_of_not_mem _ (by omega)]
    exact mem.write_of_mem addr (k := 0) rfl
  have huse : m.save mem addr (addr + 1) = if m.inUse then 1 else 0 := by
    rw [save, ByteMemory.write_of_not_mem _ (by omega)]
    exact mem.write_of_mem addr (k := 1) rfl
  have hsrc : (m.save mem addr).read (addr + 4) 4 = le32 m.src :=
    ByteMemory.read_write_slice _ (addr + 4) (k := 0) (by omega)
  have hsize : (m.save mem addr).read (addr + 8) 4 = le32 m.size :=
    ByteMemory.read_write_slice _ (addr + 4) (k := 4) (by omega)
  cases m with
  | mk priority inUse src size =>
    simp only [load, hprio, huse, hsrc, hsize, ofLe32_le32]
    cases inUse with
    | false => simp
    | true => simp

theorem SlotMeta.load_save_of_disjoint (m : SlotMeta) (mem : ByteMemory) {addr addr' : Nat}
    (h : addr' + sizeofSlotMeta ≤ addr ∨ addr + sizeofSlotMeta ≤ addr') :
    load (m.save mem addr') addr = load mem addr := by
  have hlen : (le32 m.src ++ le32 m.size).length = 8 := rfl
  simp only [sizeofSlotMeta] at h
  rw [save, load_write, load_write]
  · simp only [List.length_cons, List.length_nil, sizeofSlotMeta]
    omega
  · rw [hlen, sizeofSlotMeta]
    omega

theorem SlotMeta.load_clearInUse_self (mem : ByteMemory) (addr : Nat) :
    load (clearInUse mem addr) addr = { load mem addr with inUse := false } := by
  have hprio : clearInUse mem addr addr = mem addr := mem.write_of_not_mem (by omega)
  have huse : clearInUse mem addr (addr + 1) = 0 := mem.write_of_mem (addr + 1) (k := 0) rfl
  have hsrc : (clearInUse mem addr).read (addr + 4) 4 = mem.read (addr + 4) 4 :=
    mem.read_write_of_disjoint (by simp only [List.length_singleton]; omega)
  have hsize : (clearInUse mem addr).read (addr + 8) 4 = mem.read (addr + 8) 4 :=
    mem.read_write_of_disjoint (by simp only [List.length_singleton]; omega)
  simp [load, hprio, huse, hsrc, hsize]

theorem SlotMeta.load_clearInUse_of_disjoint (mem : ByteMemory) {addr addr' : Nat}
    (h : addr' + sizeofSlotMeta ≤ addr ∨ addr + sizeofSlotMeta ≤ addr') :
    load (clearInUse mem addr') addr = load mem addr := by
  simp only [sizeofSlotMeta] at h
  refine load_write ?_
  simp only [List.length_singleton, sizeofSlotMeta]
  omega

/-- The layout is in front of everything else. -/
theorem ShmLayout.load_write {mem : ByteMemory} {addr : Nat} {data : List UInt8}
    (h : sizeofShmLayout ≤ addr) : load (mem.write addr data) = load mem := by
  simp only [sizeofShmLayout] at h
  have hcapacity : (mem.write addr data).read 0 4 = mem.read 0 4 :=
    mem.read_write_of_disjoint (by omega)
  have hslotSize : (mem.write addr data).read 4 4 = mem.read 4 4 :=
    mem.read_write_of_disjoint (by omega)
  simp only [load, hcapacity, hslotSize]

/-- What `allocate_ring` has written is what `layout` says. -/
theorem ShmLayout.load_save (layout : ShmLayout) (mem : ByteMemory) :
    load (layout.save mem) = layout := by
  have hcapacity : (layout.save mem).read 0 4 = le32 layout.capacity :=
    mem.read_write_slice 0 (k := 0) (show 0 + 4 ≤ 8 by decide)
  have hslotSize : (layout.save mem).read 4 4 = le32 layout.slotSize :=
    mem.read_write_slice 0 (k := 4) (show 4 + 4 ≤ 8 by decide)
  rw [load, hcapacity, hslotSize, ofLe32_le32, ofLe32_le32]

/-! ### The owner of the ring -/

namespace MailboxRing

/-- Two entries of an array of metadata do not meet. -/
theorem slotMeta_disjoint (base : Nat) {i j : UInt32} (h : i ≠ j) :
    base + i.toNat * sizeofSlotMeta + sizeofSlotMeta ≤ base + j.toNat * sizeofSlotMeta ∨
      base + j.toNat * sizeofSlotMeta + sizeofSlotMeta ≤ base + i.toNat * sizeofSlotMeta := by
  have hne : i.toNat ≠ j.toNat := fun heq => h (UInt32.toNat_inj.mp heq)
  simp only [sizeofSlotMeta]
  omega

theorem slotMetaAt_setSlotMeta (r : MailboxRing) (i j : UInt32) (m : SlotMeta) :
    (r.setSlotMeta i m).slotMetaAt j = if i = j then m else r.slotMetaAt j := by
  obtain ⟨capacity, slotSize, storage⟩ := r
  by_cases hij : i = j
  · subst hij
    rw [if_pos rfl]
    cases storage with
    | heap slotMeta data => exact m.load_save_self ..
    | shm base => exact m.load_save_self ..
  · rw [if_neg hij]
    cases storage with
    | heap slotMeta data =>
      exact m.load_save_of_disjoint _ (by simpa using slotMeta_disjoint 0 hij)
    | shm base => exact m.load_save_of_disjoint _ (slotMeta_disjoint _ hij)

theorem slotMetaAt_clearInUse (r : MailboxRing) (i j : UInt32) :
    (r.clearInUse i).slotMetaAt j
      = if i = j then { r.slotMetaAt j with inUse := false } else r.slotMetaAt j := by
  obtain ⟨capacity, slotSize, storage⟩ := r
  by_cases hij : i = j
  · subst hij
    rw [if_pos rfl]
    cases storage with
    | heap slotMeta data => exact SlotMeta.load_clearInUse_self ..
    | shm base => exact SlotMeta.load_clearInUse_self ..
  · rw [if_neg hij]
    cases storage with
    | heap slotMeta data =>
      exact SlotMeta.load_clearInUse_of_disjoint _ (by simpa using slotMeta_disjoint 0 hij)
    | shm base => exact SlotMeta.load_clearInUse_of_disjoint _ (slotMeta_disjoint _ hij)

/-- The payload lies behind the metadata. -/
theorem slotMetaAt_copyToSlot (r : MailboxRing) (i : UInt32) (data : List UInt8) {j : UInt32}
    (hj : j < r.capacity) : (r.copyToSlot i data).slotMetaAt j = r.slotMetaAt j := by
  obtain ⟨capacity, slotSize, storage⟩ := r
  have hj : j.toNat < capacity.toNat := UInt32.lt_iff_toNat_lt.mp hj
  cases storage with
  | heap slotMeta heapData => rfl
  | shm base =>
    refine SlotMeta.load_write (Or.inr ?_)
    simp only [slotPtr, sizeofSlotMeta]
    omega

/-- An assignment to metadata that lie in front of the payload. -/
theorem payload_setSlotMeta (r : MailboxRing) {i : UInt32} (hi : i < r.capacity) (m : SlotMeta) :
    (r.setSlotMeta i m).payload = r.payload := by
  obtain ⟨capacity, slotSize, storage⟩ := r
  have hlen : (le32 m.src ++ le32 m.size).length = 8 := rfl
  have hi : i.toNat < capacity.toNat := UInt32.lt_iff_toNat_lt.mp hi
  cases storage with
  | heap slotMeta data => rfl
  | shm base =>
    funext a
    simp only [setSlotMeta, payload, SlotMeta.save, sizeofSlotMeta]
    rw [ByteMemory.write_of_not_mem _ (by omega), ByteMemory.write_of_not_mem]
    simp only [List.length_cons, List.length_nil]
    omega

theorem payload_clearInUse (r : MailboxRing) {i : UInt32} (hi : i < r.capacity) :
    (r.clearInUse i).payload = r.payload := by
  obtain ⟨capacity, slotSize, storage⟩ := r
  have hi : i.toNat < capacity.toNat := UInt32.lt_iff_toNat_lt.mp hi
  cases storage with
  | heap slotMeta data => rfl
  | shm base =>
    funext a
    simp only [clearInUse, payload, SlotMeta.clearInUse, sizeofSlotMeta]
    rw [ByteMemory.write_of_not_mem]
    simp only [List.length_singleton]
    omega

theorem payload_copyToSlot (r : MailboxRing) (i : UInt32) (data : List UInt8) :
    (r.copyToSlot i data).payload = r.payload.write (i * r.slotSize).toNat data := by
  obtain ⟨capacity, slotSize, storage⟩ := r
  cases storage with
  | heap slotMeta heapData => rfl
  | shm base => exact base.write_add _ _ data

@[simp] theorem capacity_setSlotMeta (r : MailboxRing) (i : UInt32) (m : SlotMeta) :
    (r.setSlotMeta i m).capacity = r.capacity := by
  unfold setSlotMeta
  split <;> rfl

@[simp] theorem slotSize_setSlotMeta (r : MailboxRing) (i : UInt32) (m : SlotMeta) :
    (r.setSlotMeta i m).slotSize = r.slotSize := by
  unfold setSlotMeta
  split <;> rfl

@[simp] theorem capacity_clearInUse (r : MailboxRing) (i : UInt32) :
    (r.clearInUse i).capacity = r.capacity := by
  unfold clearInUse
  split <;> rfl

@[simp] theorem slotSize_clearInUse (r : MailboxRing) (i : UInt32) :
    (r.clearInUse i).slotSize = r.slotSize := by
  unfold clearInUse
  split <;> rfl

@[simp] theorem capacity_copyToSlot (r : MailboxRing) (i : UInt32) (data : List UInt8) :
    (r.copyToSlot i data).capacity = r.capacity := by
  unfold copyToSlot
  split <;> rfl

@[simp] theorem slotSize_copyToSlot (r : MailboxRing) (i : UInt32) (data : List UInt8) :
    (r.copyToSlot i data).slotSize = r.slotSize := by
  unfold copyToSlot
  split <;> rfl

/-! ### The searches of the owner -/

/-- The slot that `slotOfInt` gives back for a slot index of a loop. -/
theorem slotOfInt_toInt32 {i j : UInt32} (h : slotOfInt i.toInt32 = some j) : j = i := by
  unfold slotOfInt at h
  split at h
  · cases h
  · simpa using h.symm

/-- The index of a loop does not wrap. -/
theorem toNat_succ {i c : UInt32} (h : i.toNat < c.toNat) : (i + 1).toNat = i.toNat + 1 := by
  have := c.toNat_lt
  rw [UInt32.toNat_add, UInt32.toNat_one]
  omega

/-- `find_free_slot` gives a slot of the ring. -/
theorem lt_of_freeLoop (r : MailboxRing) (n : Nat) : ∀ (i : UInt32) {j : UInt32},
    i.toNat + n ≤ r.capacity.toNat → slotOfInt (r.freeLoop n i) = some j → j < r.capacity := by
  induction n with
  | zero => exact fun i j _ h => absurd h (by simp [freeLoop, slotOfInt])
  | succ n ih =>
    intro i j hi h
    have hlt : i.toNat < r.capacity.toNat := by omega
    rw [freeLoop] at h
    split at h
    · exact ih (i + 1) (by rw [toNat_succ hlt]; omega) h
    · rwa [slotOfInt_toInt32 h, UInt32.lt_iff_toNat_lt]

/-- The loop of `evict_lowest` keeps `worst`, or comes to a slot of the ring. -/
theorem lt_of_lowestLoop (r : MailboxRing) (n : Nat) :
    ∀ (i : UInt32) (worst : Int32) (prio : Int8) {j : UInt32},
    i.toNat + n ≤ r.capacity.toNat → (∀ {k}, slotOfInt worst = some k → k < r.capacity) →
    slotOfInt (r.lowestLoop n i worst prio).1 = some j → j < r.capacity := by
  induction n with
  | zero => exact fun i worst prio j _ hworst h => hworst h
  | succ n ih =>
    intro i worst prio j hi hworst h
    have hlt : i.toNat < r.capacity.toNat := by omega
    have hnext : (i + 1).toNat + n ≤ r.capacity.toNat := by
      rw [toNat_succ hlt]
      omega
    rw [lowestLoop] at h
    split at h
    · refine ih (i + 1) _ _ hnext ?_ h
      intro k hk
      rwa [slotOfInt_toInt32 hk, UInt32.lt_iff_toNat_lt]
    · exact ih (i + 1) worst prio hnext hworst h

/-- What the search of `post` does: it gives a slot of the ring, or evicts a message and gives its
slot, or gives none. -/
theorem chooseSlot_cases (r : MailboxRing) (priority : Int8) :
    (∃ i, i < r.capacity ∧ slotOfInt (r.chooseSlot priority).1 = some i ∧
      ((r.chooseSlot priority).2 = r ∨ (r.chooseSlot priority).2 = r.clearInUse i)) ∨
    (slotOfInt (r.chooseSlot priority).1 = none ∧ (r.chooseSlot priority).2 = r) := by
  have hslot : ∀ {idx : Int32}, ¬ idx < 0 → slotOfInt idx = some idx.toUInt32 := by
    intro idx hidx
    rw [slotOfInt, if_neg hidx]
  unfold chooseSlot
  split
  · -- No free slot, or one whose index is a negative `int`.
    simp only [evictLowest]
    split
    · rename_i hworst
      have hnonneg := hslot (Int32.not_lt.mpr hworst.1)
      refine Or.inl ⟨_, ?_, hnonneg, Or.inr rfl⟩
      exact r.lt_of_lowestLoop _ 0 (-1) _ (by simp) (by simp [slotOfInt]) hnonneg
    · exact Or.inr ⟨by simp [slotOfInt], rfl⟩
  · rename_i hfree
    exact Or.inl ⟨_, r.lt_of_freeLoop _ 0 (by simp) (hslot hfree), hslot hfree, Or.inl rfl⟩

theorem capacity_chooseSlot (r : MailboxRing) (priority : Int8) :
    (r.chooseSlot priority).2.capacity = r.capacity := by
  rcases r.chooseSlot_cases priority with ⟨i, -, -, hring | hring⟩ | ⟨-, hring⟩
  · rw [hring]
  · rw [hring, capacity_clearInUse]
  · rw [hring]

theorem lt_of_chooseSlot {r : MailboxRing} {priority : Int8} {i : UInt32}
    (h : slotOfInt (r.chooseSlot priority).1 = some i) : i < r.capacity := by
  rcases r.chooseSlot_cases priority with ⟨j, hj, hslot, -⟩ | ⟨hslot, -⟩
  · rw [hslot, Option.some.injEq] at h
    exact h ▸ hj
  · rw [hslot] at h
    cases h

/-- A message that has been posted is in the slot that the search has given. -/
theorem messageAt_post {r : MailboxRing} {data : List UInt8} (hlen : data.length < 2 ^ 32)
    {priority : Int8} {src : MailboxId} (h : (r.post data priority src).1 = true) :
    ∃ i, i < (r.post data priority src).2.capacity ∧
      (r.post data priority src).2.messageAt i =
        some (⟨priority, true, src, UInt32.ofNat data.length⟩, data) := by
  simp only [post] at h ⊢
  by_cases hneg : (r.chooseSlot priority).1 < 0
  · rw [if_pos hneg] at h
    cases h
  · simp only [if_neg hneg]
    have hslot : slotOfInt (r.chooseSlot priority).1 = some (r.chooseSlot priority).1.toUInt32 := by
      rw [slotOfInt, if_neg hneg]
    have hlt : (r.chooseSlot priority).1.toUInt32 < (r.chooseSlot priority).2.capacity := by
      rw [capacity_chooseSlot]
      exact lt_of_chooseSlot hslot
    generalize (r.chooseSlot priority).1.toUInt32 = i at hlt
    generalize (r.chooseSlot priority).2 = chosen at hlt
    refine ⟨i, by simpa using hlt, ?_⟩
    have hsize : (UInt32.ofNat data.length).toNat = data.length := UInt32.toNat_ofNat_of_lt' hlen
    simp only [messageAt, slotMetaAt_setSlotMeta, if_true, hsize, slotSize_setSlotMeta,
      slotSize_copyToSlot]
    rw [payload_setSlotMeta _ (by simpa using hlt), payload_copyToSlot, ByteMemory.read_write_self]

end MailboxRing

/-! ### Rings that hold the same -/

/-- Two rings with the same dimensions, metadata and payload, wherever they lie. -/
structure SameRing (r r' : MailboxRing) : Prop where
  capacity : r.capacity = r'.capacity
  slotSize : r.slotSize = r'.slotSize
  slotMeta : ∀ i, i < r.capacity → r.slotMetaAt i = r'.slotMetaAt i
  payload : r.payload = r'.payload

namespace SameRing

open MailboxRing (toNat_succ)

variable {r r' : MailboxRing}

theorem refl (r : MailboxRing) : SameRing r r := ⟨rfl, rfl, fun _ _ => rfl, rfl⟩

theorem messageAt (h : SameRing r r') {i : UInt32} (hi : i < r.capacity) :
    r.messageAt i = r'.messageAt i := by
  simp only [MailboxRing.messageAt, h.slotMeta i hi, h.payload, h.slotSize]

theorem freeLoop (h : SameRing r r') (n : Nat) :
    ∀ i : UInt32, i.toNat + n ≤ r.capacity.toNat → r.freeLoop n i = r'.freeLoop n i := by
  induction n with
  | zero => exact fun _ _ => rfl
  | succ n ih =>
    intro i hi
    have hlt : i.toNat < r.capacity.toNat := by omega
    rw [MailboxRing.freeLoop, MailboxRing.freeLoop, h.slotMeta i (UInt32.lt_iff_toNat_lt.mpr hlt),
      ih (i + 1) (by rw [toNat_succ hlt]; omega)]

theorem lowestLoop (h : SameRing r r') (n : Nat) :
    ∀ (i : UInt32) (worst : Int32) (prio : Int8), i.toNat + n ≤ r.capacity.toNat →
      r.lowestLoop n i worst prio = r'.lowestLoop n i worst prio := by
  induction n with
  | zero => exact fun _ _ _ _ => rfl
  | succ n ih =>
    intro i worst prio hi
    have hlt : i.toNat < r.capacity.toNat := by omega
    have hnext : (i + 1).toNat + n ≤ r.capacity.toNat := by
      rw [toNat_succ hlt]
      omega
    rw [MailboxRing.lowestLoop, MailboxRing.lowestLoop,
      h.slotMeta i (UInt32.lt_iff_toNat_lt.mpr hlt), ih (i + 1) _ _ hnext,
      ih (i + 1) worst prio hnext]

theorem setSlotMeta (h : SameRing r r') {i : UInt32} (hi : i < r.capacity) (m : SlotMeta) :
    SameRing (r.setSlotMeta i m) (r'.setSlotMeta i m) where
  capacity := by simpa using h.capacity
  slotSize := by simpa using h.slotSize
  slotMeta j hj := by
    rw [MailboxRing.capacity_setSlotMeta] at hj
    rw [MailboxRing.slotMetaAt_setSlotMeta, MailboxRing.slotMetaAt_setSlotMeta, h.slotMeta j hj]
  payload := by
    rw [MailboxRing.payload_setSlotMeta r hi, MailboxRing.payload_setSlotMeta r' (h.capacity ▸ hi),
      h.payload]

theorem clearInUse (h : SameRing r r') {i : UInt32} (hi : i < r.capacity) :
    SameRing (r.clearInUse i) (r'.clearInUse i) where
  capacity := by simpa using h.capacity
  slotSize := by simpa using h.slotSize
  slotMeta j hj := by
    rw [MailboxRing.capacity_clearInUse] at hj
    rw [MailboxRing.slotMetaAt_clearInUse, MailboxRing.slotMetaAt_clearInUse, h.slotMeta j hj]
  payload := by
    rw [MailboxRing.payload_clearInUse r hi, MailboxRing.payload_clearInUse r' (h.capacity ▸ hi),
      h.payload]

theorem copyToSlot (h : SameRing r r') (i : UInt32) (data : List UInt8) :
    SameRing (r.copyToSlot i data) (r'.copyToSlot i data) where
  capacity := by simpa using h.capacity
  slotSize := by simpa using h.slotSize
  slotMeta j hj := by
    rw [MailboxRing.capacity_copyToSlot] at hj
    rw [MailboxRing.slotMetaAt_copyToSlot r i data hj,
      MailboxRing.slotMetaAt_copyToSlot r' i data (h.capacity ▸ hj), h.slotMeta j hj]
  payload := by
    rw [MailboxRing.payload_copyToSlot, MailboxRing.payload_copyToSlot, h.payload, h.slotSize]

/-- The search finds the same slot. -/
theorem chooseSlot (h : SameRing r r') (priority : Int8) :
    (r.chooseSlot priority).1 = (r'.chooseSlot priority).1 ∧
      SameRing (r.chooseSlot priority).2 (r'.chooseSlot priority).2 := by
  have hfree : r.findFreeSlot = r'.findFreeSlot := by
    rw [MailboxRing.findFreeSlot, MailboxRing.findFreeSlot, ← h.capacity]
    exact h.freeLoop _ 0 (by simp)
  have hlowest : r.lowestLoop r.capacity.toNat 0 (-1) Int8.maxValue
      = r'.lowestLoop r'.capacity.toNat 0 (-1) Int8.maxValue := by
    rw [← h.capacity]
    exact h.lowestLoop _ 0 _ _ (by simp)
  simp only [MailboxRing.chooseSlot, ← hfree]
  split
  · simp only [MailboxRing.evictLowest, ← hlowest]
    split
    · rename_i hworst
      refine ⟨rfl, h.clearInUse ?_⟩
      refine r.lt_of_lowestLoop r.capacity.toNat 0 (-1) Int8.maxValue (by simp)
        (by simp [slotOfInt]) ?_
      rw [slotOfInt, if_neg (Int32.not_lt.mpr hworst.1)]
    · exact ⟨rfl, h⟩
  · exact ⟨rfl, h⟩

theorem post (h : SameRing r r') (data : List UInt8) (priority : Int8) (src : MailboxId) :
    (r.post data priority src).1 = (r'.post data priority src).1 ∧
      SameRing (r.post data priority src).2 (r'.post data priority src).2 := by
  obtain ⟨hidx, hsame⟩ := h.chooseSlot priority
  simp only [MailboxRing.post, ← hidx]
  split
  · exact ⟨rfl, hsame⟩
  · rename_i hnonneg
    refine ⟨rfl, (hsame.copyToSlot _ data).setSlotMeta ?_ _⟩
    rw [MailboxRing.capacity_copyToSlot, MailboxRing.capacity_chooseSlot]
    exact MailboxRing.lt_of_chooseSlot (by rw [slotOfInt, if_neg hnonneg])

end SameRing

/-! ### A sender of another process -/

namespace RemoteRing

theorem freeLoop_owned (h : RemoteRing) (n : Nat) (i : UInt32) :
    h.freeLoop n i (-1) = h.owned.freeLoop n i := by
  induction n generalizing i with
  | zero => rfl
  | succ n ih =>
    rw [freeLoop, MailboxRing.freeLoop, ih]
    rfl

theorem worstLoop_owned (h : RemoteRing) (n : Nat) (i : UInt32) (worst : Int32) (wprio : Int8) :
    h.worstLoop n i worst wprio = h.owned.lowestLoop n i worst wprio := by
  induction n generalizing i worst wprio with
  | zero => rfl
  | succ n ih =>
    rw [worstLoop, MailboxRing.lowestLoop, ih, ih]
    rfl

/-- An object whose metadata or payload have changed has the same layout. -/
theorem owned_eq {h : RemoteRing} {base : ByteMemory} (hlayout : ShmLayout.load base = h.layout) :
    owned ⟨base⟩ = { h.owned with storage := .shm base } := by
  show (⟨(ShmLayout.load base).capacity, (ShmLayout.load base).slotSize, .shm base⟩ : MailboxRing)
    = _
  rw [hlayout]
  rfl

/-- The search of `post_to_remote` is that of the owner. Where neither finds a slot, `idx` may be
another negative number. -/
theorem chooseSlot_owned (h : RemoteRing) (priority : Int8) :
    slotOfInt (h.chooseSlot priority).1 = slotOfInt (h.owned.chooseSlot priority).1 ∧
      (h.chooseSlot priority).2.owned = (h.owned.chooseSlot priority).2 := by
  have hfree : h.freeLoop h.layout.capacity.toNat 0 (-1) = h.owned.findFreeSlot :=
    h.freeLoop_owned _ 0
  have hworst : h.worstLoop h.layout.capacity.toNat 0 (-1) Int8.maxValue
      = h.owned.lowestLoop h.owned.capacity.toNat 0 (-1) Int8.maxValue :=
    h.worstLoop_owned ..
  simp only [chooseSlot, MailboxRing.chooseSlot, MailboxRing.evictLowest, hfree, hworst]
  split
  · rename_i hneg
    split
    · refine ⟨rfl, owned_eq ?_⟩
      exact ShmLayout.load_write (by omega)
    · refine ⟨?_, rfl⟩
      rw [slotOfInt, if_pos hneg]
      rfl
  · exact ⟨rfl, rfl⟩

/-- The flag that the search clears lies behind the layout. -/
theorem layout_chooseSlot (h : RemoteRing) (priority : Int8) :
    (h.chooseSlot priority).2.layout = h.layout := by
  unfold chooseSlot
  simp only
  split
  · split
    · exact ShmLayout.load_write (by omega)
    · rfl
  · rfl

/-- On one object, the two paths leave the same bytes. -/
theorem postToRemote_owned (h : RemoteRing) {data : List UInt8}
    (hfit : data.length ≤ h.layout.slotSize.toNat) (priority : Int8) (mailboxId : MailboxId) :
    (h.postToRemote data priority mailboxId).1 = (h.owned.post data priority mailboxId).1 ∧
      (h.postToRemote data priority mailboxId).2.owned
        = (h.owned.post data priority mailboxId).2 := by
  obtain ⟨hslot, hring⟩ := h.chooseSlot_owned priority
  have hslotSize : (h.chooseSlot priority).2.layout.slotSize = h.layout.slotSize := by
    rw [h.layout_chooseSlot]
  simp only [postToRemote, MailboxRing.post, ← hring]
  generalize h.chooseSlot priority = chosen at hslot hslotSize ⊢
  generalize (h.owned.chooseSlot priority).1 = idx at hslot ⊢
  by_cases hneg : idx < 0
  · have hneg' : chosen.1 < 0 := by
      by_contra hnonneg
      simp [slotOfInt, hneg, hnonneg] at hslot
    rw [if_pos hneg, if_pos hneg']
    exact ⟨rfl, rfl⟩
  · have hnonneg : ¬ chosen.1 < 0 := by
      intro hneg'
      simp [slotOfInt, hneg, hneg'] at hslot
    have hidx : chosen.1.toUInt32 = idx.toUInt32 := by
      simpa [slotOfInt, hneg, hnonneg] using hslot
    have hmin : min data.length chosen.2.layout.slotSize.toNat = data.length :=
      Nat.min_eq_left (hslotSize ▸ hfit)
    rw [if_neg hneg, if_neg hnonneg, hmin, List.take_length, hidx]
    refine ⟨rfl, owned_eq ?_⟩
    rw [SlotMeta.save, ShmLayout.load_write, ShmLayout.load_write, ShmLayout.load_write]
    · rfl
    · simp only [pbase]
      omega
    · omega
    · omega

/-- **Two paths, one queue.** Take a ring, in whatever mode its owner has it, and an object that
holds the same. For every message that fits, `post` on the ring and `post_to_remote` on the object
return the same, take the same slot and evict the same message, and then the two hold the same
again. Where the ring is the object, so are the bytes. -/
theorem post_eq_postToRemote (r : MailboxRing) (h : RemoteRing) (hsame : SameRing r h.owned)
    (data : List UInt8) (_hpos : 0 < data.length) (hfit : data.length ≤ r.slotSize.toNat)
    (priority : Int8) (src : MailboxId) :
    (r.post data priority src).1 = (h.postToRemote data priority src).1 ∧
      slotOfInt (r.chooseSlot priority).1 = slotOfInt (h.chooseSlot priority).1 ∧
      (∀ i, slotOfInt (r.chooseSlot priority).1 = some i →
        r.messageAt i = h.owned.messageAt i) ∧
      SameRing (r.post data priority src).2 (h.postToRemote data priority src).2.owned ∧
      (r.storage = .shm h.shmBase → (r.post data priority src).2.storage
        = .shm (h.postToRemote data priority src).2.shmBase) := by
  rw [hsame.slotSize] at hfit
  obtain ⟨hresult, howned⟩ := h.postToRemote_owned hfit priority src
  obtain ⟨hok, hafter⟩ := hsame.post data priority src
  refine ⟨hok.trans hresult.symm, ?_, ?_, ?_, ?_⟩
  · rw [(hsame.chooseSlot priority).1, (h.chooseSlot_owned priority).1]
  · exact fun i hi => hsame.messageAt (MailboxRing.lt_of_chooseSlot hi)
  · rw [howned]
    exact hafter
  · intro hstorage
    have hr : r = h.owned := MailboxRing.ext hsame.capacity hsame.slotSize hstorage
    rw [hr, ← howned]
    rfl

/-- The metadata of two slots in use. The second one has the lower priority. -/
def slotsInUse : List UInt8 :=
  [5, 1, 0, 0, 7, 0, 0, 0, 2, 0, 0, 0, 2, 1, 0, 0, 8, 0, 0, 0, 3, 0, 0, 0]

/-- What is in the two slots of four bytes. -/
def payloadInUse : List UInt8 := [10, 11, 0, 0, 20, 21, 22, 0]

/-- An object with these slots behind the layout. -/
def fullObject : RemoteRing where
  shmBase a :=
    (le32 2 ++ le32 4 ++ [0, 0, 0, 0, 0, 0, 0, 0] ++ slotsInUse ++ payloadInUse).getD a 0

/-- The same on the heap. -/
def fullOnHeap : MailboxRing := ⟨2, 4, .heap (slotsInUse.getD · 0) (payloadInUse.getD · 0)⟩

theorem sameRing_full : SameRing fullOnHeap fullObject.owned where
  capacity := by decide
  slotSize := by decide
  slotMeta i hi := by
    have hi : i.toNat < 2 := UInt32.lt_iff_toNat_lt.mp hi
    rcases Nat.lt_or_ge i.toNat 1 with hzero | hone
    · obtain rfl : i = 0 := UInt32.toNat_inj.mp (by simpa using hzero)
      decide
    · obtain rfl : i = 1 := UInt32.toNat_inj.mp (by simp; omega)
      decide
  payload := by
    funext a
    have hbehind : ∀ front : List UInt8, front.length = 40 →
        (front ++ payloadInUse).getD (16 + 2 * 12 + a) 0 = payloadInUse.getD a 0 := by
      intro front hfront
      rw [List.getD_eq_getElem?_getD, List.getElem?_append_right (by omega), hfront,
        Nat.add_sub_cancel_left, List.getD_eq_getElem?_getD]
    exact (hbehind _ rfl).symm

/-- On both paths, the message evicts the one of priority 2 from the second slot. -/
theorem post_eq_postToRemote_full :
    (fullOnHeap.post [1, 2] 3 9).1 = (fullObject.postToRemote [1, 2] 3 9).1 ∧
      slotOfInt (fullObject.chooseSlot 3).1 = some 1 ∧
      fullObject.owned.messageAt 1 = some (⟨2, true, 8, 3⟩, [20, 21, 22]) ∧
      SameRing (fullOnHeap.post [1, 2] 3 9).2 (fullObject.postToRemote [1, 2] 3 9).2.owned ∧
      (fullObject.postToRemote [1, 2] 3 9).2.owned.messageAt 1
        = some (⟨3, true, 9, 2⟩, [1, 2]) := by
  obtain ⟨hresult, -, -, hsame, -⟩ := post_eq_postToRemote fullOnHeap fullObject sameRing_full
    [1, 2] (by decide) (by decide) 3 9
  exact ⟨hresult, by decide +kernel, by decide +kernel, hsame, by decide +kernel⟩

end RemoteRing

end CoreRaT.Spec
