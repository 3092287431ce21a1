import CoreRaT.Proofs.Evl.Reach
import CoreRaT.Proofs.Ring.History
import CoreRaT.Proofs.Ring.Shm
import CoreRaT.Spec.PublicMailbox

/-!
# `CoreRaT.Proofs.Evl.Start`: what a mailbox finds in its ring

`allocate_ring` writes the layout into the object and nothing else. `shm_open` with `O_CREAT` opens
an object that exists as it is, and `ftruncate` keeps what it has. So a mailbox that is initialized
has the slots in use whose `in_use` bytes the object has had (`ringOf_initializeMailbox`). They lie
at the same addresses for all sizes of slots. The comment in `allocate_ring` says that the slots are
zero, which they are in a new object. `left_behind_received` has an object that is left behind.

From a ring without slots in use, a receive returns nothing but what has been posted since
(`received_posted`).
-/

set_option autoImplicit false

namespace CoreRaT.Spec

open CoreRaT.Lib

/-! ### Rings that start empty -/

namespace RingHistory

open EvlRing (Event)

/-- A ring without a history. -/
def ofRing (ring : EvlRing) : RingHistory where
  ring := ring
  cells := List.replicate ring.slots.length none
  posts := []
  receipts := []

/-- The messages in the slots and with the receivers have been posted in this history. -/
structure FromPosts (s : RingHistory) : Prop where
  cells_length : s.cells.length = s.ring.slots.length
  in_use : ∀ (idx : Nat) (m : SlotMeta), s.ring.slots[idx]? = some m → m.inUse = true →
    ∃ n < s.posts.length, s.cells[idx]? = some (some n)
  received : ∀ t ∈ s.receipts, ∃ n < s.posts.length, t.post = some n

variable {s : RingHistory}

theorem fromPosts_ofRing {ring : EvlRing} (h : ∀ m ∈ ring.slots, m.inUse = false) :
    (ofRing ring).FromPosts where
  cells_length := List.length_replicate
  in_use idx m hm huse := by
    rw [h m (List.mem_of_getElem? hm)] at huse
    cases huse
  received := nofun

theorem FromPosts.recordPost (h : s.FromPosts) (stored data : List UInt8) (priority : Int8)
    (src : MailboxId) :
    (s.recordPost (s.ring.post stored priority src) data priority src).FromPosts := by
  rcases s.ring.post_cases stored priority src with
    ⟨idx, m, hchoose, hyields, heq⟩ | ⟨hchoose, heq, -⟩
  · simp only [RingHistory.recordPost, hchoose, heq]
    refine ⟨?_, fun j a ha huse => ?_, fun t ht => ?_⟩
    · simp only [EvlRing.store, List.length_set, h.cells_length]
    · have hlt : idx < s.cells.length := h.cells_length ▸ hyields.lt
      simp only [EvlRing.store, List.length_append, List.length_singleton] at ha ⊢
      by_cases hj : j = idx
      · subst hj
        exact ⟨s.posts.length, Nat.lt_succ_self _, List.getElem?_set_self hlt⟩
      · rw [List.getElem?_set_ne (Ne.symm hj)] at ha
        obtain ⟨n, hn, hcell⟩ := h.in_use j a ha huse
        refine ⟨n, Nat.lt_succ_of_lt hn, ?_⟩
        rw [List.getElem?_set_ne (Ne.symm hj), hcell]
    · obtain ⟨n, hn, hpost⟩ := h.received t ht
      simp only [List.length_append, List.length_singleton]
      exact ⟨n, Nat.lt_succ_of_lt hn, hpost⟩
  · simp only [RingHistory.recordPost, hchoose, heq]
    refine ⟨h.cells_length, fun j a ha huse => ?_, fun t ht => ?_⟩
    · obtain ⟨n, hn, hcell⟩ := h.in_use j a ha huse
      simp only [List.length_append, List.length_singleton]
      exact ⟨n, Nat.lt_succ_of_lt hn, hcell⟩
    · obtain ⟨n, hn, hpost⟩ := h.received t ht
      simp only [List.length_append, List.length_singleton]
      exact ⟨n, Nat.lt_succ_of_lt hn, hpost⟩

theorem FromPosts.step (h : s.FromPosts) (e : Event) : (s.step e).FromPosts := by
  cases e with
  | post data priority src => exact h.recordPost data data priority src
  | postToRemote data priority src =>
    simp only [RingHistory.step, EvlRing.postToRemote_eq]
    exact h.recordPost _ data priority src
  | receive mailboxId bufferSize =>
    rcases s.ring.receive_cases mailboxId bufferSize with
      ⟨idx, m, hfound, hm, -, heq⟩ | ⟨heq, hno⟩
    · simp only [RingHistory.step, recordReceive, heq, hfound]
      obtain ⟨n, hn, hcell⟩ := h.in_use idx m hm (EvlRing.inUse_of_found hfound hm)
      have hlt : idx < s.ring.slots.length := (List.getElem?_eq_some_iff.mp hm).1
      refine ⟨?_, fun j a ha huse => ?_, fun t ht => ?_⟩
      · simp [EvlRing.release, h.cells_length]
      · by_cases hj : j = idx
        · -- The slot is free now.
          subst hj
          rw [EvlRing.getElem?_release_self hm, Option.some.injEq] at ha
          rw [← ha] at huse
          cases huse
        · rw [EvlRing.getElem?_release_of_ne _ hj] at ha
          obtain ⟨n, hn, hcell⟩ := h.in_use j a ha huse
          exact ⟨n, hn, by rw [List.getElem?_set_ne (Ne.symm hj), hcell]⟩
      · rcases List.mem_append.mp ht with hold | hnew
        · exact h.received t hold
        · obtain rfl := List.mem_singleton.mp hnew
          exact ⟨n, hn, by simp [hcell]⟩
    · simp only [RingHistory.step, recordReceive_eq_self heq hno]
      exact h

/-- From a ring without slots in use, every message that is received has been posted since. -/
theorem received_posted {ring : EvlRing} (hring : ∀ m ∈ ring.slots, m.inUse = false)
    (es : List Event) :
    ∀ t ∈ (runFrom step (ofRing ring) es).receipts,
      ∃ n < (runFrom step (ofRing ring) es).posts.length, t.post = some n :=
  (allStates_of_step (fun _ e h => h.step e) es (fromPosts_ofRing hring)).last.received

end RingHistory

/-! ### Initialization -/

namespace ShmHost

variable {w : ShmHost} {i : Nat} {a : InitAnswers}

/-- The ring of mailbox `i`, in the object that it maps. -/
def ringOf (w : ShmHost) (i : Nat) : Option MailboxRing :=
  w.mailboxes[i]?.bind fun m => m.shmBase.bind fun o => w.objects[o]?.map fun obj =>
    ⟨m.capacity, m.slotSize, .shm obj.bytes⟩

/-- No slot of mailbox `i` is in use. -/
def NoSlotInUse (w : ShmHost) (i : Nat) : Prop :=
  ∀ ring ∈ w.ringOf i, ∀ idx < ring.capacity, (ring.slotMetaAt idx).inUse = false

/-- The bytes that `shm_open` finds under the name of a mailbox. -/
def bytesOf (w : ShmHost) (id : MailboxId) : Option ByteMemory :=
  match w.names id with
  | none => some fun _ => 0
  | some o => w.objects[o]?.map ShmObject.bytes

/-- The `in_use` bytes of the ten slots are zero. -/
def Unused (bytes : ByteMemory) : Prop :=
  ∀ k < kSlots.toNat, bytes (sizeofShmLayout + k * sizeofSlotMeta + 1) = 0

instance (bytes : ByteMemory) : Decidable (Unused bytes) := inferInstanceAs (Decidable (∀ _ < _, _))

/-- The mailbox is initialized and has no slot in use, or it is not, and the object under its name,
if there is one, has no slot in use. -/
def StartsClean (w : ShmHost) (i : Nat) : Prop :=
  ∀ m ∈ w.mailboxes[i]?,
    if m.created then w.NoSlotInUse i else ∀ bytes ∈ w.bytesOf m.config.mailboxId, Unused bytes

/-- The ring that `allocate_ring` makes of an object. -/
def ringFrom (slotSize : UInt32) (bytes : ByteMemory) : MailboxRing where
  capacity := kSlots
  slotSize := slotSize
  storage := .shm (ShmLayout.save ⟨kSlots, slotSize⟩ fun addr =>
    if addr < shmTotal kSlots slotSize then bytes addr else 0)

/-- `shm_open` with `O_CREAT`. -/
theorem bytes_shmOpenCreate (w : ShmHost) (id : MailboxId) :
    ((w.shmOpenCreate id).2.objects[(w.shmOpenCreate id).1]?).map ShmObject.bytes
      = w.bytesOf id := by
  unfold shmOpenCreate bytesOf
  cases w.names id with
  | none => simp
  | some o => rfl

/-- The object that `allocate_ring` has mapped. -/
theorem objects_allocateRing (w : ShmHost) (m : PublicMailbox) (slotSize : UInt32)
    (a : InitAnswers) : ∀ m', (w.allocateRing m slotSize a).1 = some m' →
      ∃ o, m' = { m with shmBase := some o, capacity := kSlots, slotSize := slotSize } ∧
        ((w.allocateRing m slotSize a).2.objects[o]?).map
            (fun obj => (⟨kSlots, slotSize, .shm obj.bytes⟩ : MailboxRing))
          = (w.bytesOf m.config.mailboxId).map (ringFrom slotSize) := by
  simp only [allocateRing]
  split
  · intro m' h
    cases h
  · split
    · intro m' h
      cases h
    · split
      · intro m' h
        cases h
      · intro m' h
        refine ⟨_, (Option.some.inj h).symm, ?_⟩
        rw [← w.bytes_shmOpenCreate m.config.mailboxId]
        cases hobj : (w.shmOpenCreate m.config.mailboxId).2.objects[
            (w.shmOpenCreate m.config.mailboxId).1]? with
        | none => simp [List.getElem?_modify_eq, hobj]
        | some obj => simp [List.getElem?_modify_eq, hobj, ShmObject.ftruncate, ringFrom]

/-- After `initialize`, a mailbox that it has started has what the object under its name has had. -/
theorem ringOf_initializeMailbox (h : (w.initializeMailbox i a).1 = .SUCCESS) :
    ∃ m, w.mailboxes[i]? = some m ∧
      if m.created then (w.initializeMailbox i a).2 = w
      else (w.initializeMailbox i a).2.ringOf i
        = (w.bytesOf m.config.mailboxId).map (ringFrom (UInt32.ofNat m.config.maxMsgSize)) := by
  unfold initializeMailbox at h ⊢
  cases hm : w.mailboxes[i]? with
  | none => simp [hm] at h
  | some m =>
    refine ⟨m, rfl, ?_⟩
    simp only [hm] at h ⊢
    cases hcreated : m.created with
    | true => simp
    | false =>
      simp only [hcreated, Bool.false_eq_true, if_false] at h ⊢
      obtain ⟨hmailboxes, -⟩ := w.allocateRing_spec m (UInt32.ofNat m.config.maxMsgSize) a
      have hring := w.objects_allocateRing m (UInt32.ofNat m.config.maxMsgSize) a
      generalize w.allocateRing m (UInt32.ofNat m.config.maxMsgSize) a = res at *
      obtain ⟨_ | m', w'⟩ := res
      · simp at h
      · obtain ⟨o, rfl, hobjects⟩ := hring m' rfl
        have hlt : i < w'.mailboxes.length := by
          rw [hmailboxes]
          exact (List.getElem?_eq_some_iff.mp hm).1
        simp only at h ⊢
        split at h
        · cases h
        · split at h
          · cases h
          · rw [if_neg ‹_›, if_neg ‹_›]
            rw [← hobjects]
            simp [ringOf, setMailbox, hlt]

/-- The `in_use` bytes lie behind the layout and in front of the end, whatever the size of a slot.
-/
theorem inUse_ringFrom (slotSize : UInt32) (bytes : ByteMemory) {idx : UInt32}
    (h : idx < kSlots) :
    ((ringFrom slotSize bytes).slotMetaAt idx).inUse
      = (bytes (sizeofShmLayout + idx.toNat * sizeofSlotMeta + 1) != 0) := by
  have hlt : idx.toNat < 10 := UInt32.lt_iff_toNat_lt.mp h
  have hin : sizeofShmLayout + idx.toNat * sizeofSlotMeta + 1 < shmTotal kSlots slotSize := by
    have hslots : kSlots.toNat = 10 := rfl
    simp only [shmTotal, sizeofShmLayout, sizeofSlotMeta, hslots]
    omega
  have hlayout : (le32 kSlots ++ le32 slotSize).length = 8 := rfl
  simp only [ringFrom, MailboxRing.slotMetaAt, SlotMeta.load, ShmLayout.save]
  rw [ByteMemory.write_of_not_mem _ (by simp only [sizeofShmLayout]; omega), if_pos hin]

theorem noSlotInUse_ringFrom (slotSize : UInt32) (bytes : ByteMemory) :
    (∀ idx < (ringFrom slotSize bytes).capacity,
      ((ringFrom slotSize bytes).slotMetaAt idx).inUse = false) ↔ Unused bytes := by
  constructor
  · intro h k hk
    have hof : (UInt32.ofNat k).toNat = k :=
      Nat.mod_eq_of_lt (Nat.lt_trans hk kSlots.toNat_lt)
    have hidx : UInt32.ofNat k < kSlots := UInt32.lt_iff_toNat_lt.mpr (hof.symm ▸ hk)
    have huse := h _ hidx
    rw [inUse_ringFrom _ _ hidx, hof] at huse
    simpa using huse
  · intro h idx hidx
    rw [inUse_ringFrom _ _ hidx, h idx.toNat (UInt32.lt_iff_toNat_lt.mp hidx)]
    rfl

/-- A successful `initialize` leaves no slot in use exactly when there has been none. -/
theorem noSlotInUse_iff (h : (w.initializeMailbox i a).1 = .SUCCESS) :
    (w.initializeMailbox i a).2.NoSlotInUse i ↔ w.StartsClean i := by
  obtain ⟨m, hm, hafter⟩ := ringOf_initializeMailbox h
  simp only [StartsClean, hm, Option.mem_some_iff, forall_eq']
  split at hafter
  · rename_i hcreated
    rw [hafter, if_pos hcreated]
  · rename_i hcreated
    rw [if_neg hcreated, NoSlotInUse, hafter]
    cases w.bytesOf m.config.mailboxId with
    | none => simp
    | some bytes =>
      simp only [Option.map_some, Option.mem_some_iff, forall_eq', noSlotInUse_ringFrom]

/-- The slots of a ring without a slot in use. -/
theorem NoSlotInUse.slots (h : w.NoSlotInUse i) {ring : MailboxRing} (hring : ring ∈ w.ringOf i) :
    ∀ m ∈ ring.view.slots, m.inUse = false := by
  intro m hm
  obtain ⟨k, hk, rfl⟩ := List.mem_map.mp hm
  have hlt : k < ring.capacity.toNat := List.mem_range.mp hk
  have hof : (UInt32.ofNat k).toNat = k :=
    Nat.mod_eq_of_lt (Nat.lt_trans hlt ring.capacity.toNat_lt)
  exact h ring hring _ (UInt32.lt_iff_toNat_lt.mpr (hof.symm ▸ hlt))

/-- After a successful `initialize`, no slot is in use, and every message that is received has been
posted since, exactly when the mailbox was initialized without a slot in use, or the object under
its name, if there was one, had no slot in use. -/
theorem startsEmpty_iff (w : ShmHost) (i : Nat) (a : InitAnswers)
    (h : (w.initializeMailbox i a).1 = .SUCCESS) :
    ((w.initializeMailbox i a).2.NoSlotInUse i ∧
      ∀ ring ∈ (w.initializeMailbox i a).2.ringOf i, ∀ es : List EvlRing.Event,
        ∀ t ∈ (runFrom RingHistory.step (.ofRing ring.view) es).receipts,
          ∃ n < (runFrom RingHistory.step (.ofRing ring.view) es).posts.length, t.post = some n) ↔
      w.StartsClean i := by
  rw [← noSlotInUse_iff h]
  constructor
  · exact And.left
  · intro hempty
    exact ⟨hempty, fun ring hring es => RingHistory.received_posted (hempty.slots hring) es⟩

/-- The object of an earlier mailbox with slots of 16 bytes. Its only message, of one byte from 9,
has been received. -/
def otherSize : ShmHost :=
  .init (fun id => if id = 7 then some 0 else none)
    [⟨296, fun addr =>
      if addr = 0 then 10 else if addr = 4 then 16 else if addr = 20 then 9
      else if addr = 24 then 1 else if addr = 136 then 42 else 0⟩]
    [(⟨7, 64, 0⟩, 16)]

/-- The object gets the size for slots of 64 bytes, and the mailbox starts without a message. -/
theorem startsEmpty_otherSize :
    (otherSize.initializeMailbox 0 .good).1 = .SUCCESS ∧
      (otherSize.initializeMailbox 0 .good).2.objects.map ShmObject.size = [776] ∧
      (otherSize.initializeMailbox 0 .good).2.NoSlotInUse 0 ∧
      ∃ ring ∈ (otherSize.initializeMailbox 0 .good).2.ringOf 0, ∀ es : List EvlRing.Event,
        ∀ t ∈ (runFrom RingHistory.step (.ofRing ring.view) es).receipts,
          ∃ n < (runFrom RingHistory.step (.ofRing ring.view) es).posts.length,
            t.post = some n := by
  have hok : (otherSize.initializeMailbox 0 .good).1 = .SUCCESS := by decide
  have hclean : otherSize.StartsClean 0 := by
    intro m hm
    obtain rfl := Option.some.inj hm
    intro bytes hbytes
    obtain rfl := Option.some.inj hbytes
    decide
  obtain ⟨hempty, hposted⟩ := (startsEmpty_iff otherSize 0 .good hok).mpr hclean
  exact ⟨hok, by decide, hempty, _, rfl, hposted _ rfl⟩

/-- The object of a mailbox that has crashed: in slot 0 there is a message of one byte, from 9. -/
def leftBehind : ShmHost :=
  .init (fun id => if id = 7 then some 0 else none)
    [⟨776, fun addr =>
      if addr = 17 then 1 else if addr = 20 then 9 else if addr = 24 then 1
      else if addr = 136 then 42 else 0⟩]
    [(⟨7, 64, 0⟩, 16)]

/-- The mailbox starts, and what it receives first is from before. -/
theorem left_behind_received :
    (leftBehind.initializeMailbox 0 .good).1 = .SUCCESS ∧
      ∃ ring ∈ (leftBehind.initializeMailbox 0 .good).2.ringOf 0,
        (ring.slotMetaAt 0).inUse = true ∧
          (ring.receive 7 64).1 = .message [42] ⟨9, 7, 0, 0, 0⟩ := by
  refine ⟨by decide, _, rfl, ?_, ?_⟩
  · decide
  · decide

end ShmHost

end CoreRaT.Spec
