import CoreRaT.Lib.Run
import CoreRaT.Proofs.Ring.Slots

/-!
# `CoreRaT.Proofs.Ring.Isolation`: a message stays in its slot

`send_raw` compares the size of a message with the `max_msg_size` of the sender. The slots of the
ring have the size of the receiver. `post` copies the whole message, over the end of the slot if
it is too short, and `post_to_remote` cuts the message off and reports success.

`send_isolated_iff` is exact. A message that is sent with success lies in its slot, all other
slots are as they were, and a receive gives it back, exactly when it fits into a slot of the
destination and its bytes do not change a slot that shares memory with its own. Slots share memory
only when `idx * slot_size` wraps (`noClobber_of_unwrapped`).
-/

set_option autoImplicit false

namespace CoreRaT.Spec

open CoreRaT.Lib

namespace EvlRing

/-- The payload bytes of slot `idx`. -/
def slotBytes (r : EvlRing) (idx : Nat) : List UInt8 :=
  r.payload.read (r.slotPtr idx) r.slotSize.toNat

/-- A receive that takes slot `idx`, now or at any later time at which the slot is still as it is
now, returns these bytes. -/
def GivesBack (r : EvlRing) (idx : Nat) (data : List UInt8) : Prop :=
  ∀ (later : EvlRing) (mailboxId : MailboxId) (bufferSize : Nat),
    later.slotSize = r.slotSize → later.slots[idx]? = r.slots[idx]? →
    later.slotBytes idx = r.slotBytes idx → later.findHighestPrioritySlot = some idx →
    data.length ≤ bufferSize →
    ∃ metadata, (later.receive mailboxId bufferSize).1 = .message data metadata

/-- From `r` to `r'`, the message has been stored in slot `idx`, and nothing else has changed. -/
structure StoredAt (r r' : EvlRing) (idx : Nat) (data : List UInt8) (priority : Int8)
    (src : MailboxId) : Prop where
  fits : data.length ≤ r.slotSize.toNat
  /-- The recorded size is the size sent. -/
  slot : ∃ m, r'.slots[idx]? = some m ∧ m.inUse = true ∧ m.priority = priority ∧ m.src = src ∧
    m.size.toNat = data.length
  bytes : r'.payload.read (r'.slotPtr idx) data.length = data
  outside : ∀ a, a < r'.slotPtr idx ∨ r'.slotPtr idx + data.length ≤ a →
    r'.payload a = r.payload a
  other_slots : ∀ j, j ≠ idx → r'.slots[j]? = r.slots[j]?
  other_bytes : ∀ j, j < r.slots.length → j ≠ idx → r'.slotBytes j = r.slotBytes j
  gives_back : r'.GivesBack idx data

/-- The message is stored in the slot that was chosen for it, and nothing else has changed. -/
def Isolated (r r' : EvlRing) (data : List UInt8) (priority : Int8) (src : MailboxId) : Prop :=
  ∃ idx, (r.chooseSlot priority).1 = some idx ∧ r.StoredAt r' idx data priority src

/-- The bytes of the message do not change a byte of another slot. -/
def NoClobber (r : EvlRing) (priority : Int8) (data : List UInt8) : Prop :=
  ∀ idx, (r.chooseSlot priority).1 = some idx → ∀ j, j < r.slots.length → j ≠ idx →
    ∀ k b, data[k]? = some b → r.slotPtr j ≤ r.slotPtr idx + k →
      r.slotPtr idx + k < r.slotPtr j + r.slotSize.toNat → r.payload (r.slotPtr idx + k) = b

/-- When no address wraps, a message that fits stays inside its slot. -/
theorem noClobber_of_unwrapped {r : EvlRing} (h : r.Unwrapped) {priority : Int8}
    {data : List UInt8} (hfits : data.length ≤ r.slotSize.toNat) : r.NoClobber priority data := by
  intro idx hidx j hj hne k b hk hge hlt
  have hlen : k < data.length := (List.getElem?_eq_some_iff.mp hk).1
  have hidx' : idx < r.slots.length := by
    rcases r.chooseSlot_cases priority with ⟨i, m, hyields, heq⟩ | ⟨heq, -⟩
    · rw [heq] at hidx
      obtain rfl : i = idx := by simpa using hidx
      exact hyields.lt
    · rw [heq] at hidx
      cases hidx
  have hdisjoint := h.slotPtr_disjoint hidx' hj (Ne.symm hne)
  omega

/-- A slot with the recorded size of the message gives the message back. -/
theorem givesBack_of_bytes {r : EvlRing} {idx : Nat} {data : List UInt8} {m : SlotMeta}
    (hm : r.slots[idx]? = some m) (hsize : m.size.toNat = data.length)
    (hfits : data.length ≤ r.slotSize.toNat)
    (hbytes : r.payload.read (r.slotPtr idx) data.length = data) : r.GivesBack idx data := by
  intro later mailboxId bufferSize hslotSize hslot hsame hfound hbuffer
  have hptr : later.slotPtr idx = r.slotPtr idx := by
    unfold slotPtr
    rw [hslotSize]
  -- The bytes that were read then are the first bytes of the slot now.
  have hread : later.payload.read (later.slotPtr idx) data.length
      = r.payload.read (r.slotPtr idx) data.length := by
    simp only [slotBytes, hslotSize, hptr] at hsame
    rw [hptr]
    rw [ByteMemory.read_eq_read_iff] at hsame ⊢
    intro k hk
    exact hsame k (by omega)
  rw [receive_of_found hfound (hslot.trans hm), if_neg (by omega), hsize, hread, hbytes]
  exact ⟨_, rfl⟩

/-- Storing a message isolates it exactly when it fits and clobbers nothing. -/
theorem storedAt_store_iff {r : EvlRing} {idx : Nat} (hidx : idx < r.slots.length)
    {data : List UInt8} (hfits : data.length ≤ r.slotSize.toNat) (priority : Int8)
    (src : MailboxId) :
    r.StoredAt (r.store idx data ⟨priority, true, src, UInt32.ofNat data.length⟩) idx data priority
        src ↔
      ∀ j, j < r.slots.length → j ≠ idx → ∀ k b, data[k]? = some b →
        r.slotPtr j ≤ r.slotPtr idx + k → r.slotPtr idx + k < r.slotPtr j + r.slotSize.toNat →
        r.payload (r.slotPtr idx + k) = b := by
  have hsize : (UInt32.ofNat data.length).toNat = data.length :=
    UInt32.toNat_ofNat_of_lt' (Nat.lt_of_le_of_lt hfits r.slotSize.toNat_lt)
  have hslot : (r.slots.set idx ⟨priority, true, src, UInt32.ofNat data.length⟩)[idx]?
      = some ⟨priority, true, src, UInt32.ofNat data.length⟩ := by
    simp [hidx]
  have hread := r.payload.read_write_self (r.slotPtr idx) data
  constructor
  · intro h j hj hne
    exact ByteMemory.read_write_eq_iff.mp (h.other_bytes j hj hne)
  · intro h
    refine ⟨hfits, ⟨_, hslot, rfl, rfl, rfl, hsize⟩, hread, ?_, ?_, ?_, ?_⟩
    · intro a ha
      exact r.payload.write_of_not_mem ha
    · intro j hne
      simp [store, Ne.symm hne]
    · intro j hj hne
      exact ByteMemory.read_write_eq_iff.mpr (h j hj hne)
    · exact givesBack_of_bytes hslot hsize hfits hread

/-- A send that succeeds has put the message. -/
theorem put_of_success {δ : Type} {config : TimsConfig}
    {put : δ → List UInt8 → Int8 → MailboxId → Bool × δ} {r r' : δ}
    {data : List UInt8} {priority : Int8}
    (hsend : evlSendRaw config put r data priority = (.SUCCESS, r')) :
    put r data priority config.mailboxId = (true, r') := by
  unfold evlSendRaw at hsend
  generalize put r data priority config.mailboxId = res at hsend
  obtain ⟨ok, r''⟩ := res
  split at hsend
  · cases hsend
  · cases ok with
    | false => cases hsend
    | true =>
      simp only [Prod.mk.injEq, true_and] at hsend
      rw [hsend]

/-- A message that fits goes into its slot as it is, on either path. -/
theorem put_eq_post (path : RingPath) {r : EvlRing} {data : List UInt8}
    (hfits : data.length ≤ r.slotSize.toNat) (priority : Int8) (src : MailboxId) :
    path.put r data priority src = r.post data priority src := by
  cases path with
  | sameProcess => rfl
  | otherProcess => exact postToRemote_eq_post hfits priority src

/-- **Slot isolation.** Take a sender and a ring in any state, with any sizes, and a message that
`send_raw` has posted with success. It lies in its slot, all other slots are as they were, and a
receive returns it, exactly when it fits into a slot of the ring and changes no byte of another
slot. -/
theorem send_isolated_iff (config : TimsConfig) (path : RingPath) (r r' : EvlRing)
    (data : List UInt8) (priority : Int8)
    (hsend : evlSendRaw config path.put r data priority = (.SUCCESS, r')) :
    r.Isolated r' data priority config.mailboxId ↔
      data.length ≤ r.slotSize.toNat ∧ r.NoClobber priority data := by
  by_cases hfits : data.length ≤ r.slotSize.toNat
  · simp only [hfits, true_and]
    have hpost := put_of_success hsend
    rw [put_eq_post path hfits] at hpost
    rcases r.post_cases data priority config.mailboxId with
      ⟨idx, m, hchoose, hyields, heq⟩ | ⟨-, heq, -⟩
    · obtain rfl : r.store idx data
          ⟨priority, true, config.mailboxId, UInt32.ofNat data.length⟩ = r' :=
        (Prod.mk.inj (heq.symm.trans hpost)).2
      simp only [Isolated, NoClobber, hchoose, Option.some.injEq, forall_eq', exists_eq_left']
      exact storedAt_store_iff hyields.lt hfits priority config.mailboxId
    · rw [heq] at hpost
      cases hpost
  · -- The recorded size cannot be both the size sent and at most the size of a slot.
    refine iff_of_false ?_ fun h => hfits h.1
    rintro ⟨idx, -, hstored⟩
    exact hfits hstored.fits

/-- The ring of a mailbox with messages of at most 4 bytes. Two messages came in and the first one
has been received, so slot 0 is free and slot 1 is in use. -/
def shortSlots : EvlRing :=
  runFrom step (ofConfig ⟨9, 4, 0⟩ fun _ => 0)
    [.post [7, 7, 7, 7] 0 3, .post [7, 7, 7, 7] 0 3, .receive 9 64]

/-- A mailbox with messages of up to 64 bytes. -/
def longSender : TimsConfig := ⟨5, 64, 0⟩

/-- It sends 6 bytes. In the same process they run over into slot 1, whose message is still to be
received. From another process 4 bytes arrive, and the sender is told that all is well. -/
theorem long_message_clobbers :
    (∀ r', evlSendRaw longSender RingPath.sameProcess.put shortSlots [1, 2, 3, 4, 5, 6] 0
        = (.SUCCESS, r') →
      ¬ shortSlots.Isolated r' [1, 2, 3, 4, 5, 6] 0 5) ∧
      (evlSendRaw longSender RingPath.sameProcess.put shortSlots [1, 2, 3, 4, 5, 6] 0).1
        = .SUCCESS ∧
      shortSlots.slotBytes 1 = [7, 7, 7, 7] ∧
      (evlSendRaw longSender RingPath.sameProcess.put shortSlots [1, 2, 3, 4, 5, 6] 0).2.slotBytes 1
        = [5, 6, 7, 7] ∧
      (evlSendRaw longSender RingPath.otherProcess.put shortSlots [1, 2, 3, 4, 5, 6] 0).1
        = .SUCCESS ∧
      ((evlSendRaw longSender RingPath.otherProcess.put shortSlots
          [1, 2, 3, 4, 5, 6] 0).2.receive 9 64).1
        = .message [1, 2, 3, 4] ⟨5, 9, 0, 0, 0⟩ := by
  refine ⟨?_, by decide, by decide, by decide, by decide, by decide⟩
  rintro r' - ⟨idx, -, hstored⟩
  exact absurd hstored.fits (by decide)

theorem short_message_isolated :
    shortSlots.Isolated (evlSendRaw longSender RingPath.sameProcess.put shortSlots [1, 2, 3] 0).2
      [1, 2, 3] 0 longSender.mailboxId := by
  refine (send_isolated_iff longSender .sameProcess shortSlots _ [1, 2, 3] 0 (by rfl)).mpr ?_
  exact ⟨by decide, noClobber_of_unwrapped (by unfold Unwrapped; decide) (by decide)⟩

end EvlRing

end CoreRaT.Spec
