import CoreRaT.Lib.Run
import CoreRaT.Proofs.Ring.Slots

/-!
# `CoreRaT.Proofs.Ring.Admission`: a message for a full ring

When all slots are in use, `post` drops a message of the lowest priority, if the new one has at
least this priority. `evict_lowest` starts its search from the priority 127 and takes a slot only if
its priority is below. So in a ring with messages of priority 127 alone it finds none, and a further
message of priority 127 is refused: `highest_refused`.

`admission_iff` is exact. The policy is kept whenever a slot has a priority below 127 or the new
message has, and the bytes of the new message do not change those of another one. They do not when
the message fits into a slot and no address wraps (`leavesOthers_of_fits`).
-/

set_option autoImplicit false

namespace CoreRaT.Spec

open CoreRaT.Lib

namespace EvlRing

/-- The message in slot `j`: its metadata and its bytes. -/
def messageAt (r : EvlRing) (j : Nat) : Option (SlotMeta × List UInt8) :=
  r.slots[j]?.map fun m => (m, r.payload.read (r.slotPtr j) m.size.toNat)

/-- The policy for a full ring, for one message. -/
structure Admission (r : EvlRing) (data : List UInt8) (priority : Int8) (src : MailboxId) :
    Prop where
  /-- It is posted exactly when its priority is at least the lowest one. -/
  ok_iff : (r.post data priority src).1 = true ↔
    ∃ m ∈ r.slots, (∀ m' ∈ r.slots, m.priority ≤ m'.priority) ∧ m.priority ≤ priority
  /-- Then it takes the slot of a message of the lowest priority, and all others stay. -/
  evicted : (r.post data priority src).1 = true → ∃ idx m, (r.chooseSlot priority).1 = some idx ∧
    r.slots[idx]? = some m ∧ (∀ m' ∈ r.slots, m.priority ≤ m'.priority) ∧
    (r.post data priority src).2.slots[idx]?
      = some ⟨priority, true, src, UInt32.ofNat data.length⟩ ∧
    ∀ j, j ≠ idx → (r.post data priority src).2.messageAt j = r.messageAt j
  refused : (r.post data priority src).1 = false → (r.post data priority src).2 = r

/-- The first of the messages with the lowest priority is in slot `idx`. -/
def Lowest (r : EvlRing) (idx : Nat) (m : SlotMeta) : Prop :=
  r.slots[idx]? = some m ∧ (∀ m' ∈ r.slots, m.priority ≤ m'.priority) ∧
    ∀ j m', j < idx → r.slots[j]? = some m' → m.priority < m'.priority

theorem Lowest.unique {r : EvlRing} {i j : Nat} {m m' : SlotMeta} (hi : r.Lowest i m)
    (hj : r.Lowest j m') : i = j := by
  rcases Nat.lt_trichotomy i j with hlt | heq | hgt
  · exact absurd (hj.2.2 i m hlt hi.1) (Int8.not_lt.mpr (hi.2.1 m' (List.mem_of_getElem? hj.1)))
  · exact heq
  · exact absurd (hi.2.2 j m' hgt hj.1) (Int8.not_lt.mpr (hj.2.1 m (List.mem_of_getElem? hi.1)))

/-- In place of the first message with the lowest priority, if that one has to give way, the new
bytes do not change a byte of another message. -/
def LeavesOthers (r : EvlRing) (data : List UInt8) (priority : Int8) : Prop :=
  ∀ idx m, r.Lowest idx m → m.priority ≤ priority → ∀ j m', j ≠ idx → r.slots[j]? = some m' →
    ∀ k b, data[k]? = some b → r.slotPtr j ≤ r.slotPtr idx + k →
      r.slotPtr idx + k < r.slotPtr j + m'.size.toNat → r.payload (r.slotPtr idx + k) = b

/-- Messages that fit into their slots leave each other alone. -/
theorem leavesOthers_of_fits {r : EvlRing} (h : r.Unwrapped)
    (hsizes : ∀ m ∈ r.slots, m.size ≤ r.slotSize) {data : List UInt8}
    (hfits : data.length ≤ r.slotSize.toNat) (priority : Int8) : r.LeavesOthers data priority := by
  intro idx m hlowest _ j m' hne hj k b hk hge hlt
  have hidx : idx < r.slots.length := (List.getElem?_eq_some_iff.mp hlowest.1).1
  have hjlt : j < r.slots.length := (List.getElem?_eq_some_iff.mp hj).1
  have hklt : k < data.length := (List.getElem?_eq_some_iff.mp hk).1
  have hsize : m'.size.toNat ≤ r.slotSize.toNat :=
    UInt32.le_iff_toNat_le.mp (hsizes m' (List.mem_of_getElem? hj))
  have hdisjoint := h.slotPtr_disjoint hidx hjlt (Ne.symm hne)
  omega

/-- Storing a message in slot `idx` leaves the one in slot `j` alone exactly when the new bytes that
fall into it are those that were there. -/
theorem messageAt_store_iff (r : EvlRing) {idx j : Nat} (hj : j ≠ idx) (data : List UInt8)
    (m : SlotMeta) :
    (r.store idx data m).messageAt j = r.messageAt j ↔
      ∀ m', r.slots[j]? = some m' → ∀ k b, data[k]? = some b →
        r.slotPtr j ≤ r.slotPtr idx + k → r.slotPtr idx + k < r.slotPtr j + m'.size.toNat →
        r.payload (r.slotPtr idx + k) = b := by
  have hslot : (r.store idx data m).slots[j]? = r.slots[j]? := by
    simp [store, Ne.symm hj]
  unfold messageAt
  rw [hslot, slotPtr_store]
  cases r.slots[j]? with
  | none => simp
  | some a =>
    simp only [Option.map_some, Option.some.injEq, Prod.mk.injEq, true_and, forall_eq']
    exact ByteMemory.read_write_eq_iff

/-- What `post` does when all slots are in use. It takes the slot of the first message with the
lowest priority, if that one is below 127 and not above the priority of the new message. -/
theorem post_full {r : EvlRing} (hfull : ∀ m ∈ r.slots, m.inUse = true) (data : List UInt8)
    (priority : Int8) (src : MailboxId) :
    (∃ idx m, r.Lowest idx m ∧ m.priority < Int8.maxValue ∧ m.priority ≤ priority ∧
      (r.chooseSlot priority).1 = some idx ∧ r.post data priority src
        = (true, r.store idx data ⟨priority, true, src, UInt32.ofNat data.length⟩)) ∨
    (r.post data priority src = (false, r) ∧
      ((∀ m ∈ r.slots, m.priority = Int8.maxValue) ∨ ∀ m ∈ r.slots, priority < m.priority)) := by
  have hfree : r.findFreeSlot = none := findFreeSlot_eq_none.mpr hfull
  simp only [post, chooseSlot, hfree, evictLowest]
  rcases lowestLoop_cases r.slots 0 none Int8.maxValue with
    ⟨heq, hle⟩ | ⟨k, m, heq, hk, -, hlt, hle, hfirst⟩
  · right
    refine ⟨by rw [heq], Or.inl ?_⟩
    intro m hm
    exact Int8.le_antisymm (Int8.le_maxValue _) (hle m hm (hfull m hm))
  · have hlowest : ∀ m' ∈ r.slots, m.priority ≤ m'.priority := fun m' hm' =>
      hle m' hm' (hfull m' hm')
    rw [heq, Nat.zero_add]
    by_cases hprio : m.priority ≤ priority
    · left
      refine ⟨k, m, ⟨hk, hlowest, ?_⟩, hlt, hprio, by simp [hprio], by simp [hprio, store_release]⟩
      intro j m' hj hm'
      exact hfirst j m' hj hm' (hfull m' (List.mem_of_getElem? hm'))
    · right
      refine ⟨by simp [hprio], Or.inr ?_⟩
      intro m' hm'
      exact Int8.lt_of_lt_of_le (Int8.not_le.mp hprio) (hlowest m' hm')

/-- When the message takes the slot of the first message with the lowest priority, all that is left
to ask is that it changes no other one. -/
theorem admission_of_posted {r : EvlRing} {data : List UInt8} {priority : Int8} {src : MailboxId}
    {idx : Nat} {m : SlotMeta} (hlowest : r.Lowest idx m) (hprio : m.priority ≤ priority)
    (hchoose : (r.chooseSlot priority).1 = some idx)
    (heq : r.post data priority src
      = (true, r.store idx data ⟨priority, true, src, UInt32.ofNat data.length⟩)) :
    r.Admission data priority src ↔ r.LeavesOthers data priority := by
  have hm : m ∈ r.slots := List.mem_of_getElem? hlowest.1
  have hidx : idx < r.slots.length := (List.getElem?_eq_some_iff.mp hlowest.1).1
  constructor
  · intro h i a hi _ j m' hj hm'
    obtain ⟨i', -, hchoose', -, -, -, hothers⟩ := h.evicted (by rw [heq])
    -- There is one slot only that is the first with the lowest priority.
    obtain rfl : i = idx := hi.unique hlowest
    obtain rfl : i = i' := Option.some.inj (hchoose.symm.trans hchoose')
    rw [heq] at hothers
    exact (messageAt_store_iff r hj data _).mp (hothers j hj) m' hm'
  · intro hleaves
    refine ⟨?_, ?_, ?_⟩
    · rw [heq]
      exact iff_of_true rfl ⟨m, hm, hlowest.2.1, hprio⟩
    · intro _
      refine ⟨idx, m, hchoose, hlowest.1, hlowest.2.1, ?_, ?_⟩
      · rw [heq]
        simp [store, hidx]
      · intro j hj
        rw [heq]
        exact (messageAt_store_iff r hj data _).mpr fun m' => hleaves idx m hlowest hprio j m' hj
    · rw [heq]
      simp

/-- It is right to refuse a message when all others have a higher priority. -/
theorem admission_of_higher {r : EvlRing} {data : List UInt8} {priority : Int8} {src : MailboxId}
    (heq : r.post data priority src = (false, r)) (hhigher : ∀ m ∈ r.slots, priority < m.priority) :
    r.Admission data priority src ∧ r.LeavesOthers data priority := by
  have hno : ∀ m ∈ r.slots, ¬ m.priority ≤ priority := fun m hm =>
    Int8.not_le.mpr (hhigher m hm)
  refine ⟨⟨?_, ?_, ?_⟩, ?_⟩
  · rw [heq]
    refine iff_of_false Bool.false_ne_true ?_
    rintro ⟨m, hm, -, hle⟩
    exact hno m hm hle
  · simp [heq]
  · simp [heq]
  · intro idx m hlowest hle
    exact absurd hle (hno m (List.mem_of_getElem? hlowest.1))

/-- It is not right when no message has a higher priority. -/
theorem not_admission_of_highest {r : EvlRing} {data : List UInt8} {priority : Int8}
    {src : MailboxId} (hne : r.slots ≠ []) (heq : r.post data priority src = (false, r))
    (hmax : ∀ m ∈ r.slots, m.priority = Int8.maxValue) (hprio : Int8.maxValue ≤ priority) :
    ¬ r.Admission data priority src := by
  intro h
  obtain ⟨a, ha⟩ := List.exists_mem_of_ne_nil _ hne
  have hlowest : ∀ m ∈ r.slots, a.priority ≤ m.priority := by
    intro m hm
    rw [hmax a ha, hmax m hm]
    exact Int8.le_refl _
  have hok := h.ok_iff.mpr ⟨a, ha, hlowest, (hmax a ha).symm ▸ hprio⟩
  rw [heq] at hok
  cases hok

/-- **Admission to a full ring.** Take a ring of any size in which all slots are in use, with any
priorities, and a message of any priority. The policy is kept exactly when the new message or one of
the ring has a priority below 127, and the new bytes change no other message. -/
theorem admission_iff (r : EvlRing) (data : List UInt8) (priority : Int8) (src : MailboxId)
    (hne : r.slots ≠ []) (hfull : ∀ m ∈ r.slots, m.inUse = true) :
    r.Admission data priority src ↔
      (priority < Int8.maxValue ∨ ∃ m ∈ r.slots, m.priority < Int8.maxValue) ∧
        r.LeavesOthers data priority := by
  rcases post_full hfull data priority src with
    ⟨idx, m, hlowest, hlt, hprio, hchoose, heq⟩ | ⟨heq, hnone⟩
  · rw [admission_of_posted hlowest hprio hchoose heq]
    exact (and_iff_right (Or.inr ⟨m, List.mem_of_getElem? hlowest.1, hlt⟩)).symm
  · by_cases hprio : priority < Int8.maxValue
    · have hhigher : ∀ m ∈ r.slots, priority < m.priority := by
        rcases hnone with hmax | hhigher
        · exact fun m hm => hmax m hm ▸ hprio
        · exact hhigher
      obtain ⟨hadmission, hleaves⟩ := admission_of_higher heq hhigher
      exact iff_of_true hadmission ⟨Or.inl hprio, hleaves⟩
    · have hmax : ∀ m ∈ r.slots, m.priority = Int8.maxValue := by
        rcases hnone with hmax | hhigher
        · exact hmax
        · obtain ⟨a, ha⟩ := List.exists_mem_of_ne_nil _ hne
          exact absurd (Int8.lt_of_lt_of_le (hhigher a ha) (Int8.le_maxValue _)) hprio
      refine iff_of_false (not_admission_of_highest hne heq hmax (Int8.not_lt.mp hprio)) ?_
      rintro ⟨hlt | ⟨m, hm, hlt⟩, -⟩
      · exact hprio hlt
      · exact Int8.ne_of_lt hlt (hmax m hm)

/-- A ring of two slots, with the priorities 3 and 5. -/
def twoPriorities : EvlRing :=
  runFrom step (allocateRing 2 4 fun _ => 0) [.post [1] 3 6, .post [2] 5 6]

theorem admission_twoPriorities : twoPriorities.Admission [7] 4 6 :=
  (admission_iff twoPriorities [7] 4 6 (by decide) (by decide)).mpr
    ⟨by decide, leavesOthers_of_fits (by unfold Unwrapped; decide) (by decide) (by decide) 4⟩

/-- The ring of a mailbox, with a message of priority 127 in each slot. -/
def fullOfHighest : EvlRing :=
  runFrom step (ofConfig ⟨9, 4, 0⟩ fun _ => 0) (List.replicate 10 (.post [1] 127 6))

/-- A further message of priority 127 is refused, although no priority in the ring is higher. -/
theorem highest_refused :
    ¬ fullOfHighest.Admission [7] 127 6 ∧ (fullOfHighest.post [7] 127 6).1 = false ∧
      fullOfHighest.slots.map (·.priority) = List.replicate 10 127 := by
  have hpost : (fullOfHighest.post [7] 127 6).1 = false := by decide
  refine ⟨?_, hpost, by decide⟩
  intro h
  have hok := h.ok_iff.mpr (by decide)
  rw [hpost] at hok
  cases hok

end EvlRing

end CoreRaT.Spec
