import Mathlib.Data.List.Basic
import CoreRaT.Proofs.Ring.Shm

/-!
# `CoreRaT.Proofs.Ring.View`: a ring in memory as a list of slots

`view_post` is the bridge from `post` on the memory of a ring to `post` on the list of slots of
`CoreRaT.Spec.EvlRing`. It needs a capacity of at most 2^31. A slot index above that is a negative
`int`, and both paths take it for a full ring.
-/

set_option autoImplicit false

namespace CoreRaT.Spec

open CoreRaT.Lib

namespace MailboxRing

/-- `worst` or `idx`, for a slot index of `CoreRaT.Spec.EvlRing`. -/
def intOfSlot : Option Nat → Int32
  | none => -1
  | some k => (UInt32.ofNat k).toInt32

/-- `n` slots from slot `i` on. -/
def slotsFrom (r : MailboxRing) (i n : Nat) : List SlotMeta :=
  (List.range' i n).map fun k => r.slotMetaAt (UInt32.ofNat k)

theorem slots_view (r : MailboxRing) : r.view.slots = r.slotsFrom 0 r.capacity.toNat := by
  simp [view, slotsFrom, List.range_eq_range']

theorem slotsFrom_succ (r : MailboxRing) (i n : Nat) :
    r.slotsFrom i (n + 1) = r.slotMetaAt (UInt32.ofNat i) :: r.slotsFrom (i + 1) n := by
  simp [slotsFrom, List.range'_succ]

theorem freeLoop_eq (r : MailboxRing) (n i : Nat) :
    r.freeLoop n (UInt32.ofNat i)
      = intOfSlot (((r.slotsFrom i n).findIdx? (!·.inUse)).map (i + ·)) := by
  induction n generalizing i with
  | zero => rfl
  | succ n ih =>
    have hnext : UInt32.ofNat i + 1 = UInt32.ofNat (i + 1) := by simp
    rw [freeLoop, slotsFrom_succ, List.findIdx?_cons, hnext, ih]
    cases (r.slotMetaAt (UInt32.ofNat i)).inUse with
    | false => simp [intOfSlot]
    | true => simp [Function.comp_def, Nat.add_assoc, Nat.add_comm 1]

theorem lowestLoop_eq (r : MailboxRing) (n i : Nat) (worst : Option Nat) (prio : Int8) :
    r.lowestLoop n (UInt32.ofNat i) (intOfSlot worst) prio
      = (intOfSlot (EvlRing.lowestLoop i worst prio (r.slotsFrom i n)).1,
        (EvlRing.lowestLoop i worst prio (r.slotsFrom i n)).2) := by
  induction n generalizing i worst prio with
  | zero => rfl
  | succ n ih =>
    have hnext : UInt32.ofNat i + 1 = UInt32.ofNat (i + 1) := by simp
    rw [lowestLoop, slotsFrom_succ, EvlRing.lowestLoop, hnext]
    split
    · exact ih (i + 1) (some i) _
    · exact ih (i + 1) worst prio

theorem getElem?_slots_view (r : MailboxRing) {i : UInt32} (hi : i < r.capacity) :
    r.view.slots[i.toNat]? = some (r.slotMetaAt i) := by
  have hlt : i.toNat < r.capacity.toNat := UInt32.lt_iff_toNat_lt.mp hi
  simp [view, hlt]

/-- Two rings that differ in the metadata of slot `i` only. -/
theorem slots_view_of_modify {r r' : MailboxRing} {i : UInt32} {f : SlotMeta → SlotMeta}
    (hcapacity : r'.capacity = r.capacity)
    (h : ∀ j, j < r.capacity →
      r'.slotMetaAt j = if i = j then f (r.slotMetaAt j) else r.slotMetaAt j) :
    r'.view.slots = r.view.slots.modify i.toNat f := by
  apply List.ext_getElem?
  intro k
  rw [List.getElem?_modify]
  by_cases hk : k < r.capacity.toNat
  · have hof : (UInt32.ofNat k).toNat = k := by
      rw [UInt32.toNat_ofNat']
      exact Nat.mod_eq_of_lt (Nat.lt_trans hk r.capacity.toNat_lt)
    have hlt : UInt32.ofNat k < r.capacity := UInt32.lt_iff_toNat_lt.mpr (hof.symm ▸ hk)
    have hview := r.getElem?_slots_view hlt
    have hview' := r'.getElem?_slots_view (hcapacity ▸ hlt)
    have hiff : i = UInt32.ofNat k ↔ i.toNat = k := by rw [← UInt32.toNat_inj, hof]
    rw [hof] at hview hview'
    simp only [hview, hview', h _ hlt, hiff, Option.map_eq_map, Option.map_some]
  · have hnone : ∀ r'' : MailboxRing, r''.capacity = r.capacity → r''.view.slots[k]? = none := by
      intro r'' hr''
      refine List.getElem?_eq_none ?_
      simp only [view, List.length_map, List.length_range, hr'']
      omega
    rw [hnone r rfl, hnone r' hcapacity]
    rfl

theorem view_clearInUse (r : MailboxRing) {i : UInt32} (hi : i < r.capacity) :
    (r.clearInUse i).view = r.view.release i.toNat := by
  have hslots : (r.clearInUse i).view.slots
      = r.view.slots.modify i.toNat ({ · with inUse := false }) :=
    slots_view_of_modify (by simp) fun j _ => r.slotMetaAt_clearInUse i j
  calc (r.clearInUse i).view
      = ⟨(r.clearInUse i).slotSize, (r.clearInUse i).view.slots, (r.clearInUse i).payload⟩ := rfl
    _ = r.view.release i.toNat := by
      rw [hslots, r.payload_clearInUse hi, slotSize_clearInUse]
      rfl

/-- The `memcpy` and the new metadata. -/
theorem view_store (r : MailboxRing) {i : UInt32} (hi : i < r.capacity) (data : List UInt8)
    (m : SlotMeta) :
    ((r.copyToSlot i data).setSlotMeta i m).view = r.view.store i.toNat data m := by
  have hcopy : i < (r.copyToSlot i data).capacity := by simpa using hi
  have hslots : ((r.copyToSlot i data).setSlotMeta i m).view.slots
      = r.view.slots.modify i.toNat fun _ => m := by
    refine slots_view_of_modify (by simp) ?_
    intro j hj
    rw [slotMetaAt_setSlotMeta, slotMetaAt_copyToSlot r i data hj]
  have hpayload : ((r.copyToSlot i data).setSlotMeta i m).payload
      = r.view.payload.write (r.view.slotPtr i.toNat) data := by
    rw [payload_setSlotMeta _ hcopy, payload_copyToSlot, EvlRing.slotPtr, UInt32.ofNat_toNat]
    rfl
  calc ((r.copyToSlot i data).setSlotMeta i m).view
      = ⟨((r.copyToSlot i data).setSlotMeta i m).slotSize,
          ((r.copyToSlot i data).setSlotMeta i m).view.slots,
          ((r.copyToSlot i data).setSlotMeta i m).payload⟩ := rfl
    _ = r.view.store i.toNat data m := by
      rw [hslots, hpayload, slotSize_setSlotMeta, slotSize_copyToSlot, ← List.set_eq_modify]
      rfl

/-- A slot below 2^31 is not a negative `int`. -/
theorem intOfSlot_nonneg {k : Nat} (hk : k < 2 ^ 31) : 0 ≤ intOfSlot (some k) := by
  have hnat : (UInt32.ofNat k).toBitVec.toNat = k := by
    show k % 2 ^ 32 = k
    omega
  rw [Int32.le_iff_toInt_le]
  show 0 ≤ (UInt32.ofNat k).toBitVec.toInt
  rw [BitVec.toInt_eq_toNat_of_lt (by omega)]
  exact Int.natCast_nonneg _

variable {r : MailboxRing}

/-- A slot of the list is a slot of the ring. -/
theorem ofNat_lt_capacity {k : Nat} (hk : k < r.view.slots.length) :
    UInt32.ofNat k < r.capacity ∧ (UInt32.ofNat k).toNat = k := by
  have hlt : k < r.capacity.toNat := by simpa [view] using hk
  have hof : (UInt32.ofNat k).toNat = k := by
    rw [UInt32.toNat_ofNat']
    exact Nat.mod_eq_of_lt (Nat.lt_trans hlt r.capacity.toNat_lt)
  exact ⟨UInt32.lt_iff_toNat_lt.mpr (hof.symm ▸ hlt), hof⟩

theorem findFreeSlot_eq (r : MailboxRing) : r.findFreeSlot = intOfSlot r.view.findFreeSlot := by
  have h := r.freeLoop_eq r.capacity.toNat 0
  simpa [findFreeSlot, EvlRing.findFreeSlot, slots_view] using h

variable (hcapacity : r.capacity.toNat ≤ 2 ^ 31)
include hcapacity

theorem nonneg_of_lt {k : Nat} (hk : k < r.view.slots.length) : 0 ≤ intOfSlot (some k) := by
  have hlt : k < r.capacity.toNat := by simpa [view] using hk
  exact intOfSlot_nonneg (by omega)

/-- `evict_lowest` is that of `CoreRaT.Spec.EvlRing`. -/
theorem evictLowest_view (priority : Int8) :
    (r.evictLowest priority).1 = intOfSlot (r.view.evictLowest priority).1 ∧
      (r.evictLowest priority).2.view = (r.view.evictLowest priority).2 := by
  have hloop : r.lowestLoop r.capacity.toNat 0 (-1) Int8.maxValue
      = (intOfSlot (EvlRing.lowestLoop 0 none Int8.maxValue r.view.slots).1,
        (EvlRing.lowestLoop 0 none Int8.maxValue r.view.slots).2) := by
    rw [slots_view]
    exact r.lowestLoop_eq r.capacity.toNat 0 none Int8.maxValue
  simp only [evictLowest, EvlRing.evictLowest, hloop]
  rcases EvlRing.lowestLoop_cases r.view.slots 0 none Int8.maxValue with
    ⟨heq, -⟩ | ⟨k, m, heq, hk, -⟩
  · rw [heq, if_neg]
    · exact ⟨rfl, rfl⟩
    · exact fun hworst => absurd hworst.1 (by decide)
  · have hklt : k < r.view.slots.length := (List.getElem?_eq_some_iff.mp hk).1
    rw [heq, Nat.zero_add]
    by_cases hprio : m.priority ≤ priority
    · obtain ⟨hlt, hof⟩ := ofNat_lt_capacity hklt
      have hslot : (intOfSlot (some k)).toUInt32 = UInt32.ofNat k := rfl
      simp only [nonneg_of_lt hcapacity hklt, hprio, and_self, if_true, hslot, true_and]
      rw [r.view_clearInUse hlt, hof]
    · simp only [hprio, and_false, if_false, and_true]
      rfl

/-- The search for a slot is that of `CoreRaT.Spec.EvlRing`. -/
theorem chooseSlot_view (priority : Int8) :
    (r.chooseSlot priority).1 = intOfSlot (r.view.chooseSlot priority).1 ∧
      (r.chooseSlot priority).2.view = (r.view.chooseSlot priority).2 := by
  simp only [chooseSlot, EvlRing.chooseSlot, r.findFreeSlot_eq]
  cases hfree : r.view.findFreeSlot with
  | none =>
    rw [if_pos (by decide)]
    exact evictLowest_view hcapacity priority
  | some k =>
    obtain ⟨m, hm, -⟩ := EvlRing.findFreeSlot_eq_some hfree
    rw [if_neg (Int32.not_lt.mpr (nonneg_of_lt hcapacity (List.getElem?_eq_some_iff.mp hm).1))]
    exact ⟨rfl, rfl⟩

/-- `post` on the memory of a ring is `post` on its list of slots. -/
theorem view_post (data : List UInt8) (priority : Int8) (src : MailboxId) :
    (r.post data priority src).1 = (r.view.post data priority src).1 ∧
      (r.post data priority src).2.view = (r.view.post data priority src).2 := by
  obtain ⟨hidx, hview⟩ := chooseSlot_view hcapacity priority
  simp only [post, EvlRing.post, hidx]
  rcases r.view.chooseSlot_cases priority with ⟨k, m, hyields, heq⟩ | ⟨heq, -⟩
  · obtain ⟨hlt, hof⟩ := ofNat_lt_capacity hyields.lt
    have hslot : (intOfSlot (some k)).toUInt32 = UInt32.ofNat k := rfl
    rw [heq] at hview
    rw [heq, if_neg (Int32.not_lt.mpr (nonneg_of_lt hcapacity hyields.lt)), hslot]
    refine ⟨rfl, ?_⟩
    rw [view_store _ (by rw [capacity_chooseSlot]; exact hlt), hview, hof]
  · have hneg : intOfSlot none < 0 := by decide
    rw [heq] at hview
    rw [heq, if_pos hneg]
    exact ⟨rfl, hview⟩

end MailboxRing

end CoreRaT.Spec
