import CoreRaT.Lib.ProbeTable
import CoreRaT.Lib.Run
import CoreRaT.Spec.MailboxTable

/-!
# `CoreRaT.Proofs.Registry.Table`: the table of mailboxes is a map

The registry of a process as a table with linear probing (`Lib/ProbeTable.lean`), where an id of 0
is an empty slot. `registry_insert` and `registry_remove` store a value where the search for the id
stops, a null pointer for a mailbox that is removed, and `registry_find` reads it. They do nothing
if the search does not stop, which needs 512 other ids.
-/

set_option autoImplicit false

namespace CoreRaT.Spec

open CoreRaT.Lib

namespace RegistryTable

variable {π : Type} {tbl : RegistryTable π} {id : MailboxId}

/-- The home slot of an id. -/
def home (id : MailboxId) : Nat := (registryHash id).toNat

/-- What a slot holds. -/
def slotContent (e : RegistryEntry π) : Option (MailboxId × Option π) :=
  if e.id = 0 then none else some (e.id, e.ptr)

/-- The slots of the table. -/
def toSlots (tbl : RegistryTable π) : Slots MailboxId (Option π) := fun s =>
  if s < 512 then slotContent (tbl (UInt32.ofNat s)) else none

theorem home_lt (id : MailboxId) : home id < 512 := by
  have hlt := (id * 2654435761).toNat_lt
  rw [home, registryHash, UInt32.toNat_shiftRight]
  show (id * 2654435761).toNat >>> 23 < 512
  rw [Nat.shiftRight_eq_div_pow]
  omega

/-- The slot of the `i`-th round of the loops. -/
theorem slot_eq (id : MailboxId) {i : Nat} (hi : i < 512) :
    (registryHash id + UInt32.ofNat i) &&& (kRegistryCapacity - 1)
      = UInt32.ofNat (probe 512 home id i) := by
  have hhome : (registryHash id).toNat < 512 := home_lt id
  have hprobe : probe 512 home id i < 512 := probe_lt (by decide) home id i
  rw [← UInt32.toNat_inj, UInt32.toNat_and, UInt32.toNat_add, UInt32.toNat_ofNat',
    UInt32.toNat_ofNat', Nat.mod_eq_of_lt (by omega : i < 2 ^ 32),
    Nat.mod_eq_of_lt (by omega : (registryHash id).toNat + i < 2 ^ 32),
    Nat.mod_eq_of_lt (by omega : probe 512 home id i < 2 ^ 32)]
  exact Nat.and_two_pow_sub_one_eq_mod _ 9

theorem toSlots_probe (tbl : RegistryTable π) (id : MailboxId) (i : Nat) :
    toSlots tbl (probe 512 home id i) = slotContent (tbl (UInt32.ofNat (probe 512 home id i))) :=
  if_pos (probe_lt (by decide) home id i)

/-- An assignment to a slot. -/
theorem toSlots_update (tbl : RegistryTable π) (id : MailboxId) (i : Nat) (e : RegistryEntry π) :
    toSlots (Function.update tbl (UInt32.ofNat (probe 512 home id i)) e)
      = Function.update (toSlots tbl) (probe 512 home id i) (slotContent e) := by
  have hprobe : probe 512 home id i < 512 := probe_lt (by decide) home id i
  funext s
  by_cases hs : s = probe 512 home id i
  · rw [hs, Function.update_self, toSlots_probe, Function.update_self]
  · rw [Function.update_of_ne hs]
    unfold toSlots
    split
    · rename_i hlt
      rw [Function.update_of_ne]
      intro heq
      have hnat := congrArg UInt32.toNat heq
      rw [UInt32.toNat_ofNat', UInt32.toNat_ofNat'] at hnat
      omega
    · rfl

/-- The slot of a round, as an index of the table. -/
def slotAt (id : MailboxId) (i : Nat) : UInt32 := UInt32.ofNat (probe 512 home id i)

/-- The loops stop at a slot that has never been used, or that has the id. -/
def StopsAt (tbl : RegistryTable π) (id : MailboxId) (i : Nat) : Prop :=
  (tbl (slotAt id i)).id = 0 ∨ (tbl (slotAt id i)).id = id

instance (tbl : RegistryTable π) (id : MailboxId) : DecidablePred (StopsAt tbl id) := fun i =>
  inferInstanceAs (Decidable ((tbl (slotAt id i)).id = 0 ∨ (tbl (slotAt id i)).id = id))

theorem stops_iff (tbl : RegistryTable π) (id : MailboxId) (i : Nat) :
    Stops (toSlots tbl) id (probe 512 home id i) ↔ StopsAt tbl id i := by
  rw [Stops, toSlots_probe, slotContent, StopsAt, slotAt]
  split
  · rename_i hzero
    simp [hzero]
  · rename_i hne
    simp [hne]

/-! ### The functions -/

theorem ofNat_succ (i : Nat) : UInt32.ofNat i + 1 = UInt32.ofNat (i + 1) :=
  (UInt32.ofNat_add i 1).symm

/-- The slot of a round in the loops. -/
theorem slot_of_round (id : MailboxId) {left i : Nat}
    (hi : left + 1 + i = kRegistryCapacity.toNat) :
    (registryHash id + UInt32.ofNat i) &&& (kRegistryCapacity - 1) = slotAt id i := by
  have hi : left + 1 + i = 512 := hi
  exact slot_eq id (by omega)

/-! Each loop goes on until the search for the id stops. -/

theorem insertLoop_round (tbl : RegistryTable π) (id : MailboxId) (ptr : Option π) (left i : Nat)
    (hi : left + 1 + i = kRegistryCapacity.toNat) :
    insertLoop tbl id ptr (left + 1) (UInt32.ofNat i)
      = if StopsAt tbl id i then Function.update tbl (slotAt id i) ⟨id, ptr⟩
        else insertLoop tbl id ptr left (UInt32.ofNat (i + 1)) := by
  simp only [insertLoop, slot_of_round id hi, ofNat_succ]
  rfl

theorem removeLoop_round (tbl : RegistryTable π) (id : MailboxId) (left i : Nat)
    (hi : left + 1 + i = kRegistryCapacity.toNat) :
    removeLoop tbl id (left + 1) (UInt32.ofNat i)
      = if StopsAt tbl id i then
          if (tbl (slotAt id i)).id = 0 then tbl
          else Function.update tbl (slotAt id i) ⟨(tbl (slotAt id i)).id, none⟩
        else removeLoop tbl id left (UInt32.ofNat (i + 1)) := by
  simp only [removeLoop, slot_of_round id hi, ofNat_succ, StopsAt]
  by_cases hzero : (tbl (slotAt id i)).id = 0
  · simp only [hzero, true_or, ↓reduceIte]
  · simp only [hzero, false_or, ↓reduceIte]

theorem findLoop_round (tbl : RegistryTable π) (id : MailboxId) (left i : Nat)
    (hi : left + 1 + i = kRegistryCapacity.toNat) :
    findLoop tbl id (left + 1) (UInt32.ofNat i)
      = if StopsAt tbl id i then
          if (tbl (slotAt id i)).id = 0 then none else (tbl (slotAt id i)).ptr
        else findLoop tbl id left (UInt32.ofNat (i + 1)) := by
  simp only [findLoop, slot_of_round id hi, ofNat_succ, StopsAt]
  by_cases hzero : (tbl (slotAt id i)).id = 0
  · simp only [hzero, true_or, ↓reduceIte]
  · simp only [hzero, false_or, ↓reduceIte]

/-- The search for the id stops in one of the 512 rounds, and the functions read and write there. -/
theorem functions_of_firstStop {f : Nat} (hf : FirstStop 512 home (toSlots tbl) id f) :
    (∀ ptr, tbl.registryInsert id ptr = Function.update tbl (slotAt id f) ⟨id, ptr⟩) ∧
      tbl.registryRemove id
        = (if (tbl (slotAt id f)).id = 0 then tbl
          else Function.update tbl (slotAt id f) ⟨(tbl (slotAt id f)).id, none⟩) ∧
      tbl.registryFind id
        = if (tbl (slotAt id f)).id = 0 then none else (tbl (slotAt id f)).ptr := by
  have hstop := (stops_iff tbl id f).mp hf.stops
  have hfirst : ∀ j < f, ¬ StopsAt tbl id j := fun j hj =>
    mt (stops_iff tbl id j).mpr (hf.first j hj)
  refine ⟨fun ptr => ?_, ?_, ?_⟩
  · exact walk_of_first _ _ (fun left i => insertLoop tbl id ptr left (UInt32.ofNat i))
      (insertLoop_round tbl id ptr) hf.lt hstop hfirst
  · exact walk_of_first _ _ (fun left i => removeLoop tbl id left (UInt32.ofNat i))
      (removeLoop_round tbl id) hf.lt hstop hfirst
  · exact walk_of_first _ _ (fun left i => findLoop tbl id left (UInt32.ofNat i))
      (findLoop_round tbl id) hf.lt hstop hfirst

/-- The search does not stop, and nothing happens. -/
theorem functions_of_full (hnone : ∀ f, ¬ FirstStop 512 home (toSlots tbl) id f) :
    (∀ ptr, tbl.registryInsert id ptr = tbl) ∧ tbl.registryRemove id = tbl ∧
      tbl.registryFind id = none := by
  have hnever : ∀ i < kRegistryCapacity.toNat, ¬ StopsAt tbl id i := by
    rcases firstStop_or 512 home (toSlots tbl) id with ⟨f, hf⟩ | hnever
    · exact absurd hf (hnone f)
    · exact fun i hi => mt (stops_iff tbl id i).mpr (hnever i hi)
  refine ⟨fun ptr => ?_, ?_, ?_⟩
  · exact walk_of_none _ _ (fun left i => insertLoop tbl id ptr left (UInt32.ofNat i))
      (insertLoop_round tbl id ptr) hnever
  · exact walk_of_none _ _ (fun left i => removeLoop tbl id left (UInt32.ofNat i))
      (removeLoop_round tbl id) hnever
  · exact walk_of_none _ _ (fun left i => findLoop tbl id left (UInt32.ofNat i))
      (findLoop_round tbl id) hnever

/-! ### What is stored -/

/-- Each id lies where the search for it stops. -/
def Probed (tbl : RegistryTable π) : Prop := WellFormed 512 home (toSlots tbl)

/-- The table has a slot for the id, with this pointer. -/
def Stored (tbl : RegistryTable π) (id : MailboxId) (ptr : Option π) : Prop :=
  Holds 512 (toSlots tbl) id ptr

/-- The ids in the table. -/
def storedIds (tbl : RegistryTable π) : Finset MailboxId := keys 512 (toSlots tbl)

theorem slotContent_eq_some_iff {e : RegistryEntry π} {ptr : Option π} :
    slotContent e = some (id, ptr) ↔ id ≠ 0 ∧ e = ⟨id, ptr⟩ := by
  unfold slotContent
  split
  · rename_i hzero
    refine iff_of_false nofun ?_
    rintro ⟨hne, rfl⟩
    exact hne hzero
  · rename_i hne
    constructor
    · intro heq
      obtain ⟨rfl, rfl⟩ := Prod.mk.inj (Option.some.inj heq)
      exact ⟨hne, rfl⟩
    · rintro ⟨-, rfl⟩
      rfl

theorem toSlots_empty : toSlots (empty : RegistryTable π) = fun _ => none := by
  funext s
  unfold toSlots
  split <;> rfl

theorem probed_empty : Probed (empty : RegistryTable π) := by
  rw [Probed, toSlots_empty]
  exact WellFormed.empty

theorem storedIds_empty : storedIds (empty : RegistryTable π) = ∅ := by
  ext id
  rw [storedIds, mem_keys, toSlots_empty]
  simp [Holds]

theorem mem_storedIds : id ∈ storedIds tbl ↔ ∃ ptr, Stored tbl id ptr := mem_keys

/-- A slot with the id, where the search for it stops. -/
theorem stored_of_firstStop {f : Nat} (hid : id ≠ 0) (hslot : (tbl (slotAt id f)).id = id) :
    Stored tbl id (tbl (slotAt id f)).ptr := by
  refine ⟨probe 512 home id f, probe_lt (by decide) home id f, ?_⟩
  rw [toSlots_probe, slotContent_eq_some_iff]
  refine ⟨hid, ?_⟩
  show tbl (slotAt id f) = _
  cases hentry : tbl (slotAt id f) with
  | mk id' ptr =>
    rw [hentry] at hslot
    rw [← hslot]

/-- `registry_find` returns the pointer that is stored. -/
theorem registryFind_of_stored (hok : Probed tbl) {ptr : Option π} (h : Stored tbl id ptr) :
    tbl.registryFind id = ptr := by
  obtain ⟨s, hs, hv⟩ := h
  obtain ⟨f, hf, hprobe⟩ := hok s hs id ptr hv
  rw [← hprobe, toSlots_probe] at hv
  obtain ⟨hid, hslot⟩ := slotContent_eq_some_iff.mp hv
  rw [(functions_of_firstStop hf).2.2, slotAt, hslot, if_neg hid]

/-- `registry_find` finds nothing for an id that is not stored. -/
theorem registryFind_of_not_stored (h : ∀ ptr, ¬ Stored tbl id ptr) :
    tbl.registryFind id = none := by
  by_cases hfound : ∃ f, FirstStop 512 home (toSlots tbl) id f
  · obtain ⟨f, hf⟩ := hfound
    rw [(functions_of_firstStop hf).2.2]
    rcases (stops_iff tbl id f).mp hf.stops with hzero | hsame
    · rw [if_pos hzero]
    · split
      · rfl
      · rename_i hne
        rw [hsame] at hne
        exact absurd (stored_of_firstStop hne hsame) (h _)
  · rw [not_exists] at hfound
    exact (functions_of_full hfound).2.2

/-- What `registry_insert` does: it stores the pointer where the search stops, and nothing for the
id 0 or if the search does not stop. -/
theorem registryInsert_cases (tbl : RegistryTable π) (id : MailboxId) (ptr : Option π) :
    (id ≠ 0 ∧ ∃ f, FirstStop 512 home (toSlots tbl) id f ∧
      toSlots (tbl.registryInsert id ptr)
        = Function.update (toSlots tbl) (probe 512 home id f) (some (id, ptr))) ∨
    ((id = 0 ∨ ∀ f, ¬ FirstStop 512 home (toSlots tbl) id f) ∧
      toSlots (tbl.registryInsert id ptr) = toSlots tbl) := by
  by_cases hfound : ∃ f, FirstStop 512 home (toSlots tbl) id f
  · obtain ⟨f, hf⟩ := hfound
    have hinsert := (functions_of_firstStop hf).1 ptr
    rw [hinsert, slotAt, toSlots_update]
    by_cases hid : id = 0
    · -- The slot has not been used, and its id stays 0.
      refine Or.inr ⟨Or.inl hid, ?_⟩
      have hempty : toSlots tbl (probe 512 home id f) = none := by
        rw [toSlots_probe, slotContent, if_pos]
        rcases (stops_iff tbl id f).mp hf.stops with hzero | hsame
        · exact hzero
        · exact hsame.trans hid
      have hnone : slotContent (⟨id, ptr⟩ : RegistryEntry π) = none := if_pos hid
      rw [hnone, ← hempty, Function.update_eq_self]
    · refine Or.inl ⟨hid, f, hf, ?_⟩
      rw [slotContent_eq_some_iff.mpr ⟨hid, rfl⟩]
  · rw [not_exists] at hfound
    exact Or.inr ⟨Or.inr hfound, by rw [(functions_of_full hfound).1 ptr]⟩

/-- What `registry_remove` does: it stores a null pointer for an id that is stored. -/
theorem registryRemove_cases (hok : Probed tbl) (id : MailboxId) :
    (∃ f q, FirstStop 512 home (toSlots tbl) id f ∧ Stored tbl id q ∧
      toSlots (tbl.registryRemove id)
        = Function.update (toSlots tbl) (probe 512 home id f) (some (id, none))) ∨
    ((∀ q, ¬ Stored tbl id q) ∧ tbl.registryRemove id = tbl) := by
  by_cases hfound : ∃ f, FirstStop 512 home (toSlots tbl) id f
  · obtain ⟨f, hf⟩ := hfound
    have hremove := (functions_of_firstStop hf).2.1
    by_cases hzero : (tbl (slotAt id f)).id = 0
    · rw [if_pos hzero] at hremove
      refine Or.inr ⟨fun q hq => ?_, hremove⟩
      have hslot := (hok.holds_iff hf q).mp hq
      rw [toSlots_probe, slotContent_eq_some_iff] at hslot
      rw [slotAt, hslot.2] at hzero
      exact hslot.1 hzero
    · rw [if_neg hzero] at hremove
      have hsame : (tbl (slotAt id f)).id = id :=
        ((stops_iff tbl id f).mp hf.stops).resolve_left hzero
      rw [hsame] at hzero
      refine Or.inl ⟨f, _, hf, stored_of_firstStop hzero hsame, ?_⟩
      rw [hremove, hsame, slotAt, toSlots_update, slotContent_eq_some_iff.mpr ⟨hzero, rfl⟩]
  · rw [not_exists] at hfound
    refine Or.inr ⟨fun q hq => ?_, (functions_of_full hfound).2.1⟩
    obtain ⟨s, hs, hv⟩ := hq
    obtain ⟨f, hf, -⟩ := hok s hs id q hv
    exact hfound f hf

/-! ### What the calls change -/

theorem Probed.registryInsert (hok : Probed tbl) (id : MailboxId) (ptr : Option π) :
    Probed (tbl.registryInsert id ptr) := by
  rcases registryInsert_cases tbl id ptr with ⟨-, f, hf, heq⟩ | ⟨-, heq⟩
  · rw [Probed, heq]
    exact hok.store hf ptr
  · rw [Probed, heq]
    exact hok

theorem Probed.registryRemove (hok : Probed tbl) (id : MailboxId) :
    Probed (tbl.registryRemove id) := by
  rcases registryRemove_cases hok id with ⟨f, q, hf, -, heq⟩ | ⟨-, heq⟩
  · rw [Probed, heq]
    exact hok.store hf none
  · rw [heq]
    exact hok

theorem Probed.step (hok : Probed tbl) (op : Op π) : Probed (tbl.step op) := by
  cases op with
  | insert id ptr => exact hok.registryInsert id ptr
  | remove id => exact hok.registryRemove id

/-- There is room for the id: it is in the table, or the table is not full. -/
def HasRoom (tbl : RegistryTable π) (id : MailboxId) : Prop :=
  id ∈ storedIds tbl ∨ (storedIds tbl).card < 512

theorem card_storedIds_le (tbl : RegistryTable π) : (storedIds tbl).card ≤ 512 :=
  card_keys_le 512 (toSlots tbl)

theorem hasRoom_iff (tbl : RegistryTable π) (id : MailboxId) :
    HasRoom tbl id ↔ (insert id (storedIds tbl)).card ≤ 512 := by
  rw [HasRoom]
  by_cases hmem : id ∈ storedIds tbl
  · rw [Finset.insert_eq_of_mem hmem]
    exact iff_of_true (Or.inl hmem) (card_storedIds_le tbl)
  · rw [Finset.card_insert_of_notMem hmem, or_iff_right hmem, Nat.succ_le_iff]

theorem stored_registryInsert (hok : Probed tbl) (hid : id ≠ 0) (hroom : HasRoom tbl id)
    (ptr : Option π) (id' : MailboxId) (q : Option π) :
    Stored (tbl.registryInsert id ptr) id' q ↔ if id' = id then q = ptr else Stored tbl id' q := by
  rcases registryInsert_cases tbl id ptr with ⟨-, f, hf, heq⟩ | ⟨hzero | hfull, -⟩
  · rw [Stored, heq]
    exact hok.holds_store hf ptr id' q
  · exact absurd hzero hid
  · obtain ⟨f, hf⟩ := hok.exists_firstStop hroom
    exact absurd hf (hfull f)

theorem storedIds_registryInsert (hok : Probed tbl) (hid : id ≠ 0) (hroom : HasRoom tbl id)
    (ptr : Option π) : storedIds (tbl.registryInsert id ptr) = insert id (storedIds tbl) := by
  ext id'
  rw [mem_storedIds, Finset.mem_insert, mem_storedIds]
  simp only [stored_registryInsert hok hid hroom]
  by_cases heq : id' = id
  · simp [heq]
  · simp [heq]

/-- Without room, and for the id 0, nothing changes. -/
theorem stored_registryInsert_of_not (h : id = 0 ∨ ¬ HasRoom tbl id) (ptr : Option π)
    (id' : MailboxId) (q : Option π) :
    Stored (tbl.registryInsert id ptr) id' q ↔ Stored tbl id' q := by
  rcases registryInsert_cases tbl id ptr with ⟨hid, f, hf, -⟩ | ⟨-, heq⟩
  · have hroom := h.resolve_left hid
    simp only [HasRoom, not_or, Nat.not_lt] at hroom
    exact absurd hf (not_firstStop_of_full hroom.1 hroom.2 f)
  · rw [Stored, heq]
    exact Iff.rfl

theorem stored_registryRemove (hok : Probed tbl) (id id' : MailboxId) (q : Option π) :
    Stored (tbl.registryRemove id) id' q ↔
      if id' = id then q = none ∧ id ∈ storedIds tbl else Stored tbl id' q := by
  rcases registryRemove_cases hok id with ⟨f, ptr, hf, hstored, heq⟩ | ⟨hnot, heq⟩
  · rw [Stored, heq, hok.holds_store hf none id' q]
    simp only [mem_storedIds.mpr ⟨ptr, hstored⟩, and_true]
    rfl
  · rw [heq]
    split
    · rename_i hsame
      subst hsame
      refine iff_of_false (hnot q) ?_
      rintro ⟨-, hmem⟩
      obtain ⟨ptr, hptr⟩ := mem_storedIds.mp hmem
      exact hnot ptr hptr
    · exact Iff.rfl

theorem storedIds_registryRemove (hok : Probed tbl) (id : MailboxId) :
    storedIds (tbl.registryRemove id) = storedIds tbl := by
  ext id'
  rw [mem_storedIds, mem_storedIds]
  simp only [stored_registryRemove hok]
  by_cases heq : id' = id
  · simp [heq, mem_storedIds]
  · simp [heq]

/-- `registry_find` depends on what is stored for the id only. -/
theorem registryFind_congr {tbl' : RegistryTable π} (hok : Probed tbl) (hok' : Probed tbl')
    (h : ∀ q, Stored tbl' id q ↔ Stored tbl id q) : tbl'.registryFind id = tbl.registryFind id := by
  by_cases hstored : ∃ q, Stored tbl id q
  · obtain ⟨q, hq⟩ := hstored
    rw [registryFind_of_stored hok hq, registryFind_of_stored hok' ((h q).mpr hq)]
  · rw [not_exists] at hstored
    rw [registryFind_of_not_stored hstored,
      registryFind_of_not_stored fun q hq => hstored q ((h q).mp hq)]

theorem registryFind_registryInsert (hok : Probed tbl) (hid : id ≠ 0) (hroom : HasRoom tbl id)
    (ptr : Option π) (id' : MailboxId) :
    (tbl.registryInsert id ptr).registryFind id'
      = if id' = id then ptr else tbl.registryFind id' := by
  have hinsert := stored_registryInsert hok hid hroom ptr
  split
  · rename_i heq
    subst heq
    exact registryFind_of_stored (hok.registryInsert id' ptr)
      ((hinsert id' ptr).mpr ((if_pos rfl).mpr rfl))
  · rename_i hne
    refine registryFind_congr hok (hok.registryInsert id ptr) fun q => ?_
    rw [hinsert id' q, if_neg hne]

theorem registryFind_registryInsert_of_not (hok : Probed tbl) (h : id = 0 ∨ ¬ HasRoom tbl id)
    (ptr : Option π) (id' : MailboxId) :
    (tbl.registryInsert id ptr).registryFind id' = tbl.registryFind id' :=
  registryFind_congr hok (hok.registryInsert id ptr) (stored_registryInsert_of_not h ptr id')

theorem registryFind_registryRemove (hok : Probed tbl) (id id' : MailboxId) :
    (tbl.registryRemove id).registryFind id'
      = if id' = id then none else tbl.registryFind id' := by
  have hremove := stored_registryRemove hok id id'
  split
  · rename_i heq
    by_cases hmem : id ∈ storedIds tbl
    · exact registryFind_of_stored (hok.registryRemove id)
        ((hremove none).mpr ((if_pos heq).mpr ⟨rfl, hmem⟩))
    · exact registryFind_of_not_stored fun q hq => hmem ((if_pos heq).mp ((hremove q).mp hq)).2
  · rename_i hne
    refine registryFind_congr hok (hok.registryRemove id) fun q => ?_
    rw [hremove q, if_neg hne]

/-! ### Runs -/

/-- The id of a call. -/
def Op.mailboxId : Op π → MailboxId
  | .insert id _ => id
  | .remove id => id

/-- A call does not change what is found for other ids. -/
theorem registryFind_step_of_ne (hok : Probed tbl) {op : Op π} (hne : op.mailboxId ≠ id) :
    (tbl.step op).registryFind id = tbl.registryFind id := by
  cases op with
  | insert id' ptr =>
    by_cases hroom : id' ≠ 0 ∧ HasRoom tbl id'
    · exact (registryFind_registryInsert hok hroom.1 hroom.2 ptr id).trans (if_neg hne.symm)
    · rw [not_and_or, not_not] at hroom
      exact registryFind_registryInsert_of_not hok hroom ptr id
  | remove id' => exact (registryFind_registryRemove hok id' id).trans (if_neg hne.symm)

/-- The pointer for the id after a call, when it was `ptr` before. -/
def latestStep (id : MailboxId) (ptr : Option π) : Op π → Option π
  | .insert id' ptr' => if id' = id then ptr' else ptr
  | .remove id' => if id' = id then none else ptr

/-- The pointer of the latest insert of the id that is not followed by a remove of it. -/
def latest (id : MailboxId) (ops : List (Op π)) : Option π := runFrom (latestStep id) none ops

/-- The ids that are inserted. The id 0 is not one. -/
def insertedIds (ops : List (Op π)) : Finset MailboxId :=
  (ops.filterMap fun
    | .insert id _ => if id = 0 then none else some id
    | .remove _ => none).toFinset

theorem insertedIds_insert (hid : id ≠ 0) (ptr : Option π) (ops : List (Op π)) :
    insertedIds (.insert id ptr :: ops) = insert id (insertedIds ops) := by
  simp only [insertedIds, List.filterMap_cons, if_neg hid, List.toFinset_cons]

theorem insertedIds_remove (id : MailboxId) (ops : List (Op π)) :
    insertedIds (.remove id :: ops) = insertedIds ops := rfl

theorem Probed.run (hok : Probed tbl) (ops : List (Op π)) :
    Probed (runFrom RegistryTable.step tbl ops) :=
  (allStates_of_step (fun _ op h => h.step op) ops hok).last

/-- A call with room for the id that it inserts has the result that it has on a map. -/
theorem registryFind_step (hok : Probed tbl) (hid : id ≠ 0) (op : Op π)
    (hroom : ∀ id' ptr, op = .insert id' ptr → id' ≠ 0 → HasRoom tbl id') :
    (tbl.step op).registryFind id = latestStep id (tbl.registryFind id) op := by
  cases op with
  | insert id' ptr =>
    rw [latestStep]
    split
    · rename_i heq
      have hid' : id' ≠ 0 := heq ▸ hid
      have hfind := registryFind_registryInsert hok hid' (hroom id' ptr rfl hid') ptr id
      exact hfind.trans (if_pos heq.symm)
    · rename_i hne
      exact registryFind_step_of_ne hok hne
  | remove id' =>
    rw [latestStep]
    split
    · rename_i heq
      exact (registryFind_registryRemove hok id' id).trans (if_pos heq.symm)
    · rename_i hne
      exact registryFind_step_of_ne hok hne

/-- After the first call, the ids of the table and of the other calls are no more than before. -/
theorem storedIds_step_union (hok : Probed tbl) (op : Op π) (ops : List (Op π)) :
    storedIds (tbl.step op) ∪ insertedIds ops ⊆ storedIds tbl ∪ insertedIds (op :: ops) := by
  intro id' hmem
  cases op with
  | remove id =>
    rw [insertedIds_remove]
    rwa [step, storedIds_registryRemove hok] at hmem
  | insert id ptr =>
    by_cases hroom : id ≠ 0 ∧ HasRoom tbl id
    · rw [insertedIds_insert hroom.1]
      rw [step, storedIds_registryInsert hok hroom.1 hroom.2] at hmem
      simp only [Finset.mem_union, Finset.mem_insert] at hmem ⊢
      rcases hmem with (heq | hstored) | hlater
      · exact Or.inr (Or.inl heq)
      · exact Or.inl hstored
      · exact Or.inr (Or.inr hlater)
    · have hsame : storedIds (tbl.registryInsert id ptr) = storedIds tbl := by
        ext id''
        rw [mem_storedIds, mem_storedIds]
        rw [not_and_or, not_not] at hroom
        simp only [stored_registryInsert_of_not hroom]
      rw [step, hsame] at hmem
      refine Finset.union_subset_union_right ?_ hmem
      by_cases hid : id = 0
      · simp only [insertedIds, List.filterMap_cons, hid, ↓reduceIte, subset_refl]
      · rw [insertedIds_insert hid]
        exact Finset.subset_insert _ _

/-- A run in which the table has room for all ids has the results of a map. -/
theorem registryFind_runFrom (hid : id ≠ 0) (ops : List (Op π)) (hok : Probed tbl)
    (hcard : (storedIds tbl ∪ insertedIds ops).card ≤ 512) :
    (runFrom step tbl ops).registryFind id
      = runFrom (latestStep id) (tbl.registryFind id) ops := by
  induction ops generalizing tbl with
  | nil => rfl
  | cons op ops ih =>
    have hroom : ∀ id' ptr, op = .insert id' ptr → id' ≠ 0 → HasRoom tbl id' := by
      rintro id' ptr rfl hid'
      -- The id is one of those that are counted.
      rw [hasRoom_iff]
      refine (Finset.card_le_card (Finset.insert_subset ?_ Finset.subset_union_left)).trans hcard
      rw [insertedIds_insert hid']
      exact Finset.mem_union_right _ (Finset.mem_insert_self _ _)
    have hrest : (storedIds (tbl.step op) ∪ insertedIds ops).card ≤ 512 :=
      (Finset.card_le_card (storedIds_step_union hok op ops)).trans hcard
    rw [runFrom_cons, runFrom_cons, ih (hok.step op) hrest, registryFind_step hok hid op hroom]

theorem registryFind_empty (id : MailboxId) : (empty : RegistryTable π).registryFind id = none := by
  refine registryFind_of_not_stored fun ptr hstored => ?_
  have hmem := mem_storedIds.mpr ⟨ptr, hstored⟩
  rw [storedIds_empty] at hmem
  exact absurd hmem (Finset.notMem_empty id)

/-- The table is a map: with at most 512 different ids, `registry_find` returns the pointer of the
latest insert that is not followed by a remove. A call changes nothing for other ids, also in a full
table. -/
theorem registryFind_of_run (ops : List (Op π)) :
    ((insertedIds ops).card ≤ kRegistryCapacity.toNat → ∀ id ≠ 0,
      (runFrom step empty ops).registryFind id = latest id ops) ∧
    ∀ op id, op.mailboxId ≠ id →
      (runFrom step empty (ops ++ [op])).registryFind id
        = (runFrom step empty ops).registryFind id := by
  constructor
  · intro hcard id hid
    have hunion : (storedIds (empty : RegistryTable π) ∪ insertedIds ops).card ≤ 512 := by
      rw [storedIds_empty, Finset.empty_union]
      exact hcard
    rw [registryFind_runFrom hid ops probed_empty hunion, registryFind_empty]
    rfl
  · intro op id hne
    rw [runFrom_append]
    exact registryFind_step_of_ne (probed_empty.run ops) hne

/-- The ids 1 and 611 meet at one slot. -/
theorem registryFind_collision :
    let ops : List (Op Nat) :=
      [.insert 1 (some 7), .insert 611 (some 8), .remove 1, .insert 0 (some 9)]
    registryHash 1 = registryHash 611 ∧
      (runFrom step empty ops).registryFind 611 = some 8 ∧
      (runFrom step empty (ops ++ [.remove 611])).registryFind 1 = none := by
  intro ops
  refine ⟨by decide, ?_, ?_⟩
  · exact (registryFind_of_run ops).1 (by decide) 611 (by decide)
  · rw [(registryFind_of_run ops).2 (.remove 611) 1 (by decide)]
    exact (registryFind_of_run ops).1 (by decide) 1 (by decide)

end RegistryTable

end CoreRaT.Spec
