import Mathlib.Tactic.Common
import CoreRaT.Lib.FirstBest
import CoreRaT.Spec.EvlRing

/-!
# `CoreRaT.Proofs.Ring.Slots`: which slot a call takes

One specification for each search of the ring, and from these what `post` and `receive_impl` can
do. `chooseSlot_cases`: a message goes to a free slot, or, when all slots are in use, to one with
the lowest priority, or nowhere. `findHighestPrioritySlot_cases`: a receive takes the first
message of the highest priority, unless no message has a priority above -128.

`slotPtr_eq` is the address of a slot. As long as no product wraps (`Unwrapped`), different slots
have different bytes: `slotPtr_disjoint`.
-/

set_option autoImplicit false

namespace CoreRaT.Spec

open CoreRaT.Lib

/-! ### Addresses -/

/-- A slot ends where the next begins, or before a later one does. -/
theorem slot_end_le {i j : Nat} (slotSize : Nat) (h : i < j) :
    i * slotSize + slotSize ≤ j * slotSize := by
  calc i * slotSize + slotSize
      = (i + 1) * slotSize := (Nat.succ_mul ..).symm
    _ ≤ j * slotSize := Nat.mul_le_mul_right _ h

/-- The first slot whose address wraps is slot `i + 1`. It starts inside slot 0. -/
theorem exists_wrapped_slot {capacity slotSize : Nat} (hpos : 0 < slotSize)
    (hlt : slotSize < 2 ^ 32) (hwrapped : 2 ^ 32 ≤ (capacity - 1) * slotSize) :
    ∃ i, i + 1 < capacity ∧ (i + 1) * slotSize % 2 ^ 32 < slotSize := by
  -- Slot `i` is the last one that starts below 2^32.
  obtain ⟨i, hle, hge⟩ : ∃ i, i * slotSize ≤ 2 ^ 32 - 1 ∧ 2 ^ 32 - 1 < i * slotSize + slotSize :=
    ⟨(2 ^ 32 - 1) / slotSize, Nat.div_mul_le_self .., Nat.lt_div_mul_add hpos⟩
  refine ⟨i, ?_, ?_⟩
  · have hbelow : i * slotSize < (capacity - 1) * slotSize := by omega
    have := Nat.lt_of_mul_lt_mul_right hbelow
    omega
  · rw [Nat.succ_mul]
    omega

namespace EvlRing

/-- The bytes of slot `idx` start at the product modulo 2^32. -/
theorem slotPtr_eq (r : EvlRing) (idx : Nat) :
    r.slotPtr idx = idx * r.slotSize.toNat % 2 ^ 32 := by
  simp [slotPtr, UInt32.toNat_mul, UInt32.toNat_ofNat']

/-- No `idx * slot_size` of a slot reaches 2^32. -/
def Unwrapped (r : EvlRing) : Prop := (r.slots.length - 1) * r.slotSize.toNat < 2 ^ 32

theorem Unwrapped.slotPtr_eq {r : EvlRing} (h : r.Unwrapped) {idx : Nat}
    (hidx : idx < r.slots.length) : r.slotPtr idx = idx * r.slotSize.toNat := by
  rw [EvlRing.slotPtr_eq]
  refine Nat.mod_eq_of_lt (Nat.lt_of_le_of_lt ?_ h)
  exact Nat.mul_le_mul_right _ (by omega)

/-- Then the slots do not share bytes. -/
theorem Unwrapped.slotPtr_disjoint {r : EvlRing} (h : r.Unwrapped) {i j : Nat}
    (hi : i < r.slots.length) (hj : j < r.slots.length) (hij : i ≠ j) :
    r.slotPtr i + r.slotSize.toNat ≤ r.slotPtr j ∨
      r.slotPtr j + r.slotSize.toNat ≤ r.slotPtr i := by
  rw [h.slotPtr_eq hi, h.slotPtr_eq hj]
  rcases Nat.lt_or_gt_of_ne hij with hlt | hlt
  · exact Or.inl (slot_end_le _ hlt)
  · exact Or.inr (slot_end_le _ hlt)

/-! ### The searches -/

/-- The first slot that is not in use. -/
theorem findFreeSlot_eq_some {r : EvlRing} {idx : Nat} (h : r.findFreeSlot = some idx) :
    ∃ m, r.slots[idx]? = some m ∧ m.inUse = false := by
  obtain ⟨hlt, hfree, -⟩ := List.findIdx?_eq_some_iff_getElem.mp h
  exact ⟨r.slots[idx], List.getElem?_eq_getElem hlt, by simpa using hfree⟩

theorem findFreeSlot_eq_none {r : EvlRing} :
    r.findFreeSlot = none ↔ ∀ m ∈ r.slots, m.inUse = true := by
  simp [findFreeSlot, List.findIdx?_eq_none_iff]

theorem highestLoop_eq_scan (ms : List SlotMeta) (i : Nat) (best : Option Nat) (prio : Int8) :
    highestLoop i best prio ms
      = (scan (·.inUse) (fun x y => y < x) (·.priority) i best prio ms).1 := by
  induction ms generalizing i best prio with
  | nil => rfl
  | cons m ms ih =>
    rw [highestLoop, scan]
    split
    · exact ih ..
    · exact ih ..

theorem lowestLoop_eq_scan (ms : List SlotMeta) (i : Nat) (worst : Option Nat) (prio : Int8) :
    lowestLoop i worst prio ms = scan (·.inUse) (· < ·) (·.priority) i worst prio ms := by
  induction ms generalizing i worst prio with
  | nil => rfl
  | cons m ms ih =>
    rw [lowestLoop, scan]
    split
    · exact ih ..
    · exact ih ..

/-- The loop of `find_highest_priority_slot` keeps `best`, or comes to the first of the messages
with the highest priority. -/
theorem highestLoop_cases (ms : List SlotMeta) (i : Nat) (best : Option Nat) (prio : Int8) :
    (highestLoop i best prio ms = best ∧ ∀ m ∈ ms, m.inUse = true → m.priority ≤ prio) ∨
    ∃ k m, highestLoop i best prio ms = some (i + k) ∧ ms[k]? = some m ∧ m.inUse = true ∧
      prio < m.priority ∧ (∀ m' ∈ ms, m'.inUse = true → m'.priority ≤ m.priority) ∧
      ∀ j m', j < k → ms[j]? = some m' → m'.inUse = true → m'.priority < m.priority := by
  rw [highestLoop_eq_scan]
  rcases scan_cases SlotMeta.inUse SlotMeta.priority strict_lt.swap ms i best prio with
    ⟨heq, hno⟩ | ⟨k, m, heq, hlt, hm⟩
  · exact Or.inl ⟨by rw [heq], fun m hm huse => Int8.not_lt.mp (hno m hm huse)⟩
  · exact Or.inr ⟨k, m, by rw [heq], hm.at_pos, hm.is_candidate, hlt,
      fun m' hm' huse' => Int8.not_lt.mp (hm.best m' hm' huse'), hm.first⟩

/-- `find_highest_priority_slot` finds the first of the messages with the highest priority, unless
no message has a priority above -128. -/
theorem findHighestPrioritySlot_cases (r : EvlRing) :
    (r.findHighestPrioritySlot = none ∧
      ∀ m ∈ r.slots, m.inUse = true → m.priority = Int8.minValue) ∨
    ∃ idx m, r.findHighestPrioritySlot = some idx ∧ r.slots[idx]? = some m ∧ m.inUse = true ∧
      Int8.minValue < m.priority ∧ (∀ m' ∈ r.slots, m'.inUse = true → m'.priority ≤ m.priority) ∧
      ∀ j m', j < idx → r.slots[j]? = some m' → m'.inUse = true → m'.priority < m.priority := by
  rcases highestLoop_cases r.slots 0 none Int8.minValue with ⟨heq, hle⟩ | ⟨k, m, heq, hrest⟩
  · refine Or.inl ⟨heq, ?_⟩
    intro m hm huse
    exact Int8.le_antisymm (hle m hm huse) (Int8.minValue_le _)
  · rw [Nat.zero_add] at heq
    exact Or.inr ⟨k, m, heq, hrest⟩

/-- The loop of `evict_lowest` keeps `worst`, or comes to the first of the messages with the lowest
priority. -/
theorem lowestLoop_cases (ms : List SlotMeta) (i : Nat) (worst : Option Nat) (prio : Int8) :
    (lowestLoop i worst prio ms = (worst, prio) ∧
      ∀ m ∈ ms, m.inUse = true → prio ≤ m.priority) ∨
    ∃ k m, lowestLoop i worst prio ms = (some (i + k), m.priority) ∧ ms[k]? = some m ∧
      m.inUse = true ∧ m.priority < prio ∧
      (∀ m' ∈ ms, m'.inUse = true → m.priority ≤ m'.priority) ∧
      ∀ j m', j < k → ms[j]? = some m' → m'.inUse = true → m.priority < m'.priority := by
  rw [lowestLoop_eq_scan]
  rcases scan_cases SlotMeta.inUse SlotMeta.priority strict_lt ms i worst prio with
    ⟨heq, hno⟩ | ⟨k, m, heq, hlt, hm⟩
  · exact Or.inl ⟨heq, fun m hm huse => Int8.not_lt.mp (hno m hm huse)⟩
  · exact Or.inr ⟨k, m, heq, hm.at_pos, hm.is_candidate, hlt,
      fun m' hm' huse' => Int8.not_lt.mp (hm.best m' hm' huse'), hm.first⟩

/-! ### The slot for a new message -/

/-- Slot `idx`, with the metadata `m`, can take a message of this priority: it is free, or all slots
are in use and none has a lower priority. -/
def Yields (r : EvlRing) (priority : Int8) (idx : Nat) (m : SlotMeta) : Prop :=
  r.slots[idx]? = some m ∧
    (m.inUse = false ∨
      (m.inUse = true ∧ m.priority ≤ priority ∧
        ∀ m' ∈ r.slots, m'.inUse = true ∧ m.priority ≤ m'.priority))

theorem Yields.lt {r : EvlRing} {priority : Int8} {idx : Nat} {m : SlotMeta}
    (h : r.Yields priority idx m) : idx < r.slots.length :=
  (List.getElem?_eq_some_iff.mp h.1).1

/-- A message goes to a slot that can take it, or nowhere. There is no slot for it when all slots
are in use, each with a higher priority or with the priority 127. -/
theorem chooseSlot_cases (r : EvlRing) (priority : Int8) :
    (∃ idx m, r.Yields priority idx m ∧
      r.chooseSlot priority = (some idx, if m.inUse then r.release idx else r)) ∨
    (r.chooseSlot priority = (none, r) ∧
      ∀ m ∈ r.slots, m.inUse = true ∧ (priority < m.priority ∨ m.priority = Int8.maxValue)) := by
  unfold chooseSlot
  cases hfree : r.findFreeSlot with
  | some idx =>
    obtain ⟨m, hm, huse⟩ := findFreeSlot_eq_some hfree
    exact Or.inl ⟨idx, m, ⟨hm, Or.inl huse⟩, by simp [huse]⟩
  | none =>
    have hall := findFreeSlot_eq_none.mp hfree
    simp only [evictLowest]
    rcases lowestLoop_cases r.slots 0 none Int8.maxValue with
      ⟨heq, hle⟩ | ⟨k, m, heq, hk, huse, -, hle, -⟩
    · -- The loop starts from 127 and does not take a slot with this priority.
      refine Or.inr ⟨by rw [heq], ?_⟩
      intro m hm
      exact ⟨hall m hm, Or.inr (Int8.le_antisymm (Int8.le_maxValue _) (hle m hm (hall m hm)))⟩
    · rw [heq, Nat.zero_add]
      by_cases hprio : m.priority ≤ priority
      · refine Or.inl ⟨k, m, ⟨hk, Or.inr ⟨huse, hprio, ?_⟩⟩, by simp [hprio, huse]⟩
        intro m' hm'
        exact ⟨hall m' hm', hle m' hm' (hall m' hm')⟩
      · refine Or.inr ⟨by simp [hprio], ?_⟩
        intro m' hm'
        refine ⟨hall m' hm', Or.inl ?_⟩
        exact Int8.lt_of_lt_of_le (Int8.not_le.mp hprio) (hle m' hm' (hall m' hm'))

/-- The search of `post_to_remote` is the search of `post`. -/
theorem chooseRemoteSlot_eq (r : EvlRing) (priority : Int8) :
    r.chooseRemoteSlot priority = r.chooseSlot priority := rfl

@[simp] theorem slotSize_release (r : EvlRing) (idx : Nat) :
    (r.release idx).slotSize = r.slotSize := rfl

theorem getElem?_release_self {r : EvlRing} {idx : Nat} {m : SlotMeta}
    (hm : r.slots[idx]? = some m) :
    (r.release idx).slots[idx]? = some { m with inUse := false } := by
  simp [release, hm]

theorem getElem?_release_of_ne (r : EvlRing) {idx j : Nat} (hj : j ≠ idx) :
    (r.release idx).slots[j]? = r.slots[j]? := by
  simp [release, Ne.symm hj]

@[simp] theorem slotPtr_store (r : EvlRing) (idx j : Nat) (data : List UInt8) (m : SlotMeta) :
    (r.store idx data m).slotPtr j = r.slotPtr j := rfl

/-- That `evict_lowest` marks the slot free first leaves no trace. -/
theorem store_release (r : EvlRing) (idx : Nat) (data : List UInt8) (m : SlotMeta) :
    (r.release idx).store idx data m = r.store idx data m := by
  have hset : (r.slots.modify idx ({ · with inUse := false })).set idx m = r.slots.set idx m := by
    apply List.ext_getElem?
    intro j
    simp only [List.getElem?_set, List.getElem?_modify, List.length_modify]
    by_cases hj : idx = j
    · simp [hj]
    · simp [hj]
  simp only [store, release, hset]
  rfl

/-- What `post` does: it stores the message in a slot that can take it, or leaves the ring as it
is. -/
theorem post_cases (r : EvlRing) (data : List UInt8) (priority : Int8) (src : MailboxId) :
    (∃ idx m, (r.chooseSlot priority).1 = some idx ∧ r.Yields priority idx m ∧
      r.post data priority src
        = (true, r.store idx data ⟨priority, true, src, UInt32.ofNat data.length⟩)) ∨
    ((r.chooseSlot priority).1 = none ∧ r.post data priority src = (false, r) ∧
      ∀ m ∈ r.slots, m.inUse = true ∧ (priority < m.priority ∨ m.priority = Int8.maxValue)) := by
  unfold post
  rcases r.chooseSlot_cases priority with ⟨idx, m, hyields, heq⟩ | ⟨heq, hfull⟩
  · refine Or.inl ⟨idx, m, by rw [heq], hyields, ?_⟩
    rw [heq]
    cases m.inUse with
    | false => rfl
    | true => simp only [if_true, store_release]
  · exact Or.inr ⟨by rw [heq], by rw [heq], hfull⟩

theorem slotSize_chooseSlot (r : EvlRing) (priority : Int8) :
    (r.chooseSlot priority).2.slotSize = r.slotSize := by
  rcases r.chooseSlot_cases priority with ⟨idx, m, -, heq⟩ | ⟨heq, -⟩
  · rw [heq]
    cases m.inUse with
    | false => rfl
    | true => exact slotSize_release r idx
  · rw [heq]

/-- `post_to_remote` is `post` of what fits into a slot. -/
theorem postToRemote_eq (r : EvlRing) (data : List UInt8) (priority : Int8) (src : MailboxId) :
    r.postToRemote data priority src = r.post (data.take r.slotSize.toNat) priority src := by
  have hslot := r.slotSize_chooseSlot priority
  have htake : data.take (min data.length r.slotSize.toNat) = data.take r.slotSize.toNat := by
    rw [Nat.min_comm, ← List.take_eq_take_min]
  unfold postToRemote post
  rw [chooseRemoteSlot_eq]
  generalize r.chooseSlot priority = chosen at hslot
  obtain ⟨_ | idx, r'⟩ := chosen
  · rfl
  · simp only at hslot
    simp only [hslot, htake, List.length_take, Nat.min_comm r.slotSize.toNat]

/-- A message that fits is posted the same way on both paths. -/
theorem postToRemote_eq_post {r : EvlRing} {data : List UInt8}
    (hsize : data.length ≤ r.slotSize.toNat) (priority : Int8) (src : MailboxId) :
    r.postToRemote data priority src = r.post data priority src := by
  rw [postToRemote_eq, List.take_of_length_le hsize]

/-- What a post does on either path. `stored` is the message, or what fits of it. -/
theorem put_cases (path : RingPath) (r : EvlRing) (data : List UInt8) (priority : Int8)
    (src : MailboxId) :
    (∃ idx stored, (r.chooseSlot priority).1 = some idx ∧ idx < r.slots.length ∧
      (stored = data ∨ stored = data.take r.slotSize.toNat) ∧
      path.put r data priority src
        = (true, r.store idx stored ⟨priority, true, src, UInt32.ofNat stored.length⟩)) ∨
    ((r.chooseSlot priority).1 = none ∧ path.put r data priority src = (false, r)) := by
  obtain ⟨stored, hstored, hput⟩ : ∃ stored, (stored = data ∨ stored = data.take r.slotSize.toNat) ∧
      path.put r data priority src = r.post stored priority src := by
    cases path with
    | sameProcess => exact ⟨data, Or.inl rfl, rfl⟩
    | otherProcess => exact ⟨_, Or.inr rfl, r.postToRemote_eq data priority src⟩
  rw [hput]
  rcases r.post_cases stored priority src with ⟨idx, m, hchoose, hyields, heq⟩ | ⟨hchoose, heq, -⟩
  · exact Or.inl ⟨idx, stored, hchoose, hyields.lt, hstored, heq⟩
  · exact Or.inr ⟨hchoose, heq⟩

/-! ### Receiving -/

theorem hasInUseSlot_iff {r : EvlRing} :
    r.hasInUseSlot = true ↔ ∃ m ∈ r.slots, m.inUse = true := by
  simp [hasInUseSlot]

/-- A slot that `find_highest_priority_slot` finds is in use. -/
theorem inUse_of_found {r : EvlRing} {idx : Nat} {m : SlotMeta}
    (h : r.findHighestPrioritySlot = some idx) (hm : r.slots[idx]? = some m) :
    m.inUse = true := by
  rcases r.findHighestPrioritySlot_cases with ⟨hnone, -⟩ | ⟨i, m', hsome, hm', huse, -⟩
  · rw [hnone] at h
    cases h
  · rw [hsome, Option.some.injEq] at h
    subst h
    rw [hm', Option.some.injEq] at hm
    exact hm ▸ huse

/-- The slot that is found is the first one with its priority. -/
theorem le_of_found {r : EvlRing} {idx l : Nat} {m a : SlotMeta}
    (h : r.findHighestPrioritySlot = some idx) (hm : r.slots[idx]? = some m)
    (ha : r.slots[l]? = some a) (huse : a.inUse = true) (hprio : a.priority = m.priority) :
    idx ≤ l := by
  rcases r.findHighestPrioritySlot_cases with
    ⟨hnone, -⟩ | ⟨i, m', hi, hm', -, -, -, hfirst⟩
  · rw [h] at hnone
    cases hnone
  · obtain rfl : idx = i := Option.some.inj (h.symm.trans hi)
    obtain rfl : m = m' := Option.some.inj (hm.symm.trans hm')
    by_contra hlt
    have hless := hfirst l a (by omega) ha huse
    rw [hprio] at hless
    exact Int8.lt_irrefl hless

/-- A receive that finds a message takes it, if it fits into the buffer. -/
theorem receive_of_found {r : EvlRing} {idx : Nat} {m : SlotMeta}
    (h : r.findHighestPrioritySlot = some idx) (hm : r.slots[idx]? = some m)
    (mailboxId : MailboxId) (bufferSize : Nat) :
    r.receive mailboxId bufferSize
      = if bufferSize < m.size.toNat then (.msgSize, r)
        else (.message (r.payload.read (r.slotPtr idx) m.size.toNat)
          (metadataOf mailboxId m (r.payload.read (r.slotPtr idx) m.size.toNat)),
          r.release idx) := by
  have huse : r.hasInUseSlot = true :=
    hasInUseSlot_iff.mpr ⟨m, List.mem_of_getElem? hm, inUse_of_found h hm⟩
  simp only [receive, huse, if_true, h, hm]

/-- What a receive does: it takes the first message of the highest priority, and otherwise leaves
the ring as it is. -/
theorem receive_cases (r : EvlRing) (mailboxId : MailboxId) (bufferSize : Nat) :
    (∃ idx m, r.findHighestPrioritySlot = some idx ∧ r.slots[idx]? = some m ∧
      m.size.toNat ≤ bufferSize ∧
      r.receive mailboxId bufferSize
        = (.message (r.payload.read (r.slotPtr idx) m.size.toNat)
            (metadataOf mailboxId m (r.payload.read (r.slotPtr idx) m.size.toNat)),
          r.release idx)) ∨
    ((r.receive mailboxId bufferSize).2 = r ∧
      ∀ bytes metadata, (r.receive mailboxId bufferSize).1 ≠ .message bytes metadata) := by
  rcases r.findHighestPrioritySlot_cases with ⟨hnone, -⟩ | ⟨idx, m, hsome, hm, -⟩
  · right
    unfold receive
    split
    · exact ⟨by rw [hnone], by simp [hnone]⟩
    · exact ⟨rfl, by simp⟩
  · rw [receive_of_found hsome hm]
    by_cases hsize : bufferSize < m.size.toNat
    · rw [if_pos hsize]
      exact Or.inr ⟨rfl, by simp⟩
    · rw [if_neg hsize]
      exact Or.inl ⟨idx, m, hsome, hm, Nat.le_of_not_lt hsize, rfl⟩

/-! ### The messages in the ring -/

/-- How many messages there are. -/
def inUseCount (r : EvlRing) : Nat := r.slots.countP (·.inUse)

theorem inUseCount_pos {r : EvlRing} : 0 < r.inUseCount ↔ r.hasInUseSlot = true := by
  rw [inUseCount, List.countP_pos_iff, hasInUseSlot_iff]

/-- A message in a free slot is one more. -/
theorem inUseCount_store {r : EvlRing} {idx : Nat} {m slot : SlotMeta}
    (hm : r.slots[idx]? = some m) (hslot : slot.inUse = true) (data : List UInt8) :
    (r.store idx data slot).inUseCount = r.inUseCount + if m.inUse then 0 else 1 := by
  obtain ⟨hlt, hget⟩ := List.getElem?_eq_some_iff.mp hm
  simp only [inUseCount, store, List.countP_set hlt, hget, hslot, if_true]
  cases huse : m.inUse with
  | false => simp
  | true =>
    have hpos : 0 < r.slots.countP (·.inUse) :=
      List.countP_pos_iff.mpr ⟨m, List.mem_of_getElem? hm, huse⟩
    simp only [if_true]
    omega

theorem inUseCount_release {r : EvlRing} {idx : Nat} {m : SlotMeta}
    (hm : r.slots[idx]? = some m) (huse : m.inUse = true) :
    (r.release idx).inUseCount = r.inUseCount - 1 := by
  obtain ⟨hlt, hget⟩ := List.getElem?_eq_some_iff.mp hm
  have hmodify : r.slots.modify idx ({ · with inUse := false })
      = r.slots.set idx { m with inUse := false } := by
    have : Inhabited SlotMeta := ⟨m⟩
    rw [List.modify_eq_set, hm, Option.getD_some]
  simp [inUseCount, release, hmodify, List.countP_set hlt, hget, huse]

/-- What is true of all messages is true of those that a receive leaves. -/
theorem forall_release {r : EvlRing} {P : SlotMeta → Prop} {idx : Nat} {m : SlotMeta}
    (hm : r.slots[idx]? = some m) (h : ∀ a ∈ r.slots, a.inUse = true → P a) :
    ∀ a ∈ (r.release idx).slots, a.inUse = true → P a := by
  intro a ha huse
  obtain ⟨j, hj⟩ := List.getElem?_of_mem ha
  by_cases hne : j = idx
  · subst hne
    rw [getElem?_release_self hm, Option.some.injEq] at hj
    rw [← hj] at huse
    cases huse
  · rw [getElem?_release_of_ne _ hne] at hj
    exact h a (List.mem_of_getElem? hj) huse

theorem forall_store {r : EvlRing} {P : SlotMeta → Prop} {slot : SlotMeta} (hslot : P slot)
    (h : ∀ a ∈ r.slots, a.inUse = true → P a) (idx : Nat) (data : List UInt8) :
    ∀ a ∈ (r.store idx data slot).slots, a.inUse = true → P a := by
  intro a ha huse
  rcases List.mem_or_eq_of_mem_set ha with hold | rfl
  · exact h a hold huse
  · exact hslot

end EvlRing

end CoreRaT.Spec
