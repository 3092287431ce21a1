import CoreRaT.Lib.Run
import CoreRaT.Proofs.Ring.Slots

/-!
# `CoreRaT.Proofs.Ring.Priority`: a receive finds a message

`find_highest_priority_slot` starts its search from the priority -128 and takes a slot only if its
priority is above. A message of priority -128 is the message of a sender whose `send_priority` is
128 (`sendPriority_eq_minValue_iff`). When the ring holds such messages and no others,
`has_in_use_slot` is true, the search returns -1, and `receive_impl` goes on with slot -1:
`receive_out_of_bounds`.

`findsMessage_iff` is exact. In every state of a run the search finds a message of the highest
priority whenever there is a message, exactly when the messages of priority -128 are never left
alone in the ring (`NotAlone`).
-/

set_option autoImplicit false

namespace CoreRaT.Spec

open CoreRaT.Lib

/-- A `send_priority` becomes the `int8_t` with the same bits. -/
theorem sendPriority_createBackendConfig (mailboxId : MailboxId) (maxMessageSize : Nat)
    (p : UInt8) : sendPriority (createBackendConfig mailboxId maxMessageSize p) = p.toInt8 := by
  simp [sendPriority, createBackendConfig]

/-- The `send_priority` that is narrowed to -128 is 128. -/
theorem sendPriority_eq_minValue_iff (mailboxId : MailboxId) (maxMessageSize : Nat) (p : UInt8) :
    sendPriority (createBackendConfig mailboxId maxMessageSize p) = Int8.minValue ↔ p = 128 := by
  rw [sendPriority_createBackendConfig]
  constructor
  · intro h
    rw [← UInt8.toUInt8_toInt8 p, h]
    rfl
  · rintro rfl
    rfl

/-- The slot holds a message that the search can find. -/
def SlotMeta.Above (m : SlotMeta) : Prop := m.inUse = true ∧ m.priority ≠ Int8.minValue

namespace EvlRing

/-- Whenever there is a message, `find_highest_priority_slot` returns the slot of a message, and
none has a higher priority. No receive goes to slot -1. -/
structure FindsMessage (r : EvlRing) : Prop where
  found : r.hasInUseSlot = true →
    ∃ idx m, r.findHighestPrioritySlot = some idx ∧ idx < r.slots.length ∧
      r.slots[idx]? = some m ∧ m.inUse = true ∧
      ∀ m' ∈ r.slots, m'.inUse = true → m'.priority ≤ m.priority
  in_bounds : ∀ mailboxId bufferSize, (r.receive mailboxId bufferSize).1 ≠ .outOfBounds

/-- Slot `idx` is the first of those with the highest priority. -/
def Highest (r : EvlRing) (idx : Nat) (m : SlotMeta) : Prop :=
  r.slots[idx]? = some m ∧ m.inUse = true ∧
    (∀ m' ∈ r.slots, m'.inUse = true → m'.priority ≤ m.priority) ∧
    ∀ j m', j < idx → r.slots[j]? = some m' → m'.inUse = true → m'.priority < m.priority

/-- In the state `r`, the call does not leave messages of priority -128 alone in the ring. A message
of this priority is posted only while another message is queued whose priority is above, and the
last such message is received only when no other message is left. -/
def NotAlone (r : EvlRing) : Event → Prop
  | .post _ priority _ =>
    priority = Int8.minValue → r.slots ≠ [] → ∃ m ∈ r.slots, m.Above
  | .postToRemote _ priority _ =>
    priority = Int8.minValue → r.slots ≠ [] → ∃ m ∈ r.slots, m.Above
  | .receive _ bufferSize =>
    ∀ idx m, r.Highest idx m → m.size.toNat ≤ bufferSize →
      (∃ j m', j ≠ idx ∧ r.slots[j]? = some m' ∧ m'.Above) ∨
        ∀ j m', j ≠ idx → r.slots[j]? = some m' → m'.inUse = false

/-! ### One state -/

/-- There is a message that the search can find, or there is none at all. -/
def SomeAbove (r : EvlRing) : Prop :=
  (∃ m ∈ r.slots, m.Above) ∨ ∀ m ∈ r.slots, m.inUse = false

theorem findsMessage_iff_someAbove (r : EvlRing) : r.FindsMessage ↔ r.SomeAbove := by
  rcases r.findHighestPrioritySlot_cases with ⟨hnone, hmin⟩ | ⟨idx, m, hsome, hm, huse, hlt, hle, -⟩
  · -- The search comes back with -1.
    constructor
    · intro h
      right
      intro m hm
      by_contra huse
      obtain ⟨idx, m', hfound, -⟩ := h.found (hasInUseSlot_iff.mpr ⟨m, hm, by simpa using huse⟩)
      rw [hnone] at hfound
      cases hfound
    · rintro (⟨m, hm, huse, habove⟩ | hfree)
      · exact absurd (hmin m hm huse) habove
      · have hempty : r.hasInUseSlot = false := by
          by_contra huse
          obtain ⟨m, hm, huse⟩ := hasInUseSlot_iff.mp (by simpa using huse)
          rw [hfree m hm] at huse
          cases huse
        refine ⟨by simp [hempty], ?_⟩
        intro mailboxId bufferSize
        simp [receive, hempty]
  · refine iff_of_true ⟨?_, ?_⟩ (Or.inl ⟨m, List.mem_of_getElem? hm, huse, ?_⟩)
    · intro _
      exact ⟨idx, m, hsome, (List.getElem?_eq_some_iff.mp hm).1, hm, huse, hle⟩
    · intro mailboxId bufferSize
      rw [receive_of_found hsome hm]
      split <;> simp
    · exact (Int8.ne_of_lt hlt).symm

/-- What the search finds is the first slot of the highest priority. -/
theorem found_of_highest {r : EvlRing} (h : r.SomeAbove) {idx : Nat} {m : SlotMeta}
    (hm : r.Highest idx m) : r.findHighestPrioritySlot = some idx := by
  obtain ⟨hget, huse, hle, hfirst⟩ := hm
  rcases r.findHighestPrioritySlot_cases with
    ⟨-, hmin⟩ | ⟨i, m', hsome, hi, huse', -, hle', hfirst'⟩
  · exfalso
    rcases h with ⟨a, ha, hause, habove⟩ | hfree
    · exact habove (hmin a ha hause)
    · rw [hfree m (List.mem_of_getElem? hget)] at huse
      cases huse
  · -- Both have the highest priority, and both are the first to have it.
    have hprio : m.priority = m'.priority := Int8.le_antisymm
      (hle' m (List.mem_of_getElem? hget) huse) (hle m' (List.mem_of_getElem? hi) huse')
    rcases Nat.lt_trichotomy i idx with hlt | heq | hlt
    · exact absurd (hfirst i m' hlt hi huse') (by rw [hprio]; exact Int8.lt_irrefl)
    · rw [hsome, heq]
    · exact absurd (hfirst' idx m hlt hget huse) (by rw [hprio]; exact Int8.lt_irrefl)

theorem highest_of_found {r : EvlRing} {idx : Nat} (h : r.findHighestPrioritySlot = some idx) :
    ∃ m, r.Highest idx m := by
  rcases r.findHighestPrioritySlot_cases with ⟨hnone, -⟩ | ⟨i, m, hsome, hm, huse, -, hle, hfirst⟩
  · rw [hnone] at h
    cases h
  · obtain rfl : i = idx := Option.some.inj (hsome.symm.trans h)
    exact ⟨m, hm, huse, hle, hfirst⟩

/-! ### One call -/

/-- The messages after a slot has been filled. -/
theorem exists_above_set_iff {slots : List SlotMeta} {idx : Nat} (hidx : idx < slots.length)
    (m : SlotMeta) :
    (∃ a ∈ slots.set idx m, a.Above) ↔
      m.Above ∨ ∃ j a, j ≠ idx ∧ slots[j]? = some a ∧ a.Above := by
  constructor
  · rintro ⟨a, ha, habove⟩
    obtain ⟨j, hj⟩ := List.mem_iff_getElem?.mp ha
    rw [List.getElem?_set] at hj
    split at hj
    · rw [Option.some.injEq] at hj
      exact Or.inl (hj ▸ habove)
    · rename_i hne
      exact Or.inr ⟨j, a, Ne.symm hne, hj, habove⟩
  · rintro (habove | ⟨j, a, hne, hj, habove⟩)
    · exact ⟨m, List.mem_set hidx m, habove⟩
    · refine ⟨a, List.mem_iff_getElem?.mpr ⟨j, ?_⟩, habove⟩
      rw [List.getElem?_set, if_neg (Ne.symm hne)]
      exact hj

/-- A post that stores its message. -/
theorem someAbove_store {r : EvlRing} {priority : Int8} {idx : Nat} {m : SlotMeta}
    (hyields : r.Yields priority idx m) (data : List UInt8) (src : MailboxId) (size : UInt32) :
    (r.store idx data ⟨priority, true, src, size⟩).SomeAbove ↔
      (priority = Int8.minValue → r.slots ≠ [] → ∃ m ∈ r.slots, m.Above) := by
  have hidx := hyields.lt
  have hne : r.slots ≠ [] := List.ne_nil_of_length_pos (by omega)
  have hused : ¬ ∀ a ∈ r.slots.set idx ⟨priority, true, src, size⟩, a.inUse = false := by
    intro hfree
    exact absurd (hfree _ (List.mem_set hidx _)) (by simp)
  simp only [SomeAbove, store]
  rw [or_iff_left hused, exists_above_set_iff hidx]
  by_cases hprio : priority = Int8.minValue
  · -- The message itself cannot be found. Its slot held none that could.
    have hslot : ¬ m.Above := by
      rintro ⟨huse, habove⟩
      rcases hyields.2 with hfree | ⟨-, hle, -⟩
      · rw [hfree] at huse
        cases huse
      · rw [hprio] at hle
        exact habove (Int8.le_antisymm hle (Int8.minValue_le _))
    simp only [hprio, SlotMeta.Above, ne_eq, not_true_eq_false, and_false, false_or, true_implies,
      hne, not_false_eq_true]
    constructor
    · rintro ⟨j, a, -, hj, habove⟩
      exact ⟨a, List.mem_of_getElem? hj, habove⟩
    · rintro ⟨a, ha, habove⟩
      obtain ⟨j, hj⟩ := List.mem_iff_getElem?.mp ha
      refine ⟨j, a, ?_, hj, habove⟩
      rintro rfl
      rw [hyields.1, Option.some.injEq] at hj
      exact hslot (hj ▸ habove)
  · exact iff_of_true (Or.inl ⟨rfl, hprio⟩) fun hmin => absurd hmin hprio

/-- A post that finds no slot. -/
theorem notAlone_of_full {r : EvlRing} (h : r.SomeAbove)
    (hfull : ∀ m ∈ r.slots, m.inUse = true) (hne : r.slots ≠ []) : ∃ m ∈ r.slots, m.Above := by
  rcases h with habove | hfree
  · exact habove
  · obtain ⟨m, hm⟩ := List.exists_mem_of_ne_nil _ hne
    have huse := hfull m hm
    rw [hfree m hm] at huse
    cases huse

/-- A receive that takes its message. -/
theorem someAbove_release {r : EvlRing} {idx : Nat} (hidx : idx < r.slots.length) :
    (r.release idx).SomeAbove ↔
      (∃ j m', j ≠ idx ∧ r.slots[j]? = some m' ∧ m'.Above) ∨
        ∀ j m', j ≠ idx → r.slots[j]? = some m' → m'.inUse = false := by
  have hrelease : (r.release idx).slots
      = r.slots.set idx { r.slots[idx] with inUse := false } := by
    apply List.ext_getElem?
    intro j
    simp only [release, List.getElem?_modify, List.getElem?_set]
    split
    · rename_i heq
      subst heq
      simp [hidx]
    · simp
  unfold SomeAbove
  rw [hrelease, exists_above_set_iff hidx]
  simp only [SlotMeta.Above, Bool.false_eq_true, false_and, false_or]
  refine or_congr_right ?_
  constructor
  · intro hfree j m' hne hj
    refine hfree m' (List.mem_iff_getElem?.mpr ⟨j, ?_⟩)
    rw [List.getElem?_set, if_neg (Ne.symm hne)]
    exact hj
  · intro hfree m' hm'
    obtain ⟨j, hj⟩ := List.mem_iff_getElem?.mp hm'
    rw [List.getElem?_set] at hj
    split at hj
    · rw [Option.some.injEq] at hj
      rw [← hj]
    · rename_i hne
      exact hfree j m' (Ne.symm hne) hj

/-- The guard of both posts is this one: it looks at the priority only. -/
theorem someAbove_post {r : EvlRing} (h : r.SomeAbove) (data : List UInt8) (priority : Int8)
    (src : MailboxId) :
    (r.post data priority src).2.SomeAbove ↔
      (priority = Int8.minValue → r.slots ≠ [] → ∃ m ∈ r.slots, m.Above) := by
  rcases r.post_cases data priority src with ⟨idx, m, -, hyields, heq⟩ | ⟨-, heq, hfull⟩
  · rw [heq]
    exact someAbove_store hyields data src _
  · rw [heq]
    exact iff_of_true h fun _ => notAlone_of_full h fun m hm => (hfull m hm).1

/-- One call keeps the property exactly when it meets the guard. -/
theorem someAbove_step {r : EvlRing} (h : r.SomeAbove) (e : Event) :
    (r.step e).SomeAbove ↔ r.NotAlone e := by
  cases e with
  | post data priority src => exact someAbove_post h data priority src
  | postToRemote data priority src =>
    simp only [step, postToRemote_eq]
    exact someAbove_post h _ priority src
  | receive mailboxId bufferSize =>
    simp only [step, NotAlone]
    rcases r.receive_cases mailboxId bufferSize with ⟨idx, m, hfound, hm, hsize, heq⟩ | ⟨heq, hno⟩
    · rw [heq, someAbove_release (List.getElem?_eq_some_iff.mp hm).1]
      constructor
      · intro hafter i m' hhighest _
        obtain rfl : i = idx := Option.some.inj ((found_of_highest h hhighest).symm.trans hfound)
        exact hafter
      · intro hguard
        obtain ⟨m', hhighest⟩ := highest_of_found hfound
        obtain rfl : m' = m := Option.some.inj (hhighest.1.symm.trans hm)
        exact hguard idx m' hhighest hsize
    · rw [heq]
      refine iff_of_true h ?_
      intro idx m hhighest hsize
      refine absurd ?_ (hno (r.payload.read (r.slotPtr idx) m.size.toNat) (metadataOf mailboxId m
        (r.payload.read (r.slotPtr idx) m.size.toNat)))
      rw [receive_of_found (found_of_highest h hhighest) hhighest.1, if_neg (by omega)]

/-! ### Runs -/

/-- **A receive never leaves the ring.** In every state of a run of posts and receives, on a ring of
any size, `find_highest_priority_slot` finds a message of the highest priority whenever there is a
message, exactly when no call of the run leaves messages of priority -128 alone. -/
theorem findsMessage_iff (capacity : Nat) (slotSize : UInt32) (payload : ByteMemory)
    (es : List Event) :
    AllStates step FindsMessage (allocateRing capacity slotSize payload) es ↔
      AllSteps step NotAlone (allocateRing capacity slotSize payload) es := by
  have hstep : ∀ (r : EvlRing) (e : Event), True → True → r.FindsMessage →
      ((r.step e).FindsMessage ↔ r.NotAlone e) := by
    intro r e _ _ h
    rw [findsMessage_iff_someAbove] at h ⊢
    exact someAbove_step h e
  refine allStates_iff_allSteps (E := fun _ => True) (fun _ _ _ _ => trivial) hstep
    (fun _ _ => trivial) trivial ?_
  rw [findsMessage_iff_someAbove]
  right
  intro m hm
  rw [(List.mem_replicate.mp hm).2]
  rfl

/-- A mailbox with `send_priority = 128` sends one message. -/
def lowestPriorityRun : List Event :=
  [.post [1, 2] (sendPriority (createBackendConfig 5 64 128)) 5]

/-- There is a message, the search returns -1, and the receive goes on with slot -1. -/
theorem receive_out_of_bounds :
    ¬ AllStates step FindsMessage (ofConfig ⟨9, 64, 0⟩ fun _ => 0) lowestPriorityRun ∧
      (runFrom step (ofConfig ⟨9, 64, 0⟩ fun _ => 0) lowestPriorityRun).hasInUseSlot = true ∧
      (runFrom step (ofConfig ⟨9, 64, 0⟩ fun _ => 0)
        lowestPriorityRun).findHighestPrioritySlot = none ∧
      ((runFrom step (ofConfig ⟨9, 64, 0⟩ fun _ => 0) lowestPriorityRun).receive 9 64).1
        = .outOfBounds := by
  have hbounds : ((runFrom step (ofConfig ⟨9, 64, 0⟩ fun _ => 0)
      lowestPriorityRun).receive 9 64).1 = .outOfBounds := by decide
  refine ⟨?_, by decide, by decide, hbounds⟩
  intro h
  exact h.last.in_bounds 9 64 hbounds

end EvlRing

end CoreRaT.Spec
