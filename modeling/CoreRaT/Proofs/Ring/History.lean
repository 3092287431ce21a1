import Mathlib.Data.List.Induction
import CoreRaT.Lib.Run
import CoreRaT.Proofs.Ring.Slots

/-!
# `CoreRaT.Proofs.Ring.History`: nothing is lost and nothing comes twice

A ring with its history: the posts and the receives so far, and for each slot the post whose
message it holds. The history is not in the code. It follows what the calls do to the slots, which
are those of the ring alone (`ring_step`), and it tells messages apart that have the same bytes.

`Conserved` says where the message of a successful post is: in one slot, as it was posted, or with
one receive, or it has been evicted for a message of no lower priority when all slots were in
use. The count of these places is one in every state (`Invariant.count`): filling a slot moves the
message that was there out, and nothing else moves.

The bytes of the messages are the other half. They stay as they are when the slots do not share
memory. `slot_ptr` computes `idx * slot_size` in 32 bits, while the memory is allocated with the
64-bit product, so the last slots of a ring of large slots lie on top of the first ones.
`conserved_iff` is exact: the history is kept on every run exactly when no product wraps.
-/

set_option autoImplicit false

namespace CoreRaT.Spec

open CoreRaT.Lib

/-- A call of `post` or `post_to_remote`. -/
structure PostRecord where
  data : List UInt8
  priority : Int8
  src : MailboxId
  /-- What it returned. -/
  ok : Bool
  /-- The post whose message was evicted for it. -/
  evicted : Option Nat
  /-- The slots before the call. -/
  before : List SlotMeta

/-- A receive that returned a message: the message of this post. -/
structure Receipt where
  post : Option Nat
  bytes : List UInt8
  metadata : TimsMetadata

/-- A ring and its history. Posts are numbered in the order in which they were made. -/
structure RingHistory where
  ring : EvlRing
  /-- The post whose message is in the slot. -/
  cells : List (Option Nat)
  posts : List PostRecord
  receipts : List Receipt

namespace RingHistory

open EvlRing (Event)

/-- An empty ring. -/
def init (capacity : Nat) (slotSize : UInt32) (payload : ByteMemory) : RingHistory where
  ring := .allocateRing capacity slotSize payload
  cells := List.replicate capacity none
  posts := []
  receipts := []

/-- After a post with this result. -/
def recordPost (s : RingHistory) (result : Bool × EvlRing) (data : List UInt8) (priority : Int8)
    (src : MailboxId) : RingHistory :=
  match (s.ring.chooseSlot priority).1 with
  | some idx =>
    { s with
        ring := result.2
        cells := s.cells.set idx (some s.posts.length)
        posts := s.posts ++
          [⟨data, priority, src, result.1, s.cells[idx]?.join, s.ring.slots⟩] }
  | none =>
    { s with
        ring := result.2
        posts := s.posts ++ [⟨data, priority, src, result.1, none, s.ring.slots⟩] }

/-- After a receive with this result. -/
def recordReceive (s : RingHistory) (result : EvlRing.Received × EvlRing) : RingHistory :=
  match s.ring.findHighestPrioritySlot, result.1 with
  | some idx, .message bytes metadata =>
    { s with
        ring := result.2
        cells := s.cells.set idx none
        receipts := s.receipts ++ [⟨s.cells[idx]?.join, bytes, metadata⟩] }
  | _, _ => { s with ring := result.2 }

/-- One call. -/
def step (s : RingHistory) : Event → RingHistory
  | .post data priority src => s.recordPost (s.ring.post data priority src) data priority src
  | .postToRemote data priority src =>
    s.recordPost (s.ring.postToRemote data priority src) data priority src
  | .receive mailboxId bufferSize => s.recordReceive (s.ring.receive mailboxId bufferSize)

/-- The history follows the ring. -/
theorem ring_step (s : RingHistory) (e : Event) : (s.step e).ring = s.ring.step e := by
  cases e with
  | post data priority src =>
    simp only [step, recordPost]
    split <;> rfl
  | postToRemote data priority src =>
    simp only [step, recordPost]
    split <;> rfl
  | receive mailboxId bufferSize =>
    simp only [step, recordReceive]
    split <;> rfl

/-! ### The property -/

/-- Slot `idx` is in use and holds the message of `p`: its bytes, size, source and priority. -/
def SlotHolds (r : EvlRing) (idx : Nat) (p : PostRecord) : Prop :=
  ∃ m, r.slots[idx]? = some m ∧ m.inUse = true ∧ m.priority = p.priority ∧ m.src = p.src ∧
    m.size.toNat = p.data.length ∧ r.payload.read (r.slotPtr idx) p.data.length = p.data

/-- The number of places in which the message of post `n` is: the slots that hold it, the receives
that returned it, and the posts that evicted it. -/
def places (s : RingHistory) (n : Nat) : Nat :=
  s.cells.count (some n) + s.receipts.countP (·.post == some n) +
    s.posts.countP (·.evicted == some n)

/-- The message of post `n`, which was `p`, is in one place, and there it is what was posted. -/
structure InOnePlace (s : RingHistory) (n : Nat) (p : PostRecord) : Prop where
  places : s.places n = 1
  stored : ∀ idx, s.cells[idx]? = some (some n) → SlotHolds s.ring idx p
  received : ∀ t ∈ s.receipts, t.post = some n →
    t.bytes = p.data ∧ t.metadata.src = p.src ∧ t.metadata.priority = p.priority.toUInt8
  /-- It was evicted by a later successful post of at least its priority, when all slots were in use
  and none had a lower priority. -/
  evicted : ∀ (m : Nat) (q : PostRecord), s.posts[m]? = some q → q.evicted = some n →
    n < m ∧ q.ok = true ∧ p.priority ≤ q.priority ∧
      ∀ a ∈ q.before, a.inUse = true ∧ p.priority ≤ a.priority

/-- No loss and no duplication, in a ring of this capacity. -/
structure Conserved (capacity : Nat) (s : RingHistory) : Prop where
  in_one_place : ∀ (n : Nat) (p : PostRecord), s.posts[n]? = some p → p.ok = true → s.InOnePlace n p
  /-- The slots in use are those with the message of a post. -/
  in_use_iff : ∀ (idx : Nat) (m : SlotMeta), s.ring.slots[idx]? = some m →
    (m.inUse = true ↔ ∃ n, s.cells[idx]? = some (some n))
  /-- A post that returns false leaves all slots unchanged. -/
  refused : ∀ data priority src, (s.ring.post data priority src).1 = false →
    (s.ring.post data priority src).2 = s.ring
  in_use_le : s.ring.slots.countP (·.inUse) ≤ capacity

/-- The posts of the claim: a message that fits, with a priority above -128. -/
def Admissible (slotSize : UInt32) : Event → Prop
  | .post data priority _ => data.length ≤ slotSize.toNat ∧ Int8.minValue < priority
  | .postToRemote data priority _ => data.length ≤ slotSize.toNat ∧ Int8.minValue < priority
  | .receive _ _ => True

/-! ### The invariant -/

/-- What a run on a ring with slots of this size keeps. -/
structure Invariant (capacity : Nat) (slotSize : UInt32) (s : RingHistory) : Prop where
  slotSize_eq : s.ring.slotSize = slotSize
  capacity_eq : s.ring.slots.length = capacity
  cells_length : s.cells.length = capacity
  in_use_iff : ∀ (idx : Nat) (m : SlotMeta), s.ring.slots[idx]? = some m →
    (m.inUse = true ↔ ∃ n, s.cells[idx]? = some (some n))
  fits : ∀ p ∈ s.posts, p.data.length ≤ slotSize.toNat
  /-- The message of a successful post is in one place, and there is no other message. -/
  count : ∀ n, s.places n = if (s.posts[n]?.map (·.ok)) = some true then 1 else 0
  stored : ∀ (n : Nat) (p : PostRecord), s.posts[n]? = some p →
    ∀ idx, s.cells[idx]? = some (some n) → SlotHolds s.ring idx p
  received : ∀ (n : Nat) (p : PostRecord), s.posts[n]? = some p →
    ∀ t ∈ s.receipts, t.post = some n →
    t.bytes = p.data ∧ t.metadata.src = p.src ∧ t.metadata.priority = p.priority.toUInt8
  evicted : ∀ (n m : Nat) (p q : PostRecord), s.posts[n]? = some p → s.posts[m]? = some q →
    q.evicted = some n →
    n < m ∧ q.ok = true ∧ p.priority ≤ q.priority ∧
      ∀ a ∈ q.before, a.inUse = true ∧ p.priority ≤ a.priority

namespace Invariant

variable {capacity : Nat} {slotSize : UInt32} {s : RingHistory}

theorem conserved (h : s.Invariant capacity slotSize) : s.Conserved capacity where
  in_one_place n p hp hok :=
    { places := by rw [h.count, hp]; simp [hok]
      stored := h.stored n p hp
      received := h.received n p hp
      evicted := fun m q => h.evicted n m p q hp }
  in_use_iff := h.in_use_iff
  refused data priority src hfail := by
    rcases s.ring.post_cases data priority src with ⟨idx, m, -, -, heq⟩ | ⟨-, heq, -⟩
    · rw [heq] at hfail
      cases hfail
    · rw [heq]
  in_use_le := by
    rw [← h.capacity_eq]
    exact List.countP_le_length

theorem lt_cells (h : s.Invariant capacity slotSize) {idx : Nat}
    (hidx : idx < s.ring.slots.length) : idx < s.cells.length := by
  rw [h.cells_length, ← h.capacity_eq]
  exact hidx

/-! A message that has a place was posted. -/

theorem lt_of_places (h : s.Invariant capacity slotSize) {n : Nat} (hpos : 0 < s.places n) :
    n < s.posts.length := by
  by_contra hge
  rw [h.count, List.getElem?_eq_none (Nat.le_of_not_lt hge)] at hpos
  simp at hpos

theorem lt_of_cell (h : s.Invariant capacity slotSize) {idx n : Nat}
    (hcell : s.cells[idx]? = some (some n)) : n < s.posts.length := by
  have hcount : 0 < s.cells.count (some n) := List.count_pos_iff.mpr (List.mem_of_getElem? hcell)
  refine h.lt_of_places ?_
  unfold places
  omega

theorem lt_of_receipt (h : s.Invariant capacity slotSize) {t : Receipt} (ht : t ∈ s.receipts)
    {n : Nat} (hpost : t.post = some n) : n < s.posts.length := by
  have hcount : 0 < s.receipts.countP (·.post == some n) :=
    List.countP_pos_iff.mpr ⟨t, ht, by simp [hpost]⟩
  refine h.lt_of_places ?_
  unfold places
  omega

theorem lt_of_evicted (h : s.Invariant capacity slotSize) {q : PostRecord} (hq : q ∈ s.posts)
    {n : Nat} (hevicted : q.evicted = some n) : n < s.posts.length := by
  have hcount : 0 < s.posts.countP (·.evicted == some n) :=
    List.countP_pos_iff.mpr ⟨q, hq, by simp [hevicted]⟩
  refine h.lt_of_places ?_
  unfold places
  omega

/-- The places of the messages, with one further post. -/
theorem places_snoc (h : s.Invariant capacity slotSize) (p : PostRecord) (n : Nat) :
    (if ((s.posts ++ [p])[n]?.map (·.ok)) = some true then 1 else 0)
      = s.places n + (if n = s.posts.length ∧ p.ok = true then 1 else 0) := by
  rw [h.count]
  rcases Nat.lt_trichotomy n s.posts.length with hlt | rfl | hgt
  · rw [List.getElem?_append_left hlt, if_neg (c := n = s.posts.length ∧ _)]
    · rfl
    · exact fun hn => Nat.ne_of_lt hlt hn.1
  · rw [List.getElem?_concat_length, List.getElem?_eq_none (Nat.le_refl _)]
    simp
  · have hnone : (s.posts ++ [p])[n]? = none := List.getElem?_eq_none (by simp; omega)
    rw [hnone, List.getElem?_eq_none (Nat.le_of_lt hgt)]
    simp [Nat.ne_of_gt hgt]

theorem fits_snoc (h : s.Invariant capacity slotSize) {p : PostRecord}
    (hp : p.data.length ≤ slotSize.toNat) :
    ∀ q ∈ s.posts ++ [p], q.data.length ≤ slotSize.toNat := by
  intro q hq
  rcases List.mem_append.mp hq with hq | hq
  · exact h.fits q hq
  · rw [List.mem_singleton.mp hq]
    exact hp

end Invariant

/-- Changing what is in a slot moves the count from the old message to the new one. -/
theorem count_set_add {cells : List (Option Nat)} {idx : Nat} (hidx : idx < cells.length)
    (new x : Option Nat) :
    (cells.set idx new).count x + (if cells[idx] = x then 1 else 0)
      = cells.count x + (if new = x then 1 else 0) := by
  have hle : (if cells[idx] = x then 1 else 0) ≤ cells.count x := by
    split
    · rename_i heq
      exact List.count_pos_iff.mpr (heq ▸ List.getElem_mem hidx)
    · exact Nat.zero_le _
  rw [List.count_set hidx]
  simp only [beq_iff_eq]
  omega

/-- What is in the other slots stays there when a message is stored. -/
theorem SlotHolds.store {r : EvlRing} {idx j : Nat} {p : PostRecord} (h : SlotHolds r j p)
    (hunwrapped : r.Unwrapped) (hidx : idx < r.slots.length) (hj : j ≠ idx)
    (hp : p.data.length ≤ r.slotSize.toNat) {data : List UInt8}
    (hdata : data.length ≤ r.slotSize.toNat) (m : SlotMeta) :
    SlotHolds (r.store idx data m) j p := by
  obtain ⟨m', hm', huse, hprio, hsrc, hsize, hbytes⟩ := h
  have hjlt : j < r.slots.length := (List.getElem?_eq_some_iff.mp hm').1
  refine ⟨m', ?_, huse, hprio, hsrc, hsize, ?_⟩
  · simp [EvlRing.store, Ne.symm hj, hm']
  · have hdisjoint := hunwrapped.slotPtr_disjoint hidx hjlt (Ne.symm hj)
    rw [EvlRing.slotPtr_store]
    refine (ByteMemory.read_write_of_disjoint _ ?_).trans hbytes
    omega

theorem SlotHolds.release {r : EvlRing} {idx j : Nat} {p : PostRecord} (h : SlotHolds r j p)
    (hj : j ≠ idx) : SlotHolds (r.release idx) j p := by
  obtain ⟨m', hm', hrest⟩ := h
  refine ⟨m', ?_, hrest⟩
  rw [EvlRing.getElem?_release_of_ne _ hj, hm']

/-! ### One call -/

theorem getElem?_snoc {α : Type} {l : List α} {a b : α} {n : Nat} (h : (l ++ [a])[n]? = some b) :
    l[n]? = some b ∨ (n = l.length ∧ b = a) := by
  rw [List.getElem?_append] at h
  split at h
  · exact Or.inl h
  · rename_i hge
    rw [List.getElem?_singleton] at h
    split at h
    · rename_i hzero
      exact Or.inr ⟨by omega, (Option.some.inj h).symm⟩
    · cases h

/-- After a post that has put its message into slot `idx`. -/
def putInto (s : RingHistory) (idx : Nat) (data : List UInt8) (priority : Int8)
    (src : MailboxId) : RingHistory :=
  { s with
      ring := s.ring.store idx data ⟨priority, true, src, UInt32.ofNat data.length⟩
      cells := s.cells.set idx (some s.posts.length)
      posts := s.posts ++ [⟨data, priority, src, true, s.cells[idx]?.join, s.ring.slots⟩] }

namespace Invariant

variable {capacity : Nat} {slotSize : UInt32} {s : RingHistory}

/-- A post that returns false. -/
theorem post_refused (h : s.Invariant capacity slotSize) {data : List UInt8}
    (hdata : data.length ≤ slotSize.toNat) (priority : Int8) (src : MailboxId)
    (before : List SlotMeta) :
    ({ s with posts := s.posts ++ [⟨data, priority, src, false, none, before⟩] } :
      RingHistory).Invariant capacity slotSize := by
  refine ⟨h.slotSize_eq, h.capacity_eq, h.cells_length, h.in_use_iff, h.fits_snoc hdata, ?_, ?_,
    ?_, ?_⟩
  · intro n
    rw [h.places_snoc]
    simp [places]
  -- It is in no place, so it is none of the messages in a slot, received or evicted.
  · intro n p hp idx hcell
    rw [List.getElem?_append_left (h.lt_of_cell hcell)] at hp
    exact h.stored n p hp idx hcell
  · intro n p hp t ht hpost
    rw [List.getElem?_append_left (h.lt_of_receipt ht hpost)] at hp
    exact h.received n p hp t ht hpost
  · intro n m p q hp hq hevicted
    rcases getElem?_snoc hq with hq | ⟨-, rfl⟩
    · rw [List.getElem?_append_left (h.lt_of_evicted (List.mem_of_getElem? hq) hevicted)] at hp
      exact h.evicted n m p q hp hq hevicted
    · cases hevicted

/-- The message that was in the slot is now with the evicted ones. -/
theorem count_putInto (h : s.Invariant capacity slotSize) {idx : Nat}
    (hidx : idx < s.ring.slots.length) (data : List UInt8) (priority : Int8) (src : MailboxId)
    (n : Nat) :
    (s.putInto idx data priority src).places n
      = if ((s.putInto idx data priority src).posts[n]?.map (·.ok)) = some true then 1 else 0 := by
  have hcell := h.lt_cells hidx
  have hset := count_set_add hcell (some s.posts.length) (some n)
  refine Eq.trans ?_ (h.places_snoc
    ⟨data, priority, src, true, s.cells[idx]?.join, s.ring.slots⟩ n).symm
  simp only [putInto, places, List.countP_append, List.countP_singleton, beq_iff_eq, and_true,
    List.getElem?_eq_getElem hcell, Option.join_some, Option.some.injEq, eq_comm (b := n)]
    at hset ⊢
  omega

/-- The message is in its slot, and the other slots hold what they held. -/
theorem stored_putInto (h : s.Invariant capacity slotSize) (hunwrapped : s.ring.Unwrapped)
    {idx : Nat} (hidx : idx < s.ring.slots.length) {data : List UInt8}
    (hdata : data.length ≤ slotSize.toNat) (priority : Int8) (src : MailboxId) {n : Nat}
    {p : PostRecord} (hp : (s.putInto idx data priority src).posts[n]? = some p) {j : Nat}
    (hj : (s.putInto idx data priority src).cells[j]? = some (some n)) :
    SlotHolds (s.putInto idx data priority src).ring j p := by
  simp only [putInto] at hp hj
  by_cases hjidx : j = idx
  · subst hjidx
    rw [List.getElem?_set_self (h.lt_cells hidx), Option.some.injEq, Option.some.injEq] at hj
    subst hj
    rw [List.getElem?_concat_length, Option.some.injEq] at hp
    subst hp
    have hsize : (UInt32.ofNat data.length).toNat = data.length :=
      UInt32.toNat_ofNat_of_lt' (Nat.lt_of_le_of_lt hdata slotSize.toNat_lt)
    exact ⟨_, List.getElem?_set_self hidx, rfl, rfl, rfl, hsize, ByteMemory.read_write_self ..⟩
  · rw [List.getElem?_set_ne (Ne.symm hjidx)] at hj
    rw [List.getElem?_append_left (h.lt_of_cell hj)] at hp
    refine (h.stored n p hp j hj).store hunwrapped hidx hjidx ?_ ?_ _
    · rw [h.slotSize_eq]
      exact h.fits p (List.mem_of_getElem? hp)
    · rw [h.slotSize_eq]
      exact hdata

/-- The evicted message was in the slot, and all slots were in use. -/
theorem evicted_putInto (h : s.Invariant capacity slotSize) {idx : Nat} {m : SlotMeta}
    {priority : Int8} (hyields : s.ring.Yields priority idx m) {n : Nat}
    (hevicted : s.cells[idx]?.join = some n) {p : PostRecord} (hp : s.posts[n]? = some p) :
    p.priority ≤ priority ∧ ∀ a ∈ s.ring.slots, a.inUse = true ∧ p.priority ≤ a.priority := by
  obtain ⟨m', hm', huse, hprio, -⟩ :=
    h.stored n p hp idx (Option.join_eq_some_iff.mp hevicted)
  obtain rfl : m' = m := Option.some.inj (hm'.symm.trans hyields.1)
  rcases hyields.2 with hfree | ⟨-, hle, hall⟩
  · rw [hfree] at huse
    cases huse
  · rw [← hprio]
    exact ⟨hle, hall⟩

/-- A post that puts its message into slot `idx`. -/
theorem putInto (h : s.Invariant capacity slotSize) (hunwrapped : s.ring.Unwrapped)
    {data : List UInt8} (hdata : data.length ≤ slotSize.toNat) {priority : Int8}
    (src : MailboxId) {idx : Nat} {m : SlotMeta} (hyields : s.ring.Yields priority idx m) :
    (s.putInto idx data priority src).Invariant capacity slotSize := by
  have hidx : idx < s.ring.slots.length := hyields.lt
  refine ⟨h.slotSize_eq, ?_, ?_, ?_, h.fits_snoc hdata, h.count_putInto hidx data priority src,
    fun n p hp j hj => h.stored_putInto hunwrapped hidx hdata priority src hp hj, ?_, ?_⟩
  · simpa [RingHistory.putInto, EvlRing.store] using h.capacity_eq
  · simpa [RingHistory.putInto] using h.cells_length
  · intro j a ha
    simp only [RingHistory.putInto, EvlRing.store] at ha ⊢
    by_cases hj : j = idx
    · subst hj
      rw [List.getElem?_set_self hidx, Option.some.injEq] at ha
      rw [← ha, List.getElem?_set_self (h.lt_cells hidx)]
      simp
    · rw [List.getElem?_set_ne (Ne.symm hj)] at ha ⊢
      exact h.in_use_iff j a ha
  · intro n p hp t ht hpost
    simp only [RingHistory.putInto] at hp
    rw [List.getElem?_append_left (h.lt_of_receipt ht hpost)] at hp
    exact h.received n p hp t ht hpost
  · intro n k p q hp hq hevicted
    simp only [RingHistory.putInto] at hp hq
    rcases getElem?_snoc hq with hq | ⟨rfl, rfl⟩
    · rw [List.getElem?_append_left (h.lt_of_evicted (List.mem_of_getElem? hq) hevicted)] at hp
      exact h.evicted n k p q hp hq hevicted
    · have hn := h.lt_of_cell (Option.join_eq_some_iff.mp hevicted)
      rw [List.getElem?_append_left hn] at hp
      obtain ⟨hle, hall⟩ := h.evicted_putInto hyields hevicted hp
      exact ⟨hn, rfl, hle, hall⟩

/-- A receive that takes the message of slot `idx`. -/
theorem received_from (h : s.Invariant capacity slotSize) {idx : Nat} {m : SlotMeta}
    (hm : s.ring.slots[idx]? = some m) (mailboxId : MailboxId) :
    ({ s with
        ring := s.ring.release idx
        cells := s.cells.set idx none
        receipts := s.receipts ++
          [⟨s.cells[idx]?.join, s.ring.payload.read (s.ring.slotPtr idx) m.size.toNat,
            EvlRing.metadataOf mailboxId m
              (s.ring.payload.read (s.ring.slotPtr idx) m.size.toNat)⟩] } :
      RingHistory).Invariant capacity slotSize := by
  have hcell := h.lt_cells (List.getElem?_eq_some_iff.mp hm).1
  refine ⟨h.slotSize_eq, ?_, ?_, ?_, h.fits, ?_, ?_, ?_, h.evicted⟩
  · simpa [EvlRing.release] using h.capacity_eq
  · simpa using h.cells_length
  · intro j a ha
    by_cases hj : j = idx
    · subst hj
      rw [EvlRing.getElem?_release_self hm, Option.some.injEq] at ha
      rw [← ha, List.getElem?_set_self hcell]
      simp
    · rw [EvlRing.getElem?_release_of_ne _ hj] at ha
      rw [List.getElem?_set_ne (Ne.symm hj)]
      exact h.in_use_iff j a ha
  · -- The message that was in the slot is now with the received ones.
    intro n
    have hcount := h.count n
    have hset := count_set_add hcell none (some n)
    simp only [places, List.countP_append, List.countP_singleton, beq_iff_eq,
      List.getElem?_eq_getElem hcell, Option.join_some] at hcount ⊢
    simp only [reduceCtorEq, if_false, Nat.add_zero] at hset
    omega
  · intro n p hp j hj
    have hjidx : j ≠ idx := by
      rintro rfl
      rw [List.getElem?_set_self hcell] at hj
      cases hj
    rw [List.getElem?_set_ne (Ne.symm hjidx)] at hj
    exact (h.stored n p hp j hj).release hjidx
  · intro n p hp t ht hpost
    rcases List.mem_append.mp ht with ht | ht
    · exact h.received n p hp t ht hpost
    · rw [List.mem_singleton.mp ht] at hpost ⊢
      obtain ⟨m', hm', -, hprio, hsrc, hsize, hbytes⟩ :=
        h.stored n p hp idx (Option.join_eq_some_iff.mp hpost)
      obtain rfl : m' = m := Option.some.inj (hm'.symm.trans hm)
      refine ⟨?_, hsrc, ?_⟩
      · show s.ring.payload.read (s.ring.slotPtr idx) m'.size.toNat = p.data
        rw [hsize, hbytes]
      · show m'.priority.toUInt8 = p.priority.toUInt8
        rw [hprio]

theorem post (h : s.Invariant capacity slotSize) (hunwrapped : s.ring.Unwrapped)
    {data : List UInt8} (hdata : data.length ≤ slotSize.toNat) (priority : Int8)
    (src : MailboxId) :
    (s.recordPost (s.ring.post data priority src) data priority src).Invariant capacity
      slotSize := by
  rcases s.ring.post_cases data priority src with
    ⟨idx, m, hchoose, hyields, heq⟩ | ⟨hchoose, heq, -⟩
  · rw [heq]
    simp only [recordPost, hchoose]
    exact h.putInto hunwrapped hdata src hyields
  · rw [heq]
    simp only [recordPost, hchoose]
    exact h.post_refused hdata priority src s.ring.slots

end Invariant

/-- A receive that returns no message. -/
theorem recordReceive_eq_self {s : RingHistory} {result : EvlRing.Received × EvlRing}
    (hring : result.2 = s.ring) (hno : ∀ bytes metadata, result.1 ≠ .message bytes metadata) :
    s.recordReceive result = s := by
  unfold recordReceive
  split
  · rename_i bytes metadata _ hmessage
    exact absurd hmessage (hno bytes metadata)
  · rw [hring]

theorem invariant_step {capacity : Nat} {slotSize : UInt32}
    (hunwrapped : (capacity - 1) * slotSize.toNat < 2 ^ 32) (s : RingHistory) (e : Event)
    (h : s.Invariant capacity slotSize) (he : Admissible slotSize e) :
    (s.step e).Invariant capacity slotSize := by
  have hring : s.ring.Unwrapped := by
    rw [EvlRing.Unwrapped, h.capacity_eq, h.slotSize_eq]
    exact hunwrapped
  cases e with
  | post data priority src => exact h.post hring he.1 priority src
  | postToRemote data priority src =>
    simp only [step]
    rw [EvlRing.postToRemote_eq_post (h.slotSize_eq ▸ he.1)]
    exact h.post hring he.1 priority src
  | receive mailboxId bufferSize =>
    simp only [step]
    rcases s.ring.receive_cases mailboxId bufferSize with
      ⟨idx, m, hfound, hm, -, heq⟩ | ⟨heq, hno⟩
    · rw [heq]
      simp only [recordReceive, hfound]
      exact h.received_from hm mailboxId
    · rw [recordReceive_eq_self heq hno]
      exact h

theorem invariant_init (capacity : Nat) (slotSize : UInt32) (payload : ByteMemory) :
    (init capacity slotSize payload).Invariant capacity slotSize where
  slotSize_eq := rfl
  capacity_eq := by simp [init, EvlRing.allocateRing]
  cells_length := by simp [init]
  in_use_iff idx m hm := by
    have hempty := List.eq_of_mem_replicate (List.mem_of_getElem? hm)
    rw [hempty]
    simp [init, SlotMeta.empty, List.getElem?_replicate]
  fits := by simp [init]
  count n := by simp [init, places, List.count_replicate]
  stored := by simp [init]
  received := by simp [init]
  evicted := by simp [init]

/-! ### A ring whose slots share memory -/

/-- Posts that fill the slots in order. -/
def fillRun (messages : List (List UInt8)) : List Event := messages.map fun d => .post d 0 0

/-- The slot of a message in a ring that is filled in order. -/
def filledSlot (data : List UInt8) : SlotMeta := ⟨0, true, 0, UInt32.ofNat data.length⟩

theorem admissible_fillRun {slotSize : UInt32} {messages : List (List UInt8)}
    (h : ∀ d ∈ messages, d.length ≤ slotSize.toNat) :
    ∀ e ∈ fillRun messages, Admissible slotSize e := by
  intro e he
  obtain ⟨d, hd, rfl⟩ := List.mem_map.mp he
  exact ⟨h d hd, by decide⟩

/-- The ring has been filled in order: the messages are in the slots in which they came. -/
structure Filled (capacity : Nat) (slotSize : UInt32) (messages : List (List UInt8))
    (s : RingHistory) : Prop where
  slotSize_eq : s.ring.slotSize = slotSize
  slots : s.ring.slots
    = messages.map filledSlot ++ List.replicate (capacity - messages.length) .empty
  cells : s.cells
    = (List.range messages.length).map some ++ List.replicate (capacity - messages.length) none
  posts : s.posts.map (fun p => (p.data, p.ok)) = messages.map fun d => (d, true)

namespace Filled

variable {capacity : Nat} {slotSize : UInt32} {messages : List (List UInt8)} {s : RingHistory}

theorem length_posts (h : Filled capacity slotSize messages s) :
    s.posts.length = messages.length := by
  have hlength := congrArg List.length h.posts
  simpa using hlength

/-- The next message goes to the next slot. -/
theorem chooseSlot (h : Filled capacity slotSize messages s) (hlen : messages.length < capacity) :
    s.ring.chooseSlot 0 = (some messages.length, s.ring) := by
  have hused : (messages.map filledSlot).findIdx? (!·.inUse) = none := by
    rw [List.findIdx?_eq_none_iff]
    simp [filledSlot]
  have hrest : (List.replicate (capacity - messages.length) SlotMeta.empty).findIdx? (!·.inUse)
      = some 0 := by
    rw [List.findIdx?_replicate, if_pos ⟨by omega, rfl⟩]
  have hfree : s.ring.findFreeSlot = some messages.length := by
    rw [EvlRing.findFreeSlot, h.slots, List.findIdx?_append, hused, hrest, List.length_map]
    simp
  rw [EvlRing.chooseSlot, hfree]

/-- A post fills the next slot. -/
theorem post (h : Filled capacity slotSize messages s) (hlen : messages.length < capacity)
    (data : List UInt8) :
    Filled capacity slotSize (messages ++ [data]) (s.step (.post data 0 0)) ∧
      (s.step (.post data 0 0)).ring = s.ring.store messages.length data (filledSlot data) := by
  obtain ⟨n, hn⟩ : ∃ n, capacity - messages.length = n + 1 :=
    ⟨capacity - messages.length - 1, by omega⟩
  have hn' : capacity - (messages ++ [data]).length = n := by
    rw [List.length_append, List.length_singleton]
    omega
  have hslots := h.slots
  have hcells := h.cells
  rw [hn, List.replicate_succ] at hslots hcells
  simp only [step, recordPost, EvlRing.post, h.chooseSlot hlen]
  refine ⟨⟨h.slotSize_eq, ?_, ?_, ?_⟩, rfl⟩
  · rw [hn']
    simp [EvlRing.store, filledSlot, hslots]
  · rw [hn']
    simp [hcells, h.length_posts, List.range_succ]
  · simp [h.posts]

/-- The first message, in a ring that has conserved it. -/
theorem read_first {d : List UInt8} (h : Filled capacity slotSize (d :: messages) s)
    (hconserved : s.Conserved capacity) : s.ring.payload.read (s.ring.slotPtr 0) d.length = d := by
  have hcell : s.cells[0]? = some (some 0) := by
    simp [h.cells, List.range_succ_eq_map]
  have hfirst : (s.posts.map fun p => (p.data, p.ok))[0]? = some (d, true) := by
    rw [h.posts]
    rfl
  rw [List.getElem?_map, Option.map_eq_some_iff] at hfirst
  obtain ⟨p, hp, hdata⟩ := hfirst
  rw [Prod.mk.injEq] at hdata
  obtain ⟨m, -, -, -, -, -, hbytes⟩ := (hconserved.in_one_place 0 p hp hdata.2).stored 0 hcell
  rwa [hdata.1] at hbytes

end Filled

theorem fillRun_append_singleton (messages : List (List UInt8)) (data : List UInt8)
    (s : RingHistory) :
    runFrom step s (fillRun (messages ++ [data]))
      = (runFrom step s (fillRun messages)).step (.post data 0 0) := by
  simp [fillRun, runFrom_append]

theorem filled_fillRun (capacity : Nat) (slotSize : UInt32) (payload : ByteMemory)
    (messages : List (List UInt8)) (hlen : messages.length ≤ capacity) :
    Filled capacity slotSize messages
      (runFrom step (init capacity slotSize payload) (fillRun messages)) := by
  induction messages using List.reverseRecOn with
  | nil =>
    exact ⟨rfl, by simp [fillRun, init, EvlRing.allocateRing], by simp [fillRun, init],
      by simp [fillRun, init]⟩
  | append_singleton messages data ih =>
    rw [List.length_append, List.length_singleton] at hlen
    rw [fillRun_append_singleton]
    exact ((ih (by omega)).post (by omega) data).1

/-- Zeros in all of slot 0, and a byte in each of the slots 1 to `i`. -/
def zeroMessages (slotSize i : Nat) : List (List UInt8) :=
  List.replicate slotSize 0 :: List.replicate i [0]

/-- A message in a slot whose address has wrapped changes the message in slot 0. -/
theorem not_conserved_of_wrapped {capacity : Nat} {slotSize : UInt32} (payload : ByteMemory)
    (hwrapped : 2 ^ 32 ≤ (capacity - 1) * slotSize.toNat) :
    ∃ es, (∀ e ∈ es, Admissible slotSize e) ∧
      ¬ (runFrom step (init capacity slotSize payload) es).Conserved capacity := by
  have hpos : 0 < slotSize.toNat := by
    by_contra hzero
    rw [Nat.eq_zero_of_not_pos hzero] at hwrapped
    simp at hwrapped
  obtain ⟨i, hcapacity, hinside⟩ := exists_wrapped_slot hpos slotSize.toNat_lt hwrapped
  have hlen : (zeroMessages slotSize.toNat i).length = i + 1 := by simp [zeroMessages]
  refine ⟨fillRun (zeroMessages slotSize.toNat i ++ [[1]]), ?_, ?_⟩
  · refine admissible_fillRun fun d hd => ?_
    rcases List.mem_append.mp hd with hd | hd
    · rcases List.mem_cons.mp hd with rfl | hd
      · simp
      · rw [List.eq_of_mem_replicate hd]
        exact hpos
    · rw [List.mem_singleton.mp hd]
      exact hpos
  · rw [fillRun_append_singleton]
    intro hconserved
    have hfilled := filled_fillRun capacity slotSize payload (zeroMessages slotSize.toNat i)
      (by omega)
    generalize runFrom step (init capacity slotSize payload)
      (fillRun (zeroMessages slotSize.toNat i)) = s at hfilled hconserved
    obtain ⟨hfilled', hring⟩ := hfilled.post (by omega) [1]
    -- Slot 0 should hold zeros, and its byte at the start of slot `i + 1` is now 1.
    have hzeros := hfilled'.read_first hconserved
    rw [List.length_replicate, hring, hlen] at hzeros
    have hptr : (s.ring.store (i + 1) [1] (filledSlot [1])).slotPtr 0
        + (i + 1) * slotSize.toNat % 2 ^ 32 = s.ring.slotPtr (i + 1) + 0 := by
      rw [EvlRing.slotPtr_store, EvlRing.slotPtr_eq, EvlRing.slotPtr_eq, hfilled.slotSize_eq]
      simp
    have hbyte : (s.ring.store (i + 1) [1] (filledSlot [1])).payload
        (s.ring.slotPtr (i + 1) + 0) = 1 := ByteMemory.write_of_mem _ _ rfl
    have hget := congrArg (·[(i + 1) * slotSize.toNat % 2 ^ 32]?) hzeros
    simp only [ByteMemory.getElem?_read _ _ _ hinside, hptr, hbyte, List.getElem?_replicate,
      hinside, if_true, Option.some.injEq] at hget
    exact absurd hget (by decide)

/-! ### Runs -/

/-- **No loss, no duplication.** Take an empty ring of any size. On every sequence of posts of
messages that fit and of receives, every message is conserved in every state, exactly when no
address of a slot wraps. -/
theorem conserved_iff (capacity : Nat) (slotSize : UInt32) (payload : ByteMemory) :
    (∀ es, (∀ e ∈ es, Admissible slotSize e) →
        AllStates step (Conserved capacity) (init capacity slotSize payload) es) ↔
      (capacity - 1) * slotSize.toNat < 2 ^ 32 := by
  constructor
  · intro h
    by_contra hwrapped
    obtain ⟨es, hes, hno⟩ := not_conserved_of_wrapped payload (Nat.le_of_not_lt hwrapped)
    exact hno (h es hes).last
  · intro hunwrapped es hes
    have hsteps : AllSteps step (fun _ e => Admissible slotSize e)
        (init capacity slotSize payload) es := allSteps_of_forall hes
    exact (allStates_of_allSteps (invariant_step hunwrapped)
      (invariant_init capacity slotSize payload) hsteps).mono fun _ => Invariant.conserved

/-- Nine messages of a byte each, in a ring of 10 slots of 2^29 bytes. -/
def nineMessages : List Event := fillRun [[0], [0], [0], [0], [0], [0], [0], [0], [1]]

/-- Slot 8 starts at 8 * 2^29, which is 0 in 32 bits. The ninth message lies on the first one. -/
theorem ninth_message_overwrites_first :
    (∀ e ∈ nineMessages, Admissible 536870912 e) ∧
      ¬ (runFrom step (init 10 536870912 fun _ => 0) nineMessages).Conserved 10 ∧
      (runFrom step (init 10 536870912 fun _ => 0) nineMessages).cells[0]? = some (some 0) ∧
      (runFrom step (init 10 536870912 fun _ => 0) nineMessages).ring.payload.read 0 1 = [1] := by
  have hcell : (runFrom step (init 10 536870912 fun _ => 0) nineMessages).cells[0]?
      = some (some 0) := by decide
  have hread : (runFrom step (init 10 536870912 fun _ => 0) nineMessages).ring.payload.read 0 1
      = [1] := by decide
  refine ⟨?_, ?_, hcell, hread⟩
  · exact admissible_fillRun (by decide)
  · intro h
    obtain ⟨m, -, -, -, -, -, hbytes⟩ := (h.in_one_place 0 _ rfl rfl).stored 0 hcell
    exact absurd (hread.symm.trans hbytes) (by decide)

end RingHistory

end CoreRaT.Spec
