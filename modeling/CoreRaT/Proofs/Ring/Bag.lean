import Mathlib.Data.Multiset.Range
import CoreRaT.Lib.PriorityBag
import CoreRaT.Lib.Run
import CoreRaT.Proofs.Ring.History

/-!
# `CoreRaT.Proofs.Ring.Bag`: the ring is a bounded bag with priorities

What a ring is for, without slots and addresses: a bag of messages, of which a receive takes one of
the highest priority, and where a message for a full ring takes the place of one of the lowest
(`CoreRaT.Lib.PriorityBag`). `refines_bag` says that every run of posts and receives is a run of
this bag, call by call and with the same results, when the messages fit into their slots, no
address wraps, and no priority is -128.

With the rules of the bag, `burst_then_drain` follows: after any burst of posts, receives return the
messages of the highest priorities, in the order of their priorities.
-/

set_option autoImplicit false

namespace CoreRaT.Spec

open CoreRaT.Lib

/-- A message, as the sender posts it and as the receiver gets it. -/
structure RingMessage where
  bytes : List UInt8
  priority : Int8
  src : MailboxId
deriving DecidableEq

/-- The rank of a message. -/
def RingMessage.rank (x : RingMessage) : Int := x.priority.toInt

namespace EvlRing

open RingHistory (Admissible)

/-! ### Calls and their results -/

/-- A receive as a call on the bag. One into a buffer that is too small is none. -/
def Received.bagOps : Received → List (BagOp RingMessage)
  | .message bytes metadata => [.take (some ⟨bytes, metadata.priority.toInt8, metadata.src⟩)]
  | .nothing | .outOfBounds => [.take none]
  | .msgSize => []

/-- A call as one on the bag, with the result that it has in the state `r`. -/
def bagOps (r : EvlRing) : Event → List (BagOp RingMessage)
  | .post data priority src => [.put ⟨data, priority, src⟩ (r.post data priority src).1]
  | .postToRemote data priority src =>
    [.put ⟨data, priority, src⟩ (r.postToRemote data priority src).1]
  | .receive mailboxId bufferSize => (r.receive mailboxId bufferSize).1.bagOps

/-- The calls of a run. -/
def calls (r : EvlRing) : List Event → List (BagOp RingMessage)
  | [] => []
  | e :: es => r.bagOps e ++ (r.step e).calls es

/-! ### The messages in the ring -/

/-- The message in slot `j`. -/
def messageIn (r : EvlRing) (j : Nat) : Option RingMessage :=
  r.slots[j]?.bind fun m =>
    if m.inUse then some ⟨r.payload.read (r.slotPtr j) m.size.toNat, m.priority, m.src⟩ else none

/-- All messages in the ring. -/
def messages (r : EvlRing) : Multiset RingMessage :=
  (Multiset.range r.slots.length).filterMap r.messageIn

theorem mem_messages {r : EvlRing} {x : RingMessage} :
    x ∈ r.messages ↔ ∃ j, r.messageIn j = some x := by
  simp only [messages, Multiset.mem_filterMap, Multiset.mem_range]
  constructor
  · rintro ⟨j, -, hj⟩
    exact ⟨j, hj⟩
  · rintro ⟨j, hj⟩
    refine ⟨j, ?_, hj⟩
    by_contra hge
    rw [messageIn, List.getElem?_eq_none (Nat.le_of_not_lt hge)] at hj
    cases hj

theorem messageIn_of_used {r : EvlRing} {j : Nat} {m : SlotMeta} (hm : r.slots[j]? = some m)
    (huse : m.inUse = true) :
    r.messageIn j = some ⟨r.payload.read (r.slotPtr j) m.size.toNat, m.priority, m.src⟩ := by
  simp [messageIn, hm, huse]

theorem messageIn_of_free {r : EvlRing} {j : Nat} {m : SlotMeta} (hm : r.slots[j]? = some m)
    (huse : m.inUse = false) : r.messageIn j = none := by
  simp [messageIn, hm, huse]

/-- A message has the priority of a slot in use. -/
theorem exists_slot_of_mem {r : EvlRing} {x : RingMessage} (hx : x ∈ r.messages) :
    ∃ m ∈ r.slots, m.inUse = true ∧ m.priority = x.priority := by
  obtain ⟨j, hj⟩ := mem_messages.mp hx
  obtain ⟨m, hm, hx⟩ := Option.bind_eq_some_iff.mp hj
  split at hx
  · rename_i huse
    refine ⟨m, List.mem_of_getElem? hm, huse, ?_⟩
    rw [← Option.some.inj hx]
  · cases hx

/-- The message of one slot and those of the others. -/
theorem messages_eq {r : EvlRing} {idx : Nat} (hidx : idx < r.slots.length) :
    r.messages = ↑(r.messageIn idx).toList +
      ((Multiset.range r.slots.length).erase idx).filterMap r.messageIn := by
  have hrange := Multiset.cons_erase (Multiset.mem_range.mpr hidx)
  unfold messages
  conv_lhs => rw [← hrange]
  cases hmessage : r.messageIn idx with
  | none => simp [Multiset.filterMap_cons_none _ _ hmessage]
  | some x => simp [Multiset.filterMap_cons_some _ _ _ hmessage]

/-- Rings that differ in slot `idx` only have the messages of the other slots in common. -/
theorem others_congr {r r' : EvlRing} {idx : Nat} (hlen : r'.slots.length = r.slots.length)
    (h : ∀ j, j ≠ idx → r'.messageIn j = r.messageIn j) :
    ((Multiset.range r'.slots.length).erase idx).filterMap r'.messageIn =
      ((Multiset.range r.slots.length).erase idx).filterMap r.messageIn := by
  have hcongr : ∀ s : Multiset Nat, (∀ j ∈ s, r'.messageIn j = r.messageIn j) →
      s.filterMap r'.messageIn = s.filterMap r.messageIn :=
    fun s => Quot.inductionOn s fun _ hs => congrArg Multiset.ofList (List.filterMap_congr hs)
  rw [hlen]
  exact hcongr _ fun j hj => h j ((Multiset.nodup_range _).mem_erase_iff.mp hj).1

/-- There are as many messages as slots when all slots are in use. -/
theorem card_messages_of_full {r : EvlRing} (h : ∀ m ∈ r.slots, m.inUse = true) :
    r.messages.card = r.slots.length := by
  show ((List.range r.slots.length).filterMap r.messageIn).length = _
  rw [List.filterMap_length_eq_length.mpr, List.length_range]
  intro j hj
  have hlt := List.mem_range.mp hj
  have hm : r.slots[j]? = some r.slots[j] := List.getElem?_eq_getElem hlt
  rw [messageIn_of_used hm (h _ (List.getElem_mem hlt))]
  rfl

/-- There are fewer when a slot is free. -/
theorem card_messages_of_free {r : EvlRing} {idx : Nat} {m : SlotMeta}
    (hm : r.slots[idx]? = some m) (huse : m.inUse = false) :
    r.messages.card < r.slots.length := by
  have hlt := (List.getElem?_eq_some_iff.mp hm).1
  have hle : ∀ s : Multiset Nat, (s.filterMap r.messageIn).card ≤ s.card :=
    fun s => Quot.inductionOn s fun l => List.length_filterMap_le r.messageIn l
  have hothers := hle ((Multiset.range r.slots.length).erase idx)
  rw [Multiset.card_erase_of_mem (Multiset.mem_range.mpr hlt), Multiset.card_range] at hothers
  rw [messages_eq hlt, messageIn_of_free hm huse]
  simp only [Option.toList_none, Multiset.coe_nil, zero_add]
  exact Nat.lt_of_le_of_lt hothers (Nat.pred_lt_self (Nat.zero_lt_of_lt hlt))

/-! ### One call -/

/-- A ring of this size, with messages that a receive can find. -/
structure Sound (capacity : Nat) (slotSize : UInt32) (r : EvlRing) : Prop where
  capacity_eq : r.slots.length = capacity
  slotSize_eq : r.slotSize = slotSize
  used : ∀ m ∈ r.slots, m.inUse = true → m.size.toNat ≤ slotSize.toNat ∧ Int8.minValue < m.priority

variable {capacity : Nat} {slotSize : UInt32} {r : EvlRing}

theorem Sound.unwrapped (h : r.Sound capacity slotSize)
    (hwrap : (capacity - 1) * slotSize.toNat < 2 ^ 32) : r.Unwrapped := by
  unfold Unwrapped
  rw [h.capacity_eq, h.slotSize_eq]
  exact hwrap

/-- Storing a message in a slot leaves the messages of the other slots as they are. -/
theorem Sound.messageIn_store_of_ne (h : r.Sound capacity slotSize) (hunwrapped : r.Unwrapped)
    {idx j : Nat} (hidx : idx < r.slots.length) (hj : j ≠ idx) {data : List UInt8}
    (hdata : data.length ≤ slotSize.toNat) (slot : SlotMeta) :
    (r.store idx data slot).messageIn j = r.messageIn j := by
  have hslot : (r.store idx data slot).slots[j]? = r.slots[j]? := by
    simp [store, Ne.symm hj]
  unfold messageIn
  rw [hslot]
  cases hm : r.slots[j]? with
  | none => rfl
  | some m =>
    cases huse : m.inUse with
    | false => simp [huse]
    | true =>
      have hjlt := (List.getElem?_eq_some_iff.mp hm).1
      have hsize := (h.used m (List.mem_of_getElem? hm) huse).1
      have hdisjoint := hunwrapped.slotPtr_disjoint hidx hjlt (Ne.symm hj)
      rw [h.slotSize_eq] at hdisjoint
      have hread : (r.store idx data slot).payload.read ((r.store idx data slot).slotPtr j)
          m.size.toNat = r.payload.read (r.slotPtr j) m.size.toNat := by
        rw [slotPtr_store]
        exact ByteMemory.read_write_of_disjoint _ (by omega)
      simp only [Option.bind_some, huse, if_true, hread]

/-- The slot then has the message. -/
theorem messageIn_store_self {idx : Nat} (hidx : idx < r.slots.length) {data : List UInt8}
    (hdata : data.length ≤ slotSize.toNat) (priority : Int8) (src : MailboxId) :
    (r.store idx data ⟨priority, true, src, UInt32.ofNat data.length⟩).messageIn idx =
      some ⟨data, priority, src⟩ := by
  have hslot : (r.store idx data ⟨priority, true, src, UInt32.ofNat data.length⟩).slots[idx]? =
      some ⟨priority, true, src, UInt32.ofNat data.length⟩ := by
    simp [store, hidx]
  have hsize : (UInt32.ofNat data.length).toNat = data.length :=
    UInt32.toNat_ofNat_of_lt' (Nat.lt_of_le_of_lt hdata slotSize.toNat_lt)
  rw [messageIn_of_used hslot rfl, hsize, slotPtr_store]
  simp only [store, ByteMemory.read_write_self]

theorem Sound.store (h : r.Sound capacity slotSize) {idx : Nat} {data : List UInt8}
    (hdata : data.length ≤ slotSize.toNat) {priority : Int8} (hprio : Int8.minValue < priority)
    (src : MailboxId) :
    (r.store idx data ⟨priority, true, src, UInt32.ofNat data.length⟩).Sound capacity slotSize where
  capacity_eq := (List.length_set ..).trans h.capacity_eq
  slotSize_eq := h.slotSize_eq
  used := by
    refine forall_store ⟨?_, hprio⟩ h.used idx data
    rw [UInt32.toNat_ofNat_of_lt' (Nat.lt_of_le_of_lt hdata slotSize.toNat_lt)]
    exact hdata

/-- A post is a put. -/
theorem Sound.post (h : r.Sound capacity slotSize) (hunwrapped : r.Unwrapped)
    {data : List UInt8} (hdata : data.length ≤ slotSize.toNat) {priority : Int8}
    (hprio : Int8.minValue < priority) (src : MailboxId) :
    (r.post data priority src).2.Sound capacity slotSize ∧
      PriorityBag.Step RingMessage.rank capacity r.messages
        (.put ⟨data, priority, src⟩ (r.post data priority src).1)
        (r.post data priority src).2.messages := by
  rcases r.post_cases data priority src with ⟨idx, m, -, hyields, heq⟩ | ⟨-, heq, hfull⟩
  · rw [heq]
    have hidx := hyields.lt
    refine ⟨h.store hdata hprio src, ?_⟩
    have hnew := messages_eq (r := r.store idx data
      ⟨priority, true, src, UInt32.ofNat data.length⟩) (by simpa [EvlRing.store] using hidx)
    rw [messageIn_store_self hidx hdata, others_congr (List.length_set ..)
      fun j hj => h.messageIn_store_of_ne hunwrapped hidx hj hdata _] at hnew
    have hold := messages_eq hidx
    simp only [Option.toList_some, Multiset.coe_singleton, Multiset.singleton_add] at hnew
    rcases hyields.2 with hfree | ⟨huse, hle, hall⟩
    · -- A free slot: the bag had room.
      have hroom := card_messages_of_free hyields.1 hfree
      rw [messageIn_of_free hyields.1 hfree] at hold
      simp only [Option.toList_none, Multiset.coe_nil, zero_add] at hold
      rw [hnew, ← hold]
      exact .insert (h.capacity_eq ▸ hroom)
    · -- The message in the slot had the lowest priority of a full ring.
      have hcard := card_messages_of_full fun a ha => (hall a ha).1
      rw [messageIn_of_used hyields.1 huse] at hold
      simp only [Option.toList_some, Multiset.coe_singleton, Multiset.singleton_add] at hold
      rw [hnew, hold]
      rw [h.capacity_eq, hold] at hcard
      refine .replace hcard ?_ (Int8.le_iff_toInt_le.mp hle)
      intro z hz
      obtain ⟨a, ha, -, haz⟩ := exists_slot_of_mem (hold ▸ Multiset.mem_cons_of_mem hz)
      show m.priority.toInt ≤ z.priority.toInt
      rw [← haz]
      exact Int8.le_iff_toInt_le.mp (hall a ha).2
  · rw [heq]
    refine ⟨h, .refuse ?_ ?_⟩
    · rw [card_messages_of_full fun a ha => (hfull a ha).1, h.capacity_eq]
    · intro z hz
      obtain ⟨a, ha, -, haz⟩ := exists_slot_of_mem hz
      show priority.toInt ≤ z.priority.toInt
      rw [← haz]
      refine Int8.le_iff_toInt_le.mp ?_
      rcases (hfull a ha).2 with hlt | hmax
      · exact Int8.le_of_lt hlt
      · rw [hmax]
        exact Int8.le_maxValue priority

/-- A receive is a take, or nothing when the message does not fit into the buffer. -/
theorem Sound.receive (h : r.Sound capacity slotSize) (mailboxId : MailboxId) (bufferSize : Nat) :
    (r.receive mailboxId bufferSize).2.Sound capacity slotSize ∧
      PriorityBag.Run RingMessage.rank capacity r.messages
        (r.bagOps (.receive mailboxId bufferSize)) (r.receive mailboxId bufferSize).2.messages := by
  rcases r.findHighestPrioritySlot_cases with ⟨-, hmin⟩ | ⟨idx, m, hfound, hm, huse, -, hle, -⟩
  · -- No priority is -128, so there is no message.
    have hfree : ∀ m ∈ r.slots, m.inUse = false := by
      intro m hm
      by_contra huse
      have habove := (h.used m hm (by simpa using huse)).2
      rw [hmin m hm (by simpa using huse)] at habove
      exact Int8.lt_irrefl habove
    have hempty : r.messages = 0 := by
      refine Multiset.eq_zero_of_forall_notMem fun x hx => ?_
      obtain ⟨m, hm, huse, -⟩ := exists_slot_of_mem hx
      rw [hfree m hm] at huse
      cases huse
    have hnothing : r.receive mailboxId bufferSize = (.nothing, r) := by
      have hnone : r.hasInUseSlot = false := by
        by_contra hsome
        obtain ⟨m, hm, huse⟩ := hasInUseSlot_iff.mp (by simpa using hsome)
        rw [hfree m hm] at huse
        cases huse
      simp [EvlRing.receive, hnone]
    simp only [bagOps, hnothing, hempty]
    exact ⟨h, PriorityBag.Step.run .empty⟩
  · have hidx := (List.getElem?_eq_some_iff.mp hm).1
    have hreceive := receive_of_found hfound hm mailboxId bufferSize
    simp only [bagOps, hreceive]
    split
    · exact ⟨h, .nil _⟩
    · refine ⟨⟨?_, h.slotSize_eq, forall_release hm h.used⟩, PriorityBag.Step.run ?_⟩
      · rw [← h.capacity_eq]
        simp [release]
      · have hold := messages_eq hidx
        rw [messageIn_of_used hm huse] at hold
        have hsame : ∀ j, j ≠ idx → (r.release idx).messageIn j = r.messageIn j := by
          intro j hj
          simp only [messageIn, getElem?_release_of_ne _ hj]
          rfl
        have hnew := messages_eq (r := r.release idx) (by simpa [release] using hidx)
        rw [messageIn_of_free (getElem?_release_self hm) rfl,
          others_congr (by simp [release]) hsame] at hnew
        simp only [Option.toList_some, Option.toList_none, Multiset.coe_singleton,
          Multiset.singleton_add, Multiset.coe_nil, zero_add] at hold hnew
        rw [hnew, hold]
        simp only [metadataOf, Int8.toInt8_toUInt8]
        refine .take fun z hz => ?_
        obtain ⟨a, ha, hause, haz⟩ := exists_slot_of_mem (hold ▸ Multiset.mem_cons_of_mem hz)
        show z.priority.toInt ≤ m.priority.toInt
        rw [← haz]
        exact Int8.le_iff_toInt_le.mp (hle a ha hause)

/-- One call on the ring is one on the bag. -/
theorem Sound.step (h : r.Sound capacity slotSize)
    (hwrap : (capacity - 1) * slotSize.toNat < 2 ^ 32) {e : Event} (he : Admissible slotSize e) :
    (r.step e).Sound capacity slotSize ∧
      PriorityBag.Run RingMessage.rank capacity r.messages (r.bagOps e) (r.step e).messages := by
  cases e with
  | post data priority src =>
    obtain ⟨hsound, hput⟩ := h.post (h.unwrapped hwrap) he.1 he.2 src
    exact ⟨hsound, hput.run⟩
  | postToRemote data priority src =>
    obtain ⟨hsound, hput⟩ := h.post (h.unwrapped hwrap) he.1 he.2 src
    rw [← postToRemote_eq_post (h.slotSize_eq ▸ he.1)] at hsound hput
    exact ⟨hsound, hput.run⟩
  | receive mailboxId bufferSize => exact h.receive mailboxId bufferSize

/-! ### Runs -/

theorem sound_allocateRing (capacity : Nat) (slotSize : UInt32) (payload : ByteMemory) :
    (allocateRing capacity slotSize payload).Sound capacity slotSize where
  capacity_eq := List.length_replicate
  slotSize_eq := rfl
  used := by
    intro m hm huse
    rw [(List.mem_replicate.mp hm).2] at huse
    cases huse

theorem messages_allocateRing (capacity : Nat) (slotSize : UInt32) (payload : ByteMemory) :
    (allocateRing capacity slotSize payload).messages = 0 := by
  refine Multiset.eq_zero_of_forall_notMem fun x hx => ?_
  obtain ⟨m, hm, huse, -⟩ := exists_slot_of_mem hx
  rw [(List.mem_replicate.mp hm).2] at huse
  cases huse

theorem Sound.run (h : r.Sound capacity slotSize)
    (hwrap : (capacity - 1) * slotSize.toNat < 2 ^ 32) {es : List Event}
    (hes : ∀ e ∈ es, Admissible slotSize e) :
    (runFrom EvlRing.step r es).Sound capacity slotSize ∧
      PriorityBag.Run RingMessage.rank capacity r.messages (r.calls es)
        (runFrom EvlRing.step r es).messages := by
  induction es generalizing r with
  | nil => exact ⟨h, .nil _⟩
  | cons e es ih =>
    obtain ⟨hsound, hfirst⟩ := h.step hwrap (hes e List.mem_cons_self)
    obtain ⟨hlast, hrest⟩ := ih hsound fun e he => hes e (List.mem_cons_of_mem _ he)
    exact ⟨hlast, hfirst.append hrest⟩

/-- **The ring is a bounded bag with priorities.** The calls of any run on an empty ring, with their
results, are calls on an empty bag, which then holds the messages of the ring. -/
theorem refines_bag (capacity : Nat) (slotSize : UInt32) (payload : ByteMemory)
    (hwrap : (capacity - 1) * slotSize.toNat < 2 ^ 32) (es : List Event)
    (hes : ∀ e ∈ es, Admissible slotSize e) :
    PriorityBag.Run RingMessage.rank capacity 0
      ((allocateRing capacity slotSize payload).calls es)
      (runFrom step (allocateRing capacity slotSize payload) es).messages := by
  rw [← messages_allocateRing capacity slotSize payload]
  exact ((sound_allocateRing capacity slotSize payload).run hwrap hes).2

/-- Two messages of one priority fill a ring of 2 slots. The third one takes the place of the first,
and the receive takes the third. -/
def replacingRun : List Event :=
  [.post [1, 2] 5 3, .postToRemote [3] 5 4, .post [4] 6 3, .receive 9 8]

theorem refines_bag_replacingRun :
    PriorityBag.Run RingMessage.rank 2 0
      [.put ⟨[1, 2], 5, 3⟩ true, .put ⟨[3], 5, 4⟩ true, .put ⟨[4], 6, 3⟩ true,
        .take (some ⟨[4], 6, 3⟩)]
      (runFrom step (allocateRing 2 8 fun _ => 0) replacingRun).messages ∧
    (runFrom step (allocateRing 2 8 fun _ => 0) replacingRun).messages = {⟨[3], 5, 4⟩} := by
  refine ⟨refines_bag 2 8 (fun _ => 0) (by decide) replacingRun ?_, by decide⟩
  simp only [replacingRun, List.forall_mem_cons]
  exact ⟨⟨by decide, by decide⟩, ⟨by decide, by decide⟩, ⟨by decide, by decide⟩, trivial, nofun⟩

/-! ### A burst -/

/-- The call that posts a message on one of the two paths. -/
def postOn (path : RingPath) (x : RingMessage) : Event :=
  match path with
  | .sameProcess => .post x.bytes x.priority x.src
  | .otherProcess => .postToRemote x.bytes x.priority x.src

/-- With a buffer of the size of a slot, every receive is a take. -/
theorem Sound.receive_take (h : r.Sound capacity slotSize) (mailboxId : MailboxId)
    {bufferSize : Nat} (hbuffer : slotSize.toNat ≤ bufferSize) :
    ∃ result, r.bagOps (.receive mailboxId bufferSize) = [.take result] := by
  rcases r.findHighestPrioritySlot_cases with ⟨hnone, -⟩ | ⟨idx, m, hfound, hm, huse, -⟩
  · refine ⟨none, ?_⟩
    cases huse : r.hasInUseSlot <;>
      simp [bagOps, EvlRing.receive, hnone, huse, Received.bagOps]
  · have hsize := (h.used m (List.mem_of_getElem? hm) huse).1
    have hroom : ¬ bufferSize < m.size.toNat := by omega
    simp only [bagOps, receive_of_found hfound hm, if_neg hroom]
    exact ⟨_, rfl⟩

theorem Sound.calls_receives (h : r.Sound capacity slotSize)
    (hwrap : (capacity - 1) * slotSize.toNat < 2 ^ 32) (mailboxId : MailboxId) {bufferSize : Nat}
    (hbuffer : slotSize.toNat ≤ bufferSize) (n : Nat) :
    ∃ results : List (Option RingMessage), results.length = n ∧
      r.calls (List.replicate n (.receive mailboxId bufferSize)) = results.map .take := by
  induction n generalizing r with
  | zero => exact ⟨[], rfl, rfl⟩
  | succ n ih =>
    obtain ⟨result, hresult⟩ := h.receive_take mailboxId hbuffer
    obtain ⟨results, hlen, hresults⟩ := ih (h.step hwrap (e := .receive mailboxId bufferSize)
      trivial).1
    refine ⟨result :: results, by rw [List.length_cons, hlen], ?_⟩
    rw [List.replicate_succ, calls, hresult, hresults]
    rfl

theorem calls_posts (r : EvlRing) (posts : List (RingPath × RingMessage)) :
    PriorityBag.offered (r.calls (posts.map fun p => postOn p.1 p.2)) = posts.map Prod.snd ∧
      ∀ op ∈ r.calls (posts.map fun p => postOn p.1 p.2), ∃ x ok, op = .put x ok := by
  induction posts generalizing r with
  | nil => exact ⟨rfl, by simp [calls]⟩
  | cons p posts ih =>
    obtain ⟨path, x⟩ := p
    obtain ⟨hoffered, hputs⟩ := ih (r.step (postOn path x))
    have hop : ∃ ok, r.bagOps (postOn path x) = [.put x ok] := by
      cases path <;> exact ⟨_, rfl⟩
    obtain ⟨ok, hop⟩ := hop
    rw [List.map_cons, calls, hop]
    refine ⟨congrArg (x :: ·) hoffered, fun op hmem => ?_⟩
    rcases List.mem_cons.mp hmem with rfl | hmem
    · exact ⟨x, ok, rfl⟩
    · exact hputs op hmem

/-- The messages after a burst of posts: as many as fit, and none of those that are lost has a
higher priority. -/
theorem Sound.burst (h : r.Sound capacity slotSize)
    (hwrap : (capacity - 1) * slotSize.toNat < 2 ^ 32) (hcard : r.messages.card ≤ capacity)
    {posts : List (RingPath × RingMessage)}
    (hposts : ∀ p ∈ posts, p.2.bytes.length ≤ slotSize.toNat ∧ Int8.minValue < p.2.priority) :
    let full := runFrom EvlRing.step r (posts.map fun p => postOn p.1 p.2)
    full.Sound capacity slotSize ∧
      full.messages.card = min capacity (r.messages.card + posts.length) ∧
      ∃ lost, r.messages + posts.map Prod.snd = full.messages + lost ∧
        ∀ w ∈ lost, ∀ z ∈ full.messages, w.rank ≤ z.rank := by
  intro full
  have hadmissible : ∀ e ∈ posts.map fun p => postOn p.1 p.2, Admissible slotSize e := by
    intro e he
    obtain ⟨⟨path, x⟩, hp, rfl⟩ := List.mem_map.mp he
    cases path <;> exact hposts _ hp
  obtain ⟨hfull, hburst⟩ := h.run hwrap hadmissible
  obtain ⟨hoffered, hputs⟩ := calls_posts r posts
  have hle := hburst.card_le hcard
  obtain ⟨lost, hall, hranks, hlost⟩ :=
    hburst.keeps_best hputs (PriorityBag.keepsBest_self r.messages)
  rw [hoffered] at hall
  refine ⟨hfull, ?_, lost, hall, hranks⟩
  have hsum := congrArg Multiset.card hall
  simp only [Multiset.card_add, Multiset.coe_card, List.length_map] at hsum
  show (runFrom EvlRing.step r _).messages.card = _
  rcases hlost with rfl | hcap
  · rw [Multiset.card_zero] at hsum
    omega
  · omega

/-- **A burst.** In any state of a ring, any messages are posted, and then `n` receives take
messages. They take as many as there are, but no more than the ring has slots, in the order of their
priorities. None of those that they do not take (some were lost in the burst, and some are left) has
a higher priority. -/
theorem burst_then_drain (capacity : Nat) (slotSize : UInt32) (payload : ByteMemory)
    (hwrap : (capacity - 1) * slotSize.toNat < 2 ^ 32) (es : List Event)
    (hes : ∀ e ∈ es, Admissible slotSize e) (posts : List (RingPath × RingMessage))
    (hposts : ∀ p ∈ posts, p.2.bytes.length ≤ slotSize.toNat ∧ Int8.minValue < p.2.priority)
    (mailboxId : MailboxId) {bufferSize : Nat} (hbuffer : slotSize.toNat ≤ bufferSize) (n : Nat) :
    let r := runFrom step (allocateRing capacity slotSize payload) es
    let full := runFrom step r (posts.map fun p => postOn p.1 p.2)
    let out := PriorityBag.taken (full.calls (List.replicate n (.receive mailboxId bufferSize)))
    out.length = min n (min capacity (r.messages.card + posts.length)) ∧
      out.Pairwise (fun x y => y.priority ≤ x.priority) ∧
      ∃ rest : Multiset RingMessage, r.messages + posts.map Prod.snd = ↑out + rest ∧
        ∀ x ∈ out, ∀ z ∈ rest, z.priority ≤ x.priority := by
  intro r full out
  obtain ⟨hr, hbefore⟩ := (sound_allocateRing capacity slotSize payload).run hwrap hes
  have hcard : r.messages.card ≤ capacity :=
    hbefore.card_le (by rw [messages_allocateRing]; exact Nat.zero_le _)
  obtain ⟨hfull, hfullcard, lost, hall, hranks⟩ := hr.burst hwrap hcard hposts
  change full.Sound capacity slotSize at hfull
  change full.messages.card = _ at hfullcard
  change _ = full.messages + lost at hall
  -- What the receives take of it.
  obtain ⟨results, hlen, hresults⟩ := hfull.calls_receives hwrap mailboxId hbuffer n
  have hreceives : ∀ e ∈ List.replicate n (Event.receive mailboxId bufferSize),
      Admissible slotSize e := by
    intro e he
    rw [List.eq_of_mem_replicate he]
    trivial
  have hdrain := (hfull.run hwrap hreceives).2
  rw [hresults] at hdrain
  generalize (runFrom step full _).messages = left at hdrain
  obtain ⟨xs, hxs, hsorted, hmessages, hleft, hxslen⟩ := hdrain.drains
  have hout : out = xs := by
    show PriorityBag.taken (full.calls _) = xs
    rw [hresults, hxs]
    simp [PriorityBag.taken, List.filterMap_append, List.filterMap_map, Function.comp_def]
  rw [hout]
  refine ⟨?_, hsorted.imp Int8.le_iff_toInt_le.mpr, left + lost, ?_, ?_⟩
  · rw [hxslen, hlen, hfullcard]
  · rw [← add_assoc, ← hmessages]
    exact hall
  · intro x hx z hz
    refine Int8.le_iff_toInt_le.mpr ?_
    rcases Multiset.mem_add.mp hz with hz | hz
    · exact hleft x hx z hz
    · refine hranks z hz x ?_
      show x ∈ full.messages
      rw [hmessages]
      exact Multiset.mem_add.mpr (Or.inl hx)

/-- Three messages for a ring of 2 slots. The two of the highest priorities come out. -/
theorem burst_then_drain_threePosts :
    let r := allocateRing 2 8 fun _ => 0
    let full := runFrom step r
      [.post [1] 5 3, .postToRemote [2, 2] 4 3, .post [3] 6 3]
    let out := PriorityBag.taken (full.calls (List.replicate 3 (.receive 9 8)))
    out = [⟨[3], 6, 3⟩, ⟨[1], 5, 3⟩] ∧ out.Pairwise (fun x y => y.priority ≤ x.priority) := by
  have hposts : ∀ p ∈ [(RingPath.sameProcess, (⟨[1], 5, 3⟩ : RingMessage)),
      (.otherProcess, ⟨[2, 2], 4, 3⟩), (.sameProcess, ⟨[3], 6, 3⟩)],
      p.2.bytes.length ≤ (8 : UInt32).toNat ∧ Int8.minValue < p.2.priority := by decide
  exact ⟨by decide, (burst_then_drain 2 8 (fun _ => 0) (by decide) [] nofun _ hposts 9
    (Nat.le_refl 8) 3).2.1⟩

end EvlRing

end CoreRaT.Spec
