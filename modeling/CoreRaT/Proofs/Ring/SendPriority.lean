import CoreRaT.Proofs.Ring.Priority
import CoreRaT.Spec.SenderRing

/-!
# `CoreRaT.Proofs.Ring.SendPriority`: the order of the configured priorities

A `send_priority` is a `uint8_t`, and the priority of a slot is the `int8_t` with the same bits. So
the numbers from 128 on are negative in the ring, and a message of priority 200 waits until no
message of priority 0 is left: `higher_priority_waits`.

`followsPriority_iff` is exact, in every state of a run. The next receive takes a message of the
highest `send_priority` exactly when all that are queued are on the same side of 128, and the
priority 128 is not alone (`OneSide`). The priority that it reports is always the configured one.
-/

set_option autoImplicit false

namespace CoreRaT.Spec

open CoreRaT.Lib

/-- The order of the signed priorities. -/
theorem toInt8_le_iff (a b : UInt8) :
    a.toInt8 ≤ b.toInt8 ↔ (a.toNat + 128) % 256 ≤ (b.toNat + 128) % 256 := by
  have ha := a.toBitVec.isLt
  have hb := b.toBitVec.isLt
  rw [Int8.le_iff_toInt_le]
  show a.toBitVec.toInt ≤ b.toBitVec.toInt ↔
    (a.toBitVec.toNat + 128) % 256 ≤ (b.toBitVec.toNat + 128) % 256
  rw [BitVec.toInt_eq_toNat_cond, BitVec.toInt_eq_toNat_cond]
  split <;> split <;> omega

theorem toInt8_eq_minValue_iff (a : UInt8) : a.toInt8 = Int8.minValue ↔ a = 128 := by
  rw [← sendPriority_createBackendConfig 0 0 a, sendPriority_eq_minValue_iff]

namespace SenderRing

/-- A mailbox has a message in the ring. -/
def Queued (s : SenderRing) (c : MailboxConfig) : Prop := some c ∈ s.senders

/-- The next receive takes a message of the highest `send_priority`, and says so. -/
structure FollowsPriority (s : SenderRing) : Prop where
  in_bounds : ∀ mailboxId bufferSize, (s.ring.receive mailboxId bufferSize).1 ≠ .outOfBounds
  highest : ∀ mailboxId bufferSize bytes metadata,
    (s.ring.receive mailboxId bufferSize).1 = .message bytes metadata →
    ∃ idx c, s.ring.findHighestPrioritySlot = some idx ∧ s.senders[idx]? = some (some c) ∧
      (∀ c', s.Queued c' → c'.sendPriority ≤ c.sendPriority) ∧
      metadata.priority = c.sendPriority ∧ metadata.src = c.mailboxId

/-- All messages are of senders below 128, or all are of senders from 128 on, and then not all of
128 itself. -/
def OneSide (s : SenderRing) : Prop :=
  (∀ c, s.Queued c → c.sendPriority < 128) ∨
    ((∀ c, s.Queued c → 128 ≤ c.sendPriority) ∧ ∃ c, s.Queued c ∧ c.sendPriority ≠ 128)

/-- The signed order and the unsigned one agree on one side of 128. -/
theorem oneSide_iff {s : SenderRing} {c : MailboxConfig} (hc : s.Queued c)
    (hne : c.sendPriority ≠ 128)
    (hsigned : ∀ c', s.Queued c' → c'.sendPriority.toInt8 ≤ c.sendPriority.toInt8) :
    (∀ c', s.Queued c' → c'.sendPriority ≤ c.sendPriority) ↔ s.OneSide := by
  simp only [toInt8_le_iff] at hsigned
  simp only [OneSide, UInt8.le_iff_toNat_le, UInt8.lt_iff_toNat_lt]
  have hlt := c.sendPriority.toNat_lt
  have hne' : c.sendPriority.toNat ≠ 128 := fun heq => hne (UInt8.toNat_inj.mp heq)
  by_cases hside : c.sendPriority.toNat < 128
  · -- The highest signed priority is not negative.
    constructor
    · intro hle
      left
      intro c' hc'
      have := hle c' hc'
      show c'.sendPriority.toNat < 128
      omega
    · rintro (hbelow | ⟨habove, -⟩) c' hc'
      · have hsigned' := hsigned c' hc'
        have : c'.sendPriority.toNat < 128 := hbelow c' hc'
        omega
      · have : 128 ≤ c.sendPriority.toNat := habove c hc
        omega
  · -- It is negative, so all are.
    refine iff_of_true ?_ (Or.inr ⟨?_, c, hc, hne⟩)
    · intro c' hc'
      have hsigned' := hsigned c' hc'
      have hlt' := c'.sendPriority.toNat_lt
      omega
    · intro c' hc'
      have hsigned' := hsigned c' hc'
      have hlt' := c'.sendPriority.toNat_lt
      show 128 ≤ c'.sendPriority.toNat
      omega

/-- The slots in use are those with a sender, and have its priority and its id. -/
structure Tracks (s : SenderRing) : Prop where
  length_eq : s.senders.length = s.ring.slots.length
  sender : ∀ (idx : Nat) (m : SlotMeta), s.ring.slots[idx]? = some m → m.inUse = true →
    ∃ c, s.senders[idx]? = some (some c)
  slot : ∀ (idx : Nat) (c : MailboxConfig), s.senders[idx]? = some (some c) →
    ∃ m, s.ring.slots[idx]? = some m ∧ m.inUse = true ∧ m.priority = c.sendPriority.toInt8 ∧
      m.src = c.mailboxId

/-- A send stores its message in a slot, with its sender, or changes nothing. -/
theorem send_cases (s : SenderRing) (c : MailboxConfig) (path : RingPath) (data : List UInt8) :
    (∃ idx stored, 0 < data.length ∧ idx < s.ring.slots.length ∧
      (stored = data ∨ stored = data.take s.ring.slotSize.toNat) ∧
      (s.send c path data).2 = ⟨s.ring.store idx stored
        ⟨c.sendPriority.toInt8, true, c.mailboxId, UInt32.ofNat stored.length⟩,
        s.senders.set idx (some c)⟩) ∨
    (s.send c path data).2 = s := by
  have hprio : sendPriority c.backend = c.sendPriority.toInt8 :=
    sendPriority_createBackendConfig ..
  have hid : c.backend.mailboxId = c.mailboxId := rfl
  unfold send evlSendRaw
  rw [hprio, hid]
  split_ifs with hsize
  · exact Or.inr rfl
  · rcases EvlRing.put_cases path s.ring data c.sendPriority.toInt8 c.mailboxId with
      ⟨idx, stored, hchoose, hidx, hstored, heq⟩ | ⟨hchoose, heq⟩
    · rw [heq, hchoose]
      exact Or.inl ⟨idx, stored, by omega, hidx, hstored, rfl⟩
    · rw [heq, hchoose]
      exact Or.inr rfl

/-- A receive takes the message that is found, or changes nothing. -/
theorem receive_cases (s : SenderRing) (mailboxId : MailboxId) (bufferSize : Nat) :
    (∃ idx m, s.ring.findHighestPrioritySlot = some idx ∧ s.ring.slots[idx]? = some m ∧
      m.size.toNat ≤ bufferSize ∧
      (s.receive mailboxId bufferSize).2 = ⟨s.ring.release idx, s.senders.set idx none⟩) ∨
    (s.receive mailboxId bufferSize).2 = s := by
  unfold receive
  rcases s.ring.receive_cases mailboxId bufferSize with
    ⟨idx, m, hfound, hm, hsize, heq⟩ | ⟨heq, hno⟩
  · rw [heq, hfound]
    exact Or.inl ⟨idx, m, rfl, hm, hsize, rfl⟩
  · right
    split
    · rename_i hmessage _
      exact absurd (congrArg Prod.fst hmessage) (hno _ _)
    · rename_i hresult _
      rw [hresult] at heq
      subst heq
      rfl

namespace Tracks

variable {s : SenderRing}

/-! ### One state -/

/-- The sender of the message that is found has the highest signed priority. -/
theorem found (h : s.Tracks) {idx : Nat} {m : SlotMeta}
    (hfound : s.ring.findHighestPrioritySlot = some idx) (hm : s.ring.slots[idx]? = some m) :
    ∃ c, s.senders[idx]? = some (some c) ∧ m.priority = c.sendPriority.toInt8 ∧
      m.src = c.mailboxId ∧ c.sendPriority ≠ 128 ∧
      ∀ c', s.Queued c' → c'.sendPriority.toInt8 ≤ c.sendPriority.toInt8 := by
  rcases s.ring.findHighestPrioritySlot_cases with
    ⟨hnone, -⟩ | ⟨i, a, hsome, ha, huse, hlt, hle, -⟩
  · rw [hnone] at hfound
    cases hfound
  · obtain rfl : i = idx := Option.some.inj (hsome.symm.trans hfound)
    obtain rfl : a = m := Option.some.inj (ha.symm.trans hm)
    obtain ⟨c, hc⟩ := h.sender i a ha huse
    obtain ⟨a', ha', -, hprio, hsrc⟩ := h.slot i c hc
    obtain rfl : a = a' := Option.some.inj (ha.symm.trans ha')
    refine ⟨c, hc, hprio, hsrc, ?_, ?_⟩
    · intro hmin
      rw [hprio, (toInt8_eq_minValue_iff _).mpr hmin] at hlt
      exact Int8.lt_irrefl hlt
    · intro c' hc'
      obtain ⟨j, hj⟩ := List.mem_iff_getElem?.mp hc'
      obtain ⟨b, hb, huse', hprio', -⟩ := h.slot j c' hj
      rw [← hprio, ← hprio']
      exact hle b (List.mem_of_getElem? hb) huse'

/-- When no message is found, each is of a sender with the priority 128. The property holds if there
is none. -/
theorem follows_iff_of_none (h : s.Tracks) (hfound : s.ring.findHighestPrioritySlot = none) :
    s.FollowsPriority ↔ s.OneSide := by
  have hmin : ∀ m ∈ s.ring.slots, m.inUse = true → m.priority = Int8.minValue := by
    rcases s.ring.findHighestPrioritySlot_cases with ⟨-, hmin⟩ | ⟨idx, m, hsome, -⟩
    · exact hmin
    · rw [hsome] at hfound
      cases hfound
  have honly : ∀ c, s.Queued c → c.sendPriority = 128 := by
    intro c hc
    obtain ⟨j, hj⟩ := List.mem_iff_getElem?.mp hc
    obtain ⟨m, hm, huse, hprio, -⟩ := h.slot j c hj
    exact (toInt8_eq_minValue_iff _).mp (hprio ▸ hmin m (List.mem_of_getElem? hm) huse)
  cases huse : s.ring.hasInUseSlot with
  | false =>
    have hnothing : ∀ mailboxId bufferSize,
        s.ring.receive mailboxId bufferSize = (.nothing, s.ring) := by
      intro mailboxId bufferSize
      simp [EvlRing.receive, huse]
    refine iff_of_true ⟨?_, ?_⟩ (Or.inl ?_)
    · simp [hnothing]
    · simp [hnothing]
    · intro c hc
      obtain ⟨j, hj⟩ := List.mem_iff_getElem?.mp hc
      obtain ⟨m, hm, hinUse, -⟩ := h.slot j c hj
      have := EvlRing.hasInUseSlot_iff.mpr ⟨m, List.mem_of_getElem? hm, hinUse⟩
      rw [huse] at this
      cases this
  | true =>
    obtain ⟨m, hm, hinUse⟩ := EvlRing.hasInUseSlot_iff.mp huse
    obtain ⟨j, hj⟩ := List.mem_iff_getElem?.mp hm
    obtain ⟨c, hc⟩ := h.sender j m hj hinUse
    have hqueued : s.Queued c := List.mem_of_getElem? hc
    refine iff_of_false ?_ ?_
    · intro hfollows
      refine hfollows.in_bounds 0 0 ?_
      simp [EvlRing.receive, huse, hfound]
    · rintro (hbelow | ⟨-, c', hc', hne⟩)
      · have hlt := hbelow c hqueued
        rw [honly c hqueued] at hlt
        exact absurd hlt (by decide)
      · exact hne (honly c' hc')

/-- When a message is found, the property is that its sender has the highest priority. -/
theorem follows_iff_of_found (h : s.Tracks) {idx : Nat}
    (hfound : s.ring.findHighestPrioritySlot = some idx) : s.FollowsPriority ↔ s.OneSide := by
  obtain ⟨m, hm, -⟩ := EvlRing.highest_of_found hfound
  obtain ⟨c, hc, hprio, hsrc, hne, hsigned⟩ := h.found hfound hm
  rw [← oneSide_iff (List.mem_of_getElem? hc) hne hsigned]
  constructor
  · intro hfollows
    obtain ⟨i, c', hi, hc', hhighest, -⟩ := hfollows.highest 0 m.size.toNat _ _
      (by rw [EvlRing.receive_of_found hfound hm, if_neg (Nat.lt_irrefl _)])
    obtain rfl : idx = i := Option.some.inj (hfound.symm.trans hi)
    obtain rfl : c = c' := Option.some.inj (Option.some.inj (hc.symm.trans hc'))
    exact hhighest
  · intro hhighest
    refine ⟨?_, ?_⟩
    · intro mailboxId bufferSize
      rw [EvlRing.receive_of_found hfound hm]
      split <;> simp
    · intro mailboxId bufferSize bytes metadata hmessage
      rw [EvlRing.receive_of_found hfound hm] at hmessage
      split at hmessage
      · cases hmessage
      · obtain ⟨-, rfl⟩ := EvlRing.Received.message.inj hmessage
        refine ⟨idx, c, hfound, hc, hhighest, ?_, hsrc⟩
        simp [EvlRing.metadataOf, hprio]

/-- The property, by who has sent what is queued. -/
theorem follows_iff_oneSide (h : s.Tracks) : s.FollowsPriority ↔ s.OneSide := by
  cases hfound : s.ring.findHighestPrioritySlot with
  | none => exact h.follows_iff_of_none hfound
  | some idx => exact h.follows_iff_of_found hfound

/-! ### One call -/

theorem send (h : s.Tracks) (c : MailboxConfig) (path : RingPath) (data : List UInt8) :
    (s.send c path data).2.Tracks := by
  rcases s.send_cases c path data with ⟨idx, stored, -, hidx, -, heq⟩ | heq
  · have hsender : idx < s.senders.length := h.length_eq ▸ hidx
    rw [heq]
    refine ⟨?_, ?_, ?_⟩
    · simp [EvlRing.store, h.length_eq]
    · intro j m hj huse
      by_cases hne : j = idx
      · subst hne
        exact ⟨c, by simp [hsender]⟩
      · rw [EvlRing.store, List.getElem?_set_ne (Ne.symm hne)] at hj
        rw [List.getElem?_set_ne (Ne.symm hne)]
        exact h.sender j m hj huse
    · intro j c' hj
      by_cases hne : j = idx
      · subst hne
        obtain rfl : c = c' := by simpa [hsender] using hj
        exact ⟨_, by simp [EvlRing.store, hidx]; rfl, rfl, rfl, rfl⟩
      · rw [List.getElem?_set_ne (Ne.symm hne)] at hj
        obtain ⟨m, hm, hrest⟩ := h.slot j c' hj
        exact ⟨m, by rw [EvlRing.store, List.getElem?_set_ne (Ne.symm hne), hm], hrest⟩
  · rw [heq]
    exact h

theorem receive (h : s.Tracks) (mailboxId : MailboxId) (bufferSize : Nat) :
    (s.receive mailboxId bufferSize).2.Tracks := by
  rcases s.receive_cases mailboxId bufferSize with ⟨idx, m, -, hm, -, heq⟩ | heq
  · have hidx : idx < s.ring.slots.length := (List.getElem?_eq_some_iff.mp hm).1
    have hsender : idx < s.senders.length := h.length_eq ▸ hidx
    rw [heq]
    refine ⟨?_, ?_, ?_⟩
    · simp [EvlRing.release, h.length_eq]
    · intro j a hj huse
      by_cases hne : j = idx
      · subst hne
        rw [EvlRing.getElem?_release_self hm] at hj
        obtain rfl := Option.some.inj hj
        cases huse
      · rw [EvlRing.getElem?_release_of_ne _ hne] at hj
        rw [List.getElem?_set_ne (Ne.symm hne)]
        exact h.sender j a hj huse
    · intro j c hj
      have hne : j ≠ idx := by
        rintro rfl
        rw [List.getElem?_set_self hsender] at hj
        cases hj
      rw [List.getElem?_set_ne (Ne.symm hne)] at hj
      obtain ⟨a, ha, hrest⟩ := h.slot j c hj
      exact ⟨a, by rw [EvlRing.getElem?_release_of_ne _ hne, ha], hrest⟩
  · rw [heq]
    exact h

theorem step (h : s.Tracks) (e : Event) : (s.step e).Tracks := by
  cases e with
  | send c path data => exact h.send c path data
  | receive mailboxId bufferSize => exact h.receive mailboxId bufferSize

end Tracks

/-! ### Runs -/

theorem tracks_init (capacity : Nat) (slotSize : UInt32) (payload : ByteMemory) :
    (init capacity slotSize payload).Tracks where
  length_eq := by simp [init, EvlRing.allocateRing]
  sender idx m hm huse := by
    have hempty := (List.mem_replicate.mp (List.mem_of_getElem? hm)).2
    rw [hempty] at huse
    cases huse
  slot idx c hc := by simp [init, List.getElem?_replicate] at hc

/-- **The configured priorities.** Take an empty ring of any size, sends of any mailboxes with any
`send_priority`, on either path, and receives, in any order. In the state that they lead to, the
next receive takes a message of the highest `send_priority` exactly when all queued messages are of
senders on one side of 128, and not all of those of priority 128. -/
theorem followsPriority_iff (capacity : Nat) (slotSize : UInt32) (payload : ByteMemory)
    (es : List Event) :
    (runFrom step (init capacity slotSize payload) es).FollowsPriority ↔
      (runFrom step (init capacity slotSize payload) es).OneSide :=
  (allStates_of_step (fun _ e h => h.step e) es
    (tracks_init capacity slotSize payload)).last.follows_iff_oneSide

/-- A message with one byte behind its header. -/
def byteMessage (dest src : MailboxId) (byte : UInt8) : List UInt8 :=
  (WireHeader.mk 0x01000001 33 0 0 0 dest src 0).encode ++ [byte]

/-- A message of a mailbox with `send_priority = 200`, and then one of a mailbox with 0. -/
def twoSenders : List Event :=
  [.send ⟨5, 64, 200⟩ .sameProcess (byteMessage 9 5 1),
    .send ⟨6, 64, 0⟩ .sameProcess (byteMessage 9 6 2)]

/-- The message of priority 0 is received first. -/
theorem higher_priority_waits :
    ¬ (runFrom step (init 10 64 fun _ => 0) twoSenders).FollowsPriority ∧
      ((runFrom step (init 10 64 fun _ => 0) twoSenders).ring.receive 9 64).1
        = .message (byteMessage 9 6 2) ⟨6, 9, 0, 0, 0⟩ := by
  refine ⟨?_, by decide⟩
  rw [followsPriority_iff]
  rintro (hbelow | ⟨habove, -⟩)
  · exact absurd (hbelow ⟨5, 64, 200⟩ (by unfold Queued; decide)) (by decide)
  · exact absurd (habove ⟨6, 64, 0⟩ (by unfold Queued; decide)) (by decide)

end SenderRing

end CoreRaT.Spec
