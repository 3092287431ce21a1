import CoreRaT.Proofs.Ring.History

/-!
# `CoreRaT.Proofs.Ring.Order`: messages of one sender and one priority

A post takes the first free slot, and a receive takes the first of the messages with the highest
priority. So the order of two messages of equal priority is the order of their slots, not the order
in which they came. As long as a message is never put in front of an older one of its sender and its
priority, the two orders agree (`Ordered`), and the messages are received as they were posted.

`KeepsOrder` says this of a post, by the slots before it. It fails when a slot has become free in
front of a message that waits: `reused_slot_overtakes`.

The bytes of the messages do not enter here. Nothing in this module needs them to fit.
-/

set_option autoImplicit false

namespace CoreRaT.Spec

open CoreRaT.Lib

namespace EvlRing

/-- A message of this priority can displace the metadata `m` of a slot: the slot is free, or all
slots are in use and none has a lower priority. The search for the lowest priority starts from 127
and does not see a slot with that priority. -/
def GivesWay (r : EvlRing) (priority : Int8) (m : SlotMeta) : Prop :=
  m.inUse = false ∨
    (m.priority < Int8.maxValue ∧ m.priority ≤ priority ∧
      ∀ m' ∈ r.slots, m'.inUse = true ∧ m.priority ≤ m'.priority)

theorem givesWay_of_chooseSlot {r : EvlRing} {priority : Int8} {idx : Nat}
    (h : (r.chooseSlot priority).1 = some idx) :
    ∃ m, r.slots[idx]? = some m ∧ r.GivesWay priority m := by
  unfold chooseSlot at h
  cases hfree : r.findFreeSlot with
  | some i =>
    rw [hfree, Option.some.injEq] at h
    obtain ⟨m, hm, huse⟩ := findFreeSlot_eq_some hfree
    exact ⟨m, h ▸ hm, Or.inl huse⟩
  | none =>
    have hall := findFreeSlot_eq_none.mp hfree
    simp only [hfree, evictLowest] at h
    rcases lowestLoop_cases r.slots 0 none Int8.maxValue with
      ⟨heq, -⟩ | ⟨k, m, heq, hk, -, hlt, hle, -⟩
    · simp [heq] at h
    · simp only [heq, Nat.zero_add] at h
      by_cases hprio : m.priority ≤ priority
      · rw [if_pos hprio, Option.some.injEq] at h
        refine ⟨m, h ▸ hk, Or.inr ⟨hlt, hprio, ?_⟩⟩
        intro m' hm'
        exact ⟨hall m' hm', hle m' hm' (hall m' hm')⟩
      · simp [hprio] at h

end EvlRing

namespace RingHistory

open EvlRing (Event)

/-! ### The property -/

/-- Of two messages with one sender and one priority, the second is received only after the first.
The first may have been evicted, and then it is not received at all. -/
def InOrder (s : RingHistory) : Prop :=
  ∀ (n m : Nat) (p q : PostRecord), n < m → s.posts[n]? = some p → s.posts[m]? = some q →
    p.ok = true → p.priority = q.priority → p.src = q.src →
    (∀ r ∈ s.posts, r.evicted ≠ some n) →
    ∀ (j : Nat) (t : Receipt), s.receipts[j]? = some t → t.post = some m →
      ∃ i u, i < j ∧ s.receipts[i]? = some u ∧ u.post = some n

/-- No message of this sender and this priority waits behind a slot that a message of the priority
can take. -/
def NoneBehind (r : EvlRing) (priority : Int8) (src : MailboxId) : Prop :=
  ∀ (i j : Nat) (a b : SlotMeta), i < j → r.slots[i]? = some a → r.GivesWay priority a →
    r.slots[j]? = some b → b.inUse = true → b.priority = priority → b.src ≠ src

/-- A post does not put its message in front of an older one of its sender and its priority. -/
def KeepsOrder (s : RingHistory) : Event → Prop
  | .post _ priority src => NoneBehind s.ring priority src
  | .postToRemote _ priority src => NoneBehind s.ring priority src
  | .receive _ _ => True

/-! ### The invariant -/

/-- The posts `a` and `b` have one priority and one sender. -/
def SameLine (s : RingHistory) (a b : Nat) : Prop :=
  ∃ p q, s.posts[a]? = some p ∧ s.posts[b]? = some q ∧ p.priority = q.priority ∧ p.src = q.src

/-- The slots are in the order of their posts, for each sender and each priority. -/
structure Ordered (s : RingHistory) : Prop where
  cells_length : s.cells.length = s.ring.slots.length
  /-- A slot with the message of a post has the priority and the sender of the post. -/
  stored : ∀ (idx n : Nat), s.cells[idx]? = some (some n) →
    ∃ (m : SlotMeta) (p : PostRecord), s.ring.slots[idx]? = some m ∧ s.posts[n]? = some p ∧
      m.inUse = true ∧ m.priority = p.priority ∧ m.src = p.src
  sorted : ∀ (i j a b : Nat), i < j → s.cells[i]? = some (some a) → s.cells[j]? = some (some b) →
    s.SameLine a b → a < b
  /-- The message of a successful post waits, has been received, or has been evicted. -/
  located : ∀ (n : Nat) (p : PostRecord), s.posts[n]? = some p → p.ok = true →
    (∃ idx : Nat, s.cells[idx]? = some (some n)) ∨ (∃ t ∈ s.receipts, t.post = some n) ∨
      ∃ q ∈ s.posts, q.evicted = some n
  received_lt : ∀ t ∈ s.receipts, ∀ n, t.post = some n → n < s.posts.length
  in_order : s.InOrder

namespace Ordered

variable {s : RingHistory}

theorem lt_of_cell (h : s.Ordered) {idx n : Nat} (hcell : s.cells[idx]? = some (some n)) :
    n < s.posts.length := by
  obtain ⟨-, p, -, hp, -⟩ := h.stored idx n hcell
  exact (List.getElem?_eq_some_iff.mp hp).1

variable {s' : RingHistory} {p : PostRecord}

/-- A further post does not change what the earlier ones are. -/
theorem sameLine_of_snoc (hposts : s'.posts = s.posts ++ [p]) {a b : Nat}
    (ha : a < s.posts.length) (hb : b < s.posts.length) (h : s'.SameLine a b) :
    s.SameLine a b := by
  obtain ⟨pa, pb, hpa, hpb, hrest⟩ := h
  rw [hposts, List.getElem?_append_left ha] at hpa
  rw [hposts, List.getElem?_append_left hb] at hpb
  exact ⟨pa, pb, hpa, hpb, hrest⟩

/-- A post receives nothing, so it does not change the order. -/
theorem in_order_of_snoc (h : s.Ordered) (hposts : s'.posts = s.posts ++ [p])
    (hreceipts : s'.receipts = s.receipts) : s'.InOrder := by
  intro n m pn pm hnm hpn hpm hok hprio hsrc hkept j t ht hpost
  rw [hreceipts] at ht ⊢
  have hm : m < s.posts.length := h.received_lt t (List.mem_of_getElem? ht) m hpost
  rw [hposts, List.getElem?_append_left (by omega)] at hpn
  rw [hposts, List.getElem?_append_left hm] at hpm
  refine h.in_order n m pn pm hnm hpn hpm hok hprio hsrc ?_ j t ht hpost
  intro r hr
  exact hkept r (by simp [hposts, hr])

theorem received_lt_of_snoc (h : s.Ordered) (hposts : s'.posts = s.posts ++ [p])
    (hreceipts : s'.receipts = s.receipts) :
    ∀ t ∈ s'.receipts, ∀ n, t.post = some n → n < s'.posts.length := by
  intro t ht n hn
  rw [hreceipts] at ht
  have := h.received_lt t ht n hn
  simp only [hposts, List.length_append, List.length_singleton]
  omega

/-- A post that returns false. -/
theorem refused (h : s.Ordered) (hring : s'.ring = s.ring) (hcells : s'.cells = s.cells)
    (hposts : s'.posts = s.posts ++ [p]) (hreceipts : s'.receipts = s.receipts)
    (hfail : p.ok = false) : s'.Ordered where
  cells_length := by rw [hcells, hring, h.cells_length]
  stored idx n hcell := by
    rw [hcells] at hcell
    obtain ⟨m, q, hm, hq, hrest⟩ := h.stored idx n hcell
    rw [hring, hposts, List.getElem?_append_left (h.lt_of_cell hcell)]
    exact ⟨m, q, hm, hq, hrest⟩
  sorted i j a b hij ha hb hline := by
    rw [hcells] at ha hb
    exact h.sorted i j a b hij ha hb
      (sameLine_of_snoc hposts (h.lt_of_cell ha) (h.lt_of_cell hb) hline)
  located n q hq hok := by
    rw [hposts] at hq ⊢
    rw [hcells, hreceipts]
    rcases getElem?_snoc hq with hq | ⟨-, rfl⟩
    · rcases h.located n q hq hok with hcell | hreceived | ⟨r, hr, hevicted⟩
      · exact Or.inl hcell
      · exact Or.inr (Or.inl hreceived)
      · exact Or.inr (Or.inr ⟨r, by simp [hr], hevicted⟩)
    · rw [hfail] at hok
      cases hok
  received_lt := h.received_lt_of_snoc hposts hreceipts
  in_order := h.in_order_of_snoc hposts hreceipts

/-- The slots of a post that stores its message in slot `idx`, behind which no message of its sender
and its priority waits, are in the order of their posts. -/
theorem sorted_put (h : s.Ordered) {idx : Nat}
    (hself : s'.cells[idx]? = some (some s.posts.length))
    (hother : ∀ {j}, j ≠ idx → s'.cells[j]? = s.cells[j]?)
    (hposts : s'.posts = s.posts ++ [p])
    (hbehind : ∀ (j : Nat) (b : SlotMeta), idx < j → s.ring.slots[j]? = some b →
      b.inUse = true → b.priority = p.priority → b.src ≠ p.src)
    {i j a b : Nat} (hij : i < j) (ha : s'.cells[i]? = some (some a))
    (hb : s'.cells[j]? = some (some b)) (hline : s'.SameLine a b) : a < b := by
  by_cases hi : i = idx
  · -- A message behind the new one is of another sender or another priority.
    subst hi
    obtain rfl : s.posts.length = a := by simpa [hself] using ha
    rw [hother (by omega)] at hb
    obtain ⟨m, q, hm, hq, huse, hprio, hsrc⟩ := h.stored j b hb
    obtain ⟨pa, pb, hpa, hpb, hprio', hsrc'⟩ := hline
    obtain rfl : p = pa := by simpa [hposts] using hpa
    rw [hposts, List.getElem?_append_left (h.lt_of_cell hb), hq, Option.some.injEq] at hpb
    subst hpb
    exact absurd (hsrc.trans hsrc'.symm) (hbehind j m hij hm huse (hprio.trans hprio'.symm))
  · rw [hother hi] at ha
    by_cases hj : j = idx
    · subst hj
      obtain rfl : s.posts.length = b := by simpa [hself] using hb
      exact h.lt_of_cell ha
    · rw [hother hj] at hb
      exact h.sorted i j a b hij ha hb
        (sameLine_of_snoc hposts (h.lt_of_cell ha) (h.lt_of_cell hb) hline)

/-- A post that stores its message in slot `idx`, behind which no message of its sender and its
priority waits. -/
theorem put (h : s.Ordered) {idx : Nat} (hidx : idx < s.ring.slots.length) {size : UInt32}
    (hslots : s'.ring.slots = s.ring.slots.set idx ⟨p.priority, true, p.src, size⟩)
    (hcells : s'.cells = s.cells.set idx (some s.posts.length))
    (hposts : s'.posts = s.posts ++ [p]) (hreceipts : s'.receipts = s.receipts)
    (hevicted : p.evicted = s.cells[idx]?.join)
    (hbehind : ∀ (j : Nat) (b : SlotMeta), idx < j → s.ring.slots[j]? = some b →
      b.inUse = true → b.priority = p.priority → b.src ≠ p.src) : s'.Ordered := by
  have hcell : idx < s.cells.length := h.cells_length ▸ hidx
  -- The slots other than `idx` are as before, and slot `idx` has the message of the last post.
  have hself : s'.cells[idx]? = some (some s.posts.length) := by
    rw [hcells, List.getElem?_set_self hcell]
  have hother : ∀ {j}, j ≠ idx → s'.cells[j]? = s.cells[j]? := by
    intro j hj
    rw [hcells, List.getElem?_set_ne (Ne.symm hj)]
  have hlast : s'.posts[s.posts.length]? = some p := by
    rw [hposts, List.getElem?_concat_length]
  refine ⟨?_, ?_, ?_, ?_, h.received_lt_of_snoc hposts hreceipts,
    h.in_order_of_snoc hposts hreceipts⟩
  · rw [hcells, hslots, List.length_set, List.length_set, h.cells_length]
  · intro j n hj
    by_cases hjidx : j = idx
    · subst hjidx
      obtain rfl : s.posts.length = n := by simpa [hself] using hj
      refine ⟨⟨p.priority, true, p.src, size⟩, p, ?_, hlast, rfl, rfl, rfl⟩
      rw [hslots, List.getElem?_set_self hidx]
    · rw [hother hjidx] at hj
      obtain ⟨m, q, hm, hq, hrest⟩ := h.stored j n hj
      refine ⟨m, q, ?_, ?_, hrest⟩
      · rw [hslots, List.getElem?_set_ne (Ne.symm hjidx), hm]
      · rw [hposts, List.getElem?_append_left (h.lt_of_cell hj), hq]
  · intro i j a b hij ha hb hline
    exact h.sorted_put hself hother hposts hbehind hij ha hb hline
  · intro n q hq hok
    rw [hposts] at hq
    rcases getElem?_snoc hq with hq | ⟨rfl, -⟩
    · rcases h.located n q hq hok with ⟨j, hj⟩ | hreceived | ⟨r, hr, hgone⟩
      · by_cases hjidx : j = idx
        · subst hjidx
          refine Or.inr (Or.inr ⟨p, by simp [hposts], ?_⟩)
          rw [hevicted, hj, Option.join_some]
        · exact Or.inl ⟨j, by rw [hother hjidx, hj]⟩
      · exact Or.inr (Or.inl (hreceipts ▸ hreceived))
      · exact Or.inr (Or.inr ⟨r, by simp [hposts, hr], hgone⟩)
    · exact Or.inl ⟨idx, hself⟩

/-- What has the sender and the priority of the message that is found, and was posted before it, has
been received if it is not evicted. If it waited, it would be behind the message that is found,
since its priority is the highest too, and the slots are in the order of the posts. -/
theorem received_before (h : s.Ordered) {idx : Nat} {m : SlotMeta}
    (hfound : s.ring.findHighestPrioritySlot = some idx) (hm : s.ring.slots[idx]? = some m)
    {n k : Nat} {p q : PostRecord} (hnk : n < k) (hk : s.cells[idx]? = some (some k))
    (hp : s.posts[n]? = some p) (hq : s.posts[k]? = some q) (hok : p.ok = true)
    (hprio : p.priority = q.priority) (hsrc : p.src = q.src)
    (hkept : ∀ r ∈ s.posts, r.evicted ≠ some n) : ∃ u ∈ s.receipts, u.post = some n := by
  rcases h.located n p hp hok with ⟨l, hl⟩ | hreceived | ⟨r, hr, hn⟩
  · obtain ⟨a, p', ha, hp', huse, hprio', -⟩ := h.stored l n hl
    obtain ⟨m', q', hm', hq', -, hprio'', -⟩ := h.stored idx k hk
    obtain rfl : p = p' := Option.some.inj (hp.symm.trans hp')
    obtain rfl : q = q' := Option.some.inj (hq.symm.trans hq')
    obtain rfl : m = m' := Option.some.inj (hm.symm.trans hm')
    have hle : idx ≤ l :=
      EvlRing.le_of_found hfound hm ha huse (by rw [hprio', hprio, ← hprio''])
    have hne : l ≠ idx := by
      rintro rfl
      rw [hk, Option.some.injEq, Option.some.injEq] at hl
      omega
    have hlt := h.sorted idx l k n (by omega) hk hl ⟨q, p, hq, hp, hprio.symm, hsrc.symm⟩
    omega
  · exact hreceived
  · exact absurd hn (hkept r hr)

/-- A receive that takes the message of slot `idx`. -/
theorem received (h : s.Ordered) {idx : Nat} {m : SlotMeta}
    (hfound : s.ring.findHighestPrioritySlot = some idx) (hm : s.ring.slots[idx]? = some m)
    (bytes : List UInt8) (metadata : TimsMetadata) :
    ({ s with
        ring := s.ring.release idx
        cells := s.cells.set idx none
        receipts := s.receipts ++ [⟨s.cells[idx]?.join, bytes, metadata⟩] } :
      RingHistory).Ordered := by
  have hidx : idx < s.ring.slots.length := (List.getElem?_eq_some_iff.mp hm).1
  have hcell : idx < s.cells.length := h.cells_length ▸ hidx
  have hother : ∀ {j n}, (s.cells.set idx none)[j]? = some (some n) →
      j ≠ idx ∧ s.cells[j]? = some (some n) := by
    intro j n hj
    have hjidx : j ≠ idx := by
      rintro rfl
      rw [List.getElem?_set_self hcell] at hj
      cases hj
    rw [List.getElem?_set_ne (Ne.symm hjidx)] at hj
    exact ⟨hjidx, hj⟩
  refine ⟨?_, ?_, ?_, ?_, ?_, ?_⟩
  · simpa [EvlRing.release] using h.cells_length
  · intro j n hj
    obtain ⟨hjidx, hj⟩ := hother hj
    obtain ⟨a, p, ha, hrest⟩ := h.stored j n hj
    exact ⟨a, p, by rw [EvlRing.getElem?_release_of_ne _ hjidx, ha], hrest⟩
  · intro i j a b hij ha hb hline
    exact h.sorted i j a b hij (hother ha).2 (hother hb).2 hline
  · intro n p hp hok
    rcases h.located n p hp hok with ⟨j, hj⟩ | ⟨t, ht, hpost⟩ | hevicted
    · by_cases hjidx : j = idx
      · subst hjidx
        exact Or.inr (Or.inl ⟨_, List.mem_append_right _ (List.mem_singleton.mpr rfl),
          by rw [hj, Option.join_some]⟩)
      · exact Or.inl ⟨j, by rw [List.getElem?_set_ne (Ne.symm hjidx), hj]⟩
    · exact Or.inr (Or.inl ⟨t, List.mem_append_left _ ht, hpost⟩)
    · exact Or.inr (Or.inr hevicted)
  · intro t ht n hn
    rcases List.mem_append.mp ht with ht | ht
    · exact h.received_lt t ht n hn
    · rw [List.mem_singleton.mp ht] at hn
      exact h.lt_of_cell (Option.join_eq_some_iff.mp hn)
  · intro n k p q hnk hp hq hok hprio hsrc hkept j t ht hpost
    rcases getElem?_snoc ht with ht | ⟨rfl, rfl⟩
    · obtain ⟨i, u, hij, hu, hn⟩ := h.in_order n k p q hnk hp hq hok hprio hsrc hkept j t ht hpost
      have hi : i < s.receipts.length := (List.getElem?_eq_some_iff.mp hu).1
      exact ⟨i, u, hij, by rw [List.getElem?_append_left hi, hu], hn⟩
    · have hk : s.cells[idx]? = some (some k) := Option.join_eq_some_iff.mp hpost
      obtain ⟨u, hu, hn⟩ := h.received_before hfound hm hnk hk hp hq hok hprio hsrc hkept
      obtain ⟨i, hi, hget⟩ := List.mem_iff_getElem.mp hu
      refine ⟨i, u, hi, ?_, hn⟩
      rw [List.getElem?_append_left hi, List.getElem?_eq_getElem hi, hget]

end Ordered

/-! ### Runs -/

/-- A post of `stored`, recorded as the post of `data`. -/
theorem ordered_post {s : RingHistory} (h : s.Ordered) {priority : Int8} {src : MailboxId}
    (hbehind : NoneBehind s.ring priority src) (stored data : List UInt8) :
    (s.recordPost (s.ring.post stored priority src) data priority src).Ordered := by
  rcases s.ring.post_cases stored priority src with
    ⟨idx, m, hchoose, hyields, heq⟩ | ⟨hchoose, heq, -⟩
  · obtain ⟨a, ha, hgives⟩ := EvlRing.givesWay_of_chooseSlot hchoose
    simp only [recordPost, hchoose, heq]
    exact h.put hyields.lt rfl rfl rfl rfl rfl fun j b hj => hbehind idx j a b hj ha hgives
  · simp only [recordPost, hchoose, heq]
    exact h.refused rfl rfl rfl rfl rfl

theorem ordered_step (s : RingHistory) (e : Event) (h : s.Ordered) (he : s.KeepsOrder e) :
    (s.step e).Ordered := by
  cases e with
  | post data priority src => exact ordered_post h he data data
  | postToRemote data priority src =>
    simp only [step, EvlRing.postToRemote_eq]
    exact ordered_post h he _ data
  | receive mailboxId bufferSize =>
    rcases s.ring.receive_cases mailboxId bufferSize with
      ⟨idx, m, hfound, hm, -, heq⟩ | ⟨heq, hno⟩
    · simp only [step, recordReceive, heq, hfound]
      exact h.received hfound hm _ _
    · simp only [step, recordReceive_eq_self heq hno]
      exact h

theorem ordered_init (capacity : Nat) (slotSize : UInt32) (payload : ByteMemory) :
    (init capacity slotSize payload).Ordered where
  cells_length := by simp [init, EvlRing.allocateRing]
  stored idx n hcell := by simp [init, List.getElem?_replicate] at hcell
  sorted i j a b _ ha := by simp [init, List.getElem?_replicate] at ha
  located := by simp [init]
  received_lt := by simp [init]
  in_order := by simp [init, InOrder]

/-- **Equal priorities in order.** Take an empty ring of any size, and posts and receives in any
order. If no post puts its message in front of an older one of its sender and its priority, then the
messages of every sender and every priority are received in the order in which they were posted. -/
theorem inOrder_of_keepsOrder (capacity : Nat) (slotSize : UInt32) (payload : ByteMemory)
    (es : List Event) (h : AllSteps step KeepsOrder (init capacity slotSize payload) es) :
    AllStates step InOrder (init capacity slotSize payload) es :=
  (allStates_of_allSteps ordered_step (ordered_init capacity slotSize payload) h).mono
    fun _ => Ordered.in_order

/-- No message waits behind a slot of a ring with at most the first slot in use. -/
theorem noneBehind_of_tail {r : EvlRing} (h : ∀ b ∈ r.slots.tail, b.inUse = false)
    (priority : Int8) (src : MailboxId) : NoneBehind r priority src := by
  intro i j a b hij _ _ hb huse
  have hmem : b ∈ r.slots.tail := by
    refine List.mem_of_getElem? (i := j - 1) ?_
    rw [List.getElem?_tail, Nat.sub_add_cancel (by omega), hb]
  rw [h b hmem] at huse
  cases huse

/-- Two messages of one sender, which are received before it posts a third. -/
def drainedRun : List Event :=
  [.post [1] 0 7, .post [2] 0 7, .receive 5 64, .receive 5 64, .post [3] 0 7, .receive 5 64]

theorem inOrder_drainedRun :
    AllSteps step KeepsOrder (init 10 64 fun _ => 0) drainedRun ∧
      AllStates step InOrder (init 10 64 fun _ => 0) drainedRun := by
  have hsteps : AllSteps step KeepsOrder (init 10 64 fun _ => 0) drainedRun :=
    ⟨noneBehind_of_tail (by decide) 0 7, noneBehind_of_tail (by decide) 0 7, trivial, trivial,
      noneBehind_of_tail (by decide) 0 7, trivial, trivial⟩
  exact ⟨hsteps, inOrder_of_keepsOrder 10 64 (fun _ => 0) drainedRun hsteps⟩

/-- Two messages of one sender, of which one is received before it posts a third. -/
def overtakingRun : List Event :=
  [.post [1] 0 7, .post [2] 0 7, .receive 5 64, .post [3] 0 7, .receive 5 64]

/-- The third message goes to the slot of the first, in front of the second, and is received before
it. The second is in its slot. -/
theorem reused_slot_overtakes :
    ¬ AllStates step InOrder (init 10 64 fun _ => 0) overtakingRun ∧
      (runFrom step (init 10 64 fun _ => 0) overtakingRun).receipts.map (·.bytes) = [[1], [3]] ∧
      (runFrom step (init 10 64 fun _ => 0) overtakingRun).cells[1]? = some (some 1) := by
  refine ⟨?_, by decide, by decide⟩
  intro h
  obtain ⟨i, u, hi, hu, hpost⟩ :=
    h.last 1 2 _ _ (by decide) rfl rfl rfl rfl rfl (by decide) 1 _ rfl rfl
  have hfirst : (runFrom step (init 10 64 fun _ => 0) overtakingRun).receipts[0]?.map (·.post)
      = some (some 0) := by decide
  obtain rfl : i = 0 := by omega
  rw [hu, Option.map_some, hpost] at hfirst
  exact absurd hfirst (by decide)

end RingHistory

end CoreRaT.Spec
