import CoreRaT.Lib.WaitCounts
import CoreRaT.Proofs.Ring.Slots
import CoreRaT.Spec.RingWaiters

/-!
# `CoreRaT.Proofs.Ring.Wakeup`: no wake-up is lost

The locked sections of `CoreRaT.Spec.RingWaiters` do to the numbers of messages, blocked threads and
woken threads what `CoreRaT.Lib.WaitCounts` has rules for (`counts_step`). So while a thread is
blocked there is a woken thread for each message (`Invariant`), and no message waits for a thread
that nobody will wake (`noLostWakeup_of_run`).

One section does not fit: a woken thread that finds a message which is too long for its buffer
returns `-EMSGSIZE`, and the message stays. `post` does not compare the size of a message with that
of a slot, so a buffer of the size of a slot can be too short (`too_long_for_all`). `lost_of_left`
says that the wake-up is lost then, and `noLostWakeup_of_sizes` that this cannot happen if all
messages fit into a slot.
-/

set_option autoImplicit false

namespace CoreRaT.Spec

open CoreRaT.Lib

namespace RingWaiters

open EvlRing (inUseCount_pos inUseCount_store inUseCount_release)

/-- There is a message, a thread is blocked, and no thread that has been woken is on its way. -/
def LostWakeup (s : RingWaiters) : Prop :=
  s.ring.hasInUseSlot = true ∧ s.blocked ≠ [] ∧ s.woken = []

/-- The messages and the threads. -/
def counts (s : RingWaiters) : WaitCounts :=
  ⟨s.ring.inUseCount, s.blocked.length, s.woken.length⟩

/-- The priorities of the posts are above -128, and the buffers have the size of a slot at least. -/
def InDomain (slotSize : UInt32) : Event → Prop
  | .post _ priority _ _ => Int8.minValue < priority
  | .receive bufferSize => slotSize.toNat ≤ bufferSize
  | .recheck _ => True

/-- A woken thread that finds a message which is too long for its buffer does not leave more
messages than woken threads, unless nobody is blocked. -/
def LeavesNone (s : RingWaiters) : Event → Prop
  | .recheck k =>
    ∀ bufferSize ∈ s.woken[k]?, ∀ idx m, s.ring.findHighestPrioritySlot = some idx →
      s.ring.slots[idx]? = some m → bufferSize < m.size.toNat → s.blocked ≠ [] →
        s.ring.inUseCount < s.woken.length
  | _ => True

variable {s : RingWaiters}

theorem stuck_counts : s.counts.Stuck ↔ s.LostWakeup := by
  simp only [WaitCounts.Stuck, counts, LostWakeup, inUseCount_pos, List.length_pos_iff,
    List.length_eq_zero_iff]

/-! ### The locked sections -/

theorem counts_signalEvent (s : RingWaiters) (waiter : Nat) :
    (s.signalEvent waiter).counts = s.counts.signal := by
  by_cases hblocked : s.blocked = []
  · simp [signalEvent, hblocked, counts, WaitCounts.signal]
  · have hpos : 0 < s.blocked.length := List.length_pos_iff.mpr hblocked
    have hlt := Nat.mod_lt waiter hpos
    have hne : s.counts.blocked ≠ 0 := Nat.ne_of_gt hpos
    rw [WaitCounts.signal, if_neg hne]
    simp only [signalEvent, List.getElem?_eq_getElem hlt, counts, List.length_eraseIdx_of_lt hlt,
      List.length_append, List.length_singleton]

@[simp] theorem ring_signalEvent (s : RingWaiters) (waiter : Nat) :
    (s.signalEvent waiter).ring = s.ring := by
  unfold signalEvent
  split
  · rfl
  · rfl

/-- A `post` puts a message into a slot and signals, or does nothing. -/
theorem post_cases (s : RingWaiters) (data : List UInt8) (priority : Int8) (src : MailboxId)
    (waiter : Nat) :
    (∃ idx more, more ≤ 1 ∧ (s.post data priority src waiter).counts = s.counts.put more ∧
      (s.post data priority src waiter).ring
        = s.ring.store idx data ⟨priority, true, src, UInt32.ofNat data.length⟩) ∨
      s.post data priority src waiter = s := by
  rcases s.ring.post_cases data priority src with ⟨idx, m, -, hyields, heq⟩ | ⟨-, heq, -⟩
  · left
    refine ⟨idx, if m.inUse then 0 else 1, by split <;> omega, ?_, ?_⟩
    · simp only [post, heq, counts_signalEvent]
      rw [← WaitCounts.signal_add, counts, inUseCount_store hyields.1 rfl]
      rfl
    · simp only [post, heq, ring_signalEvent]
  · right
    simp only [post, heq]

/-- The thread takes a message, or leaves it because its buffer is too short, or blocks because
there is none. -/
theorem receive_cases (hprio : ∀ m ∈ s.ring.slots, m.inUse = true → Int8.minValue < m.priority)
    (bufferSize : Nat) :
    (s.ring.inUseCount = 0 ∧
      s.receive bufferSize = { s with blocked := s.blocked ++ [bufferSize] }) ∨
    ∃ idx m, s.ring.findHighestPrioritySlot = some idx ∧ s.ring.slots[idx]? = some m ∧
      m.inUse = true ∧
      ((m.size.toNat ≤ bufferSize ∧
          s.receive bufferSize = { s with ring := s.ring.release idx }) ∨
        (bufferSize < m.size.toNat ∧ s.receive bufferSize = s)) := by
  rcases s.ring.findHighestPrioritySlot_cases with ⟨-, hmin⟩ | ⟨idx, m, hfound, hm, huse, -⟩
  · -- Only messages of priority -128 are not found.
    left
    have hnone : s.ring.hasInUseSlot = false := by
      by_contra hsome
      obtain ⟨m, hm, huse⟩ := EvlRing.hasInUseSlot_iff.mp ((Bool.not_eq_false _).mp hsome)
      have hlt := hprio m hm huse
      rw [hmin m hm huse] at hlt
      exact Int8.lt_irrefl hlt
    refine ⟨?_, by simp [receive, EvlRing.receive, hnone]⟩
    have hpos := inUseCount_pos.not.mpr (Bool.not_eq_true _ ▸ hnone)
    omega
  · right
    refine ⟨idx, m, hfound, hm, huse, ?_⟩
    by_cases hsize : bufferSize < m.size.toNat
    · exact .inr ⟨hsize, by
        simp only [receive, EvlRing.receive_of_found hfound hm, if_pos hsize]⟩
    · exact .inl ⟨Nat.le_of_not_lt hsize, by
        simp only [receive, EvlRing.receive_of_found hfound hm, if_neg hsize]⟩

/-! ### The invariant -/

/-- What the locked sections keep. -/
structure Invariant (s : RingWaiters) : Prop where
  priorities : ∀ m ∈ s.ring.slots, m.inUse = true → Int8.minValue < m.priority
  covered : s.counts.Covered

theorem invariant_init (mailboxId : MailboxId) (capacity : Nat) (slotSize : UInt32)
    (payload : ByteMemory) : (init mailboxId capacity slotSize payload).Invariant where
  priorities m hm huse := by
    obtain rfl := List.eq_of_mem_replicate hm
    cases huse
  covered := fun hblocked => (Nat.lt_irrefl 0 hblocked).elim

namespace Invariant

theorem post (h : s.Invariant) (data : List UInt8) {priority : Int8}
    (hprio : Int8.minValue < priority) (src : MailboxId) (waiter : Nat) :
    (s.post data priority src waiter).Invariant := by
  rcases s.post_cases data priority src waiter with ⟨idx, more, hmore, hcounts, hring⟩ | heq
  · refine ⟨?_, hcounts ▸ h.covered.put hmore⟩
    rw [hring]
    exact EvlRing.forall_store hprio h.priorities idx data
  · rw [heq]
    exact h

theorem receive (h : s.Invariant) (bufferSize : Nat) : (s.receive bufferSize).Invariant := by
  rcases receive_cases h.priorities bufferSize with
    ⟨hitems, heq⟩ | ⟨idx, m, -, hm, huse, ⟨-, heq⟩ | ⟨-, heq⟩⟩
  · rw [heq]
    refine ⟨h.priorities, ?_⟩
    have hcovered := WaitCounts.covered_block (c := s.counts) hitems
    simpa [counts, WaitCounts.block] using hcovered
  · rw [heq]
    refine ⟨EvlRing.forall_release hm h.priorities, ?_⟩
    have hcovered := h.covered.take
    simpa [counts, WaitCounts.take, inUseCount_release hm huse] using hcovered
  · rw [heq]
    exact h

/-- A thread that has been woken. -/
theorem recheck (h : s.Invariant) {k bufferSize : Nat} (hk : s.woken[k]? = some bufferSize)
    (hleaves : s.LeavesNone (.recheck k)) :
    ({ s with woken := s.woken.eraseIdx k }.receive bufferSize).Invariant := by
  have hlt : k < s.woken.length := (List.getElem?_eq_some_iff.mp hk).1
  rcases receive_cases (s := { s with woken := s.woken.eraseIdx k }) h.priorities bufferSize with
    ⟨hitems, heq⟩ | ⟨idx, m, hfound, hm, huse, ⟨-, heq⟩ | ⟨hsize, heq⟩⟩
  · rw [heq]
    refine ⟨h.priorities, ?_⟩
    have hcovered := WaitCounts.covered_block (c := s.counts.leave) hitems
    simpa [counts, WaitCounts.block, WaitCounts.leave, List.length_eraseIdx_of_lt hlt]
      using hcovered
  · rw [heq]
    refine ⟨EvlRing.forall_release hm h.priorities, ?_⟩
    have hcovered := h.covered.leave_take
    simpa [counts, WaitCounts.take, WaitCounts.leave, inUseCount_release hm huse,
      List.length_eraseIdx_of_lt hlt] using hcovered
  · -- The message is too long, and stays.
    rw [heq]
    refine ⟨h.priorities, ?_⟩
    have hcovered : s.counts.leave.Covered := WaitCounts.covered_leave fun hblocked =>
      hleaves bufferSize hk idx m hfound hm hsize (List.length_pos_iff.mp hblocked)
    simpa [counts, WaitCounts.leave, List.length_eraseIdx_of_lt hlt] using hcovered

theorem step (h : s.Invariant) {slotSize : UInt32} {e : Event} (hdomain : InDomain slotSize e)
    (hleaves : s.LeavesNone e) : (s.step e).Invariant := by
  cases e with
  | post data priority src waiter => exact h.post data hdomain src waiter
  | receive bufferSize => exact h.receive bufferSize
  | recheck k =>
    cases hk : s.woken[k]? with
    | none =>
      simp only [RingWaiters.step, hk]
      exact h
    | some bufferSize =>
      simp only [RingWaiters.step, hk]
      exact h.recheck hk hleaves

theorem not_lostWakeup (h : s.Invariant) : ¬ s.LostWakeup :=
  stuck_counts.not.mp h.covered.not_stuck

end Invariant

/-- In a run in which no woken thread leaves a message behind that nobody will take, no thread is
blocked while there is a message and no woken thread is on its way. -/
theorem noLostWakeup_of_run (mailboxId : MailboxId) (capacity : Nat) (slotSize : UInt32)
    (payload : ByteMemory) (es : List Event) (hdomain : ∀ e ∈ es, InDomain slotSize e)
    (hleaves : AllSteps step LeavesNone (init mailboxId capacity slotSize payload) es) :
    AllStates step (fun s => ¬ s.LostWakeup) (init mailboxId capacity slotSize payload) es := by
  have hinv := allStates_of_allSteps (fun _ _ h hstep => h.step hstep.2 hstep.1)
    (invariant_init mailboxId capacity slotSize payload) (hleaves.and_forall hdomain)
  exact hinv.mono fun _ h => h.not_lostWakeup

/-! ### Messages that fit into a slot -/

/-- The message of a post fits into a slot. -/
def FitsSlot (slotSize : UInt32) : Event → Prop
  | .post data _ _ _ => data.length ≤ slotSize.toNat
  | _ => True

/-- All messages fit into a slot, and the buffers have the size of a slot at least. -/
structure Fitting (slotSize : UInt32) (s : RingWaiters) : Prop where
  sizes : ∀ m ∈ s.ring.slots, m.inUse = true → m.size.toNat ≤ slotSize.toNat
  blocked : ∀ bufferSize ∈ s.blocked, slotSize.toNat ≤ bufferSize
  woken : ∀ bufferSize ∈ s.woken, slotSize.toNat ≤ bufferSize

namespace Fitting

variable {slotSize : UInt32}

theorem leavesNone (h : s.Fitting slotSize) (e : Event) : s.LeavesNone e := by
  cases e with
  | post => trivial
  | receive => trivial
  | recheck k =>
    intro bufferSize hk idx m hfound hm hsize
    have hbuffer := h.woken bufferSize (List.mem_of_getElem? hk)
    have hslot := h.sizes m (List.mem_of_getElem? hm) (EvlRing.inUse_of_found hfound hm)
    omega

theorem signalEvent (h : s.Fitting slotSize) (waiter : Nat) :
    (s.signalEvent waiter).Fitting slotSize := by
  unfold RingWaiters.signalEvent
  split
  · exact h
  · rename_i bufferSize hwaiter
    refine ⟨h.sizes, fun b hb => h.blocked b (List.mem_of_mem_eraseIdx hb), fun b hb => ?_⟩
    rcases List.mem_append.mp hb with hold | hnew
    · exact h.woken b hold
    · obtain rfl := List.mem_singleton.mp hnew
      exact h.blocked b (List.mem_of_getElem? hwaiter)

theorem post (h : s.Fitting slotSize) {data : List UInt8} (hdata : data.length ≤ slotSize.toNat)
    (priority : Int8) (src : MailboxId) (waiter : Nat) :
    (s.post data priority src waiter).Fitting slotSize := by
  rcases s.ring.post_cases data priority src with ⟨idx, m, -, -, heq⟩ | ⟨-, heq, -⟩
  · have hsize : (UInt32.ofNat data.length).toNat ≤ slotSize.toNat :=
      Nat.le_trans (Nat.mod_le ..) hdata
    have hstore : Fitting slotSize { s with
        ring := s.ring.store idx data ⟨priority, true, src, UInt32.ofNat data.length⟩ } :=
      ⟨EvlRing.forall_store hsize h.sizes idx data, h.blocked, h.woken⟩
    simp only [RingWaiters.post, heq]
    exact hstore.signalEvent waiter
  · simp only [RingWaiters.post, heq]
    exact h

theorem receive (h : s.Fitting slotSize)
    (hprio : ∀ m ∈ s.ring.slots, m.inUse = true → Int8.minValue < m.priority) {bufferSize : Nat}
    (hbuffer : slotSize.toNat ≤ bufferSize) : (s.receive bufferSize).Fitting slotSize := by
  rcases receive_cases hprio bufferSize with
    ⟨-, heq⟩ | ⟨idx, m, -, hm, -, ⟨-, heq⟩ | ⟨-, heq⟩⟩
  · rw [heq]
    refine ⟨h.sizes, fun b hb => ?_, h.woken⟩
    rcases List.mem_append.mp hb with hold | hnew
    · exact h.blocked b hold
    · obtain rfl := List.mem_singleton.mp hnew
      exact hbuffer
  · rw [heq]
    exact ⟨EvlRing.forall_release hm h.sizes, h.blocked, h.woken⟩
  · rw [heq]
    exact h

theorem step (h : s.Fitting slotSize)
    (hprio : ∀ m ∈ s.ring.slots, m.inUse = true → Int8.minValue < m.priority) {e : Event}
    (hdomain : InDomain slotSize e) (hfits : FitsSlot slotSize e) :
    (s.step e).Fitting slotSize := by
  cases e with
  | post data priority src waiter => exact h.post hfits priority src waiter
  | receive bufferSize => exact h.receive hprio hdomain
  | recheck k =>
    cases hk : s.woken[k]? with
    | none =>
      simp only [RingWaiters.step, hk]
      exact h
    | some bufferSize =>
      simp only [RingWaiters.step, hk]
      have hrest : Fitting slotSize { s with woken := s.woken.eraseIdx k } :=
        ⟨h.sizes, h.blocked, fun b hb => h.woken b (List.mem_of_mem_eraseIdx hb)⟩
      exact hrest.receive hprio (h.woken bufferSize (List.mem_of_getElem? hk))

end Fitting

/-- If all messages fit into a slot, no woken thread leaves one behind. -/
theorem leavesNone_of_sizes (mailboxId : MailboxId) (capacity : Nat) (slotSize : UInt32)
    (payload : ByteMemory) (es : List Event)
    (hdomain : ∀ e ∈ es, InDomain slotSize e ∧ FitsSlot slotSize e) :
    AllSteps step LeavesNone (init mailboxId capacity slotSize payload) es := by
  have hinv := invariant_init mailboxId capacity slotSize payload
  have hfitting : Fitting slotSize (init mailboxId capacity slotSize payload) := by
    refine ⟨fun m hm huse => ?_, nofun, nofun⟩
    obtain rfl := List.eq_of_mem_replicate hm
    cases huse
  refine AllSteps.imp (J := fun s => s.Invariant ∧ s.Fitting slotSize) ?_ ?_ ⟨hinv, hfitting⟩
    (allSteps_of_forall hdomain)
  · rintro s e ⟨hinv, hfitting⟩ ⟨hdomain, hfits⟩
    exact ⟨hinv.step hdomain (hfitting.leavesNone e), hfitting.step hinv.priorities hdomain hfits⟩
  · rintro s e ⟨-, hfitting⟩ -
    exact hfitting.leavesNone e

/-! ### Messages that stay -/

/-- With more messages than woken threads and a thread that is blocked, the wake-up is lost when the
woken threads have looked. -/
theorem lost_of_not_covered (n : Nat) : ∀ {s : RingWaiters}, s.woken.length = n →
    (∀ m ∈ s.ring.slots, m.inUse = true → Int8.minValue < m.priority) → ¬ s.counts.Covered →
      (runFrom step s (List.replicate n (.recheck 0))).LostWakeup := by
  induction n with
  | zero =>
    intro s hn _ hnot
    exact stuck_counts.mp (WaitCounts.stuck_of_not_covered hnot hn)
  | succ n ih =>
    intro s hn hprio hnot
    obtain ⟨bufferSize, rest, hwoken⟩ := List.exists_cons_of_length_eq_add_one hn
    have hrest : rest.length = n := by simpa [hwoken] using hn
    rw [List.replicate_succ, runFrom_cons]
    have hpos : 0 < s.counts.woken := by simp [counts, hwoken]
    simp only [step, hwoken, List.getElem?_cons_zero, List.eraseIdx_cons_zero]
    rcases receive_cases (s := { s with woken := rest }) hprio bufferSize with
      ⟨hitems, -⟩ | ⟨idx, m, -, hm, huse, ⟨-, heq⟩ | ⟨-, heq⟩⟩
    · -- There are more messages than woken threads, so there is one.
      exfalso
      have hzero : s.counts.items = 0 := hitems
      simp only [WaitCounts.Covered, hzero] at hnot
      omega
    · rw [heq]
      refine ih hrest (EvlRing.forall_release hm hprio) ?_
      have hstill := WaitCounts.not_covered_leave_take hnot hpos
      simpa [counts, WaitCounts.take, WaitCounts.leave, inUseCount_release hm huse, hwoken]
        using hstill
    · rw [heq]
      refine ih hrest hprio ?_
      simpa [counts, WaitCounts.leave, hwoken] using WaitCounts.not_covered_leave hnot

/-- After a woken thread has left a message behind that nobody else will take, the wake-up is lost
when the other woken threads have looked. -/
theorem lost_of_left (h : s.Invariant) {e : Event} (hleft : ¬ s.LeavesNone e) :
    ∃ n, (runFrom step s (e :: List.replicate n (.recheck 0))).LostWakeup := by
  cases e with
  | post => exact (hleft trivial).elim
  | receive => exact (hleft trivial).elim
  | recheck k =>
    simp only [LeavesNone, not_forall] at hleft
    obtain ⟨bufferSize, hk, idx, m, hfound, hm, hsize, hblocked, hmore⟩ := hleft
    have hwoken : s.woken[k]? = some bufferSize := hk
    have hlt : k < s.woken.length := (List.getElem?_eq_some_iff.mp hwoken).1
    have hleave : s.step (.recheck k) = { s with woken := s.woken.eraseIdx k } := by
      simp only [step, hwoken, receive, EvlRing.receive_of_found hfound hm, if_pos hsize]
    refine ⟨(s.woken.eraseIdx k).length, ?_⟩
    rw [runFrom_cons, hleave]
    refine lost_of_not_covered _ rfl h.priorities ?_
    intro hcovered
    have hle := hcovered (List.length_pos_iff.mpr hblocked)
    simp only [counts, List.length_eraseIdx_of_lt hlt] at hle
    omega

/-! ### Two runs -/

instance (slotSize : UInt32) : DecidablePred (InDomain slotSize)
  | .post _ priority _ _ => inferInstanceAs (Decidable (Int8.minValue < priority))
  | .receive bufferSize => inferInstanceAs (Decidable (slotSize.toNat ≤ bufferSize))
  | .recheck _ => isTrue trivial

instance (slotSize : UInt32) : DecidablePred (FitsSlot slotSize)
  | .post data _ _ _ => inferInstanceAs (Decidable (data.length ≤ slotSize.toNat))
  | .receive _ => isTrue trivial
  | .recheck _ => isTrue trivial

/-- Two threads wait, and there is a message for one of them. A third thread takes it before. -/
def takenBefore : List Event := [.receive 4, .receive 4, .post [1] 0 9 0, .receive 4, .recheck 0]

theorem noLostWakeup_takenBefore :
    AllStates step (fun s => ¬ s.LostWakeup) (init 7 10 4 fun _ => 0) takenBefore :=
  noLostWakeup_of_run 7 10 4 (fun _ => 0) takenBefore (by decide)
    (leavesNone_of_sizes 7 10 4 (fun _ => 0) takenBefore (by decide))

/-- Two threads wait, and there is a message that does not fit into a slot. -/
def longMessage : List Event := [.receive 4, .receive 4, .post [1, 2, 3, 4, 5] 0 9 0, .recheck 0]

/-- The thread that is woken returns, the other one stays blocked, and the message stays. -/
theorem too_long_for_all :
    (∀ e ∈ longMessage, InDomain 4 e) ∧
      (runFrom step (init 7 10 4 fun _ => 0) longMessage).LostWakeup := by
  refine ⟨by decide, ?_, ?_, ?_⟩
  · decide
  · decide
  · decide

end RingWaiters

end CoreRaT.Spec
