import CoreRaT.Lib.MaskedRing
import CoreRaT.Proofs.Log.History

/-!
# `CoreRaT.Proofs.Log.Ring`: the log ring loses nothing that it has accepted

`head_` and `tail_` are the lower 64 bits of the number of accepted commits and of the number of
entries that have been taken. The two numbers differ by at most `RingSize`. So the slots of the
entries that are not taken yet are different from each other, and from the slot of the next entry
while the ring is not full (`Lib/MaskedRing.lean`), and a thread in `commit` writes where the drain
thread does not read.

`RingInv` says what is in the slots, in the copy of the drain thread and with the sinks at each
step. There is a lemma for each thing that a step can do to the ring, then one for each thread, and
`sound_of_run` reads the properties of the logger off the invariant.
-/

set_option autoImplicit false

namespace CoreRaT.Spec

open CoreRaT.Lib

variable {ι : Type}

namespace LogHistory

open RtLogger (Event)

/-! ### The ring -/

section
variable (append : (capacity : Nat) → List UInt8 → List UInt8 → List UInt8)

/-- The fields of the slot that have been written before this one. -/
def WrittenUpTo (l : RtLogger ι) (stamp : UInt64) (c : LogCall) (e : RtLogEntry) :
    WriteStage → Prop
  | .timestamp => True
  | .sourceId => e.timestamp = stamp
  | .level => e.timestamp = stamp ∧ e.sourceId = l.sourceId
  | .clear => e.timestamp = stamp ∧ e.sourceId = l.sourceId ∧ e.level = c.level
  | .append => e.timestamp = stamp ∧ e.sourceId = l.sourceId ∧ e.level = c.level ∧ e.message = []

/-- A thread that writes an entry, or that has written it. -/
def Writing : CommitPc → Prop
  | .write _ _ _ => True
  | .publish _ => True
  | _ => False

/-- What the thread has written so far, of which `e` is in the slot. -/
def Written (l : RtLogger ι) (stamp : UInt64) (slot : UInt64) (e : RtLogEntry) : CommitPc → Prop
  | .write c s stage => s = slot ∧ WrittenUpTo l stamp c e stage
  | .publish c => e = entryOf append l (c, stamp)
  | _ => True

/-- The fields that have been copied from `e` before this one. -/
def CopiedUpTo (entry e : RtLogEntry) : CopyStage → Prop
  | .timestamp => True
  | .sourceId => entry.timestamp = e.timestamp
  | .level => entry.timestamp = e.timestamp ∧ entry.sourceId = e.sourceId
  | .message => entry.timestamp = e.timestamp ∧ entry.sourceId = e.sourceId ∧ entry.level = e.level

/-- The slot of the `n`-th entry. -/
def slotOf (h : LogHistory ι) (n : Nat) : UInt64 :=
  maskedSlot h.logger.ringSize (UInt64.ofNat n)

/-- What is known of a thread in `commit` that has written this time: it writes the next entry,
into a ring that is not full. -/
def WriterOk (h : LogHistory ι) (stamp : UInt64) (pc : CommitPc) : Prop :=
  Writing pc → h.accepted.length < h.taken + h.logger.ringSize.toNat ∧
    Written append h.logger stamp (h.slotOf h.accepted.length)
      (h.logger.ring (h.slotOf h.accepted.length)) pc

/-- What is known of the drain thread when it has taken this many entries: it copies the next one,
or dispatches the last one. -/
def DrainOk (entries : List RtLogEntry) (taken : Nat) : DrainPc → Prop
  | .copy _ t stage entry => t = UInt64.ofNat taken ∧
      ∃ e, entries[taken]? = some e ∧ CopiedUpTo entry e stage
  | .store _ t entry => t = UInt64.ofNat taken ∧ entries[taken]? = some entry
  | .dispatch _ out _ => 0 < taken ∧
      ∃ e, entries[taken - 1]? = some e ∧ RtLogger.dispatched append e = out
  | _ => True

/-- The number of entries that the sink `i` has been given. -/
def handedTo (taken : Nat) (pc : DrainPc) (i : Nat) : Nat :=
  match pc with
  | .dispatch _ _ k => if i < k then taken else taken - 1
  | _ => taken

/-- The invariant of the ring. -/
structure RingInv (h : LogHistory ι) : Prop where
  size : PowerOfTwo h.logger.ringSize ∨ h.logger.ringSize = 0
  head : h.logger.head = UInt64.ofNat h.accepted.length
  tail : h.logger.tail = UInt64.ofNat h.taken
  le : h.taken ≤ h.accepted.length
  room : h.accepted.length ≤ h.taken + h.logger.ringSize.toNat
  /-- The entries that have not been taken are in their slots. -/
  stored : ∀ j e, h.taken ≤ j → (h.entries append)[j]? = some e →
    h.logger.ring (h.slotOf j) = e
  writer : ∀ i, h.WriterOk append (h.stamp i) (h.logger.writers i)
  drain : DrainOk append (h.entries append) h.taken h.logger.drain
  sinks : ∀ i < h.logger.sinkCount,
    h.logger.sinks i = ((h.entries append).take (handedTo h.taken h.logger.drain i)).map
      (RtLogger.dispatched append)

end

variable {append : (capacity : Nat) → List UInt8 → List UInt8 → List UInt8} {h : LogHistory ι}

theorem length_entries : (h.entries append).length = h.accepted.length := by
  simp [entries]

/-- The ring holds fewer entries than counters can tell apart. -/
theorem RingInv.close (hinv : h.RingInv append) : h.accepted.length - h.taken < 2 ^ 64 := by
  have hroom := hinv.room
  have hlt := h.logger.ringSize.toNat_lt
  omega

/-- The difference of the counters is the number of entries that have not been taken. -/
theorem RingInv.toNat_sub (hinv : h.RingInv append) :
    (h.logger.head - h.logger.tail).toNat = h.accepted.length - h.taken := by
  rw [hinv.head, hinv.tail]
  exact toNat_sub_ofNat hinv.le hinv.close

/-- The slot of the next entry is not that of an entry that has not been taken. -/
theorem RingInv.slotOf_ne (hinv : h.RingInv append)
    (hroom : h.accepted.length < h.taken + h.logger.ringSize.toNat) {j : Nat} (hj : h.taken ≤ j)
    (hlt : j < h.accepted.length) : h.slotOf h.accepted.length ≠ h.slotOf j := by
  intro heq
  have hsize : PowerOfTwo h.logger.ringSize := by
    refine hinv.size.resolve_right fun hzero => ?_
    simp only [hzero, UInt64.toNat_zero] at hroom
    omega
  have hsame := hsize.maskedSlot_ofNat_inj (Nat.le_of_lt hlt) (by omega) heq.symm
  omega

/-! ### Steps in `commit` -/

/-- What is known of the drain thread does not depend on the entries behind. -/
theorem DrainOk.more {entries : List RtLogEntry} {taken : Nat} {pc : DrainPc}
    (hpc : DrainOk append entries taken pc) (more : List RtLogEntry) :
    DrainOk append (entries ++ more) taken pc := by
  have hkeeps : ∀ {j : Nat} {e : RtLogEntry}, entries[j]? = some e →
      (entries ++ more)[j]? = some e := by
    intro j e he
    rw [List.getElem?_append_left (List.getElem?_eq_some_iff.mp he).1, he]
  cases pc with
  | copy final t stage entry =>
    obtain ⟨ht, e, he, hcopied⟩ := hpc
    exact ⟨ht, e, hkeeps he, hcopied⟩
  | store final t entry => exact ⟨hpc.1, hkeeps hpc.2⟩
  | dispatch final out k =>
    obtain ⟨hpos, e, he, hout⟩ := hpc
    exact ⟨hpos, e, hkeeps he, hout⟩
  | stopped => trivial
  | running => trivial
  | test final => trivial

/-- A sink has been given entries that have been taken. -/
theorem handedTo_le (taken : Nat) (pc : DrainPc) (i : Nat) : handedTo taken pc i ≤ taken := by
  unfold handedTo
  split
  · split <;> omega
  · exact Nat.le_refl _

/-- A thread that writes is under the lock. -/
theorem Writing.inside {pc : CommitPc} (hpc : Writing pc) : Inside pc := by
  cases pc with
  | write c slot stage => trivial
  | publish c => trivial
  | idle => cases hpc
  | lock c => cases hpc
  | check c => cases hpc
  | unlock => cases hpc

/-- A thread other than the one that holds the mutex is outside. -/
theorem outside_of_ne (hlocked : Locked h.logger) {i j : ι} (hi : Inside (h.logger.writers i))
    (hji : j ≠ i) : ¬ Inside (h.logger.writers j) := by
  intro hj
  have hmutex := hlocked j hj
  rw [hlocked i hi] at hmutex
  exact hji (Option.some.inj hmutex).symm

/-- Writing a field brings the thread to the next one, and with the last one the entry is there. -/
theorem written_afterField {l : RtLogger ι} {stamp slot : UInt64} {c : LogCall} {e : RtLogEntry}
    {stage : WriteStage} (hwritten : WrittenUpTo l stamp c e stage) (now : UInt64) :
    Written append l (stampAfter stamp now stage) slot (l.writeField append c now e stage)
      (RtLogger.afterField c slot stage) := by
  cases stage with
  | timestamp => exact ⟨rfl, rfl⟩
  | sourceId => exact ⟨rfl, hwritten, rfl⟩
  | level => exact ⟨rfl, hwritten.1, hwritten.2, rfl⟩
  | clear => exact ⟨rfl, hwritten.1, hwritten.2.1, hwritten.2.2, rfl⟩
  | append =>
    obtain ⟨htime, hsource, hlevel, hmessage⟩ := hwritten
    show ({ e with message := append l.maxMsgLen e.message c.text } : RtLogEntry) = _
    rw [hmessage, entryOf, ← hlevel, ← hsource]
    simp only [stampAfter, ← htime]

section
variable [DecidableEq ι]

/-- A thread in `commit` goes on without touching the ring. -/
theorem RingInv.setWriter (hinv : h.RingInv append) (i : ι) {pc : CommitPc} (mutex : Option ι)
    (hpc : h.WriterOk append (h.stamp i) pc) :
    RingInv append { h with logger := { h.logger.setWriter i pc with mutex } } where
  size := hinv.size
  head := hinv.head
  tail := hinv.tail
  le := hinv.le
  room := hinv.room
  stored := hinv.stored
  writer j := by
    show h.WriterOk append (h.stamp j) (Function.update h.logger.writers i pc j)
    by_cases hji : j = i
    · rw [hji, Function.update_self]
      exact hpc
    · rw [Function.update_of_ne hji]
      exact hinv.writer j
  drain := hinv.drain
  sinks := hinv.sinks

/-- The history after a field of a slot has been written. -/
def writeSlot (h : LogHistory ι) (i : ι) (pc : CommitPc) (slot : UInt64) (e : RtLogEntry)
    (stamp : UInt64) : LogHistory ι :=
  { h with
      logger := { h.logger.setWriter i pc with ring := Function.update h.logger.ring slot e }
      stamp := Function.update h.stamp i stamp }

/-- The slot of the next entry is written. -/
theorem RingInv.writeSlot (hinv : h.RingInv append) (hlocked : Locked h.logger) {i : ι}
    (hi : Inside (h.logger.writers i)) {pc : CommitPc} {e : RtLogEntry} {stamp : UInt64}
    (hroom : h.accepted.length < h.taken + h.logger.ringSize.toNat)
    (hpc : Written append h.logger stamp (h.slotOf h.accepted.length) e pc) :
    (h.writeSlot i pc (h.slotOf h.accepted.length) e stamp).RingInv append where
  size := hinv.size
  head := hinv.head
  tail := hinv.tail
  le := hinv.le
  room := hinv.room
  stored j e' hj he' := by
    have hlt : j < h.accepted.length := by
      obtain ⟨hlen, -⟩ := List.getElem?_eq_some_iff.mp he'
      rwa [length_entries] at hlen
    have hne := hinv.slotOf_ne hroom hj hlt
    exact (Function.update_of_ne hne.symm _ _).trans (hinv.stored j e' hj he')
  writer j hj := by
    have hj : Writing (Function.update h.logger.writers i pc j) := hj
    show _ ∧ Written append _ (Function.update h.stamp i stamp j) _
      (Function.update h.logger.ring (h.slotOf h.accepted.length) e (h.slotOf h.accepted.length))
      (Function.update h.logger.writers i pc j)
    by_cases hji : j = i
    · rw [hji, Function.update_self, Function.update_self, Function.update_self]
      exact ⟨hroom, hpc⟩
    · rw [Function.update_of_ne hji] at hj
      exact absurd hj.inside (outside_of_ne hlocked hi hji)
  drain := hinv.drain
  sinks := hinv.sinks

/-- The history after `head_` has been counted up. -/
def publishAt (h : LogHistory ι) (i : ι) (c : LogCall) : LogHistory ι :=
  { h with
      logger := { h.logger.setWriter i .unlock with head := h.logger.head + 1 }
      accepted := h.accepted ++ [(c, h.stamp i)] }

theorem entries_publishAt (i : ι) (c : LogCall) :
    (h.publishAt i c).entries append
      = h.entries append ++ [entryOf append h.logger (c, h.stamp i)] :=
  List.map_append

/-- The next entry is accepted. -/
theorem RingInv.publish (hinv : h.RingInv append) (hlocked : Locked h.logger) {i : ι} {c : LogCall}
    (hpc : h.logger.writers i = .publish c) : (h.publishAt i c).RingInv append := by
  have hlength : (h.publishAt i c).accepted.length = h.accepted.length + 1 := by
    simp [publishAt]
  obtain ⟨hroom, hslot⟩ := hinv.writer i (by rw [hpc]; trivial)
  rw [hpc] at hslot
  have hle := hinv.le
  constructor
  · exact hinv.size
  · rw [hlength, ← ofNat_add_one, ← hinv.head]
    rfl
  · exact hinv.tail
  · rw [hlength]
    show h.taken ≤ h.accepted.length + 1
    omega
  · rw [hlength]
    show h.accepted.length + 1 ≤ h.taken + h.logger.ringSize.toNat
    omega
  · intro j e hj he
    rw [entries_publishAt] at he
    rcases Nat.lt_or_ge j (h.entries append).length with hlt | hge
    · rw [List.getElem?_append_left hlt] at he
      exact hinv.stored j e hj he
    · -- The new entry.
      rw [List.getElem?_append_right hge] at he
      obtain ⟨hlast, heq⟩ := List.getElem?_eq_some_iff.mp he
      rw [List.length_singleton] at hlast
      rw [List.getElem_singleton] at heq
      have hj : j = h.accepted.length := by
        rw [length_entries] at hge hlast
        omega
      rw [hj, ← heq]
      exact hslot
  · intro j hj
    have hj : Writing (Function.update h.logger.writers i .unlock j) := hj
    by_cases hji : j = i
    · rw [hji, Function.update_self] at hj
      cases hj
    · rw [Function.update_of_ne hji] at hj
      exact absurd hj.inside (outside_of_ne hlocked (by rw [hpc]; trivial) hji)
  · rw [entries_publishAt]
    exact DrainOk.more hinv.drain _
  · intro k hk
    have hhanded := handedTo_le h.taken h.logger.drain k
    rw [entries_publishAt, List.take_append_of_le_length]
    · exact hinv.sinks k hk
    · rw [length_entries]
      exact Nat.le_trans hhanded hle

/-- A thread in `commit` takes a step. -/
theorem RingInv.commitStep (hinv : h.RingInv append) (hlocked : Locked h.logger) (i : ι)
    (now : UInt64) : (h.step append (.writer i now)).RingInv append := by
  show (h.recordCommit (h.logger.commitStep append i now) i now (h.logger.writers i)).RingInv append
  cases hpc : h.logger.writers i with
  | idle =>
    simp only [RtLogger.commitStep, hpc]
    exact hinv
  | lock c =>
    simp only [RtLogger.commitStep, hpc]
    split
    · exact hinv.setWriter i (some i) fun hwriting => by cases hwriting
    · exact hinv
  | check c =>
    simp only [RtLogger.commitStep, hpc]
    split
    · exact hinv.setWriter i h.logger.mutex fun hwriting => by cases hwriting
    · rename_i hfull
      refine hinv.setWriter i h.logger.mutex fun _ => ⟨?_, ?_, trivial⟩
      · -- The ring is not full.
        rw [UInt64.le_iff_toNat_le, hinv.toNat_sub] at hfull
        omega
      · rw [hinv.head]
        rfl
  | write c slot stage =>
    obtain ⟨hroom, hslot⟩ := hinv.writer i (by rw [hpc]; trivial)
    rw [hpc] at hslot
    obtain ⟨rfl, hwritten⟩ := hslot
    simp only [RtLogger.commitStep, hpc]
    exact hinv.writeSlot hlocked (by rw [hpc]; trivial) hroom (written_afterField hwritten now)
  | publish c =>
    simp only [RtLogger.commitStep, hpc]
    exact hinv.publish hlocked hpc
  | unlock =>
    simp only [RtLogger.commitStep, hpc]
    exact hinv.setWriter i none fun hwriting => by cases hwriting

end

/-! ### Steps of the drain thread -/

/-- The drain thread goes on without touching `tail_` and the sinks. -/
theorem RingInv.setDrain (hinv : h.RingInv append) {pc : DrainPc} (drainRunning joining : Bool)
    (hpc : DrainOk append (h.entries append) h.taken pc)
    (hhanded : ∀ i < h.logger.sinkCount,
      handedTo h.taken pc i = handedTo h.taken h.logger.drain i) :
    RingInv append { h with logger := { h.logger with drain := pc, drainRunning, joining } } where
  size := hinv.size
  head := hinv.head
  tail := hinv.tail
  le := hinv.le
  room := hinv.room
  stored := hinv.stored
  writer := hinv.writer
  drain := hpc
  sinks i hi := (hinv.sinks i hi).trans (by rw [← hhanded i hi]; rfl)

/-- Copying a field brings the drain thread to the next one, and with the last one it has the
entry. -/
theorem drainOk_afterCopy {entries : List RtLogEntry} {taken : Nat} {e entry : RtLogEntry}
    (he : entries[taken]? = some e) (final : Bool) {stage : CopyStage}
    (hcopied : CopiedUpTo entry e stage) :
    DrainOk append entries taken (RtLogger.afterCopy final (UInt64.ofNat taken)
      (RtLogger.copyField entry e stage) stage) := by
  cases stage with
  | timestamp => exact ⟨rfl, e, he, rfl⟩
  | sourceId => exact ⟨rfl, e, he, hcopied, rfl⟩
  | level => exact ⟨rfl, e, he, hcopied.1, hcopied.2, rfl⟩
  | message =>
    obtain ⟨htime, hsource, hlevel⟩ := hcopied
    refine ⟨rfl, he.trans ?_⟩
    simp only [RtLogger.copyField, htime, hsource, hlevel]

/-- The history after `tail_` has been stored. -/
def takeEntry (h : LogHistory ι) (t : UInt64) (pc : DrainPc) : LogHistory ι :=
  { h with logger := { h.logger with tail := t + 1, drain := pc }, taken := h.taken + 1 }

/-- The next entry is taken. -/
theorem RingInv.takeEntry (hinv : h.RingInv append) {e : RtLogEntry}
    (he : (h.entries append)[h.taken]? = some e) (final : Bool)
    (hhanded : ∀ i < h.logger.sinkCount, h.logger.sinks i
      = ((h.entries append).take h.taken).map (RtLogger.dispatched append)) :
    (h.takeEntry (UInt64.ofNat h.taken)
      (.dispatch final (RtLogger.dispatched append e) 0)).RingInv append where
  size := hinv.size
  head := hinv.head
  tail := ofNat_add_one h.taken
  le := by
    obtain ⟨hlt, -⟩ := List.getElem?_eq_some_iff.mp he
    rw [length_entries] at hlt
    exact hlt
  room := by
    have hroom := hinv.room
    show h.accepted.length ≤ h.taken + 1 + h.logger.ringSize.toNat
    omega
  stored j e hj he := hinv.stored j e (Nat.le_of_succ_le hj) he
  writer j hj := by
    obtain ⟨hroom, hwritten⟩ := hinv.writer j hj
    refine ⟨?_, hwritten⟩
    show h.accepted.length < h.taken + 1 + h.logger.ringSize.toNat
    omega
  drain := ⟨Nat.succ_pos _, e, he, rfl⟩
  sinks i hi := hhanded i hi

/-- The history after a sink has been given an entry. -/
def handEntry (h : LogHistory ι) (final : Bool) (out : RtLogEntry) (k : Nat) : LogHistory ι :=
  { h with
      logger :=
        { h.logger with
            sinks := Function.update h.logger.sinks k (h.logger.sinks k ++ [out])
            drain := .dispatch final out (k + 1) } }

/-- A sink is given the last entry that has been taken. -/
theorem RingInv.handEntry (hinv : h.RingInv append) {final : Bool} {out : RtLogEntry} {k : Nat}
    (hpc : h.logger.drain = .dispatch final out k) :
    (h.handEntry final out k).RingInv append where
  size := hinv.size
  head := hinv.head
  tail := hinv.tail
  le := hinv.le
  room := hinv.room
  stored := hinv.stored
  writer := hinv.writer
  drain := by
    have hdrain := hinv.drain
    rw [hpc] at hdrain
    exact hdrain
  sinks i hi := by
    have hdrain := hinv.drain
    have hsink := hinv.sinks i hi
    rw [hpc] at hdrain hsink
    obtain ⟨hpos, e, he, rfl⟩ := hdrain
    show Function.update h.logger.sinks k
      (h.logger.sinks k ++ [RtLogger.dispatched append e]) i = _
    by_cases hik : i = k
    · subst hik
      simp only [handedTo, Nat.lt_irrefl, if_false] at hsink
      have hlast : (h.entries append).take h.taken
          = (h.entries append).take (h.taken - 1) ++ [e] := by
        rw [← Nat.sub_add_cancel hpos, List.take_add_one, Nat.add_sub_cancel, he]
        rfl
      rw [Function.update_self, hsink, ← List.map_singleton, ← List.map_append, ← hlast]
      show _ = ((h.entries append).take (handedTo h.taken (.dispatch final _ (i + 1)) i)).map _
      simp only [handedTo, Nat.lt_succ_self, if_true]
    · rw [Function.update_of_ne hik, hsink]
      show _ = ((h.entries append).take (handedTo h.taken (.dispatch final _ (k + 1)) i)).map _
      have hlt : i < k + 1 ↔ i < k := by omega
      simp only [handedTo, hlt]

/-- The drain thread takes a step. -/
theorem RingInv.drainStep (hinv : h.RingInv append) :
    RingInv append (h.recordDrain (h.logger.drainStep append) h.logger.drain) := by
  cases hpc : h.logger.drain with
  | stopped =>
    simp only [RtLogger.drainStep, hpc]
    exact hinv
  | running =>
    simp only [RtLogger.drainStep, hpc]
    exact hinv.setDrain _ _ trivial fun i _ => by rw [hpc]; rfl
  | test final =>
    simp only [RtLogger.drainStep, hpc]
    have htaken : ∀ i, handedTo h.taken h.logger.drain i = h.taken := fun i => by rw [hpc]; rfl
    split
    · refine hinv.setDrain _ _ ?_ fun i _ => ?_
      · split <;> trivial
      · rw [htaken]
        split <;> rfl
    · rename_i hne
      -- The counters differ, so there is an entry to take.
      have hlt : h.taken < h.accepted.length := by
        have hle := hinv.le
        rw [hinv.head, hinv.tail, ofNat_eq_ofNat_iff hle hinv.close] at hne
        omega
      have hlen : h.taken < (h.entries append).length := by
        rw [length_entries]
        exact hlt
      have he := List.getElem?_eq_getElem hlen
      exact hinv.setDrain _ _ ⟨hinv.tail, _, he, trivial⟩ fun i _ => (htaken i).symm
  | copy final t stage entry =>
    have hdrain := hinv.drain
    rw [hpc] at hdrain
    obtain ⟨rfl, e, he, hcopied⟩ := hdrain
    simp only [RtLogger.drainStep, hpc]
    have hslot : h.logger.ring (UInt64.ofNat h.taken &&& (h.logger.ringSize - 1)) = e :=
      hinv.stored h.taken e (Nat.le_refl _) he
    rw [hslot]
    refine hinv.setDrain _ _ (drainOk_afterCopy he final hcopied) fun i _ => ?_
    rw [hpc]
    cases stage <;> rfl
  | store final t entry =>
    have hdrain := hinv.drain
    rw [hpc] at hdrain
    obtain ⟨rfl, he⟩ := hdrain
    simp only [RtLogger.drainStep, hpc]
    refine hinv.takeEntry he final fun i hi => ?_
    have hsink := hinv.sinks i hi
    rw [hpc] at hsink
    exact hsink
  | dispatch final out k =>
    simp only [RtLogger.drainStep, hpc]
    split
    · exact hinv.handEntry hpc
    · rename_i hk
      -- All sinks have been given the entry.
      refine hinv.setDrain _ _ ?_ fun i hi => ?_
      · cases final <;> trivial
      · rw [hpc]
        have hik : i < k := by omega
        simp only [handedTo, hik, if_true]
        cases final <;> rfl

/-! ### Runs -/

theorem ringInv_step [DecidableEq ι] (hinv : h.RingInv append) (hlocked : Locked h.logger)
    (hcontrolled : Controlled h.logger) (e : Event ι) : (h.step append e).RingInv append := by
  cases e with
  | commit i c =>
    show RingInv append { h with
      logger := if h.logger.writers i = .idle then h.logger.setWriter i (.lock c) else h.logger }
    split
    · exact hinv.setWriter i h.logger.mutex nofun
    · exact hinv
  | writer i now => exact hinv.commitStep hlocked i now
  | drain => exact hinv.drainStep
  | startDrain =>
    show RingInv append { h with logger := h.logger.startDrain }
    unfold RtLogger.startDrain
    split
    · exact hinv
    · rename_i hidle
      simp only [Bool.or_eq_true, not_or, Bool.not_eq_true] at hidle
      refine hinv.setDrain true h.logger.joining trivial fun i _ => ?_
      rw [hcontrolled hidle.2 hidle.1]
      rfl
  | stopDrain =>
    show RingInv append { h with logger := h.logger.stopDrain }
    unfold RtLogger.stopDrain
    split
    · exact hinv
    · exact hinv.setDrain false true hinv.drain fun _ _ => rfl
  | join =>
    show RingInv append { h with logger := h.logger.join }
    unfold RtLogger.join
    split
    · exact hinv.setDrain h.logger.drainRunning false hinv.drain fun _ _ => rfl
    · exact hinv

/-- The invariant of a logger and its threads. -/
structure Invariant (append : (capacity : Nat) → List UInt8 → List UInt8 → List UInt8)
    (h : LogHistory ι) : Prop where
  ring : h.RingInv append
  locked : Locked h.logger
  controlled : Controlled h.logger

theorem invariant_step [DecidableEq ι] (h : LogHistory ι) (e : Event ι)
    (hinv : h.Invariant append) : (h.step append e).Invariant append where
  ring := ringInv_step hinv.ring hinv.locked hinv.controlled e
  locked := by
    rw [logger_step]
    exact hinv.locked.step append e
  controlled := by
    rw [logger_step]
    exact hinv.controlled.step append e

theorem invariant_init {ringSize : UInt64} (hsize : PowerOfTwo ringSize ∨ ringSize = 0)
    (maxMsgLen : Nat) (sourceId : UInt32) (sinkCount : Nat) :
    (init ringSize maxMsgLen sourceId sinkCount : LogHistory ι).Invariant append where
  ring :=
    { size := hsize
      head := rfl
      tail := rfl
      le := Nat.le_refl _
      room := Nat.zero_le _
      stored := fun j e _ he => by cases he
      writer := fun _ => nofun
      drain := trivial
      sinks := fun _ _ => rfl }
  locked := fun _ hi => hi.elim
  controlled := fun _ _ => rfl

/-- `dispatch` does not cut off the entries of a logger with messages of at most 256 characters. -/
theorem map_dispatched (happends : Appends append) (hmax : h.logger.maxMsgLen ≤ 256) (n : Nat) :
    ((h.entries append).take n).map (RtLogger.dispatched append) = (h.entries append).take n := by
  have hfits : ∀ e ∈ (h.entries append).take n, RtLogger.dispatched append e = id e := by
    intro e he
    obtain ⟨c, -, rfl⟩ := List.mem_map.mp (List.mem_of_mem_take he)
    have hlen : (append h.logger.maxMsgLen [] c.1.text).length ≤ 256 :=
      Nat.le_trans (happends.bounded _ [] _ (Nat.zero_le _)) hmax
    rw [RtLogger.dispatched, entryOf]
    simp only [happends.fits 256 [] _ (by simpa using hlen), List.nil_append, id]
  rw [List.map_congr_left hfits, List.map_id]

/-- What the invariant says about the logger. -/
theorem Invariant.sound [DecidableEq ι] (happends : Appends append)
    (hmax : h.logger.maxMsgLen ≤ 256) (hinv : h.Invariant append) : h.Sound append where
  whole c _ hfits := happends.fits _ [] c.1.text (by simpa using hfits)
  handed i hi := by
    rw [hinv.ring.sinks i hi, map_dispatched happends hmax]
    exact List.take_prefix _ _
  dropped i now c hcheck hreturns := by
    have hroom := hinv.ring.room
    have hle := hinv.ring.le
    have hfull : h.logger.ringSize ≤ h.logger.head - h.logger.tail := by
      by_contra hnot
      simp [RtLogger.step, RtLogger.commitStep, hcheck, hnot, RtLogger.setWriter] at hreturns
    rw [UInt64.le_iff_toNat_le, hinv.ring.toNat_sub] at hfull
    omega
  apart i c slot stage final t stage' entry hwriter hdrain := by
    obtain ⟨hroom, hwritten⟩ := hinv.ring.writer i (by rw [hwriter]; trivial)
    rw [hwriter] at hwritten
    obtain ⟨rfl, -⟩ := hwritten
    have hcopy := hinv.ring.drain
    rw [hdrain] at hcopy
    obtain ⟨rfl, e, he, -⟩ := hcopy
    obtain ⟨hlt, -⟩ := List.getElem?_eq_some_iff.mp he
    rw [length_entries] at hlt
    exact hinv.ring.slotOf_ne hroom (Nat.le_refl _) hlt

/-- **The log ring.** Take a ring whose size is a power of two and messages of at most 256
characters. Any number of threads commit, and the drain thread is started and stopped, in any order
of their steps, for any time, so that the counters may wrap around. In every state, what a sink has
been given is a prefix of the accepted commits, in the order in which they were accepted, each entry
as it was committed. A commit finds the ring full only when exactly as many entries as there are
slots have not been taken. No slot is written while it is copied. -/
theorem sound_of_run [DecidableEq ι]
    (append : (capacity : Nat) → List UInt8 → List UInt8 → List UInt8) (happends : Appends append)
    (ringSize : UInt64) (maxMsgLen : Nat) (sourceId : UInt32) (sinkCount : Nat)
    (hsize : ringSize ≠ 0)
    (hassert : (RtLogger.init ringSize maxMsgLen sourceId sinkCount : RtLogger ι).Asserted)
    (hmax : maxMsgLen ≤ 256) (es : List (Event ι)) :
    AllStates (step append) (Sound append) (init ringSize maxMsgLen sourceId sinkCount) es := by
  have hpow : PowerOfTwo ringSize := powerOfTwo_iff.mpr ⟨hsize, hassert⟩
  have hinit : (init ringSize maxMsgLen sourceId sinkCount : LogHistory ι).Invariant append :=
    invariant_init (Or.inl hpow) maxMsgLen sourceId sinkCount
  have hstep : ∀ (h : LogHistory ι) (e : Event ι),
      h.Invariant append ∧ h.logger.maxMsgLen = maxMsgLen →
      (h.step append e).Invariant append ∧ (h.step append e).logger.maxMsgLen = maxMsgLen := by
    rintro h e ⟨hinv, hlen⟩
    refine ⟨invariant_step h e hinv, ?_⟩
    rw [logger_step, RtLogger.maxMsgLen_step, hlen]
  have hstates := allStates_of_step hstep es ⟨hinit, rfl⟩
  exact hstates.mono fun h hinv => hinv.1.sound happends (hinv.2 ▸ hmax)

/-- A string takes as much of a text as it has room for. -/
def appendText (capacity : Nat) (s t : List UInt8) : List UInt8 := s ++ t.take (capacity - s.length)

theorem appends_appendText : Appends appendText where
  fits capacity s t hfits := by
    rw [appendText, List.take_of_length_le (by omega)]
  bounded capacity s t hs := by
    rw [appendText, List.length_append, List.length_take]
    omega

/-- Two threads commit into a ring of two slots. The second one waits for the mutex of the first.
The third commit finds the ring full. After the drain thread has taken both entries there is room
for another one, which it takes as well. -/
def twoWriters : List (Event Bool) :=
  .startDrain :: .commit true ⟨.Info, [72, 105]⟩ :: .commit false ⟨.Debug, [111, 107]⟩ ::
    .writer true 1000000000 :: .writer false 1500000000 ::
    List.replicate 8 (.writer true 1000000000) ++ List.replicate 9 (.writer false 2000000000) ++
    .commit true ⟨.Warn, [110, 111]⟩ :: List.replicate 3 (.writer true 3000000000) ++
    List.replicate 18 .drain ++
    .commit false ⟨.Error, [103, 111]⟩ :: List.replicate 9 (.writer false 4000000000) ++
    List.replicate 9 .drain

/-- The logger with one sink after it. -/
def afterTwoWriters : LogHistory Bool := Lib.runFrom (step appendText) (init 2 128 5 1) twoWriters

theorem sound_twoWriters :
    AllStates (step appendText) (Sound appendText) (init 2 128 5 1 : LogHistory Bool) twoWriters ∧
      afterTwoWriters.logger.sinks 0 =
        [⟨1000000000, 5, .Info, [72, 105]⟩, ⟨2000000000, 5, .Debug, [111, 107]⟩,
          ⟨4000000000, 5, .Error, [103, 111]⟩] := by
  have hstates := @sound_of_run Bool _ appendText appends_appendText 2 128 5 1 (by decide) rfl
    (by decide) twoWriters
  exact ⟨hstates, by decide +kernel⟩

end LogHistory

end CoreRaT.Spec
