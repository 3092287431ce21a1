import CoreRaT.Proofs.ReceiveErrors
import CoreRaT.Proofs.Ring.SendPriority

/-!
# `CoreRaT.Proofs.Ring.Clean`: a message that is too large

`receive_impl` looks at the message of the highest priority. If the buffer is too short for it, the
message stays, and the next receive looks at it again. So `clean` stops at the first message that is
larger than `max_message_size` of its registry, returns success, and leaves this message and all
behind it: `clean_leaves_two`. In `Mode::Public` the poll comes before the ring, and `clean` also
stops when a poll times out or fails.

`drains_iff` is exact, for the messages of any senders and any answers of the kernel. `clean`
empties the ring exactly when every message fits, none has the priority -128 (a receive that finds
only these leaves the ring), and no poll ends a receive before as many receives have come to the
ring as there are messages (`PollsOn`). Receives with a buffer of any size come to all messages that
fit into it exactly when each of these is in front of those that do not (`LargeBehind`).

Both come from what one receive does: it takes the message that is found, which fits and has a
priority above -128, and changes nothing else (`getElem?_receive_of_stuck`).
-/

set_option autoImplicit false

namespace CoreRaT.Spec

open CoreRaT.Lib
open Mailbox (RawReceived)

namespace EvlRing

/-! ### What the ring holds -/

/-- The messages that the ring may hold: of at least one byte, and not larger than a slot. -/
def Content (r : EvlRing) : Prop :=
  ∀ m ∈ r.slots, m.inUse = true → 0 < m.size.toNat ∧ m.size ≤ r.slotSize

/-- Every message fits into a buffer of this size, and none has the priority -128. -/
def AllFit (r : EvlRing) (bufferSize : Nat) : Prop :=
  ∀ m ∈ r.slots, m.inUse = true → m.size.toNat ≤ bufferSize ∧ m.priority ≠ Int8.minValue

/-- The message `m` of slot `idx` has a priority above -128, and the messages that are larger than
the buffer are behind it: they have a lower priority, or the same in a later slot. -/
def InFront (r : EvlRing) (bufferSize idx : Nat) (m : SlotMeta) : Prop :=
  m.priority ≠ Int8.minValue ∧ ∀ j m', r.slots[j]? = some m' → m'.inUse = true →
    bufferSize < m'.size.toNat →
    m'.priority < m.priority ∨ (m'.priority = m.priority ∧ idx < j)

/-- What does not fit into the buffer is behind everything that fits. -/
def LargeBehind (r : EvlRing) (bufferSize : Nat) : Prop :=
  ∀ idx m, r.slots[idx]? = some m → m.inUse = true → m.size.toNat ≤ bufferSize →
    r.InFront bufferSize idx m

/-! ### One receive -/

variable {r : EvlRing} {mailboxId : MailboxId} {bufferSize : Nat}

theorem minValue_lt_of_found {idx : Nat} {m : SlotMeta}
    (h : r.findHighestPrioritySlot = some idx) (hm : r.slots[idx]? = some m) :
    Int8.minValue < m.priority := by
  rcases r.findHighestPrioritySlot_cases with ⟨hnone, -⟩ | ⟨i, a, hsome, ha, -, hlt, -⟩
  · rw [hnone] at h
    cases h
  · obtain rfl : i = idx := Option.some.inj (hsome.symm.trans h)
    obtain rfl : a = m := Option.some.inj (ha.symm.trans hm)
    exact hlt

/-- A message with a priority above -128 is found, or another one is. -/
theorem exists_found {j : Nat} {m : SlotMeta} (hj : r.slots[j]? = some m) (huse : m.inUse = true)
    (hprio : m.priority ≠ Int8.minValue) :
    ∃ idx a, r.findHighestPrioritySlot = some idx ∧ r.Highest idx a := by
  cases hfound : r.findHighestPrioritySlot with
  | none =>
    rcases r.findHighestPrioritySlot_cases with ⟨-, hmin⟩ | ⟨idx, a, hsome, -⟩
    · exact absurd (hmin m (List.mem_of_getElem? hj) huse) hprio
    · rw [hsome] at hfound
      cases hfound
  | some idx =>
    obtain ⟨a, ha⟩ := highest_of_found hfound
    exact ⟨idx, a, rfl, ha⟩

/-- A receive keeps a message that it cannot take, whatever else it does. -/
theorem getElem?_receive_of_stuck {j : Nat} {m : SlotMeta} (hj : r.slots[j]? = some m)
    (hstuck : bufferSize < m.size.toNat ∨ m.priority = Int8.minValue) :
    (r.receive mailboxId bufferSize).2.slots[j]? = some m := by
  rcases r.receive_cases mailboxId bufferSize with ⟨idx, a, hfound, ha, hsize, heq⟩ | ⟨heq, -⟩
  · rw [heq]
    have hne : j ≠ idx := by
      rintro rfl
      obtain rfl : m = a := Option.some.inj (hj.symm.trans ha)
      rcases hstuck with hlarge | hmin
      · omega
      · have hlt := minValue_lt_of_found hfound hj
        rw [hmin] at hlt
        exact Int8.lt_irrefl hlt
    rw [getElem?_release_of_ne _ hne, hj]
  · rw [heq, hj]

/-- A message that is there after a receive was there before. -/
theorem getElem?_of_receive {j : Nat} {m : SlotMeta}
    (hj : (r.receive mailboxId bufferSize).2.slots[j]? = some m) (huse : m.inUse = true) :
    r.slots[j]? = some m := by
  rcases r.receive_cases mailboxId bufferSize with ⟨idx, a, -, ha, -, heq⟩ | ⟨heq, -⟩
  · rw [heq] at hj
    by_cases hne : j = idx
    · subst hne
      rw [getElem?_release_self ha, Option.some.injEq] at hj
      rw [← hj] at huse
      cases huse
    · rwa [getElem?_release_of_ne _ hne] at hj
  · rwa [heq] at hj

/-! ### Receives with one buffer -/

/-- The ring after `n` receives. -/
def afterReceives (r : EvlRing) (mailboxId : MailboxId) (bufferSize n : Nat) : EvlRing :=
  runFrom step r (List.replicate n (.receive mailboxId bufferSize))

theorem getElem?_afterReceives_of_stuck {j : Nat} {m : SlotMeta} (n : Nat)
    (hj : r.slots[j]? = some m)
    (hstuck : bufferSize < m.size.toNat ∨ m.priority = Int8.minValue) :
    (r.afterReceives mailboxId bufferSize n).slots[j]? = some m := by
  induction n generalizing r with
  | zero => exact hj
  | succ n ih => exact ih (getElem?_receive_of_stuck hj hstuck)

theorem getElem?_of_afterReceives {j : Nat} {m : SlotMeta} (n : Nat)
    (hj : (r.afterReceives mailboxId bufferSize n).slots[j]? = some m) (huse : m.inUse = true) :
    r.slots[j]? = some m := by
  induction n generalizing r with
  | zero => exact hj
  | succ n ih => exact getElem?_of_receive (ih hj) huse

/-- A message with the large ones behind it is received: each receive before it takes another one
that is in front. -/
theorem taken_of_inFront (mailboxId : MailboxId) {idx : Nat} {m : SlotMeta}
    (hm : r.slots[idx]? = some m)
    (huse : m.inUse = true) (hsize : m.size.toNat ≤ bufferSize)
    (hfront : r.InFront bufferSize idx m) :
    ∃ n metadata, (r.afterReceives mailboxId bufferSize n).hasInUseSlot = true ∧
      (r.afterReceives mailboxId bufferSize n).findHighestPrioritySlot = some idx ∧
      (r.afterReceives mailboxId bufferSize n).receive mailboxId bufferSize =
        (.message (r.payload.read (r.slotPtr idx) m.size.toNat) metadata,
          (r.afterReceives mailboxId bufferSize n).release idx) := by
  induction hcount : r.inUseCount generalizing r with
  | zero =>
    have hpos := inUseCount_pos.mpr (hasInUseSlot_iff.mpr ⟨m, List.mem_of_getElem? hm, huse⟩)
    omega
  | succ count ih =>
    obtain ⟨i, a, hfound, ha, huse', hle, hfirst⟩ := exists_found hm huse hfront.1
    by_cases hi : i = idx
    · subst hi
      obtain rfl : a = m := Option.some.inj (ha.symm.trans hm)
      refine ⟨0, metadataOf mailboxId a (r.payload.read (r.slotPtr i) a.size.toNat), ?_, hfound, ?_⟩
      · exact hasInUseSlot_iff.mpr ⟨a, List.mem_of_getElem? hm, huse⟩
      · show r.receive mailboxId bufferSize = _
        rw [receive_of_found hfound hm, if_neg (by omega)]
        rfl
    · have hfits : ¬ bufferSize < a.size.toNat := by
        intro hlarge
        rcases hfront.2 i a ha huse' hlarge with hlt | ⟨heq, hlt⟩
        · exact absurd (hle m (List.mem_of_getElem? hm) huse) (Int8.not_le.mpr hlt)
        · have hless := hfirst idx m hlt hm huse
          rw [heq] at hless
          exact Int8.lt_irrefl hless
      have hreceive := receive_of_found hfound ha mailboxId bufferSize
      rw [if_neg hfits] at hreceive
      have hafter : (r.receive mailboxId bufferSize).2 = r.release i := by rw [hreceive]
      have hrelease := inUseCount_release ha huse'
      obtain ⟨n, metadata, hlater⟩ := ih (r := r.release i)
        (by rw [getElem?_release_of_ne _ (Ne.symm hi), hm])
        ⟨hfront.1, fun j m' hj huse'' => hfront.2 j m' (getElem?_of_receive
          (by rw [hafter]; exact hj) huse'') huse''⟩
        (by omega)
      refine ⟨n + 1, metadata, ?_⟩
      rw [show r.afterReceives mailboxId bufferSize (n + 1) =
        (r.release i).afterReceives mailboxId bufferSize n from
          congrArg (afterReceives · mailboxId bufferSize n) hafter]
      exact hlater

theorem inFront_of_taken {idx n : Nat} {m : SlotMeta} (hm : r.slots[idx]? = some m)
    (hsize : m.size.toNat ≤ bufferSize)
    (hfound : (r.afterReceives mailboxId bufferSize n).findHighestPrioritySlot = some idx) :
    r.InFront bufferSize idx m := by
  obtain ⟨a, ha, huse, hle, hfirst⟩ := highest_of_found hfound
  obtain rfl : a = m := by
    have hbefore := getElem?_of_afterReceives n ha huse
    exact Option.some.inj (hbefore.symm.trans hm)
  refine ⟨(Int8.ne_of_lt (minValue_lt_of_found hfound ha)).symm, ?_⟩
  intro j m' hj huse' hlarge
  -- A large message is still there when this one is found.
  have hlater : (r.afterReceives mailboxId bufferSize n).slots[j]? = some m' :=
    getElem?_afterReceives_of_stuck n hj (Or.inl hlarge)
  by_cases hlt : m'.priority < a.priority
  · exact Or.inl hlt
  · have heq : m'.priority = a.priority :=
      Int8.le_antisymm (hle m' (List.mem_of_getElem? hlater) huse') (Int8.not_lt.mp hlt)
    have hidx : idx ≤ j := le_of_found hfound ha hlater huse' heq
    have hne : idx ≠ j := by
      rintro rfl
      obtain rfl : a = m' := Option.some.inj (hm.symm.trans hj)
      omega
    exact Or.inr ⟨heq, by omega⟩

end EvlRing

namespace EvlReceiver

/-! ### The property -/

/-- The mailbox is initialized and receives from a ring. -/
structure HasRing (m : EvlReceiver) : Prop where
  created : m.created = true
  mode : m.mode ≠ .Network

/-- The mailbox after receives with these answers, while nobody sends. -/
def afterCalls (m : EvlReceiver) (timeout : Int64) (bufferSize : Nat)
    (calls : List QuietAnswers) : EvlReceiver :=
  runFrom (fun m a => (m.receiveImpl timeout bufferSize (a.on m.ring)).2) m calls

/-- There are later receives, with a buffer of this size, of which the last one takes the message
`s` of slot `idx` and returns it. -/
def ReceivedLater (m : EvlReceiver) (timeout : Int64) (bufferSize idx : Nat) (s : SlotMeta) :
    Prop :=
  ∃ (calls : List QuietAnswers) (a : QuietAnswers) (metadata : TimsMetadata) (m' : EvlReceiver),
    (m.afterCalls timeout bufferSize calls).ring.findHighestPrioritySlot = some idx ∧
    (m.afterCalls timeout bufferSize calls).receiveImpl timeout bufferSize
        (a.on (m.afterCalls timeout bufferSize calls).ring) =
      (.returned (.message (m.ring.payload.read (m.ring.slotPtr idx) s.size.toNat) metadata), m') ∧
    m'.ring = (m.afterCalls timeout bufferSize calls).ring.release idx

/-- `clean` returns success and leaves no slot in use. -/
def Empties (m : EvlReceiver) (maxMessageSize : Nat) (answers : List QuietAnswers) : Prop :=
  ∃ m', Mailbox.clean true maxMessageSize answers m = some (.returned (.ok ()), m') ∧
    ∀ s ∈ m'.ring.slots, s.inUse = false

/-- `clean` empties the ring, and no message keeps those from being received that fit into the
buffer of the receives. -/
structure Drains (m : EvlReceiver) (maxMessageSize : Nat) (answers : List QuietAnswers)
    (timeout : Int64) (bufferSize : Nat) : Prop where
  empties : m.Empties maxMessageSize answers
  received : ∀ idx s, m.ring.slots[idx]? = some s → s.inUse = true → s.size.toNat ≤ bufferSize →
    m.ReceivedLater timeout bufferSize idx s

/-- The call polls before it looks at the ring. -/
def Polls (m : EvlReceiver) : Prop :=
  m.mode = .Public ∧ m.poll = true ∧ (m.xbuf = true ∨ m.pollSetupDone = true)

instance (m : EvlReceiver) : Decidable m.Polls := inferInstanceAs (Decidable (_ ∧ _))

/-- The call comes to the ring: it does not poll, or the poll leads there. -/
def ReadsRing (m : EvlReceiver) (bufferSize : Nat) (a : QuietAnswers) : Bool :=
  !decide m.Polls || (pollBoth bufferSize a.poll).isNone

/-- The poll ends the call, and there is no message from the xbuf. -/
def PollEnds (m : EvlReceiver) (bufferSize : Nat) (a : QuietAnswers) : Prop :=
  m.Polls ∧ ∃ code, pollBoth bufferSize a.poll = some (.failed code)

/-- When a poll ends a call, as many calls before it have come to the ring as there are
messages. -/
def PollsOn (m : EvlReceiver) (bufferSize : Nat) (answers : List QuietAnswers) : Prop :=
  ∀ k a, answers[k]? = some a → m.PollEnds bufferSize a →
    m.ring.inUseCount ≤ (answers.take k).countP (m.ReadsRing bufferSize)

/-! ### One call -/

variable {m : EvlReceiver} {timeout : Int64} {bufferSize : Nat} {a : QuietAnswers}

/-- `m'` is the mailbox `m` later: only the ring, the counter and `poll_setup_done_` change, and
`m'` polls when `m` does. -/
structure Later (m m' : EvlReceiver) : Prop where
  mailboxId : m'.mailboxId = m.mailboxId
  mode : m'.mode = m.mode
  created : m'.created = m.created
  polls : m'.Polls ↔ m.Polls

theorem Later.refl (m : EvlReceiver) : Later m m := ⟨rfl, rfl, rfl, Iff.rfl⟩

theorem Later.hasRing {m' : EvlReceiver} (h : Later m m') (hm : m.HasRing) : m'.HasRing :=
  ⟨h.created.trans hm.created, fun hmode => hm.mode (h.mode ▸ hmode)⟩

theorem Later.readsRing {m' : EvlReceiver} (h : Later m m') :
    m'.ReadsRing bufferSize = m.ReadsRing bufferSize := by
  funext a
  simp only [ReadsRing, h.polls]

/-- The set-up of the poll group. -/
theorem later_setupPoll (m : EvlReceiver) : Later m m.setupPoll ∧ m.setupPoll.ring = m.ring ∧
    (m.Polls ↔ m.setupPoll.mode = .Public ∧ m.setupPoll.poll = true ∧
      m.setupPoll.pollSetupDone = true) := by
  unfold setupPoll
  split
  · rename_i h
    exact ⟨⟨rfl, rfl, rfl, by simp [Polls, h.2.1]⟩, rfl, by simp [Polls, h.2.1]⟩
  · rename_i h
    refine ⟨Later.refl m, rfl, ?_⟩
    simp only [Polls]
    grind

/-- A wait while nobody sends leaves an empty ring. -/
theorem waitLoop_quiet {ring : EvlRing} (hring : ring.hasInUseSlot = false) (timeout : Int64)
    (waits : List Int) :
    waitLoop timeout ring (waits.map fun r => (r, ring)) = .waiting ring ∨
      ∃ code, waitLoop timeout ring (waits.map fun r => (r, ring)) = .gaveUp code ring := by
  induction waits with
  | nil => exact Or.inl (by simp [waitLoop, hring])
  | cons r waits ih =>
    simp only [List.map_cons, waitLoop, hring, Bool.false_eq_true, if_false]
    split
    · split
      · exact Or.inr ⟨_, rfl⟩
      · exact ih
    · split
      · exact Or.inr ⟨_, rfl⟩
      · split
        · exact Or.inr ⟨_, rfl⟩
        · exact ih

/-- The part of a call from the lock of the ring on does what the ring read does. -/
theorem receiveRing_quiet (m : EvlReceiver) (timeout : Int64) (bufferSize : Nat)
    (waits : List Int) :
    Later m (m.receiveRing timeout bufferSize (waits.map fun r => (r, m.ring))).2 ∧
      (m.receiveRing timeout bufferSize (waits.map fun r => (r, m.ring))).2.ring =
        (m.ring.receive m.mailboxId bufferSize).2 ∧
      (m.ring.hasInUseSlot = true →
        (m.receiveRing timeout bufferSize (waits.map fun r => (r, m.ring))).1 =
          (m.readRing bufferSize).1) ∧
      (m.ring.hasInUseSlot = false →
        (m.receiveRing timeout bufferSize (waits.map fun r => (r, m.ring))).1 = .waiting ∨
        ∃ code, (m.receiveRing timeout bufferSize (waits.map fun r => (r, m.ring))).1 =
          .returned (.failed code)) := by
  unfold receiveRing
  cases huse : m.ring.hasInUseSlot with
  | true =>
    have hwait : waitLoop timeout m.ring (waits.map fun r => (r, m.ring)) = .inUse m.ring := by
      cases waits <;> simp [waitLoop, huse]
    rw [hwait]
    refine ⟨?_, ?_, fun _ => rfl, by simp⟩
    · simp only [readRing]
      split <;> exact ⟨rfl, rfl, rfl, Iff.rfl⟩
    · simp only [readRing]
      generalize m.ring.receive m.mailboxId bufferSize = res
      obtain ⟨result, ring⟩ := res
      cases result <;> rfl
  | false =>
    have hreceive : (m.ring.receive m.mailboxId bufferSize).2 = m.ring := by
      simp [EvlRing.receive, huse]
    rw [hreceive]
    rcases waitLoop_quiet huse timeout waits with hwait | ⟨code, hwait⟩
    · rw [hwait]
      exact ⟨Later.refl m, rfl, by simp, fun _ => Or.inl rfl⟩
    · rw [hwait]
      exact ⟨⟨rfl, rfl, rfl, Iff.rfl⟩, rfl, by simp, fun _ => Or.inr ⟨code, rfl⟩⟩

/-- The loop over the events gives a message of at least one byte. -/
theorem eventLoop_message {events : List PollEvent} {raw : RawReceived}
    (h : eventLoop bufferSize events = some raw) :
    ∃ bytes metadata, raw = .message bytes metadata ∧ 0 < bytes.length := by
  induction events with
  | nil => cases h
  | cons e rest ih =>
    match e with
    | .xbuf (.data bytes) =>
      simp only [eventLoop, receiveOobUdp] at h
      split at h
      · rename_i bytes' metadata hmessage
        split at hmessage
        · cases hmessage
        · rename_i hpos
          obtain ⟨rfl, -⟩ := RawReceived.message.inj hmessage
          exact ⟨_, metadata, (Option.some.inj h).symm, Nat.pos_of_ne_zero hpos⟩
      · exact ih h
    | .xbuf (.error _) => exact ih h
    | .ring => cases h
    | .other => exact ih h

/-- The poll leads to the ring, fails, or gives a message of at least one byte. -/
theorem pollBoth_cases (bufferSize : Nat) (answer : PollAnswer) :
    pollBoth bufferSize answer = none ∨
      (∃ code, pollBoth bufferSize answer = some (.failed code)) ∨
      ∃ bytes metadata, pollBoth bufferSize answer = some (.message bytes metadata) ∧
        0 < bytes.length := by
  match answer with
  | .error code => exact Or.inr (Or.inl ⟨_, rfl⟩)
  | .events [] => exact Or.inr (Or.inl ⟨_, rfl⟩)
  | .events (e :: rest) =>
    cases hloop : eventLoop bufferSize (e :: rest) with
    | none => exact Or.inl hloop
    | some raw =>
      obtain ⟨bytes, metadata, rfl, hpos⟩ := eventLoop_message hloop
      exact Or.inr (Or.inr ⟨bytes, metadata, hloop, hpos⟩)

/-- What a call while nobody sends comes to. -/
inductive CallCases (m : EvlReceiver) (bufferSize : Nat) (a : QuietAnswers) (result : ImplResult)
    (m' : EvlReceiver) : Prop
  /-- It reads the ring, which has a message. -/
  | reads (hreads : m.ReadsRing bufferSize a = true) (huse : m.ring.hasInUseSlot = true)
      (hring : m'.ring = (m.ring.receive m.mailboxId bufferSize).2)
      (hresult : result = (m.readRing bufferSize).1)
  /-- It comes to the ring, which is empty. -/
  | empty (hreads : m.ReadsRing bufferSize a = true) (huse : m.ring.hasInUseSlot = false)
      (hring : m'.ring = m.ring)
      (hresult : result = .waiting ∨ ∃ code, result = .returned (.failed code))
  /-- The poll ends it. -/
  | ends (hreads : m.ReadsRing bufferSize a = false) (hends : m.PollEnds bufferSize a)
      (hring : m'.ring = m.ring) (hresult : ∃ code, result = .returned (.failed code))
  /-- It has a message from the xbuf. -/
  | xbuf (hreads : m.ReadsRing bufferSize a = false) (hends : ¬ m.PollEnds bufferSize a)
      (hring : m'.ring = m.ring)
      (hresult : ∃ bytes metadata, result = .returned (.message bytes metadata) ∧ 0 < bytes.length)

theorem receiveImpl_quiet (hm : m.HasRing) (timeout : Int64) (bufferSize : Nat)
    (a : QuietAnswers) :
    Later m (m.receiveImpl timeout bufferSize (a.on m.ring)).2 ∧
      CallCases m bufferSize a (m.receiveImpl timeout bufferSize (a.on m.ring)).1
        (m.receiveImpl timeout bufferSize (a.on m.ring)).2 := by
  obtain ⟨hlater, hring, hpolls⟩ := later_setupPoll m
  -- The rest of a call that comes to the ring, with the poll group set up.
  have hreads : m.ReadsRing bufferSize a = true →
      Later m (m.setupPoll.receiveRing timeout bufferSize (a.on m.ring).waits).2 ∧
        CallCases m bufferSize a
          (m.setupPoll.receiveRing timeout bufferSize (a.on m.ring).waits).1
          (m.setupPoll.receiveRing timeout bufferSize (a.on m.ring).waits).2 := by
    intro hreads
    obtain ⟨hafter, hread, hmessage, hnone⟩ :=
      m.setupPoll.receiveRing_quiet timeout bufferSize a.waits
    rw [hring] at hafter hread hmessage hnone
    rw [hlater.mailboxId] at hread
    refine ⟨⟨hafter.mailboxId.trans hlater.mailboxId, hafter.mode.trans hlater.mode,
      hafter.created.trans hlater.created, hafter.polls.trans hlater.polls⟩, ?_⟩
    cases huse : m.ring.hasInUseSlot with
    | true =>
      refine .reads hreads huse hread ((hmessage huse).trans ?_)
      simp only [readRing, hring, hlater.mailboxId]
      generalize m.ring.receive m.mailboxId bufferSize = res
      obtain ⟨result, ring⟩ := res
      cases result <;> rfl
    | false =>
      refine .empty hreads huse (hread.trans ?_) (hnone huse)
      simp [EvlRing.receive, huse]
  unfold receiveImpl
  simp only [hm.created, hm.mode, Bool.not_true, Bool.false_eq_true, if_false]
  by_cases hpoll : m.Polls
  · rw [if_pos (hpolls.mp hpoll)]
    rcases pollBoth_cases bufferSize a.poll with hnone | ⟨code, hfailed⟩ |
      ⟨bytes, metadata, hmessage, hpos⟩
    · rw [show (a.on m.ring).poll = a.poll from rfl, hnone]
      exact hreads (by simp [ReadsRing, hnone])
    · rw [show (a.on m.ring).poll = a.poll from rfl, hfailed]
      exact ⟨hlater, .ends (by simp [ReadsRing, hpoll, hfailed]) ⟨hpoll, code, hfailed⟩ hring
        ⟨code, rfl⟩⟩
    · rw [show (a.on m.ring).poll = a.poll from rfl, hmessage]
      refine ⟨⟨hlater.mailboxId, hlater.mode, hlater.created, hlater.polls⟩,
        .xbuf (by simp [ReadsRing, hpoll, hmessage]) ?_ hring ⟨bytes, metadata, rfl, hpos⟩⟩
      rintro ⟨-, code, hcode⟩
      rw [hmessage] at hcode
      cases hcode
  · rw [if_neg (fun h => hpoll (hpolls.mpr h))]
    exact hreads (by simp [ReadsRing, hpoll])

/-! ### Calls one after the other -/

/-- The ring after a call is the ring as it was, or after a ring read. -/
theorem CallCases.ring_cases {result : ImplResult} {m' : EvlReceiver}
    (h : CallCases m bufferSize a result m') :
    m'.ring = m.ring ∨ m'.ring = (m.ring.receive m.mailboxId bufferSize).2 := by
  cases h with
  | reads _ _ hring _ => exact Or.inr hring
  | empty _ _ hring _ => exact Or.inl hring
  | ends _ _ hring _ => exact Or.inl hring
  | xbuf _ _ hring _ => exact Or.inl hring

/-- Calls come to some ring reads. -/
theorem ring_afterCalls (hm : m.HasRing) (timeout : Int64) (bufferSize : Nat)
    (calls : List QuietAnswers) :
    ∃ n, (m.afterCalls timeout bufferSize calls).ring =
      m.ring.afterReceives m.mailboxId bufferSize n := by
  induction calls generalizing m with
  | nil => exact ⟨0, rfl⟩
  | cons a calls ih =>
    obtain ⟨hlater, hcall⟩ := receiveImpl_quiet hm timeout bufferSize a
    obtain ⟨n, hn⟩ := ih (hlater.hasRing hm)
    rw [hlater.mailboxId] at hn
    rcases hcall.ring_cases with hring | hring
    · exact ⟨n, hn.trans (by rw [hring])⟩
    · exact ⟨n + 1, hn.trans (by rw [hring]; rfl)⟩

/-- The answers for a call that finds a message in the ring. -/
def ringEvent : QuietAnswers := ⟨.error 0, .events [.ring], []⟩

theorem readsRing_ringEvent (m : EvlReceiver) (bufferSize : Nat) :
    m.ReadsRing bufferSize ringEvent = true := by
  simp [ReadsRing, ringEvent, pollBoth, eventLoop]

/-- With these answers each call is a ring read. -/
theorem ring_afterCalls_ringEvent (hm : m.HasRing) (timeout : Int64) (bufferSize n : Nat) :
    Later m (m.afterCalls timeout bufferSize (List.replicate n ringEvent)) ∧
      (m.afterCalls timeout bufferSize (List.replicate n ringEvent)).ring =
        m.ring.afterReceives m.mailboxId bufferSize n := by
  induction n generalizing m with
  | zero => exact ⟨Later.refl m, rfl⟩
  | succ n ih =>
    obtain ⟨hlater, hcall⟩ := receiveImpl_quiet hm timeout bufferSize ringEvent
    obtain ⟨hafter, hn⟩ := ih (hlater.hasRing hm)
    have hring : (m.receiveImpl timeout bufferSize (ringEvent.on m.ring)).2.ring =
        (m.ring.receive m.mailboxId bufferSize).2 := by
      cases hcall with
      | reads _ _ hring _ => exact hring
      | empty _ huse hring _ => rw [hring]; simp [EvlRing.receive, huse]
      | ends hreads _ _ _ => rw [readsRing_ringEvent] at hreads; cases hreads
      | xbuf hreads _ _ _ => rw [readsRing_ringEvent] at hreads; cases hreads
    refine ⟨⟨hafter.mailboxId.trans hlater.mailboxId, hafter.mode.trans hlater.mode,
      hafter.created.trans hlater.created, hafter.polls.trans hlater.polls⟩, ?_⟩
    rw [hlater.mailboxId, hring] at hn
    exact hn

/-! ### `clean` -/

theorem free_iff {r : EvlRing} : (∀ s ∈ r.slots, s.inUse = false) ↔ r.inUseCount = 0 := by
  simp [EvlRing.inUseCount, List.countP_eq_zero]

theorem not_pollEnds_of_reads (h : m.ReadsRing bufferSize a = true) :
    ¬ m.PollEnds bufferSize a := by
  rintro ⟨hpolls, code, hcode⟩
  simp [ReadsRing, hpolls, hcode] at h

theorem Later.pollEnds {m' : EvlReceiver} (h : Later m m') :
    m'.PollEnds bufferSize a ↔ m.PollEnds bufferSize a := by
  simp only [PollEnds, h.polls]

/-- An empty ring needs no poll. -/
theorem pollsOn_of_free (h : m.ring.inUseCount = 0) (answers : List QuietAnswers) :
    m.PollsOn bufferSize answers := by
  intro k a _ _
  omega

/-- The polls behind a call that goes on, which may have taken a message. -/
theorem pollsOn_cons {m' : EvlReceiver} (hlater : Later m m') (hends : ¬ m.PollEnds bufferSize a)
    (hcount : m.ring.inUseCount =
      m'.ring.inUseCount + if m.ReadsRing bufferSize a = true then 1 else 0)
    (answers : List QuietAnswers) :
    m.PollsOn bufferSize (a :: answers) ↔ m'.PollsOn bufferSize answers := by
  constructor
  · intro h k a' ha' hends'
    have hk := h (k + 1) a' ha' (hlater.pollEnds.mp hends')
    rw [List.take_succ_cons, List.countP_cons] at hk
    rw [hlater.readsRing]
    omega
  · rintro h (_ | k) a' ha' hends'
    · exact absurd (Option.some.inj ha' ▸ hends') hends
    · have hk := h k a' ha' (hlater.pollEnds.mpr hends')
      rw [hlater.readsRing] at hk
      rw [List.take_succ_cons, List.countP_cons]
      omega

/-- `clean` keeps the messages that no receive can take. -/
theorem getElem?_cleanLoop_of_stuck (hm : m.HasRing) {answers : List QuietAnswers} {j : Nat}
    {s : SlotMeta} {result : Mailbox.CleanResult} {m' : EvlReceiver}
    (h : Mailbox.cleanLoop bufferSize answers m = some (result, m'))
    (hj : m.ring.slots[j]? = some s)
    (hstuck : bufferSize < s.size.toNat ∨ s.priority = Int8.minValue) :
    m'.ring.slots[j]? = some s := by
  induction answers generalizing m with
  | nil => cases h
  | cons a answers ih =>
    obtain ⟨hlater, hcall⟩ := receiveImpl_quiet hm Mailbox.cleanTimeout bufferSize a
    rw [Mailbox.cleanLoop] at h
    generalize m.receiveImpl Mailbox.cleanTimeout bufferSize (a.on m.ring) = res at *
    obtain ⟨callResult, m₁⟩ := res
    have hafter : m₁.ring.slots[j]? = some s := by
      rcases hcall.ring_cases with hring | hring
      · rw [hring, hj]
      · rw [hring]
        exact EvlRing.getElem?_receive_of_stuck hj hstuck
    match callResult with
    | .returned (.message bytes _) =>
      simp only at h
      split at h
      · exact ih (hlater.hasRing hm) h hafter
      · obtain ⟨-, rfl⟩ := Prod.mk.inj (Option.some.inj h)
        exact hafter
    | .returned (.failed _) =>
      obtain ⟨-, rfl⟩ := Prod.mk.inj (Option.some.inj h)
      exact hafter
    | .waiting => cases h
    | .outOfBounds =>
      obtain ⟨-, rfl⟩ := Prod.mk.inj (Option.some.inj h)
      exact hafter

/-- `clean` empties the ring only if it can take every message. -/
theorem allFit_of_empties (hm : m.HasRing) {answers : List QuietAnswers}
    (h : m.Empties bufferSize answers) : m.ring.AllFit bufferSize := by
  obtain ⟨m', hclean, hempty⟩ := h
  intro s hs huse
  obtain ⟨j, hj⟩ := List.mem_iff_getElem?.mp hs
  by_contra hnot
  have hstuck : bufferSize < s.size.toNat ∨ s.priority = Int8.minValue := by
    by_cases hsize : s.size.toNat ≤ bufferSize
    · exact Or.inr (by_contra fun hprio => hnot ⟨hsize, hprio⟩)
    · exact Or.inl (by omega)
  have hleft := getElem?_cleanLoop_of_stuck hm hclean hj hstuck
  rw [hempty s (List.mem_of_getElem? hleft)] at huse
  cases huse

/-- A ring read takes a message, as long as every message fits. -/
theorem readRing_of_allFit (hcontent : m.ring.Content) (hfit : m.ring.AllFit bufferSize)
    (huse : m.ring.hasInUseSlot = true) :
    ∃ idx slot bytes metadata, m.ring.slots[idx]? = some slot ∧ slot.inUse = true ∧
      (m.ring.receive m.mailboxId bufferSize).2 = m.ring.release idx ∧ 0 < bytes.length ∧
      (m.readRing bufferSize).1 = .returned (.message bytes metadata) := by
  obtain ⟨s, hs, hinUse⟩ := EvlRing.hasInUseSlot_iff.mp huse
  obtain ⟨j, hj⟩ := List.mem_iff_getElem?.mp hs
  obtain ⟨idx, slot, hfound, hslot, huse', -⟩ := EvlRing.exists_found hj hinUse (hfit s hs hinUse).2
  have hmem : slot ∈ m.ring.slots := List.mem_of_getElem? hslot
  have hreceive := EvlRing.receive_of_found hfound hslot m.mailboxId bufferSize
  rw [if_neg (Nat.not_lt.mpr (hfit slot hmem huse').1)] at hreceive
  have hpos := (hcontent slot hmem huse').1
  refine ⟨idx, slot, m.ring.payload.read (m.ring.slotPtr idx) slot.size.toNat,
    EvlRing.metadataOf m.mailboxId slot (m.ring.payload.read (m.ring.slotPtr idx) slot.size.toNat),
    hslot, huse', by rw [hreceive], by rwa [ByteMemory.length_read], ?_⟩
  simp only [readRing, hreceive, ByteMemory.length_read, if_neg (Nat.ne_of_gt hpos)]

/-- If every message fits, `clean` empties the ring exactly when the polls let it. -/
theorem cleanLoop_empties_iff (hm : m.HasRing) (hcontent : m.ring.Content)
    (hfit : m.ring.AllFit bufferSize) {answers : List QuietAnswers}
    (hreturns : (Mailbox.cleanLoop bufferSize answers m).isSome) :
    (∃ m', Mailbox.cleanLoop bufferSize answers m = some (.returned (.ok ()), m') ∧
      ∀ s ∈ m'.ring.slots, s.inUse = false) ↔ m.PollsOn bufferSize answers := by
  induction answers generalizing m with
  | nil => cases hreturns
  | cons a answers ih =>
    obtain ⟨hlater, hcall⟩ := receiveImpl_quiet hm Mailbox.cleanTimeout bufferSize a
    rw [Mailbox.cleanLoop] at hreturns ⊢
    generalize m.receiveImpl Mailbox.cleanTimeout bufferSize (a.on m.ring) = res at *
    obtain ⟨result, m₁⟩ := res
    cases hcall with
    | reads hreads huse hring hresult =>
      obtain ⟨idx, slot, bytes, metadata, hslot, huse', hrelease, hpos, hread⟩ :=
        readRing_of_allFit hcontent hfit huse
      obtain rfl : result = .returned (.message bytes metadata) := hresult.trans hread
      simp only [hpos, if_true] at hreturns ⊢
      rw [hrelease] at hring
      have hcount := EvlRing.inUseCount_release hslot huse'
      have hpositive := EvlRing.inUseCount_pos.mpr huse
      rw [pollsOn_cons hlater (not_pollEnds_of_reads hreads) (by rw [hring, if_pos hreads]; omega)]
      exact ih (hlater.hasRing hm) (hring ▸ EvlRing.forall_release hslot hcontent)
        (hring ▸ EvlRing.forall_release hslot hfit) hreturns
    | empty hreads huse hring hresult =>
      have hfree : m.ring.inUseCount = 0 := by
        by_contra hne
        have := EvlRing.inUseCount_pos.mp (Nat.pos_of_ne_zero hne)
        rw [huse] at this
        cases this
      rcases hresult with rfl | ⟨code, rfl⟩
      · cases hreturns
      · exact iff_of_true ⟨m₁, rfl, by rw [hring]; exact free_iff.mpr hfree⟩
          (pollsOn_of_free hfree _)
    | ends hreads hends hring hresult =>
      obtain ⟨code, rfl⟩ := hresult
      constructor
      · rintro ⟨m', heq, hempty⟩
        obtain ⟨-, rfl⟩ := Prod.mk.inj (Option.some.inj heq)
        rw [hring] at hempty
        exact pollsOn_of_free (free_iff.mp hempty) _
      · intro hpolls
        have hzero := hpolls 0 a rfl hends
        refine ⟨m₁, rfl, ?_⟩
        rw [hring]
        exact free_iff.mpr (by simpa using hzero)
    | xbuf hreads hends hring hresult =>
      obtain ⟨bytes, metadata, rfl, hpos⟩ := hresult
      simp only [hpos, if_true] at hreturns ⊢
      rw [pollsOn_cons hlater hends (by rw [hring, hreads]; simp)]
      exact ih (hlater.hasRing hm) (hring ▸ hcontent) (hring ▸ hfit) hreturns

/-! ### Receives with one buffer -/

/-- A call that comes to the ring returns the message that the ring read takes. -/
theorem receiveImpl_of_receive (hm : m.HasRing) (timeout : Int64)
    (hreads : m.ReadsRing bufferSize a = true)
    (huse : m.ring.hasInUseSlot = true) {bytes : List UInt8} {metadata : TimsMetadata}
    {ring : EvlRing} (hpos : 0 < bytes.length)
    (hreceive : m.ring.receive m.mailboxId bufferSize = (.message bytes metadata, ring)) :
    ∃ m', m.receiveImpl timeout bufferSize (a.on m.ring) =
      (.returned (.message bytes metadata), m') ∧ m'.ring = ring := by
  obtain ⟨-, hcall⟩ := receiveImpl_quiet hm timeout bufferSize a
  generalize m.receiveImpl timeout bufferSize (a.on m.ring) = res at *
  obtain ⟨result, m'⟩ := res
  cases hcall with
  | reads _ _ hring hresult =>
    refine ⟨m', Prod.ext (hresult.trans ?_) rfl, hring.trans (by rw [hreceive])⟩
    simp only [readRing, hreceive, if_neg (Nat.ne_of_gt hpos)]
  | empty _ huse' _ _ =>
    rw [huse] at huse'
    cases huse'
  | ends hreads' _ _ _ =>
    rw [hreads] at hreads'
    cases hreads'
  | xbuf hreads' _ _ _ =>
    rw [hreads] at hreads'
    cases hreads'

theorem receivedLater_iff (hm : m.HasRing) {idx : Nat} {s : SlotMeta}
    (hs : m.ring.slots[idx]? = some s) (huse : s.inUse = true) (hpos : 0 < s.size.toNat)
    (hsize : s.size.toNat ≤ bufferSize) :
    m.ReceivedLater timeout bufferSize idx s ↔ m.ring.InFront bufferSize idx s := by
  constructor
  · rintro ⟨calls, a, metadata, m', hfound, -, -⟩
    obtain ⟨n, hn⟩ := ring_afterCalls hm timeout bufferSize calls
    rw [hn] at hfound
    exact EvlRing.inFront_of_taken hs hsize hfound
  · intro hfront
    obtain ⟨n, metadata, hinUse, hfound, hreceive⟩ :=
      EvlRing.taken_of_inFront m.mailboxId hs huse hsize hfront
    obtain ⟨hlater, hring⟩ := ring_afterCalls_ringEvent hm timeout bufferSize n
    rw [← hring, ← hlater.mailboxId] at hreceive
    obtain ⟨m', hcall, hring'⟩ := receiveImpl_of_receive (hlater.hasRing hm) timeout
      (readsRing_ringEvent _ bufferSize) (hring ▸ hinUse)
      (by rwa [ByteMemory.length_read]) hreceive
    exact ⟨List.replicate n ringEvent, ringEvent, metadata, m', hring ▸ hfound, hcall, hring'⟩

/-- **Draining.** Take a mailbox whose ring has messages of any senders, of any sizes up to that of
a slot, in `Mode::Local` or `Mode::Public`, and nobody sends. `clean` with the largest message size
of its registry returns. It leaves no slot in use, and receives with a buffer of any size come to
every message that fits, exactly when all messages fit into the buffer of `clean`, none has the
priority -128, no poll of `clean` ends a receive before as many have come to the ring as there are
messages, and the messages that do not fit into the buffer of the receives are behind those that
do. -/
theorem drains_iff (m : EvlReceiver) (hm : m.HasRing) (hcontent : m.ring.Content)
    (maxMessageSize : Nat) (answers : List QuietAnswers)
    (hreturns : (Mailbox.clean true maxMessageSize answers m).isSome) (timeout : Int64)
    (bufferSize : Nat) :
    m.Drains maxMessageSize answers timeout bufferSize ↔
      m.ring.AllFit maxMessageSize ∧ m.PollsOn maxMessageSize answers ∧
        m.ring.LargeBehind bufferSize := by
  have hreceived : ∀ idx s, m.ring.slots[idx]? = some s → s.inUse = true →
      s.size.toNat ≤ bufferSize →
      (m.ReceivedLater timeout bufferSize idx s ↔ m.ring.InFront bufferSize idx s) := by
    intro idx s hs huse hsize
    exact receivedLater_iff hm hs huse (hcontent s (List.mem_of_getElem? hs) huse).1 hsize
  constructor
  · intro h
    have hfit := allFit_of_empties hm h.empties
    refine ⟨hfit, (cleanLoop_empties_iff hm hcontent hfit hreturns).mp h.empties, ?_⟩
    intro idx s hs huse hsize
    exact (hreceived idx s hs huse hsize).mp (h.received idx s hs huse hsize)
  · rintro ⟨hfit, hpolls, hbehind⟩
    refine ⟨(cleanLoop_empties_iff hm hcontent hfit hreturns).mpr hpolls, ?_⟩
    intro idx s hs huse hsize
    exact (hreceived idx s hs huse hsize).mpr (hbehind idx s hs huse hsize)

/-- Two messages, of three bytes and of one. -/
def twoSizes : EvlRing :=
  runFrom EvlRing.step (.allocateRing 2 4 fun _ => 0) [.post [1, 2, 3] 0 6, .post [4] 5 6]

theorem largeBehind_twoSizes : twoSizes.LargeBehind 2 := by
  have hslots : twoSizes.slots = [⟨0, true, 6, 3⟩, ⟨5, true, 6, 1⟩] := by decide
  intro idx m hm huse hsize
  rw [hslots] at hm
  match idx with
  | 0 =>
    obtain rfl := Option.some.inj hm
    exact absurd hsize (by decide)
  | 1 =>
    obtain rfl := Option.some.inj hm
    refine ⟨by decide, ?_⟩
    intro j m' hj _ _
    rw [hslots] at hj
    match j with
    | 0 =>
      obtain rfl := Option.some.inj hj
      exact Or.inl (by decide)
    | 1 =>
      obtain rfl := Option.some.inj hj
      contradiction
    | _ + 2 => cases hj
  | _ + 2 => cases hm

/-- A mailbox in `Mode::Public` with these messages. -/
def publicReceiver : EvlReceiver where
  mailboxId := 9
  mode := .Public
  created := true
  xbuf := true
  poll := true
  pollSetupDone := false
  ring := twoSizes
  messagesReceived := 0

/-- Two polls find the ring, with a message of the xbuf between them, and then a poll times out. -/
def fourPolls : List QuietAnswers :=
  [ringEvent, ⟨.error 0, .events [.xbuf (.data [7])], []⟩, ringEvent, ⟨.error 0, .error 110, []⟩]

theorem pollsOn_fourPolls : publicReceiver.PollsOn 4 fourPolls := by
  rintro (_ | _ | _ | _ | k) a ha ⟨-, code, hcode⟩
  · obtain rfl := Option.some.inj ha
    cases hcode
  · obtain rfl := Option.some.inj ha
    cases hcode
  · obtain rfl := Option.some.inj ha
    cases hcode
  · decide
  · cases ha

theorem drains_twoSizes : publicReceiver.Drains 4 fourPolls 0 2 :=
  (drains_iff publicReceiver ⟨rfl, by decide⟩ (by unfold EvlRing.Content; decide) 4 fourPolls
    (by decide) 0 2).mpr
      ⟨by unfold EvlRing.AllFit; decide, pollsOn_fourPolls, largeBehind_twoSizes⟩

end EvlReceiver

namespace SenderRing

open EvlRing (Content)

/-- The message of the send is not larger than a slot. -/
def FitsSlot (slotSize : UInt32) : Event → Prop
  | .send _ _ data => data.length ≤ slotSize.toNat
  | .receive _ _ => True

theorem content_step {slotSize : UInt32} (s : SenderRing) (e : Event)
    (h : s.ring.slotSize = slotSize ∧ s.ring.Content) (he : FitsSlot slotSize e) :
    (s.step e).ring.slotSize = slotSize ∧ (s.step e).ring.Content := by
  cases e with
  | send c path data =>
    rcases s.send_cases c path data with ⟨idx, stored, hpos, -, hstored, heq⟩ | heq
    · obtain rfl : stored = data := by
        rcases hstored with rfl | rfl
        · rfl
        · exact List.take_of_length_le (h.1 ▸ he)
      have hsize : (UInt32.ofNat stored.length).toNat = stored.length :=
        UInt32.toNat_ofNat_of_lt' (Nat.lt_of_le_of_lt he slotSize.toNat_lt)
      simp only [step, heq]
      refine ⟨h.1, EvlRing.forall_store ?_ h.2 idx stored⟩
      rw [UInt32.le_iff_toNat_le, hsize, h.1]
      exact ⟨hpos, he⟩
    · simp only [step, heq]
      exact h
  | receive mailboxId bufferSize =>
    rcases s.receive_cases mailboxId bufferSize with ⟨idx, m, -, hm, -, heq⟩ | heq
    · simp only [step, heq]
      exact ⟨h.1, EvlRing.forall_release hm h.2⟩
    · simp only [step, heq]
      exact h

/-- The ring of every run of sends and receives is one that `drains_iff` is about. -/
theorem content_of_run (capacity : Nat) (slotSize : UInt32) (payload : ByteMemory)
    {es : List Event} (hfits : ∀ e ∈ es, FitsSlot slotSize e) :
    (runFrom step (init capacity slotSize payload) es).ring.Content := by
  refine (allStates_of_allSteps content_step ⟨rfl, ?_⟩ (allSteps_of_forall hfits)).last.2
  intro m hm huse
  rw [(List.mem_replicate.mp hm).2] at huse
  cases huse

/-- A mailbox sends a message of 60 bytes, and another one a message of 33 bytes with a lower
priority. -/
def longAndShort : List Event :=
  [.send ⟨5, 64, 20⟩ .sameProcess (byteMessage 9 5 1 ++ List.replicate 27 0),
    .send ⟨6, 64, 10⟩ .sameProcess (byteMessage 9 6 2)]

/-- The mailbox 9 in `Mode::Local`, with the ring of these sends. -/
def receiverOfBoth : EvlReceiver where
  mailboxId := 9
  mode := .Local
  created := true
  xbuf := false
  poll := false
  pollSetupDone := false
  ring := (runFrom step (init 10 64 fun _ => 0) longAndShort).ring
  messagesReceived := 0

/-- The messages of the receiver's own registry have up to 40 bytes. The first receive of `clean`
finds the long message, `clean` returns success, and both messages are still there. -/
theorem clean_leaves_two :
    ¬ receiverOfBoth.Drains 40 [⟨.error 0, .error 0, [-110]⟩] 0 40 ∧
      (Mailbox.clean true 40 [⟨.error 0, .error 0, [-110]⟩] receiverOfBoth).map
        (fun result => (result.1, result.2.ring.inUseCount)) = some (.returned (.ok ()), 2) ∧
      (receiverOfBoth.ring.receive 9 40).1 = .msgSize := by
  have hclean : (Mailbox.clean true 40 [⟨.error 0, .error 0, [-110]⟩] receiverOfBoth).map
      (fun result => (result.1, result.2.ring.inUseCount)) = some (.returned (.ok ()), 2) := by
    decide
  refine ⟨?_, hclean, by decide⟩
  intro h
  obtain ⟨m', hm', hempty⟩ := h.empties
  rw [hm', Option.map_some, EvlReceiver.free_iff.mp hempty] at hclean
  cases hclean

end SenderRing

end CoreRaT.Spec
