import CoreRaT.Lib.Run
import CoreRaT.Spec.RtLogger

/-!
# `CoreRaT.Proofs.Log.History`: a logger and what it has accepted

A logger with its history: the commits that it has accepted, in the order in which they have counted
up `head_`, and how many of them the drain thread has taken, which is what `tail_` counts. The
history is not in the code, and it follows the logger (`logger_step`).

`Sound` is what the log ring promises. The two invariants here are about the threads:
`ring_mutex_` keeps the other writers out (`Locked`), and there is no drain thread that has not been
started, or that has been joined (`Controlled`).
-/

set_option autoImplicit false

namespace CoreRaT.Spec

open CoreRaT.Lib

variable {ι : Type}

/-- What the code relies on `sertial::rt::append` for: a text that fits is appended as it is, and a
string does not outgrow its capacity. -/
structure Appends (append : (capacity : Nat) → List UInt8 → List UInt8 → List UInt8) : Prop where
  fits : ∀ capacity s t, s.length + t.length ≤ capacity → append capacity s t = s ++ t
  bounded : ∀ capacity s t, s.length ≤ capacity → (append capacity s t).length ≤ capacity

/-- A logger and its history. -/
structure LogHistory (ι : Type) where
  logger : RtLogger ι
  /-- The accepted commits with their timestamps. -/
  accepted : List (LogCall × UInt64)
  /-- How many of them the drain thread has taken. -/
  taken : Nat
  /-- The time that each thread has written for its last entry. -/
  stamp : ι → UInt64

/-- The size of the messages is fixed. -/
theorem RtLogger.maxMsgLen_step [DecidableEq ι]
    (append : (capacity : Nat) → List UInt8 → List UInt8 → List UInt8) (l : RtLogger ι)
    (e : Event ι) : (l.step append e).maxMsgLen = l.maxMsgLen := by
  cases e with
  | commit i c =>
    simp only [step]
    split <;> rfl
  | writer i now =>
    simp only [step, commitStep]
    split <;> (try split) <;> rfl
  | drain =>
    simp only [step, drainStep]
    split <;> (try split) <;> rfl
  | startDrain =>
    simp only [step, startDrain]
    split <;> rfl
  | stopDrain =>
    simp only [step, stopDrain]
    split <;> rfl
  | join =>
    simp only [step, join]
    split <;> rfl

namespace LogHistory

open RtLogger (Event)

/-- A new logger. -/
def init (ringSize : UInt64) (maxMsgLen : Nat) (sourceId : UInt32) (sinkCount : Nat) :
    LogHistory ι where
  logger := .init ringSize maxMsgLen sourceId sinkCount
  accepted := []
  taken := 0
  stamp := fun _ => 0

/-- The time that a thread has written when it has written this field. -/
def stampAfter (stamp now : UInt64) : WriteStage → UInt64
  | .timestamp => now
  | _ => stamp

/-- A thread in `commit` has accepted its entry when it counts up `head_`. The timestamp is the one
that this thread has written. -/
def recordCommit [DecidableEq ι] (h : LogHistory ι) (logger : RtLogger ι) (i : ι) (now : UInt64) :
    CommitPc → LogHistory ι
  | .write _ _ stage =>
    { h with logger, stamp := Function.update h.stamp i (stampAfter (h.stamp i) now stage) }
  | .publish c => { h with logger, accepted := h.accepted ++ [(c, h.stamp i)] }
  | _ => { h with logger }

/-- The drain thread has taken an entry when it stores `tail_`. -/
def recordDrain (h : LogHistory ι) (logger : RtLogger ι) : DrainPc → LogHistory ι
  | .store _ _ _ => { h with logger, taken := h.taken + 1 }
  | _ => { h with logger }

section
variable (append : (capacity : Nat) → List UInt8 → List UInt8 → List UInt8)

/-- The entry that has been committed. -/
def entryOf (l : RtLogger ι) (c : LogCall × UInt64) : RtLogEntry where
  timestamp := c.2
  sourceId := l.sourceId
  level := c.1.level
  message := append l.maxMsgLen [] c.1.text

/-- The entries that have been committed. -/
def entries (h : LogHistory ι) : List RtLogEntry := h.accepted.map (entryOf append h.logger)

/-- One event. -/
def step [DecidableEq ι] (h : LogHistory ι) (e : Event ι) : LogHistory ι :=
  match e with
  | .writer i now => h.recordCommit (h.logger.step append e) i now (h.logger.writers i)
  | .drain => h.recordDrain (h.logger.step append e) h.logger.drain
  | _ => { h with logger := h.logger.step append e }

/-- The history follows the logger. -/
theorem logger_step [DecidableEq ι] (h : LogHistory ι) (e : Event ι) :
    (h.step append e).logger = h.logger.step append e := by
  cases e with
  | writer i now =>
    show (h.recordCommit _ i now (h.logger.writers i)).logger = _
    unfold recordCommit
    split <;> rfl
  | drain =>
    show (h.recordDrain _ h.logger.drain).logger = _
    unfold recordDrain
    split <;> rfl
  | commit i c => rfl
  | startDrain => rfl
  | stopDrain => rfl
  | join => rfl

/-! ### The property -/

/-- No loss, no duplication, no change of order and no tearing. -/
structure Sound [DecidableEq ι] (h : LogHistory ι) : Prop where
  /-- The text of an accepted commit is in its entry, if it fits. -/
  whole : ∀ c ∈ h.accepted, c.1.text.length ≤ h.logger.maxMsgLen →
    (entryOf append h.logger c).message = c.1.text
  /-- A sink has been given the first of the committed entries, each as it was committed. -/
  handed : ∀ i < h.logger.sinkCount, h.logger.sinks i <+: h.entries append
  /-- A commit that returns from its test drops the entry, and `RingSize` entries are not taken. -/
  dropped : ∀ i now c, h.logger.writers i = .check c →
    (h.logger.step append (.writer i now)).writers i = .unlock →
    h.accepted.length = h.taken + h.logger.ringSize.toNat
  /-- The slot that is written is not the one that is copied. -/
  apart : ∀ i c slot stage final t stage' entry, h.logger.writers i = .write c slot stage →
    h.logger.drain = .copy final t stage' entry → slot ≠ t &&& (h.logger.ringSize - 1)

end

/-! ### The mutex -/

/-- The thread is in the part of `commit` under the lock. -/
def Inside : CommitPc → Prop
  | .idle => False
  | .lock _ => False
  | _ => True

/-- Who is under the lock holds the mutex. -/
def Locked (l : RtLogger ι) : Prop := ∀ i, Inside (l.writers i) → l.mutex = some i

section
variable [DecidableEq ι] {l : RtLogger ι}

/-- A thread that holds the mutex goes on under the lock, or a thread goes on outside. -/
theorem Locked.setWriter (h : Locked l) (i : ι) {pc : CommitPc} {l' : RtLogger ι}
    (hwriters : l'.writers = Function.update l.writers i pc) (hmutex : l'.mutex = l.mutex)
    (hpc : Inside pc → l.mutex = some i) : Locked l' := by
  intro j hj
  rw [hmutex]
  rw [hwriters] at hj
  by_cases hji : j = i
  · subst hji
    rw [Function.update_self] at hj
    exact hpc hj
  · rw [Function.update_of_ne hji] at hj
    exact h j hj

theorem Locked.commitStep (h : Locked l)
    (append : (capacity : Nat) → List UInt8 → List UInt8 → List UInt8) (i : ι) (now : UInt64) :
    Locked (l.commitStep append i now) := by
  unfold RtLogger.commitStep
  split
  · exact h
  · split
    · rename_i c hpc hfree
      -- Nobody is under the lock before.
      intro j hj
      by_cases hji : j = i
      · rw [hji]
      · have hmutex := h j (by simpa [RtLogger.setWriter, Function.update_of_ne hji] using hj)
        rw [hfree] at hmutex
        cases hmutex
    · exact h
  · rename_i c hpc
    have hown : l.mutex = some i := h i (by rw [hpc]; trivial)
    split
    · exact h.setWriter i rfl rfl fun _ => hown
    · exact h.setWriter i rfl rfl fun _ => hown
  · rename_i c slot stage hpc
    have hown : l.mutex = some i := h i (by rw [hpc]; trivial)
    exact h.setWriter i rfl rfl fun _ => hown
  · rename_i c hpc
    have hown : l.mutex = some i := h i (by rw [hpc]; trivial)
    exact h.setWriter i rfl rfl fun _ => hown
  · rename_i hpc
    have hown : l.mutex = some i := h i (by rw [hpc]; trivial)
    -- The thread that unlocks was the only one under the lock.
    intro j hj
    by_cases hji : j = i
    · subst hji
      simp [RtLogger.setWriter, Inside] at hj
    · have hmutex := h j (by simpa [RtLogger.setWriter, Function.update_of_ne hji] using hj)
      rw [hown] at hmutex
      exact absurd (Option.some.inj hmutex).symm hji

theorem Locked.step (h : Locked l)
    (append : (capacity : Nat) → List UInt8 → List UInt8 → List UInt8) (e : Event ι) :
    Locked (l.step append e) := by
  cases e with
  | commit i c =>
    show Locked (if l.writers i = .idle then l.setWriter i (.lock c) else l)
    split
    · exact h.setWriter i rfl rfl nofun
    · exact h
  | writer i now => exact h.commitStep append i now
  | drain =>
    show Locked (l.drainStep append)
    unfold RtLogger.drainStep
    split <;> (try split) <;> exact h
  | startDrain =>
    show Locked l.startDrain
    unfold RtLogger.startDrain
    split <;> exact h
  | stopDrain =>
    show Locked l.stopDrain
    unfold RtLogger.stopDrain
    split <;> exact h
  | join =>
    show Locked l.join
    unfold RtLogger.join
    split <;> exact h

end

/-! ### The control thread -/

/-- Without `drain_running_`, and with nobody in `join`, there is no drain thread. -/
def Controlled (l : RtLogger ι) : Prop :=
  l.drainRunning = false → l.joining = false → l.drain = .stopped

/-- A step after which these are as before, unless the drain thread has gone on. -/
theorem Controlled.of_eq {l l' : RtLogger ι} (h : Controlled l)
    (hrunning : l'.drainRunning = l.drainRunning) (hjoining : l'.joining = l.joining)
    (hdrain : l.drain = .stopped → l'.drain = .stopped) : Controlled l' := by
  intro hr hj
  exact hdrain (h (hrunning ▸ hr) (hjoining ▸ hj))

theorem Controlled.step [DecidableEq ι] {l : RtLogger ι} (h : Controlled l)
    (append : (capacity : Nat) → List UInt8 → List UInt8 → List UInt8) (e : Event ι) :
    Controlled (l.step append e) := by
  cases e with
  | commit i c =>
    show Controlled (if l.writers i = .idle then l.setWriter i (.lock c) else l)
    split
    · exact h.of_eq rfl rfl id
    · exact h
  | writer i now =>
    show Controlled (l.commitStep append i now)
    unfold RtLogger.commitStep
    split <;> (try split) <;> exact h.of_eq rfl rfl id
  | drain =>
    show Controlled (l.drainStep append)
    refine h.of_eq ?_ ?_ ?_
    · unfold RtLogger.drainStep
      split <;> (try split) <;> rfl
    · unfold RtLogger.drainStep
      split <;> (try split) <;> rfl
    · intro hstopped
      simp only [RtLogger.drainStep, hstopped]
  | startDrain =>
    show Controlled l.startDrain
    unfold RtLogger.startDrain
    split
    · exact h
    · exact nofun
  | stopDrain =>
    show Controlled l.stopDrain
    unfold RtLogger.stopDrain
    split
    · exact h
    · intro _ hj
      cases hj
  | join =>
    show Controlled l.join
    unfold RtLogger.join
    split
    · rename_i hstopped
      intro _ _
      exact hstopped
    · exact h

end LogHistory

end CoreRaT.Spec
