import Mathlib.Data.Fintype.Pi
import CoreRaT.Proofs.Log.Ring

/-!
# `CoreRaT.Proofs.Log.Flush`: `stop_drain` flushes

A logger whose sinks are registered one after the other, and what had been dispatched before each of
them was (`LoggerRun`). With that in front of what a sink has been given, the logger is one that had
all its sinks from the start, and it takes the same steps (`complete_step`). So the invariant of the
ring is at hand.

The drain thread returns from its second loop when it has found the counters equal, and then
everything that has been accepted is taken. While a thread is in `join` nothing more comes in, so it
is so when `stop_drain` returns (`Stopping`). The next `start_drain` goes on with the same counters.
-/

set_option autoImplicit false

namespace CoreRaT.Spec

open CoreRaT.Lib

variable {ι : Type}

namespace LogHistory

/-- The drain thread is in its second loop. -/
def Final : DrainPc → Prop
  | .test final => final = true
  | .copy final _ _ _ => final = true
  | .store final _ _ => final = true
  | .dispatch final _ _ => final = true
  | _ => False

/-- All commits have returned when `stop_drain` is called, and none is called before it returns. -/
def Quiet (l : RtLogger ι) : RtLogger.Event ι → Prop
  | .commit _ _ => l.joining = false
  | .stopDrain => l.drainRunning = true → ∀ i, l.writers i = .idle
  | _ => True

instance [Fintype ι] (l : RtLogger ι) (e : RtLogger.Event ι) : Decidable (Quiet l e) :=
  match e with
  | .commit _ _ => inferInstanceAs (Decidable (l.joining = false))
  | .stopDrain => inferInstanceAs (Decidable (l.drainRunning = true → ∀ i, l.writers i = .idle))
  | .writer _ _ => isTrue trivial
  | .drain => isTrue trivial
  | .startDrain => isTrue trivial
  | .join => isTrue trivial

/-- How far `stop_drain` has got. -/
structure Stopping (h : LogHistory ι) : Prop where
  first : h.logger.drainRunning = true → h.logger.drain ≠ .stopped ∧ ¬ Final h.logger.drain
  idle : h.logger.joining = true → ∀ i, h.logger.writers i = .idle
  flushed : h.logger.joining = true → h.logger.drain = .stopped → h.taken = h.accepted.length

variable {append : (capacity : Nat) → List UInt8 → List UInt8 → List UInt8} {h : LogHistory ι}

theorem final_afterCopy (final : Bool) (t : UInt64) (entry : RtLogEntry) (stage : CopyStage) :
    Final (RtLogger.afterCopy final t entry stage) ↔ final = true := by
  cases stage <;> rfl

/-- The drain thread goes on, in the loop in which it is. -/
theorem Stopping.goOn (hs : h.Stopping) {h' : LogHistory ι}
    (hrunning : h'.logger.drainRunning = h.logger.drainRunning)
    (hjoining : h'.logger.joining = h.logger.joining)
    (hwriters : h'.logger.writers = h.logger.writers) (hdrain : h'.logger.drain ≠ .stopped)
    (hfinal : h.logger.drainRunning = true → ¬ Final h'.logger.drain) : h'.Stopping where
  first hr := ⟨hdrain, hfinal (hrunning ▸ hr)⟩
  idle hj := by
    rw [hwriters]
    exact hs.idle (hjoining ▸ hj)
  flushed _ hstopped := absurd hstopped hdrain

/-- The drain thread returns when the counters are equal, and then it has taken everything. -/
theorem Stopping.drainStep (hs : h.Stopping) (hinv : h.RingInv append) :
    (h.recordDrain (h.logger.drainStep append) h.logger.drain).Stopping := by
  have hnotFinal := fun hr => (hs.first hr).2
  cases hpc : h.logger.drain with
  | stopped =>
    simp only [RtLogger.drainStep, hpc]
    exact hs
  | running =>
    simp only [RtLogger.drainStep, hpc]
    refine hs.goOn rfl rfl rfl (fun heq => by cases heq) fun hr => ?_
    simp [recordDrain, Final, hr]
  | test final =>
    simp only [RtLogger.drainStep, hpc]
    rw [hpc] at hnotFinal
    split
    · rename_i hempty
      have htaken : h.taken = h.accepted.length := by
        rw [hinv.head, hinv.tail, ofNat_eq_ofNat_iff hinv.le hinv.close] at hempty
        exact hempty
      cases final with
      | false => exact hs.goOn rfl rfl rfl (fun heq => by cases heq) fun _ hfinal => hfinal
      | true =>
        exact
          { first := fun hr => absurd rfl (hnotFinal hr)
            idle := hs.idle
            flushed := fun _ _ => htaken }
    · exact hs.goOn rfl rfl rfl (fun heq => by cases heq) hnotFinal
  | copy final t stage entry =>
    simp only [RtLogger.drainStep, hpc]
    rw [hpc] at hnotFinal
    refine hs.goOn rfl rfl rfl ?_ fun hr => ?_
    · intro hstopped
      cases stage <;> cases hstopped
    · exact fun hfinal => hnotFinal hr ((final_afterCopy _ _ _ _).mp hfinal)
  | store final t entry =>
    simp only [RtLogger.drainStep, hpc]
    rw [hpc] at hnotFinal
    exact hs.goOn rfl rfl rfl (fun heq => by cases heq) hnotFinal
  | dispatch final out k =>
    simp only [RtLogger.drainStep, hpc]
    rw [hpc] at hnotFinal
    split
    · exact hs.goOn rfl rfl rfl (fun heq => by cases heq) hnotFinal
    · refine hs.goOn rfl rfl rfl ?_ fun hr => ?_
      · intro hstopped
        cases final <;> cases hstopped
      · cases final with
        | false => exact id
        | true => exact absurd rfl (hnotFinal hr)

theorem Stopping.step [DecidableEq ι] (hs : h.Stopping) (hinv : h.RingInv append)
    {e : RtLogger.Event ι} (he : Quiet h.logger e) : (h.step append e).Stopping := by
  cases e with
  | commit i c =>
    have hjoining : h.logger.joining = false := he
    show Stopping { h with
      logger := if h.logger.writers i = .idle then h.logger.setWriter i (.lock c) else h.logger }
    split
    · exact
        { first := hs.first
          idle := fun hj => by cases hjoining.symm.trans hj
          flushed := fun hj => by cases hjoining.symm.trans hj }
    · exact hs
  | writer i now =>
    by_cases hj : h.logger.joining = true
    · -- The thread has returned from `commit`.
      simp only [LogHistory.step, RtLogger.step, RtLogger.commitStep, hs.idle hj i, recordCommit]
      exact hs
    · have hframe : (h.logger.commitStep append i now).drain = h.logger.drain ∧
          (h.logger.commitStep append i now).drainRunning = h.logger.drainRunning ∧
          (h.logger.commitStep append i now).joining = h.logger.joining := by
        unfold RtLogger.commitStep
        split <;> (try split) <;> exact ⟨rfl, rfl, rfl⟩
      have hlogger : (h.step append (.writer i now)).logger = h.logger.commitStep append i now :=
        logger_step append h (.writer i now)
      constructor
      · rw [hlogger, hframe.1, hframe.2.1]
        exact hs.first
      · rw [hlogger, hframe.2.2]
        exact fun hj' => absurd hj' hj
      · rw [hlogger, hframe.2.2]
        exact fun hj' => absurd hj' hj
  | drain => exact hs.drainStep hinv
  | startDrain =>
    show Stopping { h with logger := h.logger.startDrain }
    unfold RtLogger.startDrain
    split
    · exact hs
    · rename_i hbusy
      simp only [Bool.or_eq_true, not_or] at hbusy
      exact
        { first := fun _ => ⟨fun heq => (by cases heq), id⟩
          idle := hs.idle
          flushed := fun hj => absurd hj hbusy.1 }
  | stopDrain =>
    show Stopping { h with logger := h.logger.stopDrain }
    unfold RtLogger.stopDrain
    split
    · exact hs
    · rename_i hbusy
      simp only [Bool.or_eq_true, Bool.not_eq_true', not_or, Bool.not_eq_false] at hbusy
      exact
        { first := fun hr => by cases hr
          idle := fun _ => he hbusy.2
          flushed := fun _ hstopped => absurd hstopped (hs.first hbusy.2).1 }
  | join =>
    show Stopping { h with logger := h.logger.join }
    unfold RtLogger.join
    split
    · exact
        { first := hs.first
          idle := fun hj => by cases hj
          flushed := fun hj => by cases hj }
    · exact hs

end LogHistory

/-- A logger with its history, and what had been dispatched when a sink was registered. -/
structure LoggerRun (ι : Type) where
  history : LogHistory ι
  before : Nat → List RtLogEntry

namespace LoggerRun

/-- A new logger, without sinks. -/
def init (ringSize : UInt64) (maxMsgLen : Nat) (sourceId : UInt32) : LoggerRun ι where
  history := .init ringSize maxMsgLen sourceId 0
  before := fun _ => []

/-- What the threads do. -/
inductive Event (ι : Type)
  | log (e : RtLogger.Event ι)
  | addSink (isNull : Bool)

section
variable (append : (capacity : Nat) → List UInt8 → List UInt8 → List UInt8)

/-- What has been dispatched when this many entries have been taken. -/
def dispatchedUpTo (h : LogHistory ι) (n : Nat) : List RtLogEntry :=
  ((h.entries append).take n).map (RtLogger.dispatched append)

/-- One event. -/
def step [DecidableEq ι] (x : LoggerRun ι) : Event ι → LoggerRun ι
  | .log e => { x with history := x.history.step append e }
  | .addSink isNull =>
    { history := { x.history with logger := x.history.logger.addSink isNull }
      before := Function.update x.before x.history.logger.sinkCount
        (dispatchedUpTo append x.history x.history.taken) }

/-- No commit is under way in `stop_drain`, and no sink is registered while the drain thread runs.
-/
def Orderly (x : LoggerRun ι) : Event ι → Prop
  | .log e => LogHistory.Quiet x.history.logger e
  | .addSink _ => x.history.logger.drainRunning = false ∧ x.history.logger.joining = false

instance [Fintype ι] (x : LoggerRun ι) (e : Event ι) : Decidable (x.Orderly e) :=
  match e with
  | .log e => inferInstanceAs (Decidable (LogHistory.Quiet x.history.logger e))
  | .addSink _ => inferInstanceAs (Decidable
      (x.history.logger.drainRunning = false ∧ x.history.logger.joining = false))

/-- When `stop_drain` returns, each sink has been given all accepted commits once and in order,
those that had been dispatched before it was registered apart. -/
def Flushes (x : LoggerRun ι) : Event ι → Prop
  | .log .join => x.history.logger.joining = true → x.history.logger.drain = .stopped →
    ∀ i < x.history.logger.sinkCount, x.before i ++ x.history.logger.sinks i
      = (x.history.entries append).map (RtLogger.dispatched append)
  | _ => True

end

variable {append : (capacity : Nat) → List UInt8 → List UInt8 → List UInt8}

/-! ### Late sinks -/

/-- The logger, had its sinks been given these entries before. -/
def withBefore (l : RtLogger ι) (before : Nat → List RtLogEntry) : RtLogger ι :=
  { l with sinks := fun i => before i ++ l.sinks i }

theorem commitStep_withBefore [DecidableEq ι] (l : RtLogger ι) (before : Nat → List RtLogEntry)
    (i : ι) (now : UInt64) :
    (withBefore l before).commitStep append i now
      = withBefore (l.commitStep append i now) before := by
  cases hpc : l.writers i with
  | idle => simp only [RtLogger.commitStep, withBefore, hpc]
  | lock c =>
    by_cases hfree : l.mutex = none
    · simp only [RtLogger.commitStep, withBefore, hpc, hfree, ↓reduceIte]
      rfl
    · simp only [RtLogger.commitStep, withBefore, hpc, hfree, ↓reduceIte]
  | check c =>
    by_cases hfull : l.ringSize ≤ l.head - l.tail
    · simp only [RtLogger.commitStep, withBefore, hpc, hfull, ↓reduceIte]
      rfl
    · simp only [RtLogger.commitStep, withBefore, hpc, hfull, ↓reduceIte]
      rfl
  | write c slot stage =>
    simp only [RtLogger.commitStep, withBefore, hpc]
    rfl
  | publish c =>
    simp only [RtLogger.commitStep, withBefore, hpc]
    rfl
  | unlock =>
    simp only [RtLogger.commitStep, withBefore, hpc]
    rfl

theorem drainStep_withBefore (l : RtLogger ι) (before : Nat → List RtLogEntry) :
    (withBefore l before).drainStep append = withBefore (l.drainStep append) before := by
  cases hpc : l.drain with
  | stopped => simp only [RtLogger.drainStep, withBefore, hpc]
  | running => simp only [RtLogger.drainStep, withBefore, hpc]
  | test final =>
    by_cases hempty : l.head = l.tail
    · simp only [RtLogger.drainStep, withBefore, hpc, hempty, ↓reduceIte]
    · simp only [RtLogger.drainStep, withBefore, hpc, hempty, ↓reduceIte]
  | copy final t stage entry => simp only [RtLogger.drainStep, withBefore, hpc]
  | store final t entry => simp only [RtLogger.drainStep, withBefore, hpc]
  | dispatch final out k =>
    by_cases hk : k < l.sinkCount
    · simp only [RtLogger.drainStep, withBefore, hpc, hk, ↓reduceIte]
      congr 1
      funext i
      by_cases hik : i = k
      · rw [hik, Function.update_self, Function.update_self, List.append_assoc]
      · rw [Function.update_of_ne hik, Function.update_of_ne hik]
    · simp only [RtLogger.drainStep, withBefore, hpc, hk, ↓reduceIte]

/-- What is in front of the entries of a sink makes no difference. -/
theorem step_withBefore [DecidableEq ι] (l : RtLogger ι) (before : Nat → List RtLogEntry)
    (e : RtLogger.Event ι) :
    (withBefore l before).step append e = withBefore (l.step append e) before := by
  cases e with
  | commit i c =>
    by_cases hidle : l.writers i = .idle
    · simp only [RtLogger.step, withBefore, hidle, ↓reduceIte]
      rfl
    · simp only [RtLogger.step, withBefore, hidle, ↓reduceIte]
  | writer i now => exact commitStep_withBefore l before i now
  | drain => exact drainStep_withBefore l before
  | startDrain =>
    by_cases hbusy : (l.joining || l.drainRunning) = true
    · simp only [RtLogger.step, RtLogger.startDrain, withBefore, hbusy, ↓reduceIte]
    · simp only [RtLogger.step, RtLogger.startDrain, withBefore, hbusy, Bool.false_eq_true,
        ↓reduceIte]
  | stopDrain =>
    by_cases hbusy : (l.joining || !l.drainRunning) = true
    · simp only [RtLogger.step, RtLogger.stopDrain, withBefore, hbusy, ↓reduceIte]
    · simp only [RtLogger.step, RtLogger.stopDrain, withBefore, hbusy, Bool.false_eq_true,
        ↓reduceIte]
  | join =>
    by_cases hstopped : l.drain = .stopped
    · simp only [RtLogger.step, RtLogger.join, withBefore, hstopped, ↓reduceIte]
    · simp only [RtLogger.step, RtLogger.join, withBefore, hstopped, ↓reduceIte]

/-- The history, had all sinks been registered at the start. -/
def complete (x : LoggerRun ι) : LogHistory ι :=
  { x.history with logger := withBefore x.history.logger x.before }

theorem complete_step [DecidableEq ι] (x : LoggerRun ι) (e : RtLogger.Event ι) :
    (x.step append (.log e)).complete = x.complete.step append e := by
  cases e with
  | writer i now =>
    simp only [step, complete, LogHistory.step, step_withBefore]
    show _ = LogHistory.recordCommit _ _ i now (x.history.logger.writers i)
    cases x.history.logger.writers i <;> rfl
  | drain =>
    simp only [step, complete, LogHistory.step, step_withBefore]
    show _ = LogHistory.recordDrain _ _ x.history.logger.drain
    cases x.history.logger.drain <;> rfl
  | commit i c => simp only [step, complete, LogHistory.step, step_withBefore]
  | startDrain => simp only [step, complete, LogHistory.step, step_withBefore]
  | stopDrain => simp only [step, complete, LogHistory.step, step_withBefore]
  | join => simp only [step, complete, LogHistory.step, step_withBefore]

/-! ### Runs -/

/-- The invariant of a logger with its sinks. -/
structure Invariant (append : (capacity : Nat) → List UInt8 → List UInt8 → List UInt8)
    (x : LoggerRun ι) : Prop where
  complete : x.complete.Invariant append
  stopping : x.complete.Stopping
  fresh : ∀ i, x.history.logger.sinkCount ≤ i → x.history.logger.sinks i = []

/-- A sink that is not registered is given nothing. -/
theorem fresh_step [DecidableEq ι] {l : RtLogger ι}
    (h : ∀ i, l.sinkCount ≤ i → l.sinks i = []) (e : RtLogger.Event ι) :
    ∀ i, (l.step append e).sinkCount ≤ i → (l.step append e).sinks i = [] := by
  cases e with
  | commit i c =>
    simp only [RtLogger.step]
    split <;> exact h
  | writer i now =>
    simp only [RtLogger.step, RtLogger.commitStep]
    split <;> (try split) <;> exact h
  | drain =>
    simp only [RtLogger.step, RtLogger.drainStep]
    split
    · exact h
    · exact h
    · split <;> exact h
    · exact h
    · exact h
    · split
      · rename_i final out k _ hk
        intro i hi
        have hne : i ≠ k := Nat.ne_of_gt (Nat.lt_of_lt_of_le hk hi)
        exact (Function.update_of_ne hne _ _).trans (h i hi)
      · exact h
  | startDrain =>
    simp only [RtLogger.step, RtLogger.startDrain]
    split <;> exact h
  | stopDrain =>
    simp only [RtLogger.step, RtLogger.stopDrain]
    split <;> exact h
  | join =>
    simp only [RtLogger.step, RtLogger.join]
    split <;> exact h

/-- A sink is registered while there is no drain thread, or there is no room for it. -/
theorem Invariant.register {x : LoggerRun ι} (h : x.Invariant append)
    (hrunning : x.history.logger.drainRunning = false) (hjoining : x.history.logger.joining = false)
    {count : Nat} (hle : x.history.logger.sinkCount ≤ count)
    (hcount : count ≤ x.history.logger.sinkCount + 1) :
    Invariant append
      { history := { x.history with logger := { x.history.logger with sinkCount := count } }
        before := Function.update x.before x.history.logger.sinkCount
          (dispatchedUpTo append x.history x.history.taken) } where
  complete :=
    { ring :=
        { size := h.complete.ring.size
          head := h.complete.ring.head
          tail := h.complete.ring.tail
          le := h.complete.ring.le
          room := h.complete.ring.room
          stored := h.complete.ring.stored
          writer := h.complete.ring.writer
          drain := h.complete.ring.drain
          sinks := by
            intro i hi
            have hstopped : x.history.logger.drain = .stopped :=
              h.complete.controlled hrunning hjoining
            show Function.update x.before _ _ i ++ x.history.logger.sinks i = _
            by_cases hnew : i = x.history.logger.sinkCount
            · rw [hnew, Function.update_self, h.fresh _ (Nat.le_refl _), List.append_nil]
              show _ = ((x.history.entries append).take
                (LogHistory.handedTo x.history.taken x.history.logger.drain _)).map _
              rw [hstopped]
              rfl
            · rw [Function.update_of_ne hnew]
              have hold : i < x.history.logger.sinkCount := by
                have hi : i < count := hi
                omega
              exact h.complete.ring.sinks i hold }
      locked := h.complete.locked
      controlled := h.complete.controlled }
  stopping := ⟨h.stopping.first, h.stopping.idle, h.stopping.flushed⟩
  fresh i hi := h.fresh i (Nat.le_trans hle hi)

theorem invariant_step [DecidableEq ι] (x : LoggerRun ι) (e : Event ι) (h : x.Invariant append)
    (he : x.Orderly e) : (x.step append e).Invariant append := by
  cases e with
  | log e =>
    constructor
    · rw [complete_step]
      exact LogHistory.invariant_step _ e h.complete
    · rw [complete_step]
      exact h.stopping.step h.complete.ring he
    · show ∀ i, (x.history.step append e).logger.sinkCount ≤ i →
        (x.history.step append e).logger.sinks i = []
      rw [LogHistory.logger_step]
      exact fresh_step h.fresh e
  | addSink isNull =>
    obtain ⟨hrunning, hjoining⟩ := he
    simp only [step, RtLogger.addSink]
    split
    · exact h.register hrunning hjoining (Nat.le_succ _) (Nat.le_refl _)
    · exact h.register hrunning hjoining (Nat.le_refl _) (Nat.le_succ _)

theorem invariant_init {ringSize : UInt64}
    {maxMsgLen : Nat} {sourceId : UInt32}
    (hassert : (RtLogger.init ringSize maxMsgLen sourceId 0 : RtLogger ι).Asserted) :
    (init ringSize maxMsgLen sourceId : LoggerRun ι).Invariant append where
  complete := by
    have hsize : PowerOfTwo ringSize ∨ ringSize = 0 := by
      by_cases hzero : ringSize = 0
      · exact Or.inr hzero
      · exact Or.inl (powerOfTwo_iff.mpr ⟨hzero, hassert⟩)
    exact LogHistory.invariant_init hsize maxMsgLen sourceId 0
  stopping := ⟨nofun, nofun, nofun⟩
  fresh _ _ := rfl

/-- **`stop_drain` flushes.** Take a logger of any size. Any number of threads commit, and the drain
thread is started and stopped as often as one likes, in any order of their steps. Sinks are
registered while the drain thread does not run, and the commits have returned when `stop_drain` is
called. Whenever `stop_drain` returns, each sink has been given every accepted commit exactly once
and in order, apart from those that had been dispatched before it was registered. -/
theorem flushes_of_run [DecidableEq ι]
    (append : (capacity : Nat) → List UInt8 → List UInt8 → List UInt8) (ringSize : UInt64)
    (maxMsgLen : Nat) (sourceId : UInt32)
    (hassert : (RtLogger.init ringSize maxMsgLen sourceId 0 : RtLogger ι).Asserted)
    (es : List (Event ι))
    (h : AllSteps (step append) Orderly (init ringSize maxMsgLen sourceId) es) :
    AllSteps (step append) (Flushes append) (init ringSize maxMsgLen sourceId) es := by
  refine h.imp (fun x e => invariant_step x e) ?_ (invariant_init hassert)
  intro x e hx _
  cases e with
  | addSink isNull => trivial
  | log e =>
    cases e with
    | join =>
      intro hjoining hstopped i hi
      -- Everything that has been accepted has been taken, and dispatched.
      have hsink := hx.complete.ring.sinks i hi
      have htaken : x.history.taken = x.history.accepted.length :=
        hx.stopping.flushed hjoining hstopped
      have hhanded : LogHistory.handedTo x.complete.taken x.complete.logger.drain i
          = (x.complete.entries append).length := by
        rw [LogHistory.length_entries]
        show LogHistory.handedTo _ x.history.logger.drain i = x.history.accepted.length
        rw [hstopped]
        exact htaken
      rw [hhanded, List.take_length] at hsink
      exact hsink
    | commit i c => trivial
    | writer i now => trivial
    | drain => trivial
    | startDrain => trivial
    | stopDrain => trivial

/-- A thread commits. -/
def commitOnce (text : List UInt8) (now : UInt64) : List (Event Bool) :=
  .log (.commit true ⟨.Info, text⟩) :: List.replicate 9 (.log (.writer true now))

/-- Two rounds. In the first one the drain thread has not started when it is stopped, and in the
second one it has copied half of an entry. -/
def twoRounds : List (Event Bool) :=
  .addSink false :: commitOnce [72, 105] 1000 ++
    [.log .startDrain, .log .stopDrain] ++ List.replicate 12 (.log .drain) ++
    .log .join :: .log .startDrain :: commitOnce [72, 111] 2000 ++ List.replicate 4 (.log .drain) ++
    .log .stopDrain :: List.replicate 8 (.log .drain)

/-- Before the second `stop_drain` returns. -/
def afterTwoRounds : LoggerRun Bool :=
  runFrom (step LogHistory.appendText) (init 2 128 5) twoRounds

theorem flushes_twoRounds :
    afterTwoRounds.Flushes LogHistory.appendText (.log .join) ∧
      afterTwoRounds.history.logger.joining = true ∧
      afterTwoRounds.history.logger.drain = .stopped ∧
      afterTwoRounds.history.logger.sinks 0
        = [⟨1000, 5, .Info, [72, 105]⟩, ⟨2000, 5, .Info, [72, 111]⟩] := by
  have hsteps := @flushes_of_run Bool _ LogHistory.appendText 2 128 5 rfl
    (twoRounds ++ [.log .join]) (by decide +kernel)
  exact ⟨hsteps.last, by decide +kernel, by decide +kernel, by decide +kernel⟩

end LoggerRun

end CoreRaT.Spec
