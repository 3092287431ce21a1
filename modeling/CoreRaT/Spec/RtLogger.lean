import Mathlib.Logic.Function.Basic
import CoreRaT.Spec.LogSink

/-!
# `CoreRaT.Spec.RtLogger`: the log ring and its threads

`RtLogger` of `logging/rt_logger.hpp`: any number of threads that call `commit`, which takes
`ring_mutex_`, and the drain thread, which takes no lock. Everything that one of them does to the
ring, to `head_`, `tail_` or `drain_running_` is a step of its own. The fields of a slot are written
one by one, and the drain thread copies them one by one. So a list of events is one interleaving of
the threads.

`ι` are the threads that commit. `start_drain` and `stop_drain` are called by one thread, which
waits for the drain thread in `join`. A thread that finds the ring empty sleeps, which is no step.

`sertial::rt::append` is not part of the repository and stays a parameter: the capacity of the
string, what is in it, and what is appended. `level_` is read by the callers of `commit` only.
-/

set_option autoImplicit false

namespace CoreRaT.Spec

/-- The arguments of a `commit`. -/
structure LogCall where
  level : LogLevel
  text : List UInt8
deriving DecidableEq

/-- The fields of a slot in the order in which `commit` writes them. The message is cleared, and
then appended to. -/
inductive WriteStage
  | timestamp
  | sourceId
  | level
  | clear
  | append
deriving DecidableEq

/-- Where a thread stands in `commit`. -/
inductive CommitPc
  | idle
  | lock (c : LogCall)
  /-- At the test whether the ring is full. -/
  | check (c : LogCall)
  /-- In `e`, before this field. -/
  | write (c : LogCall) (slot : UInt64) (stage : WriteStage)
  /-- At `head_.fetch_add`. -/
  | publish (c : LogCall)
  | unlock
deriving DecidableEq

/-- The fields of a slot in the order in which they are copied. -/
inductive CopyStage
  | timestamp
  | sourceId
  | level
  | message
deriving DecidableEq

/-- Where the drain thread stands. `final` says that it is in the second loop. -/
inductive DrainPc
  /-- There is no drain thread, or it has returned. -/
  | stopped
  /-- At `drain_running_.load`. -/
  | running
  /-- At the test of `head_` and `tail_`. -/
  | test (final : Bool)
  /-- In the copy to `local`, before this field. -/
  | copy (final : Bool) (t : UInt64) (stage : CopyStage) (entry : RtLogEntry)
  /-- At `tail_.store`. -/
  | store (final : Bool) (t : UInt64) (entry : RtLogEntry)
  /-- In `dispatch`, before the sink `i`. -/
  | dispatch (final : Bool) (out : RtLogEntry) (i : Nat)
deriving DecidableEq

/-- `RtLogger<RingSize, MaxMsgLen>` and its threads. -/
structure RtLogger (ι : Type) where
  ringSize : UInt64
  maxMsgLen : Nat
  sourceId : UInt32
  ring : UInt64 → RtLogEntry
  head : UInt64
  tail : UInt64
  /-- Who holds `ring_mutex_`. -/
  mutex : Option ι
  writers : ι → CommitPc
  drainRunning : Bool
  drain : DrainPc
  /-- The thread that has called `stop_drain` is in `join`. -/
  joining : Bool
  sinkCount : Nat
  /-- The entries that each sink has been given. -/
  sinks : Nat → List RtLogEntry

namespace RtLogger

variable {ι : Type}

/-- A logger as it is constructed, with this many sinks. -/
def init (ringSize : UInt64) (maxMsgLen : Nat) (sourceId : UInt32) (sinkCount : Nat) :
    RtLogger ι where
  ringSize := ringSize
  maxMsgLen := maxMsgLen
  sourceId := sourceId
  ring := fun _ => .empty
  head := 0
  tail := 0
  mutex := none
  writers := fun _ => .idle
  drainRunning := false
  drain := .stopped
  joining := false
  sinkCount := sinkCount
  sinks := fun _ => []

/-- `static_assert((RingSize & (RingSize - 1)) == 0)`. -/
def Asserted (l : RtLogger ι) : Prop := l.ringSize &&& (l.ringSize - 1) = 0

section
variable (append : (capacity : Nat) → List UInt8 → List UInt8 → List UInt8)

/-! ### `commit` -/

/-- One field of a slot. `now` is what `Time::now()` returns. -/
def writeField (l : RtLogger ι) (c : LogCall) (now : UInt64) (e : RtLogEntry) :
    WriteStage → RtLogEntry
  | .timestamp => { e with timestamp := now }
  | .sourceId => { e with sourceId := l.sourceId }
  | .level => { e with level := c.level }
  | .clear => { e with message := [] }
  | .append => { e with message := append l.maxMsgLen e.message c.text }

/-- The place behind a field. -/
def afterField (c : LogCall) (slot : UInt64) : WriteStage → CommitPc
  | .timestamp => .write c slot .sourceId
  | .sourceId => .write c slot .level
  | .level => .write c slot .clear
  | .clear => .write c slot .append
  | .append => .publish c

variable [DecidableEq ι]

def setWriter (l : RtLogger ι) (i : ι) (pc : CommitPc) : RtLogger ι :=
  { l with writers := Function.update l.writers i pc }

/-- The next step of a thread in `commit`. -/
def commitStep (l : RtLogger ι) (i : ι) (now : UInt64) : RtLogger ι :=
  match l.writers i with
  | .idle => l
  | .lock c => if l.mutex = none then { l.setWriter i (.check c) with mutex := some i } else l
  | .check c =>
    if l.ringSize ≤ l.head - l.tail then l.setWriter i .unlock
    else l.setWriter i (.write c (l.head &&& (l.ringSize - 1)) .timestamp)
  | .write c slot stage =>
    { l.setWriter i (afterField c slot stage) with
        ring := Function.update l.ring slot (l.writeField append c now (l.ring slot) stage) }
  | .publish _ => { l.setWriter i .unlock with head := l.head + 1 }
  | .unlock => { l.setWriter i .idle with mutex := none }

end

/-! ### The drain thread -/

/-- One field of the copy. -/
def copyField (entry e : RtLogEntry) : CopyStage → RtLogEntry
  | .timestamp => { entry with timestamp := e.timestamp }
  | .sourceId => { entry with sourceId := e.sourceId }
  | .level => { entry with level := e.level }
  | .message => { entry with message := e.message }

/-- The place behind a field of the copy. -/
def afterCopy (final : Bool) (t : UInt64) (entry : RtLogEntry) : CopyStage → DrainPc
  | .timestamp => .copy final t .sourceId entry
  | .sourceId => .copy final t .level entry
  | .level => .copy final t .message entry
  | .message => .store final t entry

/-- The loop that the drain thread goes on with. -/
def nextRound (final : Bool) : DrainPc := if final then .test true else .running

section
variable (append : (capacity : Nat) → List UInt8 → List UInt8 → List UInt8)

/-- The `out` of `dispatch`, an `RtLogEntry<256>`. -/
def dispatched (e : RtLogEntry) : RtLogEntry := { e with message := append 256 [] e.message }

/-- The next step of the drain thread. -/
def drainStep (l : RtLogger ι) : RtLogger ι :=
  match l.drain with
  | .stopped => l
  | .running => { l with drain := .test (!l.drainRunning) }
  | .test final =>
    if l.head = l.tail then { l with drain := if final then .stopped else .running }
    else { l with drain := .copy final l.tail .timestamp .empty }
  | .copy final t stage entry =>
    let e := l.ring (t &&& (l.ringSize - 1))
    { l with drain := afterCopy final t (copyField entry e stage) stage }
  | .store final t entry =>
    { l with tail := t + 1, drain := .dispatch final (dispatched append entry) 0 }
  | .dispatch final out i =>
    if i < l.sinkCount then
      { l with
          sinks := Function.update l.sinks i (l.sinks i ++ [out])
          drain := .dispatch final out (i + 1) }
    else { l with drain := nextRound final }

end

/-! ### `start_drain` and `stop_drain` -/

def startDrain (l : RtLogger ι) : RtLogger ι :=
  if l.joining || l.drainRunning then l
  else { l with drainRunning := true, drain := .running }

def stopDrain (l : RtLogger ι) : RtLogger ι :=
  if l.joining || !l.drainRunning then l else { l with drainRunning := false, joining := true }

/-- `join` returns when the drain thread has. -/
def join (l : RtLogger ι) : RtLogger ι :=
  if l.drain = .stopped then { l with joining := false } else l

/-! ### Sinks -/

def kMaxSinks : Nat := 4

/-- `add_sink`. -/
def addSink (l : RtLogger ι) (isNull : Bool) : RtLogger ι :=
  if l.sinkCount < kMaxSinks && !isNull then { l with sinkCount := l.sinkCount + 1 } else l

/-- What the threads do. -/
inductive Event (ι : Type)
  /-- A thread calls `commit`. -/
  | commit (i : ι) (c : LogCall)
  /-- A thread in `commit` takes a step. -/
  | writer (i : ι) (now : UInt64)
  | drain
  | startDrain
  | stopDrain
  | join

section
variable (append : (capacity : Nat) → List UInt8 → List UInt8 → List UInt8) [DecidableEq ι]

def step (l : RtLogger ι) : Event ι → RtLogger ι
  | .commit i c => if l.writers i = .idle then l.setWriter i (.lock c) else l
  | .writer i now => l.commitStep append i now
  | .drain => l.drainStep append
  | .startDrain => l.startDrain
  | .stopDrain => l.stopDrain
  | .join => l.join

end

end RtLogger

end CoreRaT.Spec
